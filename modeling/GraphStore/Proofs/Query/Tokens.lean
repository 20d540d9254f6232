import GraphStore.Proofs.Query.Pushback

/-!
# The tokens of a text

Which tokens a text has, told without a bound on their number. Main statements: reading reaches the
end of every text or its first fault, and what it passes are the tokens that `scan` gives.
-/

set_option autoImplicit false

namespace GraphStore.Query

variable {separator : Separator} {cursor next : Cursor} {token : Token} {fault : Error}

/-!
## Progress
-/

section

variable {first : Char} {rest : List Char} {kind : TokenKind} {content : Option String}
  {length : Nat}

private theorem lt_length_of_stringBody {read : Nat} {text characters : List Char}
    (found : stringBody read text characters = .token kind content length) : read < length := by
  fun_induction stringBody read text characters with
  | case1 => cases found
  | case2 =>
      cases found
      exact Nat.lt_succ_self _
  | case3 read text rest _ width character given ih =>
      have behind := ih found
      omega
  | case4 => cases found
  | case5 => cases found
  | case6 read text c rest _ _ _ ih => exact Nat.lt_of_succ_lt (ih found)

private theorem length_pos_of_number (found : number first rest = .token kind content length) :
    0 < length := by
  unfold number at found
  dsimp only at found
  split at found
  · cases found
    exact Nat.succ_pos _
  · split at found
    · cases found
    · cases found
      exact Nat.succ_pos _

theorem comment_ne_token : comment rest ≠ .token kind content length := by
  intro found
  unfold comment at found
  split at found
  · cases found
  · split at found
    · cases found
    · cases found
  · cases found
  · cases found

/-- A token takes at least one character. -/
theorem length_pos_of_lexeme (found : lexeme separator first rest = .token kind content length) :
    0 < length := by
  revert found
  fun_cases lexeme separator first rest with
  | case1 | case4 | case5 | case6 | case7 | case8 | case9 | case10 =>
      intro found
      cases found
      exact Nat.zero_lt_one
  | case2 | case15 =>
      intro found
      cases found
  | case3 => exact fun found => absurd found comment_ne_token
  | case11 => exact fun found => Nat.lt_trans Nat.zero_lt_one (lt_length_of_stringBody found)
  | case12 =>
      intro found
      cases found
      exact Nat.succ_pos _
  | case13 | case14 => exact length_pos_of_number

end

/-- Behind a token that is not the end of the text there is less to read. -/
theorem length_lt_of_nextToken (read : cursor.nextToken separator = (.ok token, next))
    (more : token.kind ≠ .endOfText) : next.rest.length < cursor.rest.length := by
  fun_induction Cursor.nextToken separator cursor with
  | case1 =>
      cases read
      exact absurd rfl more
  | case2 first rest position cursor width found ih =>
      have shorter := ih read
      simp only [cursor, Cursor.advance, List.length_drop, List.length_cons] at shorter ⊢
      omega
  | case3 first rest position cursor kind content width found =>
      cases read
      have taken := length_pos_of_lexeme found
      simp only [cursor, Cursor.advance, List.length_drop, List.length_cons]
      omega
  | case4 => cases read

theorem syntaxError_of_nextToken (read : cursor.nextToken separator = (.error fault, next)) :
    ∃ position detail, fault = .syntaxError position detail := by
  fun_induction Cursor.nextToken separator cursor with
  | case1 => cases read
  | case2 _ _ _ _ _ _ ih => exact ih read
  | case3 => cases read
  | case4 =>
      cases read
      exact ⟨_, _, rfl⟩

/-!
## Reading token by token
-/

/-- The tokens that are read one after the other from a cursor on, the last of which is the end of
the text unless there is a fault. -/
inductive Lexes (separator : Separator) : Cursor → List Token → Option Error → Prop where
  | ended {cursor next : Cursor} {token : Token}
      (read : cursor.nextToken separator = (.ok token, next)) (last : token.kind = .endOfText) :
      Lexes separator cursor [token] none
  | failed {cursor next : Cursor} {fault : Error}
      (read : cursor.nextToken separator = (.error fault, next)) :
      Lexes separator cursor [] (some fault)
  | token {cursor next : Cursor} {token : Token} {later : List Token} {fault : Option Error}
      (read : cursor.nextToken separator = (.ok token, next)) (more : token.kind ≠ .endOfText)
      (rest : Lexes separator next later fault) : Lexes separator cursor (token :: later) fault

theorem lexes_scanFrom {lexer : Lexer} {rounds : Nat} (enough : lexer.ahead.length < rounds) :
    Lexes separator lexer.cursor (scanFrom separator rounds lexer).tokens
      (scanFrom separator rounds lexer).fault := by
  induction rounds generalizing lexer with
  | zero => cases enough
  | succ rounds ih =>
      have read := lexer.nextToken_eq separator
      rw [scanFrom]
      cases given : lexer.nextToken separator with
      | mk outcome next =>
          rw [given] at read
          cases outcome with
          | error fault => exact .failed read
          | ok token =>
              by_cases last : token.kind = .endOfText
              · simp only [if_pos last]
                exact .ended read last
              · have shorter : next.ahead.length < lexer.ahead.length :=
                  length_lt_of_nextToken read last
                simp only [if_neg last]
                exact .token read last (ih (by omega))

/-- A text is read to its end or to its first fault. -/
theorem lexes_scan (separator : Separator) (text : String) :
    Lexes separator (.ofText text) (scan separator text).tokens (scan separator text).fault := by
  have enough : (Lexer.ofText text).ahead.length < text.toList.length + 1 := Nat.lt_succ_self _
  exact lexes_scanFrom enough

theorem Lexes.syntaxError {tokens : List Token} (lexes : Lexes separator cursor tokens (some fault)) :
    ∃ position detail, fault = .syntaxError position detail := by
  generalize ended : some fault = outcome at lexes
  induction lexes with
  | ended => cases ended
  | failed read =>
      cases ended
      exact syntaxError_of_nextToken read
  | token _ _ _ ih => exact ih ended

end GraphStore.Query
