import GraphStore.Proofs.Query.Spelling

/-!
# Tokens around a line break

A text that ends without a fault is read in the same way where a line break and more text follow,
and a text is read in the same way behind a line break, only further down. Main statement: the tokens
of two texts with a line break between them are those of the first text, the one that the line break
may stand for, and those of the second text.
-/

set_option autoImplicit false

namespace GraphStore.Query

variable {separator : Separator} {first : Char} {rest back : List Char} {kind : TokenKind}
  {content : Option String} {length : Nat}

/-!
## Lexemes before a line break
-/

section

variable {p : Char → Bool}

theorem takeWhile_append_lineBreak (stops : p '\n' = false) (front back : List Char) :
    (front ++ '\n' :: back).takeWhile p = front.takeWhile p := by
  induction front with
  | nil => simp [stops]
  | cons c front ih =>
      rw [List.cons_append, List.takeWhile_cons, List.takeWhile_cons, ih]

theorem takeWhile_take_append_lineBreak (stops : p '\n' = false) (front back : List Char)
    (count : Nat) :
    ((front ++ '\n' :: back).take count).takeWhile p = (front.take count).takeWhile p := by
  induction front generalizing count with
  | nil => cases count <;> simp [stops]
  | cons c front ih =>
      cases count with
      | zero => rfl
      | succ count =>
          rw [List.cons_append, List.take_succ_cons, List.take_succ_cons, List.takeWhile_cons,
            List.takeWhile_cons, ih]

theorem dropWhile_append_lineBreak (stops : p '\n' = false) (front back : List Char) :
    (front ++ '\n' :: back).dropWhile p = front.dropWhile p ++ '\n' :: back := by
  induction front with
  | nil => simp [stops]
  | cons c front ih =>
      rw [List.cons_append, List.dropWhile_cons, List.dropWhile_cons, ih]
      split <;> rfl

end

theorem blockCommentLength_append {read depth : Nat} {previous : Char}
    (found : blockCommentLength read depth previous rest = some length) (back : List Char) :
    blockCommentLength read depth previous (rest ++ back) = some length ∧
      length ≤ read + rest.length := by
  fun_induction blockCommentLength read depth previous rest with
  | case1 => cases found
  | case2 read depth previous c rest opens ih =>
      rw [List.cons_append, blockCommentLength, if_pos opens, List.length_cons]
      have onward := ih found
      exact ⟨onward.1, by omega⟩
  | case3 read depth previous c rest opens closes last =>
      rw [List.cons_append, blockCommentLength, if_neg opens, if_pos closes, if_pos last,
        List.length_cons]
      cases found
      exact ⟨rfl, by omega⟩
  | case4 read depth previous c rest opens closes inner ih =>
      rw [List.cons_append, blockCommentLength, if_neg opens, if_pos closes, if_neg inner,
        List.length_cons]
      have onward := ih found
      exact ⟨onward.1, by omega⟩
  | case5 read depth previous c rest opens closes ih =>
      rw [List.cons_append, blockCommentLength, if_neg opens, if_neg closes, List.length_cons]
      have onward := ih found
      exact ⟨onward.1, by omega⟩

/-- The number of characters that a lexeme takes. -/
def Lexeme.width : Lexeme → Nat
  | .layout length => length
  | .token _ _ length => length
  | .fault _ _ length => length

def Lexeme.IsWhole : Lexeme → Prop
  | .fault .. => False
  | _ => True

theorem comment_append (whole : (comment rest).IsWhole) (back : List Char) :
    comment (rest ++ '\n' :: back) = comment rest ∧ (comment rest).width ≤ rest.length + 1 := by
  revert whole
  fun_cases comment rest with
  | case1 rest =>
      intro _
      have taken := (List.takeWhile_sublist (l := rest) (fun c : Char => decide (c ≠ '\n'))).length_le
      rw [List.cons_append, comment, takeWhile_append_lineBreak (by decide), List.length_cons]
      exact ⟨rfl, by simp only [Lexeme.width]; omega⟩
  | case2 rest width ended =>
      intro _
      obtain ⟨same, inside⟩ := blockCommentLength_append ended ('\n' :: back)
      rw [List.cons_append, comment, same, List.length_cons]
      exact ⟨rfl, by simp only [Lexeme.width]; omega⟩
  | case3 | case4 | case5 => exact False.elim

theorem escape_append {character : Char} (valid : (escape rest).1 = .ok character)
    (back : List Char) :
    escape (rest ++ '\n' :: back) = escape rest ∧ (escape rest).2 ≤ rest.length := by
  unfold escape at valid
  split at valid
  case h_1 => cases valid
  case h_9 rest =>
    have same : ((rest ++ '\n' :: back).take maxEscapeDigits).takeWhile Text.isHexDigit =
        (rest.take maxEscapeDigits).takeWhile Text.isHexDigit :=
      takeWhile_take_append_lineBreak (by decide) rest back maxEscapeDigits
    have taken := (List.takeWhile_sublist (l := rest.take maxEscapeDigits) Text.isHexDigit).length_le
    have inside := List.length_take_le' maxEscapeDigits rest
    constructor
    · rw [List.cons_append, escape, escape, same]
    · rw [escape]
      dsimp only
      split
      · simp
      · split <;> simp <;> omega
  case h_10 => cases valid
  all_goals exact ⟨rfl, by simp [escape]⟩

theorem stringBody_append {read : Nat} {text characters : List Char}
    (whole : (stringBody read text characters).IsWhole) (back : List Char) :
    stringBody read text (characters ++ '\n' :: back) = stringBody read text characters ∧
      (stringBody read text characters).width ≤ read + characters.length := by
  fun_induction stringBody read text characters with
  | case1 | case4 | case5 => exact whole.elim
  | case2 read text rest =>
      rw [List.cons_append, stringBody, if_pos rfl, List.length_cons]
      exact ⟨rfl, by simp only [Lexeme.width]; omega⟩
  | case3 read text rest width character valid notQuote ih =>
      obtain ⟨same, inside⟩ := escape_append valid back
      obtain ⟨onward, bound⟩ := ih whole
      rw [List.cons_append, stringBody, if_neg notQuote, if_pos rfl]
      simp only [same, valid]
      rw [List.drop_append_of_le_length inside]
      rw [List.length_drop] at bound
      rw [List.length_cons]
      exact ⟨onward, by omega⟩
  | case6 read text c rest notQuote notBackslash notControl ih =>
      obtain ⟨onward, bound⟩ := ih whole
      rw [List.cons_append, stringBody, if_neg notQuote, if_neg notBackslash, if_neg notControl,
        List.length_cons]
      exact ⟨onward, by omega⟩

theorem number_append (whole : (number first rest).IsWhole) (back : List Char) :
    number first (rest ++ '\n' :: back) = number first rest ∧
      (number first rest).width ≤ rest.length + 1 := by
  have taken := (List.takeWhile_sublist (l := rest) Char.isDigit).length_le
  unfold number at whole ⊢
  rw [takeWhile_append_lineBreak (by decide), dropWhile_append_lineBreak (by decide)]
  dsimp only at whole ⊢
  cases ended : rest.dropWhile Char.isDigit with
  | nil => exact ⟨by simp, by simp only [Lexeme.width, List.length_cons]; omega⟩
  | cons c others =>
      rw [ended] at whole
      dsimp only at whole
      by_cases glued : (c.isAlpha || c = '_') = true
      · rw [if_pos glued] at whole
        exact whole.elim
      · simp only [List.cons_append, if_neg glued, Lexeme.width, List.length_cons]
        exact ⟨trivial, by omega⟩

theorem word_append (back : List Char) :
    word first (rest ++ '\n' :: back) = word first rest ∧
      (word first rest).width ≤ rest.length + 1 := by
  have taken := (List.takeWhile_sublist (l := rest) isWordCharacter).length_le
  unfold word
  rw [takeWhile_append_lineBreak (by decide)]
  exact ⟨rfl, by simp only [Lexeme.width, List.length_cons]; omega⟩

/-- Unless a lexeme is a fault, it is read again and takes no more than `count` characters. -/
def Lexeme.Stays (count : Nat) (lexeme again : Lexeme) : Prop :=
  lexeme.IsWhole → again = lexeme ∧ lexeme.width ≤ count

section

variable {count : Nat} {p : Prop} [Decidable p] {here there other otherwise : Lexeme}

theorem Lexeme.Stays.same (bound : here.IsWhole → here.width ≤ count) : here.Stays count here :=
  fun whole => ⟨rfl, bound whole⟩

theorem Lexeme.Stays.ite (holds : here.Stays count there) (fails : other.Stays count otherwise) :
    (if p then here else other).Stays count (if p then there else otherwise) := by
  split
  · exact holds
  · exact fails

end

/-- What a lexeme is does not hang on what stands behind the next line break. -/
theorem lexeme_append (separator : Separator) (first : Char) (rest back : List Char) :
    (lexeme separator first rest).Stays (rest.length + 1)
      (lexeme separator first (rest ++ '\n' :: back)) := by
  have sign : (rest ++ '\n' :: back).head?.any Char.isDigit = rest.head?.any Char.isDigit := by
    cases rest <;> rfl
  have single {kind : TokenKind} {content : Option String} :
      (Lexeme.token kind content 1).Stays (rest.length + 1) (.token kind content 1) :=
    .same fun _ => Nat.le_add_left _ _
  have blank : (Lexeme.layout 1).Stays (rest.length + 1) (.layout 1) :=
    .same fun _ => Nat.le_add_left _ _
  have string : (stringBody 1 [] rest).Stays (rest.length + 1)
      (stringBody 1 [] (rest ++ '\n' :: back)) := by
    rw [Nat.add_comm]
    exact fun whole => stringBody_append whole back
  have digits : (number first rest).Stays (rest.length + 1) (number first (rest ++ '\n' :: back)) :=
    fun whole => number_append whole back
  unfold lexeme
  rw [sign]
  exact .ite single <| .ite blank <| .ite (fun whole => comment_append whole back) <|
    .ite single <| .ite single <| .ite single <| .ite single <| .ite single <| .ite single <|
    .ite single <| .ite string <| .ite (fun _ => word_append back) <| .ite digits <|
    .ite digits <| .same False.elim

/-!
## Tokens before a line break
-/

section

variable {cursor next reached : Cursor} {token : Token} {tokens later : List Token}
  {fault : Option Error}

namespace Cursor

/-- The same place in a text that goes on with a line break and more. -/
def before (cursor : Cursor) (back : List Char) : Cursor :=
  ⟨cursor.rest ++ '\n' :: back, cursor.position⟩

theorem advance_before {count : Nat} (inside : count ≤ cursor.rest.length) (back : List Char) :
    (cursor.before back).advance count = (cursor.advance count).before back := by
  simp only [before, advance, positionAt, List.drop_append_of_le_length inside,
    List.take_append_of_le_length inside]

end Cursor

/-- Tokens are read as before, and where the text ended, reading goes on with the line break. -/
theorem nextToken_before (read : cursor.nextToken separator = (.ok token, next))
    (back : List Char) :
    if token.kind = .endOfText then
      next.rest = [] ∧
        (cursor.before back).nextToken separator = (next.before back).nextToken separator
    else (cursor.before back).nextToken separator = (.ok token, next.before back) := by
  fun_induction Cursor.nextToken separator cursor with
  | case1 position =>
      cases read
      exact ⟨rfl, rfl⟩
  | case2 first rest position cursor width found ih =>
      obtain ⟨same, bound⟩ := lexeme_append separator first rest back (by rw [found]; trivial)
      rw [found] at same bound
      have inside : max 1 width ≤ cursor.rest.length := by
        simp only [cursor, Lexeme.width, List.length_cons] at bound ⊢
        omega
      have onward : (cursor.before back).nextToken separator =
          Cursor.nextToken separator ((cursor.advance (max 1 width)).before back) := by
        rw [← Cursor.advance_before inside]
        simp only [cursor, Cursor.before, List.cons_append]
        rw [Cursor.nextToken, same]
      rw [onward]
      exact ih read
  | case3 first rest position cursor kind content width found =>
      obtain ⟨same, bound⟩ := lexeme_append separator first rest back (by rw [found]; trivial)
      rw [found] at same bound
      cases read
      obtain ⟨_, _, _, _, spells⟩ := spells_of_lexeme found
      rw [if_neg spells.ne_endOfText, ← Cursor.advance_before bound]
      simp only [cursor, Cursor.before, List.cons_append]
      rw [Cursor.nextToken, same]
  | case4 => cases read

theorem Lexes.of_nextToken_eq (lexes : Lexes separator reached tokens fault)
    (same : cursor.nextToken separator = reached.nextToken separator) :
    Lexes separator cursor tokens fault := by
  cases lexes with
  | ended read last => exact .ended (same.trans read) last
  | failed read => exact .failed (same.trans read)
  | token read more rest => exact .token (same.trans read) more rest

/-- The tokens of a text are its own and the one for its end, which is not there any more where the
text goes on. -/
theorem Lexes.exists_before (lexes : Lexes separator cursor tokens none) (back : List Char) :
    ∃ front last position, tokens = front ++ [last] ∧ last.kind = .endOfText ∧
      (∀ token ∈ front, token.kind ≠ .endOfText) ∧
      ∀ later, Lexes separator ⟨'\n' :: back, position⟩ later none →
        Lexes separator (cursor.before back) (front ++ later) none := by
  generalize clean : (none : Option Error) = fault at lexes
  induction lexes with
  | failed => cases clean
  | @ended _ next last read isEnd =>
      have onward := nextToken_before read back
      rw [if_pos isEnd] at onward
      refine ⟨[], last, next.position, rfl, isEnd, by simp, fun later lexes => ?_⟩
      refine lexes.of_nextToken_eq (onward.2.trans ?_)
      rw [Cursor.before, onward.1]
      rfl
  | token read more _ ih =>
      have onward := nextToken_before read back
      rw [if_neg more] at onward
      obtain ⟨front, last, position, rfl, isEnd, others, joined⟩ := ih clean
      exact ⟨_ :: front, last, position, rfl, isEnd, List.forall_mem_cons.mpr ⟨more, others⟩,
        fun later lexes => .token onward more (clean ▸ joined later lexes)⟩

/-!
## Tokens behind a line break
-/

/-- A token without its place. -/
def Token.unplaced (token : Token) : Token := { token with position := .start }

/-- Which tokens there are does not hang on where the text stands. -/
theorem exists_nextToken_of_rest (read : cursor.nextToken separator = (.ok token, next)) :
    ∀ {other : Cursor}, other.rest = cursor.rest →
      ∃ again following, Cursor.nextToken separator other = (.ok again, following) ∧
        again.unplaced = token.unplaced ∧ following.rest = next.rest := by
  fun_induction Cursor.nextToken separator cursor with
  | case1 position =>
      cases read
      rintro ⟨_, place⟩ rfl
      exact ⟨⟨.endOfText, none, place⟩, ⟨[], place⟩, by rw [Cursor.nextToken], rfl, rfl⟩
  | case2 first rest position cursor width found ih =>
      rintro ⟨_, place⟩ rfl
      have shorter : (Cursor.advance ⟨first :: rest, place⟩ (max 1 width)).rest =
          (cursor.advance (max 1 width)).rest := rfl
      obtain ⟨again, following, reads, alike, onward⟩ := ih read shorter
      refine ⟨again, following, ?_, alike, onward⟩
      rw [Cursor.nextToken, found]
      exact reads
  | case3 first rest position cursor kind content width found =>
      cases read
      rintro ⟨_, place⟩ rfl
      refine ⟨⟨kind, content, place⟩, Cursor.advance ⟨first :: rest, place⟩ width, ?_, rfl, rfl⟩
      rw [Cursor.nextToken, found]
  | case4 => cases read

theorem Token.kind_eq_of_unplaced {again : Token} (same : again.unplaced = token.unplaced) :
    again.kind = token.kind := (Token.mk.inj same).1

theorem Lexes.exists_of_rest (lexes : Lexes separator cursor tokens none) (other : Cursor)
    (same : other.rest = cursor.rest) :
    ∃ again, Lexes separator other again none ∧
      again.map Token.unplaced = tokens.map Token.unplaced := by
  generalize clean : (none : Option Error) = fault at lexes
  induction lexes generalizing other with
  | failed => cases clean
  | ended read isEnd =>
      obtain ⟨again, following, reads, alike, -⟩ := exists_nextToken_of_rest read same
      have ends := (Token.kind_eq_of_unplaced alike).trans isEnd
      exact ⟨[again], .ended reads ends, congrArg ([·]) alike⟩
  | token read more _ ih =>
      obtain ⟨again, following, reads, alike, onward⟩ := exists_nextToken_of_rest read same
      obtain ⟨others, lexes, alikeOthers⟩ := ih following onward clean
      refine ⟨again :: others, .token reads ?_ lexes, congrArg₂ List.cons alike alikeOthers⟩
      exact fun ends => more ((Token.kind_eq_of_unplaced alike).symm.trans ends)

/-- What a line break stands for between two texts. -/
def Separator.seam (separator : Separator) : List Token :=
  if separator.acceptsNewline then [⟨.endOfStatement, none, .start⟩] else []

theorem Separator.map_unplaced_seam (separator : Separator) :
    separator.seam.map Token.unplaced = separator.seam := by
  unfold seam
  split <;> rfl

theorem Lexes.exists_seam {back : List Char} {position : Position}
    (lexes : Lexes separator ⟨back, position.after '\n'⟩ tokens none) :
    ∃ seam, Lexes separator ⟨'\n' :: back, position⟩ (seam ++ tokens) none ∧
      seam.map Token.unplaced = separator.seam := by
  cases accepts : separator.acceptsNewline with
  | true =>
      have read : Cursor.nextToken separator ⟨'\n' :: back, position⟩ =
          (.ok ⟨.endOfStatement, none, position⟩, ⟨back, position.after '\n'⟩) := by
        simp [Cursor.nextToken, lexeme, accepts, Cursor.advance, Cursor.positionAt]
      refine ⟨[⟨.endOfStatement, none, position⟩], .token read TokenKind.noConfusion lexes, ?_⟩
      rw [Separator.seam, if_pos accepts]
      rfl
  | false =>
      have read : Cursor.nextToken separator ⟨'\n' :: back, position⟩ =
          Cursor.nextToken separator ⟨back, position.after '\n'⟩ := by
        rw [Cursor.nextToken]
        simp [lexeme, accepts, Text.isBlank, Cursor.advance, Cursor.positionAt]
      refine ⟨[], lexes.of_nextToken_eq read, ?_⟩
      simp [Separator.seam, accepts]

/-- The tokens of two texts with a line break between them, but for their places: those of the first
text up to its end, what the line break stands for, and those of the second text. -/
theorem Lexes.exists_joined {front back : List Char} {position place : Position}
    {former latter : List Token} (first : Lexes separator ⟨front, position⟩ former none)
    (second : Lexes separator ⟨back, place⟩ latter none) :
    ∃ before last joined, former = before ++ [last] ∧ last.kind = .endOfText ∧
      (∀ token ∈ before, token.kind ≠ .endOfText) ∧
      Lexes separator ⟨front ++ '\n' :: back, position⟩ joined none ∧
      joined.map Token.unplaced =
        (before ++ (separator.seam ++ latter)).map Token.unplaced := by
  obtain ⟨before, last, reached, rfl, isEnd, more, joins⟩ := first.exists_before back
  obtain ⟨again, lexes, alike⟩ := second.exists_of_rest ⟨back, reached.after '\n'⟩ rfl
  obtain ⟨seam, onward, stands⟩ := lexes.exists_seam
  refine ⟨before, last, _, rfl, isEnd, more, joins _ onward, ?_⟩
  simp only [List.map_append, alike, stands, separator.map_unplaced_seam]

theorem Lexes.unique {others : List Token} {failure : Option Error}
    (lexes : Lexes separator cursor tokens fault) (again : Lexes separator cursor others failure) :
    others = tokens ∧ failure = fault := by
  induction lexes generalizing others with
  | ended read isEnd =>
      cases again with
      | ended reads _ =>
          cases read.symm.trans reads
          exact ⟨rfl, rfl⟩
      | failed reads => cases read.symm.trans reads
      | token reads more _ =>
          cases read.symm.trans reads
          exact absurd isEnd more
  | failed read =>
      cases again with
      | failed reads =>
          cases read.symm.trans reads
          exact ⟨rfl, rfl⟩
      | ended reads _ => cases read.symm.trans reads
      | token reads _ _ => cases read.symm.trans reads
  | token read more _ ih =>
      cases again with
      | ended reads isEnd =>
          cases read.symm.trans reads
          exact absurd isEnd more
      | failed reads => cases read.symm.trans reads
      | token reads _ rest =>
          cases read.symm.trans reads
          obtain ⟨rfl, rfl⟩ := ih rest
          exact ⟨rfl, rfl⟩

end

end GraphStore.Query
