import GraphStore.Proofs.Query.Grammar
import GraphStore.Proofs.Query.LineBreaks
import GraphStore.Proofs.Query.Spelling

/-!
# Printed tokens

Texts in which tokens are written one behind the other. Main statement: such a text has just these
tokens, however each of them is written and whatever layout stands between them.
-/

set_option autoImplicit false

namespace GraphStore.Query

open Text

variable {separator : Separator} {kind : TokenKind} {content : Option String}
  {layout text back written : List Char} {items : List (TokenKind × Option String)}

/-!
## Layout between tokens
-/

theorem Gap.isLayout {gap : List Char} (isGap : Gap separator gap text) :
    Layout separator gap text := by
  rw [← List.append_nil gap]
  exact .gap isGap .nothing

theorem Gap.append {gap : List Char} (isGap : Gap separator gap text) (some : text ≠ [])
    (back : List Char) : Gap separator gap (text ++ back) := by
  cases isGap with
  | blank isBlank noToken => exact .blank isBlank noToken
  | line within ends =>
      apply Gap.line within
      rwa [List.head?_append_of_ne_nil _ some]
  | block balances => exact .block balances

theorem Layout.append (isLayout : Layout separator layout text) (some : text ≠ [])
    (back : List Char) : Layout separator layout (text ++ back) := by
  induction isLayout with
  | nothing => exact .nothing
  | gap here _ ih =>
      refine .gap ?_ (ih some)
      rw [← List.append_assoc]
      exact here.append (List.append_ne_nil_of_right_ne_nil _ some) back

/-- No word and no number goes on with layout. -/
theorem Layout.ends (isLayout : Layout separator layout text) :
    ∀ c ∈ layout.head?, isWordCharacter c = false := by
  cases isLayout with
  | nothing => simp
  | gap here _ =>
      cases here with
      | @blank d _ isBlank =>
          have noWord : isWordCharacter d = false := Bool.eq_false_iff.mpr fun within => by
            rw [isBlank_of_isWordCharacter within] at isBlank
            cases isBlank
          simpa using noWord
      | line | block => simpa using (by decide : isWordCharacter '/' = false)

/-!
## Tokens in a row
-/

/-- What a token is, wherever it stands. -/
def Token.reading (token : Token) : TokenKind × Option String := (token.kind, token.text)

/-- Whether a text consists of some tokens, with layout between each and the next. -/
inductive Prints (separator : Separator) : List (TokenKind × Option String) → List Char → Prop where
  | nothing : Prints separator [] []
  | last {kind : TokenKind} {content : Option String} {written : List Char}
      (spells : Spells separator kind content written) : Prints separator [(kind, content)] written
  | next {kind : TokenKind} {content : Option String} {written layout text : List Char}
      {item : TokenKind × Option String} {items : List (TokenKind × Option String)}
      (spells : Spells separator kind content written) (isLayout : Layout separator layout text)
      (some : layout ≠ []) (onward : Prints separator (item :: items) text) :
      Prints separator ((kind, content) :: item :: items) (written ++ layout ++ text)

theorem Prints.ne_nil {item : TokenKind × Option String}
    (prints : Prints separator (item :: items) text) : text ≠ [] := by
  cases prints with
  | last spells => exact spells.ne_nil
  | next spells =>
      rw [List.append_assoc]
      exact List.append_ne_nil_of_left_ne_nil spells.ne_nil _

theorem Prints.exists_lexes (prints : Prints separator items text) (behind : Layout separator back [])
    (position : Position) :
    ∃ tokens, Lexes separator ⟨text ++ back, position⟩ tokens none ∧
      tokens.map Token.reading = items ++ [(.endOfText, none)] := by
  have ended (position : Position) : ∃ last,
      Lexes separator ⟨back, position⟩ [last] none ∧ last.reading = (.endOfText, none) := by
    have reads := behind.nextToken position
    rw [List.append_nil, Cursor.nextToken] at reads
    exact ⟨_, .ended reads rfl, rfl⟩
  -- No token depends on its position, so the rest may be read from wherever it stands.
  induction prints generalizing position with
  | nothing =>
      obtain ⟨last, lexes, isEnd⟩ := ended position
      exact ⟨[last], lexes, congrArg ([·]) isEnd⟩
  | @last kind content written spells =>
      obtain ⟨last, lexes, isEnd⟩ := ended (written.foldl Position.after position)
      have reads := spells.nextToken behind.ends position
      refine ⟨[_, last], .token reads spells.ne_endOfText lexes, ?_⟩
      rw [List.map_cons, List.map_singleton, isEnd]
      rfl
  | @next kind content written layout text item items spells isLayout some onward ih =>
      have ends : ∀ c ∈ (layout ++ (text ++ back)).head?, isWordCharacter c = false := by
        rw [List.head?_append_of_ne_nil _ some]
        exact isLayout.ends
      have reads := spells.nextToken ends position
      have passes := (isLayout.append onward.ne_nil back).nextToken
        (written.foldl Position.after position)
      obtain ⟨tokens, lexes, same⟩ := ih (layout.foldl Position.after
        (written.foldl Position.after position))
      rw [List.append_assoc, List.append_assoc]
      refine ⟨_, .token reads spells.ne_endOfText (lexes.of_nextToken_eq passes), ?_⟩
      rw [List.map_cons, same]
      rfl

/-- A text in which tokens are printed one behind the other has just these tokens, also with layout in
front of the first and behind the last. -/
theorem tokenize_of_prints {front : List Char} (prints : Prints separator items text)
    (before : Layout separator front (text ++ back)) (behind : Layout separator back []) :
    ∃ tokens, tokenize separator (String.ofList (front ++ text ++ back)) = .ok tokens ∧
      tokens.map Token.reading = items ++ [(.endOfText, none)] := by
  obtain ⟨tokens, lexes, same⟩ := prints.exists_lexes behind (front.foldl Position.after .start)
  have whole := lexes.of_nextToken_eq (before.nextToken .start)
  rw [← List.append_assoc] at whole
  have scanned := lexes_scan separator (String.ofList (front ++ text ++ back))
  rw [Cursor.ofText, String.toList_ofList] at scanned
  obtain ⟨sameTokens, noFault⟩ := whole.unique scanned
  exact ⟨tokens, tokenize_eq_ok_iff.mpr ⟨noFault, sameTokens⟩, same⟩

/-- Quotes in a comment are no string, four digits end an escape in front of a fifth, and a comment
may end with the text. -/
theorem tokenize_of_prints_comment_quote :
    let text := "cReAtE/*/*\"*/*/\"\\x0041b\\n\" -007//"
    let items := [(TokenKind.create, some "cReAtE"), (.string, some "Ab\n"), (.number, some "-007")]
    ∃ front printed back, Prints .semicolon items printed ∧
      Layout .semicolon front (printed ++ back) ∧ Layout .semicolon back [] ∧
      String.ofList (front ++ printed ++ back) = text ∧
      ∃ tokens, tokenize .semicolon text = .ok tokens ∧
        tokens.map Token.reading = items ++ [(.endOfText, none)] := by
  intro text items
  have listed : ("CREATE", TokenKind.create) ∈ keywords := by simp [keywords]
  have create : Spells .semicolon .create (some (String.ofList ['c', 'R', 'e', 'A', 't', 'E']))
      ['c', 'R', 'e', 'A', 't', 'E'] :=
    .word rfl (List.all_eq_true.mp (by decide)) (.keyword listed rfl)
  have balances : Balances 1 ['/', '*', '"', '*', '/', '*', '/'] :=
    .opens (.passes (by simp [BeginsMark]) (.closes (.closes .nothing)))
  have code : Escapes ['x', '0', '0', '4', '1'] 'A' ['b', '\\', 'n'] :=
    .code (by decide) (by decide) (List.all_eq_true.mp (by decide)) (by decide) (.inl rfl)
  have lineBreak : Escapes ['n'] '\n' [] := .short (by simp [shortEscapes])
  have string := Writes.escape code
    (.literal (by decide) (by decide) (by decide) (.escape lineBreak .nothing))
  have blank (text : List Char) : Gap .semicolon [' '] text := .blank (by decide) (by decide)
  have number : Spells .semicolon .number (some (String.ofList ['-', '0', '0', '7']))
      ['-', '0', '0', '7'] :=
    .number (.minus (by decide) (List.all_eq_true.mp (by decide)))
  have last := Prints.next (.string string) (blank _).isLayout (by decide) (.last number)
  have prints := Prints.next create (Gap.block balances).isLayout (by simp) last
  have nothing : '\n' ∉ ([] : List Char) := by simp
  have behind : Layout .semicolon ['/', '/'] [] := (Gap.line nothing (by simp)).isLayout
  obtain ⟨tokens, tokenized, same⟩ := tokenize_of_prints prints .nothing behind
  exact ⟨_, _, _, prints, .nothing, behind, rfl, tokens, tokenized, same⟩

end GraphStore.Query
