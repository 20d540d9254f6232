import GraphStore.Proofs.Query.Grammar
import GraphStore.Proofs.Query.LineBreaks
import GraphStore.Proofs.Query.Places

/-!
# Ways to separate statements

How the tokens of a text hang on what ends a statement. Main statement: with semicolons alone a text
has the tokens that it has with both but those for line breaks, and a text that needs no semicolon has
the same tokens with both.
-/

set_option autoImplicit false

namespace GraphStore

namespace Position

/-- The character at a position, in a text that begins at another position. -/
def characterAt? (wanted : Position) : (here : Position) → List Char → Option Char
  | _, [] => none
  | here, c :: rest => if here = wanted then some c else characterAt? wanted (here.after c) rest

theorem characterAt?_behind (front : List Char) (c : Char) (back : List Char) :
    (behind front).characterAt? .start (front ++ c :: back) = some c := by
  have onward (passed : List Char) :
      (behind (passed ++ front)).characterAt? (behind passed) (front ++ c :: back) = some c := by
    induction front generalizing passed with
    | nil => rw [List.append_nil, List.nil_append, characterAt?, if_pos rfl]
    | cons d front ih =>
        have differs := (behind_precedes passed (List.cons_ne_nil d front)).ne
        rw [List.cons_append, characterAt?, if_neg differs, ← behind_concat, List.append_cons]
        exact ih (passed ++ [d])
  exact onward []

end Position

namespace Query

open Text

variable {first : Char} {rest consumed : List Char} {cursor next : Cursor} {token : Token}
  {tokens : List Token} {fault : Option Error} {text : String}

/-!
## Semicolons alone
-/

/-- Whether a token is the end of a statement for which a line break stands in a text. -/
def Token.isLineBreakIn (text : String) (token : Token) : Bool :=
  token.kind == .endOfStatement && token.position.characterAt? .start text.toList == some '\n'

theorem lexeme_semicolon (noBreak : first ≠ '\n') :
    lexeme .semicolon first rest = lexeme .both first rest := by
  simp [lexeme, noBreak, Separator.acceptsSemicolon]

theorem lexeme_lineBreak : lexeme .both '\n' rest = .token .endOfStatement none 1 := by
  simp [lexeme, Separator.acceptsNewline]

theorem nextToken_semicolon_lineBreak (position : Position) :
    Cursor.nextToken .semicolon ⟨'\n' :: rest, position⟩ =
      Cursor.nextToken .semicolon (Cursor.advance ⟨'\n' :: rest, position⟩ 1) := by
  rw [Cursor.nextToken]
  simp [lexeme, Separator.acceptsNewline, isBlank]

/-- With semicolons alone the same is read, but a line break is passed. -/
theorem nextToken_semicolon {outcome : Except Error Token × Cursor}
    (read : cursor.nextToken .both = outcome) :
    ∀ {consumed : List Char}, cursor.Stands text.toList consumed →
      cursor.nextToken .semicolon =
        if outcome.1.toOption.any (Token.isLineBreakIn text) then outcome.2.nextToken .semicolon
        else outcome := by
  -- Both readings pass the same layout up to a line break, which only one of them takes for a token.
  fun_induction Cursor.nextToken .both cursor with
  | case1 position =>
      intro consumed stands
      cases read
      simp [Cursor.nextToken, Except.toOption, Token.isLineBreakIn]
  | case2 first rest position cursor width found ih =>
      intro consumed stands
      have noBreak : first ≠ '\n' := by
        rintro rfl
        rw [lexeme_lineBreak] at found
        cases found
      rw [Cursor.nextToken, lexeme_semicolon noBreak, found]
      exact ih read (stands.advance _)
  | case3 first rest position cursor kind content width found =>
      intro consumed stands
      cases read
      have here : position = .behind consumed := stands.position
      have character : position.characterAt? .start text.toList = some first := by
        rw [here, stands.split]
        exact Position.characterAt?_behind consumed first rest
      by_cases lineBreak : first = '\n'
      · subst lineBreak
        rw [lexeme_lineBreak] at found
        cases found
        rw [if_pos (by simp [Except.toOption, Token.isLineBreakIn, character])]
        exact nextToken_semicolon_lineBreak position
      · rw [if_neg (by simp [Except.toOption, Token.isLineBreakIn, character, lineBreak]),
          Cursor.nextToken, lexeme_semicolon lineBreak, found]
  | case4 first rest position cursor message offset width found =>
      intro consumed stands
      cases read
      have noBreak : first ≠ '\n' := by
        rintro rfl
        rw [lexeme_lineBreak] at found
        cases found
      rw [if_neg (by simp [Except.toOption]), Cursor.nextToken, lexeme_semicolon noBreak, found]

theorem Lexes.semicolon (lexes : Lexes .both cursor tokens fault)
    (stands : cursor.Stands text.toList consumed) :
    Lexes .semicolon cursor (tokens.filter fun token => !token.isLineBreakIn text) fault := by
  induction lexes generalizing consumed with
  | @ended _ _ token read last =>
      have kept : token.isLineBreakIn text = false := by simp [Token.isLineBreakIn, last]
      have reads := nextToken_semicolon read stands
      rw [if_neg (by simp [Except.toOption, kept])] at reads
      rw [List.filter_cons_of_pos (by simp [kept]), List.filter_nil]
      exact .ended reads last
  | failed read => exact .failed (nextToken_semicolon read stands)
  | @token _ _ token later _ read more _ ih =>
      -- Where a line break is passed, reading goes on at once with what the other reads next.
      have reads := nextToken_semicolon read stands
      obtain ⟨_, _, _, _, passes⟩ := exists_reads stands read
      obtain ⟨taken, onward⟩ := passes.exists_stands
      cases lineBreak : token.isLineBreakIn text with
      | true =>
          rw [if_pos (by simp [Except.toOption, lineBreak])] at reads
          rw [List.filter_cons_of_neg (by simp [lineBreak])]
          exact (ih onward).of_nextToken_eq reads
      | false =>
          rw [if_neg (by simp [Except.toOption, lineBreak])] at reads
          rw [List.filter_cons_of_pos (by simp [lineBreak])]
          exact .token reads more (ih onward)

/-!
## Line breaks alone
-/

/-- A semicolon that ends no statement is a fault. -/
theorem lexeme_newline (whole : (lexeme .newline first rest).IsWhole) :
    lexeme .both first rest = lexeme .newline first rest := by
  by_cases semicolon : first = ';'
  · subst semicolon
    simp [lexeme, Separator.acceptsSemicolon, isBlank, Lexeme.IsWhole] at whole
  · simp [lexeme, semicolon, Separator.acceptsNewline]

theorem nextToken_newline (read : cursor.nextToken .newline = (.ok token, next)) :
    cursor.nextToken .both = (.ok token, next) := by
  fun_induction Cursor.nextToken .newline cursor with
  | case1 position =>
      cases read
      rw [Cursor.nextToken]
  | case2 first rest position cursor width found ih =>
      rw [Cursor.nextToken, lexeme_newline (by rw [found]; trivial), found]
      exact ih read
  | case3 first rest position cursor kind content width found =>
      cases read
      rw [Cursor.nextToken, lexeme_newline (by rw [found]; trivial), found]
  | case4 => cases read

theorem Lexes.both (lexes : Lexes .newline cursor tokens none) : Lexes .both cursor tokens none := by
  generalize clean : (none : Option Error) = fault at lexes
  induction lexes with
  | ended read last => exact .ended (nextToken_newline read) last
  | failed => cases clean
  | token read more _ ih => exact .token (nextToken_newline read) more (ih clean)

/-!
## All three ways
-/

/-- With semicolons alone a text has the same fault as with both, or the same tokens but those for
its line breaks, and all that can be read with line breaks alone is read in the same way with both. -/
theorem separators_agree (text : String) :
    tokenize .semicolon text =
        (tokenize .both text).map (List.filter fun token => !token.isLineBreakIn text) ∧
      ∀ tokens, tokenize .newline text = .ok tokens → tokenize .both text = .ok tokens := by
  constructor
  · have passed := (lexes_scan .both text).semicolon (.ofText text)
    obtain ⟨sameTokens, sameFault⟩ := passed.unique (lexes_scan .semicolon text)
    rw [tokenize, tokenize, sameFault, sameTokens]
    cases (scan .both text).fault with
    | none => rfl
    | some fault => rfl
  · intro tokens given
    obtain ⟨clean, rfl⟩ := tokenize_eq_ok_iff.mp given
    have lexes := lexes_scan .newline text
    rw [clean] at lexes
    obtain ⟨sameTokens, sameFault⟩ := lexes.both.unique (lexes_scan .both text)
    exact tokenize_eq_ok_iff.mpr ⟨sameFault, sameTokens⟩

/-- A line break behind a line comment ends a statement, and a semicolon in the comment does not. -/
theorem separators_agree_behind_comment :
    let text := "a // ;\n\"b\""
    let name : Token := ⟨.name, some "a", ⟨1, 1⟩⟩
    let lineBreak : Token := ⟨.endOfStatement, none, ⟨1, 7⟩⟩
    let others : List Token := [⟨.string, some "b", ⟨2, 1⟩⟩, ⟨.endOfText, none, ⟨2, 4⟩⟩]
    tokenize .newline text = .ok (name :: lineBreak :: others) ∧
      tokenize .both text = .ok (name :: lineBreak :: others) ∧
      tokenize .semicolon text = .ok (name :: others) := by
  intro text name lineBreak others
  obtain ⟨semicolons, breaks⟩ := separators_agree text
  have lines : tokenize .newline text = .ok (name :: lineBreak :: others) := by cbv
  have both := breaks _ lines
  rw [both] at semicolons
  have passed : (name :: lineBreak :: others).filter (fun token => !token.isLineBreakIn text) =
      name :: others := by decide
  exact ⟨lines, both, semicolons.trans (congrArg Except.ok passed)⟩

end Query

end GraphStore
