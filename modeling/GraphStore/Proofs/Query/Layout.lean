import GraphStore.Proofs.Query.Tokens
import Mathlib.Data.List.TakeWhile

/-!
# Layout

Which characters are part of no token, told without the lexer. Main statements: a blank or a comment
is just what the lexer takes for layout, and reading on in front of layout is reading on behind it.
-/

set_option autoImplicit false

namespace GraphStore.Query

open Text

/-!
## Characters of one class
-/

section

variable {p : Char → Bool} {found text : List Char} {limit : Nat}

theorem takeWhile_append_of_ends (holds : ∀ c ∈ found, p c = true)
    (ends : ∀ c ∈ text.head?, p c = false) : (found ++ text).takeWhile p = found := by
  rw [List.takeWhile_append_of_pos holds]
  cases text with
  | nil => simp
  | cons c back => simp [ends c rfl]

theorem dropWhile_append_of_ends (holds : ∀ c ∈ found, p c = true)
    (ends : ∀ c ∈ text.head?, p c = false) : (found ++ text).dropWhile p = text := by
  rw [List.dropWhile_append_of_pos holds]
  cases text with
  | nil => simp
  | cons c back => simp [ends c rfl]

theorem takeWhile_take_append_of_ends (holds : ∀ c ∈ found, p c = true) (few : found.length ≤ limit)
    (ends : found.length = limit ∨ ∀ c ∈ text.head?, p c = false) :
    ((found ++ text).take limit).takeWhile p = found := by
  rw [List.take_append, List.take_of_length_le few]
  apply takeWhile_append_of_ends holds
  rcases ends with rfl | stops
  · simp
  · intro c member
    apply stops c
    cases text with
    | nil => simp at member
    | cons d back =>
        cases room : limit - found.length with
        | zero => simp [room] at member
        | succ room' => simpa [room] using member

theorem ends_takeWhile_take (p : Char → Bool) (limit : Nat) (characters : List Char) :
    ((characters.take limit).takeWhile p).length = limit ∨
      ∀ c ∈ (characters.drop ((characters.take limit).takeWhile p).length).head?, p c = false := by
  induction characters generalizing limit with
  | nil => simp
  | cons d characters ih =>
      cases limit with
      | zero => simp
      | succ limit =>
          cases holds : p d with
          | false => simp [holds]
          | true => simpa [holds] using ih limit

theorem prefix_takeWhile_take (p : Char → Bool) (limit : Nat) (characters : List Char) :
    (characters.take limit).takeWhile p <+: characters :=
  (List.takeWhile_prefix p).trans (List.take_prefix limit characters)

end

variable {separator : Separator} {first : Char} {rest text : List Char} {length : Nat}

/-!
## Blanks and comments
-/

/-- Whether some characters begin with a mark that opens or closes a comment. -/
def BeginsMark (characters : List Char) : Prop :=
  ['/', '*'] <+: characters ∨ ['*', '/'] <+: characters

/-- Some characters, with so many comments open in front of them, that end just where the last of
these is closed. Marks are found from left to right and have no character in common. -/
inductive Balances : Nat → List Char → Prop where
  | nothing : Balances 0 []
  | opens {depth : Nat} {rest : List Char} (onward : Balances (depth + 2) rest) :
      Balances (depth + 1) ('/' :: '*' :: rest)
  | closes {depth : Nat} {rest : List Char} (onward : Balances depth rest) :
      Balances (depth + 1) ('*' :: '/' :: rest)
  | passes {depth : Nat} {c : Char} {rest : List Char} (noMark : ¬BeginsMark (c :: rest))
      (onward : Balances (depth + 1) rest) : Balances (depth + 1) (c :: rest)

/-- One blank, one comment up to the end of its line, or one comment between marks, in front of a
text. -/
inductive Gap (separator : Separator) : (gap text : List Char) → Prop where
  | blank {c : Char} {text : List Char} (isBlank : isBlank c = true)
      (noToken : c = '\n' → separator.acceptsNewline = false) : Gap separator [c] text
  | line {body text : List Char} (within : '\n' ∉ body) (ends : ∀ c ∈ text.head?, c = '\n') :
      Gap separator ('/' :: '/' :: body) text
  | block {body text : List Char} (balances : Balances 1 body) :
      Gap separator ('/' :: '*' :: body) text

/-- Characters in front of a text that are part of no token. -/
inductive Layout (separator : Separator) : (layout text : List Char) → Prop where
  | nothing {text : List Char} : Layout separator [] text
  | gap {gap layout text : List Char} (here : Gap separator gap (layout ++ text))
      (onward : Layout separator layout text) : Layout separator (gap ++ layout) text

/-!
## Comments between marks
-/

theorem beginsMark_cons_cons {c d : Char} :
    BeginsMark (c :: d :: rest) ↔ c = '/' ∧ d = '*' ∨ c = '*' ∧ d = '/' := by
  simp [BeginsMark, eq_comm]

theorem not_beginsMark_null : ¬BeginsMark ('\x00' :: rest) := by
  simp [BeginsMark]

theorem balances_null_iff {depth : Nat} :
    Balances (depth + 1) ('\x00' :: rest) ↔ Balances (depth + 1) rest := by
  constructor
  · intro balances
    cases balances with
    | passes _ onward => exact onward
  · exact .passes not_beginsMark_null

/-- The comments that are open are closed where the marks balance. The last character in front may
be the first half of a mark. -/
theorem blockCommentLength_of_balances {body : List Char} {read depth : Nat} {previous : Char}
    (balances : Balances (depth + 1) (previous :: body)) (back : List Char) :
    blockCommentLength read (depth + 1) previous (body ++ back) = some (read + body.length) := by
  -- Behind a mark the lexer goes on as if a null character stood in front, which begins no mark.
  induction body generalizing read depth previous with
  | nil =>
      cases balances with
      | passes _ onward => cases onward
  | cons c body ih =>
      rw [List.cons_append, List.length_cons, ← Nat.add_assoc, Nat.add_right_comm,
        blockCommentLength]
      cases balances with
      | opens onward =>
          rw [if_pos (by decide)]
          exact ih (balances_null_iff.mpr onward)
      | @closes depth _ onward =>
          rw [if_neg (by decide), if_pos (by decide)]
          cases depth with
          | zero =>
              cases onward
              rw [if_pos (by decide)]
              rfl
          | succ depth =>
              rw [if_neg (by omega)]
              exact ih (balances_null_iff.mpr onward)
      | passes noMark onward =>
          rw [beginsMark_cons_cons, not_or] at noMark
          rw [if_neg (by simpa using noMark.1), if_neg (by simpa using noMark.2)]
          exact ih onward

theorem balances_of_blockCommentLength {read depth : Nat} {previous : Char}
    (found : blockCommentLength read (depth + 1) previous rest = some length) :
    ∃ body back, rest = body ++ back ∧ length = read + body.length ∧
      Balances (depth + 1) (previous :: body) := by
  induction rest generalizing read depth previous with
  | nil => cases found
  | cons c rest ih =>
      rw [blockCommentLength] at found
      by_cases opens : (decide (previous = '/') && decide (c = '*')) = true
      · rw [if_pos opens] at found
        obtain ⟨body, back, rfl, rfl, balances⟩ := ih found
        simp only [Bool.and_eq_true, decide_eq_true_eq] at opens
        obtain ⟨rfl, rfl⟩ := opens
        exact ⟨'*' :: body, back, rfl, Nat.add_right_comm .., .opens (balances_null_iff.mp balances)⟩
      rw [if_neg opens] at found
      by_cases closes : (decide (previous = '*') && decide (c = '/')) = true
      · rw [if_pos closes] at found
        simp only [Bool.and_eq_true, decide_eq_true_eq] at closes
        obtain ⟨rfl, rfl⟩ := closes
        cases depth with
        | zero =>
            rw [if_pos (by decide)] at found
            cases found
            exact ⟨['/'], rest, rfl, rfl, .closes .nothing⟩
        | succ depth =>
            rw [if_neg (by omega)] at found
            obtain ⟨body, back, rfl, rfl, balances⟩ := ih found
            exact ⟨'/' :: body, back, rfl, Nat.add_right_comm ..,
              .closes (balances_null_iff.mp balances)⟩
      · rw [if_neg closes] at found
        obtain ⟨body, back, rfl, rfl, balances⟩ := ih found
        refine ⟨c :: body, back, rfl, Nat.add_right_comm .., .passes ?_ balances⟩
        rw [beginsMark_cons_cons, not_or]
        exact ⟨by simpa using opens, by simpa using closes⟩

/-!
## Gaps
-/

theorem comment_line {body : List Char} (within : '\n' ∉ body)
    (ends : ∀ c ∈ text.head?, c = '\n') :
    comment ('/' :: (body ++ text)) = .layout (2 + body.length) := by
  rw [comment, takeWhile_append_of_ends]
  · intro c member
    exact decide_eq_true fun same => within (same ▸ member)
  · intro c member
    exact decide_eq_false fun differs => differs (ends c member)

theorem comment_block {body : List Char} (balances : Balances 1 body) (text : List Char) :
    comment ('*' :: (body ++ text)) = .layout (2 + body.length) := by
  rw [comment, blockCommentLength_of_balances (balances_null_iff.mpr balances)]

theorem lexeme_slash (separator : Separator) (rest : List Char) :
    lexeme separator '/' rest = comment rest := by
  simp [lexeme, isBlank]

theorem Gap.lexeme {gap : List Char} (isGap : Gap separator gap text) :
    ∃ first rest, gap = first :: rest ∧
      lexeme separator first (rest ++ text) = .layout gap.length := by
  cases isGap with
  | @blank c _ isBlank noToken =>
      refine ⟨c, [], rfl, ?_⟩
      rw [Query.lexeme, if_neg, if_pos isBlank]
      · rfl
      · simpa using noToken
  | @line body _ within ends =>
      refine ⟨'/', '/' :: body, rfl, ?_⟩
      rw [lexeme_slash, List.cons_append, comment_line within ends, List.length_cons,
        List.length_cons, Nat.add_comm]
  | @block body _ balances =>
      refine ⟨'/', '*' :: body, rfl, ?_⟩
      rw [lexeme_slash, List.cons_append, comment_block balances, List.length_cons,
        List.length_cons, Nat.add_comm]

theorem gap_of_comment (found : comment rest = .layout length) :
    ∃ gap back, '/' :: rest = gap ++ back ∧ length = gap.length ∧ Gap separator gap back := by
  revert found
  fun_cases comment rest with
  | case1 rest =>
      intro found
      cases found
      refine ⟨'/' :: '/' :: rest.takeWhile (· ≠ '\n'), rest.dropWhile (· ≠ '\n'), ?_, ?_, .line ?_ ?_⟩
      · simp
      · rw [List.length_cons, List.length_cons, Nat.add_comm]
      · intro member
        simpa using List.mem_takeWhile_imp member
      · intro c behind
        have stops := List.head?_dropWhile_not (· ≠ '\n') rest
        rw [Option.mem_def.mp behind] at stops
        simpa using stops
  | case2 rest width ended =>
      intro found
      cases found
      obtain ⟨body, back, rfl, rfl, balances⟩ := balances_of_blockCommentLength ended
      refine ⟨'/' :: '*' :: body, back, rfl, ?_, .block (balances_null_iff.mp balances)⟩
      rw [List.length_cons, List.length_cons, Nat.add_comm]
  | case3 | case4 | case5 =>
      intro found
      cases found

private theorem stringBody_ne_layout {read : Nat} {front characters : List Char} :
    stringBody read front characters ≠ .layout length := by
  fun_induction stringBody read front characters with
  | case1 | case2 | case4 | case5 => simp
  | case3 _ _ _ _ _ _ _ ih => exact ih
  | case6 _ _ _ _ _ _ _ ih => exact ih

private theorem number_ne_layout : number first rest ≠ .layout length := by
  unfold number
  dsimp only
  split
  · simp
  · split <;> simp

/-- What the lexer takes for layout is part of no token. -/
theorem gap_of_lexeme (found : lexeme separator first rest = .layout length) :
    ∃ gap back, first :: rest = gap ++ back ∧ length = gap.length ∧ Gap separator gap back := by
  revert found
  fun_cases lexeme separator first rest with
  | case2 noToken isBlank =>
      intro found
      cases found
      refine ⟨[first], rest, rfl, rfl, .blank isBlank ?_⟩
      simpa using noToken
  | case3 _ _ slash =>
      subst slash
      exact gap_of_comment
  | case11 => exact fun found => absurd found stringBody_ne_layout
  | case13 | case14 => exact fun found => absurd found number_ne_layout
  | _ =>
      intro found
      cases found

/-!
## Reading behind layout
-/

theorem nextToken_of_layout {gap back : List Char} (split : first :: rest = gap ++ back)
    (found : lexeme separator first rest = .layout gap.length) (some : gap ≠ [])
    (position : Position) :
    Cursor.nextToken separator ⟨gap ++ back, position⟩ =
      Cursor.nextToken separator ⟨back, gap.foldl Position.after position⟩ := by
  have positive : max 1 gap.length = gap.length :=
    Nat.max_eq_right (List.length_pos_iff.mpr some)
  rw [← split, Cursor.nextToken, found]
  simp only [positive, Cursor.advance, Cursor.positionAt, split, List.drop_left, List.take_left]

theorem Layout.nextToken {layout : List Char} (isLayout : Layout separator layout text)
    (position : Position) :
    Cursor.nextToken separator ⟨layout ++ text, position⟩ =
      Cursor.nextToken separator ⟨text, layout.foldl Position.after position⟩ := by
  induction isLayout generalizing position with
  | nothing => rfl
  | @gap gap layout text here _ ih =>
      obtain ⟨first, rest, rfl, found⟩ := here.lexeme
      rw [List.append_assoc, nextToken_of_layout List.cons_append.symm found (List.cons_ne_nil _ _),
        ih, List.foldl_append]

end GraphStore.Query
