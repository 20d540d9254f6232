import GraphStore.Proofs.Query.Spelling

/-!
# Places in a text

Which position stands for which place in a text. Main statement: every call for the next token tells
the places of the text as they are, and what later calls find stands further on.
-/

set_option autoImplicit false

namespace GraphStore

namespace Position

variable {former latter last : Position} {more : List Char}

/-- The position behind some characters of a text. Lines and columns count from one; a line break
ends its line, and any other character takes one column. -/
def behind (front : List Char) : Position :=
  ⟨1 + front.count '\n', 1 + (front.reverse.takeWhile (· ≠ '\n')).length⟩

theorem behind_concat (front : List Char) (c : Char) :
    behind (front ++ [c]) = (behind front).after c := by
  by_cases lineBreak : c = '\n'
  · simp [behind, after, lineBreak, Nat.add_assoc]
  · simp [behind, after, lineBreak, Nat.add_comm]

theorem foldl_after (front more : List Char) :
    more.foldl after (behind front) = behind (front ++ more) := by
  induction more generalizing front with
  | nil => rw [List.foldl_nil, List.append_nil]
  | cons c more ih =>
      rw [List.foldl_cons, ← behind_concat, ih, List.append_assoc, List.singleton_append]

/-- Whether a position is that of an earlier place: on an earlier line, or further left. -/
def Precedes (former latter : Position) : Prop :=
  former.line < latter.line ∨ former.line = latter.line ∧ former.column < latter.column

theorem Precedes.trans (first : former.Precedes latter) (second : latter.Precedes last) :
    former.Precedes last := by
  unfold Precedes at *
  omega

theorem Precedes.ne (precedes : former.Precedes latter) : former ≠ latter := by
  rintro rfl
  unfold Precedes at precedes
  omega

theorem precedes_after (position : Position) (c : Char) : position.Precedes (position.after c) := by
  unfold after
  split
  · exact .inl (Nat.lt_succ_self _)
  · exact .inr ⟨rfl, Nat.lt_succ_self _⟩

theorem behind_precedes (front : List Char) (some : more ≠ []) :
    (behind front).Precedes (behind (front ++ more)) := by
  induction more using List.reverseRecOn with
  | nil => exact absurd rfl some
  | append_singleton more c ih =>
      have next := precedes_after (behind (front ++ more)) c
      rw [← List.append_assoc, behind_concat]
      by_cases last : more = []
      · rw [last, List.append_nil] at next ⊢
        exact next
      · exact (ih last).trans next

end Position

namespace Query

/-- Whether a cursor stands in a text behind some characters of it. -/
structure Cursor.Stands (cursor : Cursor) (text consumed : List Char) : Prop where
  split : text = consumed ++ cursor.rest
  position : cursor.position = .behind consumed

namespace Cursor.Stands

variable {cursor : Cursor} {text consumed : List Char}

theorem ofText (text : String) : (Cursor.ofText text).Stands text.toList [] := ⟨rfl, rfl⟩

theorem positionAt (stands : cursor.Stands text consumed) (offset : Nat) :
    cursor.positionAt offset = .behind (consumed ++ cursor.rest.take offset) := by
  rw [Cursor.positionAt, stands.position, Position.foldl_after]

theorem advance (stands : cursor.Stands text consumed) (count : Nat) :
    (cursor.advance count).Stands text (consumed ++ cursor.rest.take count) where
  split := by
    rw [Cursor.advance, List.append_assoc, List.take_append_drop]
    exact stands.split
  position := stands.positionAt count

/-- Behind the characters that are passed stands what follows them. -/
theorem pass (stands : cursor.Stands text consumed) {front back : List Char}
    (split : cursor.rest = front ++ back) :
    (cursor.advance front.length).Stands text (consumed ++ front) ∧
      (cursor.advance front.length).rest = back := by
  have onward := stands.advance front.length
  rw [split, List.take_left] at onward
  refine ⟨onward, ?_⟩
  rw [Cursor.advance, split, List.drop_left]

end Cursor.Stands

/-!
## Reading from a place
-/

variable {separator : Separator} {cursor next : Cursor} {token : Token} {text consumed : List Char}

/-- What a call for the next token gives in a text, where all in front of `front` is passed and
nothing of `ahead` is: the end of the text, a token, or a fault at a place that lies ahead. -/
inductive Reads (separator : Separator) (text front ahead : List Char) :
    Except Error Token × Cursor → Prop where
  | ended {next : Cursor} (nothing : ahead = []) (stands : next.Stands text front) :
      Reads separator text front ahead (.ok ⟨.endOfText, none, .behind front⟩, next)
  | token {kind : TokenKind} {content : Option String} {written back : List Char} {next : Cursor}
      (split : ahead = written ++ back) (spells : Spells separator kind content written)
      (stands : next.Stands text (front ++ written)) :
      Reads separator text front ahead (.ok ⟨kind, content, .behind front⟩, next)
  | fault {part back taken : List Char} {detail : String} {next : Cursor}
      (split : ahead = part ++ back)
      (stuck : ∀ gap following, ahead = gap ++ following → ¬Gap separator gap following)
      (stands : next.Stands text (front ++ taken)) :
      Reads separator text front ahead
        (.error (.syntaxError (.behind (front ++ part)) detail), next)

/-- A call passes the layout in front of it, and what begins behind is a token, a fault or the end of
the text. -/
theorem exists_reads {outcome : Except Error Token × Cursor} (stands : cursor.Stands text consumed)
    (read : cursor.nextToken separator = outcome) :
    ∃ layout ahead, cursor.rest = layout ++ ahead ∧ Layout separator layout ahead ∧
      Reads separator text (consumed ++ layout) ahead outcome := by
  -- Each gap moves the place on, so that what is passed differs from call to call.
  revert consumed
  fun_induction Cursor.nextToken separator cursor with
  | case1 position =>
      intro consumed stands
      cases read
      have here : position = .behind consumed := stands.position
      refine ⟨[], [], rfl, .nothing, ?_⟩
      rw [List.append_nil, here]
      rw [here] at stands
      exact .ended rfl stands
  | case2 first rest position cursor width found ih =>
      intro consumed stands
      obtain ⟨gap, back, split, rfl, isGap⟩ := gap_of_lexeme found
      have positive : max 1 gap.length = gap.length := by
        obtain ⟨_, _, rfl, _⟩ := isGap.lexeme
        simp
      rw [positive] at ih read
      obtain ⟨passed, left⟩ := stands.pass split
      obtain ⟨layout, ahead, behind, isLayout, reads⟩ := ih read passed
      rw [left] at behind
      subst behind
      rw [List.append_assoc] at reads
      refine ⟨gap ++ layout, ahead, ?_, .gap isGap isLayout, reads⟩
      rw [List.append_assoc]
      exact split
  | case3 first rest position cursor kind content width found =>
      intro consumed stands
      cases read
      obtain ⟨written, back, split, rfl, spells⟩ := spells_of_lexeme found
      have here : position = .behind consumed := stands.position
      refine ⟨[], first :: rest, rfl, .nothing, ?_⟩
      rw [List.append_nil, here]
      exact .token split spells (stands.pass split).1
  | case4 first rest position cursor message offset width found =>
      intro consumed stands
      cases read
      refine ⟨[], first :: rest, rfl, .nothing, ?_⟩
      rw [List.append_nil, stands.positionAt]
      refine .fault (List.take_append_drop offset (first :: rest)).symm ?_ (stands.advance width)
      intro gap following split isGap
      obtain ⟨c, more, rfl, isLayout⟩ := isGap.lexeme
      obtain ⟨rfl, rfl⟩ := List.cons.inj split
      cases found.symm.trans isLayout

namespace Reads

variable {front ahead : List Char} {outcome : Except Error Token × Cursor}

theorem exists_stands (reads : Reads separator text front ahead outcome) :
    ∃ taken, outcome.2.Stands text (front ++ taken) := by
  cases reads with
  | ended _ stands => exact ⟨[], by rwa [List.append_nil]⟩
  | token _ _ stands => exact ⟨_, stands⟩
  | fault _ _ stands => exact ⟨_, stands⟩

theorem position (reads : Reads separator text front ahead outcome) (found : outcome.1 = .ok token) :
    token.position = .behind front := by
  cases reads with
  | ended | token =>
      cases found
      rfl
  | fault => cases found

theorem exists_written (reads : Reads separator text front ahead outcome)
    (found : outcome.1 = .ok token) (more : token.kind ≠ .endOfText) :
    ∃ written, written ≠ [] ∧ outcome.2.Stands text (front ++ written) := by
  cases reads with
  | ended =>
      cases found
      exact absurd rfl more
  | token _ spells stands => exact ⟨_, spells.ne_nil, stands⟩
  | fault => cases found

end Reads

/-!
## Calls one after the other
-/

/-- Whatever is read and pushed back, a lexer stands behind the characters that it took. -/
theorem Lexer.Takes.stands {start lexer : Lexer} {taken : List Char}
    (takes : start.Takes taken lexer) (stands : start.cursor.Stands text consumed) :
    lexer.cursor.Stands text (consumed ++ taken) := by
  have onward := stands.advance taken.length
  have ahead : start.cursor.rest = taken ++ lexer.ahead := takes.isBehind.split
  rwa [ahead, List.take_left, ← takes.cursor_eq] at onward

/-- The lexer behind so many calls for the next token, whether or not they find one. -/
def reached (separator : Separator) (text : String) : (calls : Nat) → Lexer
  | 0 => .ofText text
  | calls + 1 => ((reached separator text calls).nextToken separator).2

/-- Calls take further characters and never give one back for good. -/
theorem exists_takes_reached (separator : Separator) (text : String) (calls more : Nat) :
    ∃ taken,
      (reached separator text calls).Takes taken (reached separator text (calls + more)) := by
  induction more with
  | zero => exact ⟨[], .nothing⟩
  | succ more ih =>
      obtain ⟨front, here⟩ := ih
      obtain ⟨back, onward⟩ :=
        (reached separator text (calls + more)).exists_takes_nextToken separator
      exact ⟨front ++ back, here.trans onward⟩

/-- Every call tells the places in the text as they are: of the first character of the token that it
finds, of a fault that is not in front of what is faulty, and of the first character behind. A token
that is not the end of the text stands in front of all that later calls find. -/
theorem positions_exact (separator : Separator) (text : String) (calls : Nat) :
    (∃ consumed layout ahead,
      (Lexer.ofText text).Takes consumed (reached separator text calls) ∧
      (reached separator text calls).cursor.Stands text.toList consumed ∧
      text.toList = consumed ++ layout ++ ahead ∧ Layout separator layout ahead ∧
      Reads separator text.toList (consumed ++ layout) ahead
        (Prod.map id Lexer.cursor ((reached separator text calls).nextToken separator))) ∧
    ∀ later former latter, calls < later →
      ((reached separator text calls).nextToken separator).1 = .ok former →
      former.kind ≠ .endOfText →
      ((reached separator text later).nextToken separator).1 = .ok latter →
      former.position.Precedes latter.position := by
  have begins : (Lexer.ofText text).cursor.Stands text.toList [] := .ofText text
  obtain ⟨consumed, takes⟩ := exists_takes_reached separator text 0 calls
  rw [Nat.zero_add] at takes
  have stands : (reached separator text calls).cursor.Stands text.toList consumed :=
    takes.stands begins
  obtain ⟨layout, ahead, split, isLayout, reads⟩ := exists_reads stands (Lexer.nextToken_eq ..)
  constructor
  · refine ⟨consumed, layout, ahead, takes, stands, ?_, isLayout, reads⟩
    rw [List.append_assoc, ← split]
    exact stands.split
  · intro later former latter before given more found
    obtain ⟨further, rfl⟩ := Nat.exists_eq_add_of_le before
    obtain ⟨written, some, behind⟩ := reads.exists_written given more
    have onward : (reached separator text (calls + 1)).cursor.Stands text.toList
        (consumed ++ layout ++ written) := behind
    obtain ⟨taken, passes⟩ := exists_takes_reached separator text (calls + 1) further
    obtain ⟨gap, _, _, _, laterReads⟩ :=
      exists_reads (passes.stands onward) (Lexer.nextToken_eq ..)
    rw [reads.position given, laterReads.position found, List.append_assoc, List.append_assoc]
    exact Position.behind_precedes _ (List.append_ne_nil_of_left_ne_nil some _)

/-- A line break in a comment counts, and a string has the place of its quote. -/
theorem positions_exact_across_lines :
    let text := "a /*\n*/ \"\\n\" b"
    let name : Token := ⟨.name, some "a", ⟨1, 1⟩⟩
    let string : Token := ⟨.string, some "\n", ⟨2, 4⟩⟩
    ((reached .both text 0).nextToken .both).1 = .ok name ∧
      ((reached .both text 1).nextToken .both).1 = .ok string ∧
      name.position.Precedes string.position := by
  intro text name string
  -- Under `let` the kernel would unfold the text at every step.
  have former : ((reached .both text 0).nextToken .both).1 = .ok name := by
    subst text
    cbv
  have latter : ((reached .both text 1).nextToken .both).1 = .ok string := by
    subst text
    cbv
  obtain ⟨_, ordered⟩ := positions_exact .both text 0
  exact ⟨former, latter, ordered 1 name string Nat.zero_lt_one former (by decide) latter⟩

end Query

end GraphStore
