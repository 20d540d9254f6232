import GraphStore.Proofs.Query.Lexemes
import Mathlib.Data.List.TakeWhile

/-!
# Reading with pushback

How a lexer moves in its text while it reads characters and pushes some of them back. Main
statements: line, column and the saved position agree with the characters taken, whatever was read
and pushed back; and the lexer finds what the text in front of it begins with.
-/

set_option autoImplicit false

namespace GraphStore.Query

open GraphStore.Text

namespace Lexer

variable {start middle lexer next : Lexer} {taken more : List Char} {c : Char}

/-!
## Single calls
-/

theorem position_of_read (found : lexer.read = some (c, next)) :
    next.position = lexer.position.after c := by
  unfold read at found
  split at found <;> cases found <;> rfl

theorem beforeLast_of_read (found : lexer.read = some (c, next)) :
    next.beforeLast = lexer.position := by
  unfold read at found
  split at found <;> cases found <;> rfl

/-- A lexer with some characters taken that lay ahead of `start`. -/
structure IsBehind (start : Lexer) (taken : List Char) (lexer : Lexer) : Prop where
  split : start.ahead = taken ++ lexer.ahead
  position : lexer.position = taken.foldl Position.after start.position
  /-- If nothing is pushed back, the last character taken may be. -/
  saved : ∀ {front : List Char} {c : Char}, lexer.pushed = none → taken = front ++ [c] →
    lexer.beforeLast = front.foldl Position.after start.position

namespace IsBehind

theorem refl (start : Lexer) : IsBehind start [] start where
  split := rfl
  position := rfl
  saved _ last := by simp at last

theorem read (behind : IsBehind start taken lexer) (found : lexer.read = some (c, next)) :
    IsBehind start (taken ++ [c]) next where
  split := by
    rw [behind.split, ahead_of_read found, List.append_assoc, List.singleton_append]
  position := by
    rw [position_of_read found, behind.position, List.foldl_append, List.foldl_cons,
      List.foldl_nil]
  saved {front d} _ last := by
    obtain ⟨rfl, _⟩ := List.append_inj' last rfl
    rw [beforeLast_of_read found, behind.position]

theorem unread (behind : IsBehind start (taken ++ [c]) lexer) (free : lexer.pushed = none) :
    IsBehind start taken (lexer.unread c) where
  split := by
    rw [behind.split, ahead_unread lexer c free, List.append_assoc, List.singleton_append]
  position := behind.saved free rfl
  saved held := by cases held

theorem peek (behind : IsBehind start taken lexer) : IsBehind start taken lexer.peek.2 := by
  unfold Lexer.peek
  split
  next found => exact (behind.read found).unread (pushed_of_read found)
  next => exact behind

end IsBehind

/-!
## Calls one after the other
-/

/-- The characters taken by calls to read and to push back, one after the other. Only the character
that was read last is pushed back, and only while no other is. -/
inductive Takes (start : Lexer) : List Char → Lexer → Prop where
  | nothing : Takes start [] start
  | read {taken : List Char} {c : Char} {lexer next : Lexer} (before : Takes start taken lexer)
      (found : lexer.read = some (c, next)) : Takes start (taken ++ [c]) next
  | unread {taken : List Char} {c : Char} {lexer : Lexer}
      (before : Takes start (taken ++ [c]) lexer) (free : lexer.pushed = none) :
      Takes start taken (lexer.unread c)

namespace Takes

theorem isBehind (takes : Takes start taken lexer) : IsBehind start taken lexer := by
  induction takes with
  | nothing => exact .refl start
  | read _ found ih => exact ih.read found
  | unread _ free ih => exact ih.unread free

theorem trans (first : Takes start taken middle) (second : Takes middle more lexer) :
    Takes start (taken ++ more) lexer := by
  induction second with
  | nothing => rwa [List.append_nil]
  | read _ found ih =>
      rw [← List.append_assoc]
      exact ih.read found
  | unread _ free ih =>
      rw [← List.append_assoc] at ih
      exact ih.unread free

theorem single (found : start.read = some (c, next)) : Takes start [c] next := .read .nothing found

theorem cons (found : start.read = some (c, middle)) (onward : Takes middle taken lexer) :
    Takes start (c :: taken) lexer :=
  (single found).trans onward

theorem back (found : start.read = some (c, next)) : Takes start [] (next.unread c) :=
  .unread (single found) (pushed_of_read found)

end Takes

/-- The characters ahead and the position of the first. -/
def cursor (lexer : Lexer) : Cursor := ⟨lexer.ahead, lexer.position⟩

theorem Takes.cursor_eq (takes : Takes start taken lexer) :
    lexer.cursor = start.cursor.advance taken.length := by
  obtain ⟨split, position, _⟩ := takes.isBehind
  simp [cursor, Cursor.advance, Cursor.positionAt, split, position]

theorem Takes.positionAt (takes : Takes start taken lexer) :
    start.cursor.positionAt taken.length = lexer.position :=
  (congrArg Cursor.position takes.cursor_eq).symm

/-!
## Loops
-/

theorem peek_eq (lexer : Lexer) : lexer.peek.1 = lexer.ahead.head? := by
  unfold peek
  split
  next found => simp [ahead_of_read found]
  next ended => simp [ahead_of_read_none ended]

theorem takes_peek (lexer : Lexer) : Takes lexer [] lexer.peek.2 := by
  unfold peek
  split
  next found => exact .back found
  next => exact .nothing

theorem readWhile_eq (accepts : Char → Bool) (text : List Char) (lexer : Lexer) :
    (lexer.readWhile accepts text).1 = (lexer.ahead.takeWhile accepts).reverse ++ text := by
  fun_induction readWhile accepts text lexer with
  | case1 text lexer c next found accepted ih => simp [ih, ahead_of_read found, accepted]
  | case2 text lexer c next found refused => simp [ahead_of_read found, refused]
  | case3 text lexer ended => simp [ahead_of_read_none ended]

theorem takes_readWhile (accepts : Char → Bool) (text : List Char) (lexer : Lexer) :
    Takes lexer (lexer.ahead.takeWhile accepts) (lexer.readWhile accepts text).2 := by
  fun_induction readWhile accepts text lexer with
  | case1 text lexer c next found accepted ih =>
      rw [ahead_of_read found, List.takeWhile_cons_of_pos accepted]
      exact .cons found ih
  | case2 text lexer c next found refused =>
      rw [ahead_of_read found, List.takeWhile_cons_of_neg refused]
      exact .back found
  | case3 text lexer ended =>
      rw [ahead_of_read_none ended]
      exact .nothing

theorem escapeDigits_eq (lexer : Lexer) (limit : Nat) :
    (lexer.escapeDigits limit).1 = (lexer.ahead.take limit).takeWhile isHexDigit := by
  fun_induction escapeDigits lexer limit with
  | case1 => simp
  | case2 lexer limit c next found digit later ih =>
      simp [later, ih, ahead_of_read found, digit]
  | case3 lexer limit c next found other => simp [ahead_of_read found, other]
  | case4 lexer limit ended => simp [ahead_of_read_none ended]

theorem takes_escapeDigits (lexer : Lexer) (limit : Nat) :
    Takes lexer ((lexer.ahead.take limit).takeWhile isHexDigit) (lexer.escapeDigits limit).2 := by
  fun_induction escapeDigits lexer limit with
  | case1 => simpa using Takes.nothing
  | case2 lexer limit c next found digit later ih =>
      rw [ahead_of_read found, List.take_succ_cons, List.takeWhile_cons_of_pos digit]
      exact .cons found ih
  | case3 lexer limit c next found other =>
      rw [ahead_of_read found, List.take_succ_cons, List.takeWhile_cons_of_neg other]
      exact .back found
  | case4 lexer limit ended =>
      rw [ahead_of_read_none ended]
      simpa using Takes.nothing

/-!
## Scans
-/

/-- Whether a scan from `start` on takes the characters of a lexeme and gives what that stands for.
A fault has the position that the lexer had behind so many of them. -/
inductive Meets (start : Lexer) : Lexeme → Outcome × Lexer → Prop where
  | layout {length : Nat} {taken : List Char} {next : Lexer} (takes : Takes start taken next)
      (all : taken.length = length) : Meets start (.layout length) (.ok none, next)
  | token {kind : TokenKind} {text : Option String} {length : Nat} {taken : List Char}
      {next : Lexer} (takes : Takes start taken next) (all : taken.length = length) :
      Meets start (.token kind text length) (.ok (some ⟨kind, text, start.position⟩), next)
  | fault {message : String} {offset length : Nat} {part taken : List Char} {there next : Lexer}
      (reaches : Takes start part there) (before : part.length = offset)
      (takes : Takes start taken next) (all : taken.length = length) :
      Meets start (.fault message offset length)
        (.error (.syntaxError there.position message), next)

theorem meets_blockComment (takes : Takes start taken lexer) (depth : Nat) (previous : Char) :
    Meets start
      (match blockCommentLength taken.length depth previous lexer.ahead with
        | some length => .layout length
        | none => .fault "Unterminated comment" 0 start.ahead.length)
      (lexer.blockComment start.position depth previous) := by
  have count (taken : List Char) (d : Char) : taken.length + 1 = (taken ++ [d]).length := by simp
  fun_induction blockComment start.position depth previous lexer generalizing taken with
  | case1 depth previous lexer c next found opens ih =>
      rw [ahead_of_read found, blockCommentLength, if_pos opens, count taken c]
      exact ih (takes.read found)
  | case2 depth previous lexer c next found noOpening closes last =>
      rw [ahead_of_read found, blockCommentLength, if_neg noOpening, if_pos closes, if_pos last,
        count taken c]
      exact .layout (takes.read found) rfl
  | case3 depth previous lexer c next found noOpening closes more ih =>
      rw [ahead_of_read found, blockCommentLength, if_neg noOpening, if_pos closes, if_neg more,
        count taken c]
      exact ih (takes.read found)
  | case4 depth previous lexer c next found noOpening noClosing ih =>
      rw [ahead_of_read found, blockCommentLength, if_neg noOpening, if_neg noClosing,
        count taken c]
      exact ih (takes.read found)
  | case5 depth previous lexer ended =>
      rw [ahead_of_read_none ended, blockCommentLength, takes.isBehind.split,
        ahead_of_read_none ended, List.append_nil]
      exact .fault .nothing rfl takes rfl

theorem meets_comment (found : start.read = some (c, next)) :
    Meets start (Query.comment next.ahead) (next.comment start.position) := by
  have slash := Takes.single found
  fun_cases comment start.position next with
  | case1 later second =>
      rw [ahead_of_read second, Query.comment]
      exact .layout ((slash.read second).trans (takes_readWhile _ _ later)) (by simp; omega)
  | case2 later second =>
      have whole : start.ahead.length = 2 + later.ahead.length := by
        rw [ahead_of_read found, ahead_of_read second, List.length_cons, List.length_cons]
        omega
      have onward := meets_blockComment (slash.read second) 1 '\x00'
      rw [whole] at onward
      rw [ahead_of_read second, Query.comment]
      exact onward
  | case3 d later noLine noBlock second =>
      rw [ahead_of_read second, Query.comment]
      · exact .fault .nothing rfl (slash.read second) rfl
      · exact noLine
      · exact noBlock
  | case4 ended =>
      rw [ahead_of_read_none ended]
      exact .fault .nothing rfl slash rfl

theorem meets_word (found : start.read = some (c, next)) :
    Meets start (Query.word c next.ahead) (next.word start.position c) := by
  simp only [Query.word, word, readWhile_eq, List.reverse_append, List.reverse_reverse,
    List.reverse_singleton, List.singleton_append]
  exact .token (.cons found (takes_readWhile _ _ next)) rfl

/-- A number ends at the first character that is no digit, which may not go on as a word. -/
theorem number_append {digits rest : List Char} {d : Char}
    (areDigits : ∀ digit ∈ digits, digit.isDigit = true) (noDigit : ¬d.isDigit = true) :
    Query.number c (digits ++ d :: rest) =
      if d.isAlpha || d = '_' then
        .fault
          s!"Unexpected {quotedCharacter d} immediately after number {String.ofList (c :: digits)}"
          (c :: digits).length ((c :: digits).length + 1)
      else .token .number (some (String.ofList (c :: digits))) (c :: digits).length := by
  simp only [Query.number, List.takeWhile_append_of_pos areDigits,
    List.dropWhile_append_of_pos areDigits, List.takeWhile_cons_of_neg noDigit,
    List.dropWhile_cons_of_neg noDigit, List.append_nil]

theorem meets_number {digits text : List Char} (takes : Takes start (c :: digits) lexer)
    (areDigits : ∀ digit ∈ digits, digit.isDigit = true) (written : text = (c :: digits).reverse) :
    Meets start (Query.number c (digits ++ lexer.ahead)) (lexer.number start.position text) := by
  fun_induction number start.position text lexer generalizing digits with
  | case1 text lexer d next found isDigit ih =>
      have onward := @ih (digits ++ [d]) (takes.read found)
        (List.forall_mem_append.mpr ⟨areDigits, by simpa using isDigit⟩) (by simp [written])
      rwa [List.append_assoc, List.singleton_append, ← ahead_of_read found] at onward
  | case2 text lexer d next found noDigit inWord =>
      rw [ahead_of_read found, number_append areDigits noDigit, if_pos inWord,
        beforeLast_of_read found, written, List.reverse_reverse]
      exact .fault takes rfl (takes.read found) (by simp)
  | case3 text lexer d next found noDigit behind =>
      rw [ahead_of_read found, number_append areDigits noDigit, if_neg behind, written,
        List.reverse_reverse]
      exact .token ((takes.read found).unread (pushed_of_read found)) rfl
  | case4 text lexer ended =>
      rw [ahead_of_read_none ended, Query.number, List.takeWhile_append_of_pos areDigits,
        List.dropWhile_append_of_pos areDigits, List.takeWhile_nil, List.dropWhile_nil,
        List.append_nil, written, List.reverse_reverse]
      exact .token takes rfl

/-- A fault in what follows a backslash has the position of the backslash. -/
theorem exists_takes_escape (position : Position) (lexer : Lexer) :
    ∃ outcome taken, Query.escape lexer.ahead = (outcome, taken.length) ∧
      (lexer.escape position).1 = outcome.mapError (.syntaxError position) ∧
      Takes lexer taken (lexer.escape position).2 := by
  unfold escape
  split
  case h_8 next found =>
    have takes := takes_escapeDigits next maxEscapeDigits
    simp only [ahead_of_read found, Query.escape]
    rw [← escapeDigits_eq] at takes ⊢
    generalize next.escapeDigits maxEscapeDigits = digits at takes ⊢
    split
    next missing =>
      have nothing : digits.1 = [] := List.isEmpty_iff.mp missing
      exact ⟨_, 'x' :: digits.1, by rw [nothing]; rfl, rfl, .cons found takes⟩
    next =>
      rw [Nat.add_comm]
      split <;> exact ⟨_, 'x' :: digits.1, rfl, rfl, .cons found takes⟩
  case h_9 other next _ _ _ _ _ _ _ _ found =>
    rw [ahead_of_read found, Query.escape] <;> try assumption
    exact ⟨_, [other], rfl, rfl, .single found⟩
  case h_10 ended =>
    rw [ahead_of_read_none ended]
    exact ⟨_, [], rfl, rfl, .nothing⟩
  all_goals
    next found =>
      rw [ahead_of_read found]
      exact ⟨_, [_], rfl, rfl, .single found⟩

theorem meets_string (takes : Takes start taken lexer) (text : List Char) :
    Meets start (stringBody taken.length text lexer.ahead)
      (lexer.string start.position text) := by
  have count (taken : List Char) (d : Char) : taken.length + 1 = (taken ++ [d]).length := by simp
  fun_induction string start.position text lexer generalizing taken with
  | case1 text lexer next found =>
      rw [ahead_of_read found, stringBody, if_pos rfl, count taken '"']
      exact .token (takes.read found) rfl
  | case2 text lexer next escaped character given found =>
      rename_i ih
      obtain ⟨outcome, more, described, result, further⟩ := exists_takes_escape lexer.position next
      simp only [escaped] at given
      rw [given] at result
      cases outcome with
      | error => cases result
      | ok =>
          cases result
          have onward := ih ((takes.read found).trans further)
          have left : next.ahead.drop more.length = escaped.2.ahead := by
            rw [further.isBehind.split, List.drop_left]
          rw [ahead_of_read found, stringBody, if_neg (by decide), if_pos rfl]
          simp only [described, left]
          rwa [List.length_append, ← count] at onward
  | case3 text lexer next escaped fault given found =>
      obtain ⟨outcome, more, described, result, further⟩ := exists_takes_escape lexer.position next
      simp only [escaped] at given
      rw [given] at result
      cases outcome with
      | ok => cases result
      | error =>
          cases result
          rw [ahead_of_read found, stringBody, if_neg (by decide), if_pos rfl]
          simp only [described]
          exact .fault takes rfl ((takes.read found).trans further)
            (by rw [List.length_append, ← count])
  | case4 text lexer c next found noQuote noBackslash control =>
      rw [ahead_of_read found, stringBody, if_neg noQuote, if_neg noBackslash, if_pos control]
      exact .fault takes rfl (takes.read found) (by simp)
  | case5 text lexer c next found noQuote noBackslash printed ih =>
      rw [ahead_of_read found, stringBody, if_neg noQuote, if_neg noBackslash, if_neg printed,
        count taken c]
      exact ih (takes.read found)
  | case6 text lexer ended =>
      rw [ahead_of_read_none ended, stringBody]
      exact .fault .nothing rfl takes rfl

theorem Meets.ite {p : Prop} [Decidable p] {yes no : Lexeme} {found other : Outcome × Lexer}
    (holds : p → Meets start yes found) (fails : ¬p → Meets start no other) :
    Meets start (if p then yes else no) (if p then found else other) := by
  split
  next here => exact holds here
  next here => exact fails here

/-- A lexer finds what the text in front of it begins with. -/
theorem meets_turn (separator : Separator) (found : start.read = some (c, next)) :
    Meets start (lexeme separator c next.ahead) (next.turn separator start.position c) := by
  have one := Takes.single found
  have sign (kind : TokenKind) :
      Meets start (.token kind none 1) (.ok (some ⟨kind, none, start.position⟩), next) :=
    .token one rfl
  unfold lexeme turn
  refine .ite (fun _ => sign _) fun _ => .ite (fun _ => .layout one rfl) fun _ =>
    .ite (fun _ => meets_comment found) fun _ => .ite (fun _ => sign _) fun _ =>
    .ite (fun _ => sign _) fun _ => .ite (fun _ => sign _) fun _ => .ite (fun _ => sign _) fun _ =>
    .ite (fun _ => sign _) fun _ => .ite (fun _ => sign _) fun _ => .ite (fun _ => sign _) fun _ =>
    .ite (fun _ => meets_string one []) fun _ => .ite (fun _ => meets_word found) fun _ =>
    .ite (fun _ => ?number) fun _ => ?signed
  case number => exact meets_number one (by simp) rfl
  case signed =>
    simp only [peek_eq]
    by_cases isSign : (decide (c = '-') || decide (c = '+')) = true
    · have peeked : Takes start [c] next.peek.2 := .trans one (takes_peek next)
      rw [if_pos isSign, isSign, Bool.true_and]
      refine .ite (fun _ => ?_) fun _ => .fault .nothing rfl peeked rfl
      rw [← ahead_peek next]
      exact meets_number peeked (by simp) rfl
    · rw [if_neg isSign, if_neg (by simp [isSign])]
      exact .fault .nothing rfl one rfl

theorem Meets.exists_takes {here : Lexeme} {turned : Outcome × Lexer}
    (meets : Meets start here turned) : ∃ taken, Takes start taken turned.2 := by
  cases meets with
  | layout takes | token takes | fault _ _ takes => exact ⟨_, takes⟩

/-!
## Tokens
-/

/-- A call for a token only reads and pushes back. -/
theorem exists_takes_nextToken (separator : Separator) (lexer : Lexer) :
    ∃ taken, Takes lexer taken (lexer.nextToken separator).2 := by
  fun_induction nextToken separator lexer with
  | case1 lexer c next found turned passed ih =>
      obtain ⟨front, passes⟩ := (meets_turn separator found).exists_takes
      obtain ⟨back, onward⟩ := ih
      exact ⟨front ++ back, passes.trans onward⟩
  | case2 lexer c next found => exact (meets_turn separator found).exists_takes
  | case3 lexer c next found => exact (meets_turn separator found).exists_takes
  | case4 => exact ⟨[], .nothing⟩

/-- What the characters ahead stand for is found in one turn, or behind what the turn passes. -/
theorem nextToken_cursor_of_read (separator : Separator) (found : lexer.read = some (c, next)) :
    lexer.cursor.nextToken separator =
      let turned := next.turn separator lexer.position c
      match turned.1 with
      | .ok none => turned.2.cursor.nextToken separator
      | .ok (some token) => (.ok token, turned.2.cursor)
      | .error fault => (.error fault, turned.2.cursor) := by
  have meets := meets_turn separator found
  have shorter := Nat.lt_of_le_of_lt (length_turn separator lexer.position c next)
    (length_of_read found)
  have split : lexer.cursor = ⟨c :: next.ahead, lexer.position⟩ := by
    rw [cursor, ahead_of_read found]
  rw [split, Cursor.nextToken, ← split]
  generalize next.turn separator lexer.position c = turned at meets shorter ⊢
  generalize lexeme separator c next.ahead = here at meets ⊢
  cases meets with
  | @layout _ taken later takes all =>
      rw [takes.isBehind.split, List.length_append] at shorter
      have some : 1 ≤ taken.length := by
        dsimp only at shorter
        omega
      simp only [← all, Nat.max_eq_right some, takes.cursor_eq]
  | token takes all => simp only [← all, takes.cursor_eq, split]
  | fault reaches before takes all =>
      simp only [← all, ← before, takes.cursor_eq, reaches.positionAt]

/-- Calls for the next token give what the characters ahead stand for, and take these. -/
theorem nextToken_eq (separator : Separator) (lexer : Lexer) :
    lexer.cursor.nextToken separator = Prod.map id cursor (lexer.nextToken separator) := by
  fun_induction nextToken separator lexer with
  | case1 lexer c next found turned passed ih =>
      simp only [turned] at passed
      simp only [nextToken_cursor_of_read separator found, passed]
      exact ih
  | case2 lexer c next found turned token given =>
      simp only [turned] at given
      simp only [nextToken_cursor_of_read separator found, given]
      rfl
  | case3 lexer c next found turned fault given =>
      simp only [turned] at given
      simp only [nextToken_cursor_of_read separator found, given]
      rfl
  | case4 lexer ended =>
      have nothing : lexer.cursor = ⟨[], lexer.position⟩ := by
        rw [cursor, ahead_of_read_none ended]
      rw [Prod.map, nothing, Cursor.nextToken]
      rfl

end Lexer

end GraphStore.Query
