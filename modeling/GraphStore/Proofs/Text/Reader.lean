import GraphStore.Proofs.Text.Numeral
import GraphStore.Text.Reader
import Mathlib.Data.List.TakeWhile

/-!
# What readers read

Readers that are put together read the parts of a text one after the other.
-/

set_option autoImplicit false

namespace GraphStore.Text.Reader

variable {α β : Type} {reader : Reader α} {next : α → Reader β} {value : α} {result : β}
  {text rest last found : List Char} {c : Char} {limit : Nat} {accepted : Char → Bool}

/-- Whether a reader finds a value at the front of a text and leaves the rest. -/
def Reads (reader : Reader α) (text : List Char) (value : α) (rest : List Char) : Prop :=
  reader text = some (value, rest)

/-- Whether characters do not go on with one of a class. -/
def Ends (accepted : Char → Bool) (rest : List Char) : Prop := ∀ c ∈ rest.head?, accepted c = false

theorem ends_cons (notAccepted : accepted c = false) (rest : List Char) :
    Ends accepted (c :: rest) := by
  intro first given
  obtain rfl := Option.some.inj given
  exact notAccepted

theorem Reads.bind (first : Reads reader text value rest)
    (onward : Reads (next value) rest result last) : Reads (reader >>= next) text result last := by
  change (reader text).bind _ = _
  rw [first]
  exact onward

theorem reads_pure (value : α) (rest : List Char) : Reads (pure value) rest value rest := rfl

theorem reads_any (c : Char) (rest : List Char) : Reads any (c :: rest) c rest := rfl

theorem reads_sign (c : Char) (rest : List Char) : Reads (sign c) (c :: rest) () rest := by
  refine (reads_any c rest).bind ?_
  rw [if_neg (not_not_intro rfl)]
  exact reads_pure _ _

theorem sign_eq_none {expected : Char} (different : c ≠ expected) (rest : List Char) :
    sign expected (c :: rest) = none := by
  change (if c ≠ expected then failure else pure () : Reader Unit) rest = none
  rw [if_pos different]
  rfl

theorem takeWhile_append (all : ∀ c ∈ found, accepted c = true) (ends : Ends accepted rest) :
    (found ++ rest).takeWhile accepted = found ∧ (found ++ rest).dropWhile accepted = rest := by
  have nothing : rest.takeWhile accepted = [] ∧ rest.dropWhile accepted = rest := by
    cases rest with
    | nil => exact ⟨rfl, rfl⟩
    | cons c _ =>
        have notAccepted := ends c rfl
        exact ⟨List.takeWhile_cons_of_neg (by simp [notAccepted]),
          List.dropWhile_cons_of_neg (by simp [notAccepted])⟩
  rw [List.takeWhile_append_of_pos all, List.dropWhile_append_of_pos all, nothing.1, nothing.2,
    List.append_nil]
  exact ⟨rfl, rfl⟩

theorem reads_takeWhile (all : ∀ c ∈ found, accepted c = true) (ends : Ends accepted rest) :
    Reads (takeWhile accepted) (found ++ rest) found rest := by
  obtain ⟨taken, dropped⟩ := takeWhile_append all ends
  rw [Reads, takeWhile, taken, dropped]

theorem reads_takeSome (some : found ≠ []) (all : ∀ c ∈ found, accepted c = true)
    (ends : Ends accepted rest) : Reads (takeSome accepted) (found ++ rest) found rest := by
  refine (reads_takeWhile all ends).bind ?_
  rw [if_neg (by simpa using some)]
  exact reads_pure _ _

theorem reads_skip (all : ∀ c ∈ found, accepted c = true) (ends : Ends accepted rest) :
    Reads (skip accepted) (found ++ rest) () rest :=
  (reads_takeWhile all ends).bind (reads_pure _ _)

theorem reads_skip_nothing (ends : Ends accepted rest) : Reads (skip accepted) rest () rest := by
  have none : ∀ c ∈ ([] : List Char), accepted c = true := nofun
  exact reads_skip none ends

/-- Digits are read up to another character or up to the limit. -/
theorem reads_digits (some : found ≠ []) (areDigits : ∀ c ∈ found, c.isDigit = true)
    (ends : found.length = limit ∨ found.length ≤ limit ∧ Ends Char.isDigit rest) :
    Reads (digits limit) (found ++ rest) found rest := by
  have taken : ((found ++ rest).take limit).takeWhile Char.isDigit = found := by
    rcases ends with full | ⟨short, ends⟩
    · rw [List.take_left' full, List.takeWhile_eq_self_iff.mpr areDigits]
    · rw [List.take_append, List.take_of_length_le short]
      refine (takeWhile_append areDigits fun c first => ends c ?_).1
      rw [List.head?_take] at first
      split at first
      · cases first
      · exact first
  have filled : found.isEmpty = false := by simpa using some
  simp only [Reads, digits, taken, filled]
  simp

theorem reads_perhaps (reads : Reads reader text value rest) :
    Reads (perhaps reader) text (some value) rest := by
  have first : (do return some (← reader) : Reader (Option α)) text = some (some value, rest) :=
    reads.bind (reads_pure _ _)
  change ((do return some (← reader) : Reader (Option α)) text <|> some (none, text)) = _
  rw [first]
  rfl

theorem reads_perhaps_none (nothing : reader text = none) :
    Reads (perhaps reader) text none text := by
  have first : (do return some (← reader) : Reader (Option α)) text = none := by
    change (reader text).bind _ = none
    rw [nothing]
    rfl
  change ((do return some (← reader) : Reader (Option α)) text <|> some (none, text)) = _
  rw [first]
  rfl

theorem Reads.readAll? (reads : Reads reader text value []) : reader.readAll? text = some value := by
  rw [Reader.readAll?, reads]

end GraphStore.Text.Reader
