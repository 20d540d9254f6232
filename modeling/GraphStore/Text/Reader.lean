import GraphStore.Text.Numeral

/-!
# Readers

Small readers of the front of a text, which are put together to readers of whole formats. A reader
that fails leaves the text to the next one that is tried.
-/

set_option autoImplicit false

namespace GraphStore.Text

/-- Reads something from the front of a text, or fails. -/
abbrev Reader (α : Type) := StateT (List Char) Option α

namespace Reader

def readAll? {α : Type} (reader : Reader α) (text : List Char) : Option α :=
  match reader text with
  | some (value, []) => some value
  | _ => none

def any : Reader Char := fun rest =>
  match rest with
  | [] => none
  | c :: rest => some (c, rest)

def sign (expected : Char) : Reader Unit := do
  if (← any) ≠ expected then failure

def word (expected : List Char) : Reader Unit := fun rest =>
  if expected.isPrefixOf rest then some ((), rest.drop expected.length) else none

/-- Reads all characters of a class, which may be none. -/
def takeWhile (accepted : Char → Bool) : Reader (List Char) := fun rest =>
  some (rest.takeWhile accepted, rest.dropWhile accepted)

/-- Reads all characters of a class, of which there must be at least one. -/
def takeSome (accepted : Char → Bool) : Reader (List Char) := do
  let found ← takeWhile accepted
  if found.isEmpty then failure
  return found

def skip (accepted : Char → Bool) : Reader Unit := do let _ ← takeWhile accepted

def digits (limit : Nat) : Reader (List Char) := fun rest =>
  let found := (rest.take limit).takeWhile Char.isDigit
  if found.isEmpty then none else some (found, rest.drop found.length)

def exactly (count : Nat) : Reader Nat := do
  let found ← digits count
  if found.length = count then return digitsValue found else failure

/-- Reads something that may be missing. -/
def perhaps {α : Type} (reader : Reader α) : Reader (Option α) :=
  (do return some (← reader)) <|> return none

/-- Reads something up to `limit` times. -/
def upTo {α : Type} (reader : Reader α) : (limit : Nat) → Reader (List α)
  | 0 => return []
  | limit + 1 => (do
      let value ← reader
      return value :: (← upTo reader limit)) <|> return []

/-- Reads something as often as it is there. Every round takes at least one character. -/
def many {α : Type} (reader : Reader α) : Reader (List α) := do
  upTo reader (← get).length

end Reader

end GraphStore.Text
