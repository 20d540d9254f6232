import GraphStore.Text.Printable

/-!
# Quoted text

How messages show a text or a character: between quotes, with every character that would not be
seen as itself written by name or by number.
-/

set_option autoImplicit false

namespace GraphStore.Text

def hexDigits (n : Nat) : String := String.ofList (Nat.toDigits 16 n)

/-- The digits of a number to base 16, filled up with zeros on the left to at least `width`. -/
def paddedHexDigits (width n : Nat) : String :=
  let digits := Nat.toDigits 16 n
  String.ofList (List.replicate (width - digits.length) '0' ++ digits)

/-- A character as it stands between the given quotes. Only the enclosing quote is escaped. -/
def quotedChar (quote c : Char) : List Char :=
  if c = '\x00' then ['\\', '0']
  else if c = '\t' then ['\\', 't']
  else if c = '\r' then ['\\', 'r']
  else if c = '\n' then ['\\', 'n']
  else if c = '\\' then ['\\', '\\']
  else if c = quote then ['\\', quote]
  else if isAttaching c || !isPrintable c then
    ['\\', 'u', '{'] ++ Nat.toDigits 16 c.toNat ++ ['}']
  else [c]

def quoted (text : String) : String :=
  String.ofList ('"' :: text.toList.flatMap (quotedChar '"') ++ ['"'])

def quotedCharacter (c : Char) : String :=
  String.ofList ('\'' :: quotedChar '\'' c ++ ['\''])

end GraphStore.Text
