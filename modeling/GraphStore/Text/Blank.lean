/-!
# Blank characters

The characters with the Unicode property White_Space, the control characters, and trimming.
-/

set_option autoImplicit false

namespace GraphStore.Text

def isBlank (c : Char) : Bool :=
  let code := c.toNat
  (0x09 ≤ code && code ≤ 0x0D) || code == 0x20 || code == 0x85 || code == 0xA0 || code == 0x1680 ||
    (0x2000 ≤ code && code ≤ 0x200A) || code == 0x2028 || code == 0x2029 || code == 0x202F ||
    code == 0x205F || code == 0x3000

def isControl (c : Char) : Bool :=
  let code := c.toNat
  code ≤ 0x1F || (0x7F ≤ code && code ≤ 0x9F)

def isAllBlank (text : String) : Bool := text.toList.all isBlank

/-- A text without the blank characters at its two ends. -/
def trim (text : String) : String :=
  String.ofList
    ((text.toList.dropWhile isBlank).reverse.dropWhile isBlank).reverse

end GraphStore.Text
