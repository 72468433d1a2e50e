import PostureAudit.Text.Basic

set_option autoImplicit false

/-! # Blanks

The blanks are the characters with the Unicode property White_Space. Trimming removes them from
both ends. A zero-width space and a byte order mark are no blanks. -/

namespace PostureAudit

/-- Holds of the characters with the property White_Space. -/
def isBlank (c : Char) : Bool :=
  let n := c.toNat
  (0x09 ≤ n && n ≤ 0x0D) || n == 0x20 || n == 0x85 || n == 0xA0 || n == 0x1680 ||
    (0x2000 ≤ n && n ≤ 0x200A) || n == 0x2028 || n == 0x2029 || n == 0x202F || n == 0x205F ||
    n == 0x3000

@[simp] theorem isBlank_space : isBlank ' ' = true := by decide

namespace Text

/-- The text without the blanks it starts with. -/
def dropBlanks (t : Text) : Text := t.dropWhile isBlank

/-- The text without the blanks at either end. -/
def trim (t : Text) : Text := (dropBlanks (dropBlanks t).reverse).reverse

end Text

end PostureAudit
