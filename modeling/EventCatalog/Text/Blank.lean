import EventCatalog.Text.Ranges

/-!
# Blanks

A character is blank when Unicode gives it the property White_Space.
-/

namespace EventCatalog.Text

/-- The blank code points. -/
def blankRanges : Array Range := #[
  (0x9, 0xD), (0x20, 0x20), (0x85, 0x85), (0xA0, 0xA0), (0x1680, 0x1680), (0x2000, 0x200A),
  (0x2028, 0x2029), (0x202F, 0x202F), (0x205F, 0x205F), (0x3000, 0x3000)]

/-- Whether `c` is a blank. -/
def isBlank (c : Char) : Bool := inRanges blankRanges c.toNat

/-- The text from its first non-blank character on. -/
def trimStart (s : List Char) : List Char := s.dropWhile isBlank

/-- The text between its first and its last non-blank character. -/
def trim (s : List Char) : List Char := (trimStart (trimStart s).reverse).reverse

end EventCatalog.Text
