import EventCatalog.Text.Printable

/-!
# Quoted text

A text is shown in messages between double quotes, so that blanks and control characters can be
seen. The quote and the backslash are written with a backslash before them, the usual controls by
their letters, and every character that cannot be shown as it is by its code point.
-/

namespace EventCatalog.Text.Quoted

/-- The lower-case hexadecimal digits of `n`. -/
def hex (n : Nat) : List Char := Nat.toDigits 16 n

/-- One character as it stands between the quotes. -/
def encodeChar (c : Char) : List Char :=
  match c with
  | '"' => ['\\', '"']
  | '\\' => ['\\', '\\']
  | '\n' => ['\\', 'n']
  | '\r' => ['\\', 'r']
  | '\t' => ['\\', 't']
  | '\x00' => ['\\', '0']
  | c => if isPrintable c then [c] else ['\\', 'u', '\x7b'] ++ hex c.toNat ++ ['\x7d']

/-- The text between the quotes. -/
def encode (s : List Char) : List Char := s.flatMap encodeChar

end EventCatalog.Text.Quoted

namespace EventCatalog.Text

/-- The text `s` between double quotes. -/
def quoted (s : String) : String :=
  String.ofList ('"' :: Quoted.encode s.toList ++ ['"'])

end EventCatalog.Text
