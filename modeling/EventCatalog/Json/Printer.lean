import EventCatalog.Decimal.Notation
import EventCatalog.Json.Value

/-!
# Writing JSON

`Json.render` writes a value without blanks, `Json.renderIndented` on lines of their own for the
eye. Only the quote, the backslash and the control characters are escaped.
-/

namespace EventCatalog.Json

/-- The hexadecimal digit of a number below 16. -/
def hexDigit (n : Nat) : Char := Nat.digitChar n

/-- One character as it stands in a string. -/
def escapeChar (c : Char) : List Char :=
  if c = '"' then ['\\', '"']
  else if c = '\\' then ['\\', '\\']
  else if c = '\n' then ['\\', 'n']
  else if c = '\r' then ['\\', 'r']
  else if c = '\t' then ['\\', 't']
  else if c = '\x08' then ['\\', 'b']
  else if c = '\x0c' then ['\\', 'f']
  else if c.toNat < 0x20 then
    ['\\', 'u', '0', '0', hexDigit (c.toNat / 16), hexDigit (c.toNat % 16)]
  else [c]

/-- A string with its quotes. -/
def renderString (s : String) : List Char :=
  '"' :: s.toList.flatMap escapeChar ++ ['"']

/-- A whole number. -/
def renderInt (n : Int) : List Char :=
  if n < 0 then '-' :: Nat.toDigits 10 n.natAbs else Nat.toDigits 10 n.natAbs

mutual

/-- The characters of a value. -/
def renderChars : Json → List Char
  | .null | .malformed => ['n', 'u', 'l', 'l']
  | .bool true => ['t', 'r', 'u', 'e']
  | .bool false => ['f', 'a', 'l', 's', 'e']
  | .int n => renderInt n
  | .real x =>
    if x.isNaN || x.isInf then ['n', 'u', 'l', 'l'] else (Decimal.message x).toList
  | .str s => renderString s
  | .arr items => '[' :: renderItems items ++ [']']
  | .obj fields => '\x7b' :: renderFields fields ++ ['\x7d']

/-- Items with commas between them. -/
def renderItems : List Json → List Char
  | [] => []
  | [v] => renderChars v
  | v :: w :: rest => renderChars v ++ ',' :: renderItems (w :: rest)

/-- Fields with commas between them. -/
def renderFields : List (String × Json) → List Char
  | [] => []
  | [(k, v)] => renderString k ++ ':' :: renderChars v
  | (k, v) :: f :: rest => renderString k ++ ':' :: renderChars v ++ ',' :: renderFields (f :: rest)

end

/-- The text of a value. -/
def render (v : Json) : String := String.ofList (renderChars v)

/-- A new line at a depth of indentation. -/
def newLine (depth : Nat) : List Char := '\n' :: List.replicate (2 * depth) ' '

mutual

/-- The characters of a value whose inside is indented to a depth. -/
def indentedChars (depth : Nat) : Json → List Char
  | .arr (v :: rest) => '[' :: indentedItems depth (v :: rest) ++ newLine (depth - 1) ++ [']']
  | .obj (f :: rest) =>
    '\x7b' :: indentedFields depth (f :: rest) ++ newLine (depth - 1) ++ ['\x7d']
  | v => renderChars v

/-- Items, each on a line of its own. -/
def indentedItems (depth : Nat) : List Json → List Char
  | [] => []
  | [v] => newLine depth ++ indentedChars (depth + 1) v
  | v :: w :: rest =>
    newLine depth ++ indentedChars (depth + 1) v ++ ',' :: indentedItems depth (w :: rest)

/-- Fields, each on a line of its own. -/
def indentedFields (depth : Nat) : List (String × Json) → List Char
  | [] => []
  | [(k, v)] => newLine depth ++ renderString k ++ ':' :: ' ' :: indentedChars (depth + 1) v
  | (k, v) :: f :: rest =>
    newLine depth ++ renderString k ++ ':' :: ' ' :: indentedChars (depth + 1) v ++
      ',' :: indentedFields depth (f :: rest)

end

/-- The text of a value with every item and every field on a line of its own. -/
def renderIndented (v : Json) : String := String.ofList (indentedChars 1 v)

end EventCatalog.Json
