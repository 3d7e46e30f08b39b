import EventCatalog.Json.Decode

/-!
# Unique identifiers

A `Uuid` is a number of 128 bits. It is written as 32 lower-case hexadecimal digits in groups of
8, 4, 4, 4 and 12; it is read in that form, without the hyphens, in braces, or behind `urn:uuid:`,
in either case.
-/

namespace EventCatalog

/-- A unique identifier. -/
structure Uuid where
  value : BitVec 128
deriving DecidableEq, Repr, Inhabited

namespace Uuid

/-- The identifier whose number is `n`. -/
def ofNat (n : Nat) : Uuid := ⟨BitVec.ofNat 128 n⟩

/-- The number of the identifier. -/
def toNat (u : Uuid) : Nat := u.value.toNat

/-- The identifier of nothing. -/
def nil : Uuid := ofNat 0

/-- The last `k` hexadecimal digits of `n`. -/
def hexDigits : Nat → Nat → List Char
  | 0, _ => []
  | k + 1, n => hexDigits k (n / 16) ++ [Nat.digitChar (n % 16)]

/-- Puts a hyphen in front of a group of digits. -/
def hyphenated (ds : List Char) : List Char :=
  ds.take 8 ++ '-' :: (ds.drop 8).take 4 ++ '-' :: (ds.drop 12).take 4 ++
    '-' :: (ds.drop 16).take 4 ++ '-' :: ds.drop 20

/-- The written form. -/
def render (u : Uuid) : String := String.ofList (hyphenated (hexDigits 32 u.toNat))

instance : ToString Uuid := ⟨render⟩

/-- The number of hexadecimal digits, if there is nothing else. -/
def hexNumber? (ds : List Char) : Option Nat :=
  ds.foldlM (fun n c => (Json.hexValue? c).map fun d => 16 * n + d) 0

/-- Reads 32 digits. -/
def ofDigits? (ds : List Char) : Option Uuid := (hexNumber? ds).map ofNat

/-- Reads 36 characters with the hyphens at their places. -/
def ofHyphenated? (s : List Char) : Option Uuid :=
  if s.length = 36 ∧ s[8]? = some '-' ∧ s[13]? = some '-' ∧ s[18]? = some '-' ∧
      s[23]? = some '-' then
    ofDigits? (s.take 8 ++ (s.drop 9).take 4 ++ (s.drop 14).take 4 ++ (s.drop 19).take 4 ++
      s.drop 24)
  else none

/-- Reads any of the accepted forms. -/
def ofText? (s : String) : Option Uuid :=
  let cs := s.toList
  if cs.length = 32 then ofDigits? cs
  else if cs.length = 36 then ofHyphenated? cs
  else if cs.length = 38 then
    if cs.head? = some '\x7b' ∧ cs.getLast? = some '\x7d' then
      ofHyphenated? ((cs.drop 1).take 36)
    else none
  else if cs.take 9 = ['u', 'r', 'n', ':', 'u', 'u', 'i', 'd', ':'] then
    ofHyphenated? (cs.drop 9)
  else none

/-- An identifier as JSON: its written form. -/
def toJson (u : Uuid) : Json := .str u.render

/-- Decodes an identifier. -/
def decoder : Json.Decoder Uuid
  | .str s =>
    match ofText? s with
    | some u => .ok u
    | none => .error (.unreadable ("no identifier: " ++ s))
  | v => Json.wrongType "a formatted UUID string" v

/-- Identifiers are ordered by their numbers. -/
instance : Ord Uuid := ⟨fun a b => compare a.toNat b.toNat⟩

end Uuid

end EventCatalog
