import Std.Data.HashSet
import EventCatalog.Pattern.Regex

/-!
# The size of an expression's automaton

An expression is refused when its deterministic automaton over the bytes of UTF-8 has more than
1000 states. The states are sets of *places*: before an atom, or inside a character of it after one
byte or more. They are explored from the start, each once, until none is left or the limit is
passed.
-/

namespace EventCatalog.Regex

/-- The largest number of states that is accepted. -/
def stateLimit : Nat := 1000

/-- A closed range of bytes. -/
abbrev ByteRange := Nat × Nat

/-- The bytes of a character in UTF-8. -/
def utf8 (c : Char) : List Nat := (String.utf8EncodeChar c).map UInt8.toNat

/-- The byte sequences of all characters but the line feed, by ranges. -/
def anySequences : List (List ByteRange) := [
  [(0x00, 0x09)], [(0x0B, 0x7F)],
  [(0xC2, 0xDF), (0x80, 0xBF)],
  [(0xE0, 0xE0), (0xA0, 0xBF), (0x80, 0xBF)],
  [(0xE1, 0xEC), (0x80, 0xBF), (0x80, 0xBF)],
  [(0xED, 0xED), (0x80, 0x9F), (0x80, 0xBF)],
  [(0xEE, 0xEF), (0x80, 0xBF), (0x80, 0xBF)],
  [(0xF0, 0xF0), (0x90, 0xBF), (0x80, 0xBF), (0x80, 0xBF)],
  [(0xF1, 0xF3), (0x80, 0xBF), (0x80, 0xBF), (0x80, 0xBF)],
  [(0xF4, 0xF4), (0x80, 0x8F), (0x80, 0xBF), (0x80, 0xBF)]]

/-- The byte sequences of one character that the atom accepts. -/
def Atom.sequences : Atom → List (List ByteRange)
  | .char c => [(utf8 c).map fun b => (b, b)]
  | _ => anySequences

/-- A place: the number of atoms from it to the end, and, inside a character, which of the atom's
byte sequences it is in and how many bytes of it are behind. -/
structure Place where
  left : Nat
  sequence : Nat
  behind : Nat
deriving DecidableEq, Hashable, Repr

/-- The places that can be reached from before an expression without reading. -/
def closure : Regex → List Place
  | [] => [⟨0, 0, 0⟩]
  | .anyStar :: r => ⟨r.length + 1, 0, 0⟩ :: closure r
  | _ :: r => [⟨r.length + 1, 0, 0⟩]

/-- The places after one byte at a place of an expression, whose end from the place on is given. -/
def Place.step (byte : Nat) (p : Place) : Regex → List Place
  | [] => []
  | a :: r =>
    let behindAtom := match a with
      | .anyStar => closure (a :: r)
      | _ => closure r
    let advance := fun (k : Nat) (sequence : List ByteRange) =>
      match sequence.drop p.behind with
      | [] => []
      | (lo, hi) :: rest =>
        if lo ≤ byte && byte ≤ hi then
          if rest.isEmpty then behindAtom else [⟨p.left, k, p.behind + 1⟩]
        else []
    if p.behind = 0 then
      (a.sequences.zipIdx.map fun q => advance q.2 q.1).flatten
    else match a.sequences[p.sequence]? with
      | some sequence => advance p.sequence sequence
      | none => []

/-- One representative for each set of bytes that no atom tells apart. -/
def representatives (r : Regex) : List Nat :=
  let cuts := r.foldl (fun acc a => a.sequences.foldl
    (fun acc s => s.foldl (fun acc b => (acc.insert b.1).insert (b.2 + 1)) acc) acc)
    (∅ : Std.HashSet Nat)
  (List.range 256).filter cuts.contains

/-- A set of places in a standard order without repetitions. -/
def normalize (places : List Place) : List Place :=
  let key := fun (p : Place) => (p.left * 16 + p.sequence) * 8 + p.behind
  (places.mergeSort fun a b => key a ≤ key b).foldr
    (fun p acc => if acc.head? = some p then acc else p :: acc) []

/-- Adds the state that a byte leads to, if it is new, to those still to be expanded and to those
seen. -/
def visit (r : Regex) (state : List Place)
    (acc : List (List Place) × Std.HashSet (List Place)) (byte : Nat) :
    List (List Place) × Std.HashSet (List Place) :=
  let next := normalize (state.flatMap fun p => p.step byte (r.drop (r.length - p.left)))
  if next.isEmpty || acc.2.contains next || acc.2.size > stateLimit then acc
  else (next :: acc.1, acc.2.insert next)

/-- Explores the states that are still to be expanded; whether the limit is passed. -/
def exploring (r : Regex) (bytes : List Nat) :
    Nat → List (List Place) → Std.HashSet (List Place) → Bool
  | 0, _, _ => true
  | _ + 1, [], _ => false
  | fuel + 1, state :: pending, seen =>
    let (pending, seen) := bytes.foldl (visit r state) (pending, seen)
    if seen.size > stateLimit then true else exploring r bytes fuel pending seen

/-- Whether the automaton of the expression has more states than are accepted. -/
def isTooLarge (r : Regex) : Bool :=
  let start := normalize (closure r)
  exploring r (representatives r) (stateLimit + 2) [start] (Std.HashSet.insert ∅ start)

end EventCatalog.Regex
