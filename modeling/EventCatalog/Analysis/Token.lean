/-!
# Tokens

What an analyzer cuts a text into. Positions count tokens, with gaps where the analyzer left
something out; phrases compare them.
-/

namespace EventCatalog.Analysis

/-- A piece of an analyzed text. -/
structure Token where
  text : List Char
  /-- The byte of the text at which the token's source starts. -/
  start : Nat
  /-- The byte of the text before which the token's source ends. -/
  stop : Nat
  position : Nat
deriving DecidableEq, Repr, Inhabited

/-- The number of bytes of a text in UTF-8. -/
def byteLength : List Char → Nat
  | [] => 0
  | c :: s => c.utf8Size + byteLength s

@[simp] theorem byteLength_nil : byteLength [] = 0 := rfl

@[simp] theorem byteLength_cons (c : Char) (s : List Char) :
    byteLength (c :: s) = c.utf8Size + byteLength s := rfl

@[simp] theorem byteLength_append (s t : List Char) :
    byteLength (s ++ t) = byteLength s + byteLength t := by
  induction s with
  | nil => simp
  | cons c s ih => simp [ih, Nat.add_assoc]

/-- A character has four bytes at most. -/
theorem byteLength_le (s : List Char) : byteLength s ≤ 4 * s.length := by
  induction s with
  | nil => exact Nat.le_refl _
  | cons c s ih =>
    have hc := c.utf8Size_le_four
    rw [byteLength_cons, List.length_cons]
    omega

end EventCatalog.Analysis
