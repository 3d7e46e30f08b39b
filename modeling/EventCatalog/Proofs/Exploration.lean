import Mathlib.Data.List.Sort
import EventCatalog.Pattern.Automaton

/-!
# Exploring an automaton by lists

The states of an automaton that have been seen are kept in a hash set, which finds them fast. What counts is only
which states they are and how many (`Regex.IsSetOf`), so the exploration can be gone through with a list in its
place (`Regex.isTooLarge_eq`). There nothing is hashed, and small automata can be explored by evaluation.
-/

namespace EventCatalog.Regex

/-! ### Sorting -/

/-- A stable sort is an insertion sort. -/
theorem mergeSort_eq_insertionSort {α : Type} {key : α → Nat} (l : List α) :
    l.mergeSort (fun a b => key a ≤ key b) = l.insertionSort fun a b => key a ≤ key b := by
  have htrans : ∀ a b c : α, decide (key a ≤ key b) = true → decide (key b ≤ key c) = true →
      decide (key a ≤ key c) = true := by
    simpa using fun a b c => Nat.le_trans
  have htotal : ∀ a b : α, (decide (key a ≤ key b) || decide (key b ≤ key a)) = true := by
    simpa using fun a b => Nat.le_total (key a) (key b)
  induction l with
  | nil => exact List.mergeSort_nil
  | cons a l ih =>
    obtain ⟨l₁, l₂, hcons, hl, hlt⟩ := List.mergeSort_cons htrans htotal a l
    have hsorted := List.pairwise_mergeSort htrans htotal (a :: l)
    rw [hcons] at hsorted ⊢
    -- by induction the rest is sorted by insertion already
    rw [List.insertionSort_cons, ← ih, hl]
    -- the element goes behind all that are smaller
    clear hcons hl ih
    induction l₁ with
    | nil =>
      cases l₂ with
      | nil => rfl
      | cons b l₂ =>
        have hle := (List.pairwise_cons.1 hsorted).1 b List.mem_cons_self
        exact (List.orderedInsert_cons_of_le _ _ (by simpa using hle)).symm
    | cons b l₁ ih =>
      have hgt := hlt b List.mem_cons_self
      rw [List.cons_append, List.cons_append, List.orderedInsert_cons, if_neg (by simpa using hgt),
        ← ih (fun c hc => hlt c (List.mem_cons_of_mem b hc)) (List.pairwise_cons.1 hsorted).2]

/-! ### Sets and lists -/

/-- A list has the members of a set, each once. -/
structure IsSetOf {α : Type} [BEq α] [Hashable α] (s : Std.HashSet α) (l : List α) : Prop where
  contains_eq : ∀ a, s.contains a = l.contains a
  size_eq : s.size = l.length

/-- A new member is put in front. -/
theorem IsSetOf.insert {α : Type} [BEq α] [Hashable α] [LawfulBEq α] {s : Std.HashSet α} {l : List α}
    (h : IsSetOf s l) {a : α} (ha : s.contains a = false) : IsSetOf (s.insert a) (a :: l) where
  contains_eq := by
    intro b
    rw [Std.HashSet.contains_insert, h.contains_eq, List.contains_cons, BEq.comm]
  size_eq := by
    rw [Std.HashSet.size_insert, if_neg (by rw [← Std.HashSet.contains_iff_mem, ha]; exact Bool.false_ne_true),
      h.size_eq, List.length_cons]

/-! ### The exploration -/

/-- Whether some atom tells the byte from the one before. -/
def isCut (r : Regex) (n : Nat) : Bool :=
  r.any fun a => a.sequences.any fun s => s.any fun b => b.1 == n || b.2 + 1 == n

/-- If each step of a fold adds the members that belong to an element of a list, the fold adds those of all. -/
theorem contains_foldl {α β : Type} [BEq α] [Hashable α] {add : Std.HashSet α → β → Std.HashSet α}
    {member : β → α → Bool} (hadd : ∀ acc b a, (add acc b).contains a = (acc.contains a || member b a))
    (acc : Std.HashSet α) (l : List β) (a : α) :
    (l.foldl add acc).contains a = (acc.contains a || l.any fun b => member b a) := by
  induction l generalizing acc with
  | nil => rw [List.foldl_nil, List.any_nil, Bool.or_false]
  | cons b l ih => rw [List.foldl_cons, ih, hadd, List.any_cons, Bool.or_assoc]

theorem representatives_eq (r : Regex) : representatives r = (List.range 256).filter r.isCut := by
  have hrange : ∀ (acc : Std.HashSet Nat) (b : ByteRange) (n : Nat),
      ((acc.insert b.1).insert (b.2 + 1)).contains n = (acc.contains n || (b.1 == n || b.2 + 1 == n)) := by
    intro acc b n
    rw [Std.HashSet.contains_insert, Std.HashSet.contains_insert]
    ac_rfl
  -- the cuts are collected range by range, sequence by sequence and atom by atom
  have hcuts := contains_foldl fun acc (a : Atom) => contains_foldl (contains_foldl hrange) acc a.sequences
  refine List.filter_congr fun n _ => (hcuts ∅ r n).trans ?_
  rw [Std.HashSet.contains_empty, Bool.false_or]
  rfl

/-- As `normalize`, by insertion. -/
def insertAll (places : List Place) : List Place :=
  (places.insertionSort fun a b =>
      (a.left * 16 + a.sequence) * 8 + a.behind ≤ (b.left * 16 + b.sequence) * 8 + b.behind).foldr
    (fun p acc => if acc.head? = some p then acc else p :: acc) []

theorem normalize_eq (places : List Place) : normalize places = insertAll places := by
  rw [normalize, mergeSort_eq_insertionSort]
  rfl

/-- As `visit`, with a list of the states that have been seen. -/
def visitList (r : Regex) (state : List Place) (acc : List (List Place) × List (List Place))
    (byte : Nat) : List (List Place) × List (List Place) :=
  let next := insertAll (state.flatMap fun p => p.step byte (r.drop (r.length - p.left)))
  if next.isEmpty || acc.2.contains next || acc.2.length > stateLimit then acc
  else (next :: acc.1, next :: acc.2)

/-- As `exploring`, with a list of the states that have been seen. -/
def exploringList (r : Regex) (bytes : List Nat) :
    Nat → List (List Place) → List (List Place) → Bool
  | 0, _, _ => true
  | _ + 1, [], _ => false
  | fuel + 1, state :: pending, seen =>
    let acc := bytes.foldl (visitList r state) (pending, seen)
    if acc.2.length > stateLimit then true else exploringList r bytes fuel acc.1 acc.2

/-- As `isTooLarge`, with a list of the states that have been seen. -/
def isTooLargeList (r : Regex) : Bool :=
  let start := insertAll (closure r)
  exploringList r ((List.range 256).filter r.isCut) (stateLimit + 2) [start] [start]

/-- The same states are pending, and the same have been seen. -/
def IsSame (acc : List (List Place) × Std.HashSet (List Place)) (acc' : List (List Place) × List (List Place)) :
    Prop := acc.1 = acc'.1 ∧ IsSetOf acc.2 acc'.2

theorem isSame_visit {r : Regex} {state : List Place} {acc : List (List Place) × Std.HashSet (List Place)}
    {acc' : List (List Place) × List (List Place)} (h : IsSame acc acc') (byte : Nat) :
    IsSame (visit r state acc byte) (visitList r state acc' byte) := by
  obtain ⟨hpending, hseen⟩ := h
  unfold visit visitList
  simp only [normalize_eq, hseen.contains_eq, hseen.size_eq]
  split
  · exact ⟨hpending, hseen⟩
  · next hnew =>
    -- it is new to the set, so the list has it only once
    simp only [Bool.or_eq_true, not_or, Bool.not_eq_true, ← hseen.contains_eq] at hnew
    exact ⟨congrArg _ hpending, hseen.insert hnew.1.2⟩

theorem exploring_eq {r : Regex} {bytes : List Nat} (fuel : Nat) {pending : List (List Place)}
    {s : Std.HashSet (List Place)} {l : List (List Place)} (h : IsSetOf s l) :
    exploring r bytes fuel pending s = exploringList r bytes fuel pending l := by
  induction fuel generalizing pending s l with
  | zero => rfl
  | succ fuel ih =>
    cases pending with
    | nil => rfl
    | cons state pending =>
      -- the states behind one state are visited byte by byte, which keeps set and list together
      have hsame : IsSame (bytes.foldl (visit r state) (pending, s)) (bytes.foldl (visitList r state) (pending, l)) :=
        List.foldl_rel ⟨rfl, h⟩ fun byte _ acc acc' hacc => isSame_visit hacc byte
      simp only [exploring, exploringList, hsame.1, hsame.2.size_eq, ih hsame.2]

/-- **Exploring by lists** decides whether an automaton is too large. -/
theorem isTooLarge_eq (r : Regex) : r.isTooLarge = r.isTooLargeList := by
  have hstart : IsSetOf (Std.HashSet.insert ∅ (insertAll (closure r))) [insertAll (closure r)] :=
    IsSetOf.insert (s := ∅) (l := []) ⟨fun a => by simp, by simp⟩ (by simp)
  rw [isTooLarge, normalize_eq, representatives_eq]
  exact exploring_eq (stateLimit + 2) hstart

/-- The expression for a single letter is small. -/
example : (containing ['a']).isTooLarge = false := by
  rw [isTooLarge_eq]
  decide +kernel

end EventCatalog.Regex
