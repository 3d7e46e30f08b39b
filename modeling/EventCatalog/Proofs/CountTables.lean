import Mathlib.Algebra.GroupWithZero.Nat
import EventCatalog.Proofs.StructuredFilters

/-!
# Counts of severities

Each segment counts the codes of its severities in a table, and the tables of the segments are added up. A key has one
place in a table, so it matters neither in which order numbers are added to it nor of which segment they are: what comes
out are the counts of all codes together (`Snapshot.mergeCounts_eq`), of which `Snapshot.countSeverities` is the plain
account.

What a segment has counted is known from how much it has of the keys that satisfy a test, whatever the test is
(`weight_codeCounts`). The table of the severities is known entirely, as there are only so many of them: it has those
that count for something, in their order (`addCount_table`).
-/

namespace EventCatalog

/-! ### Tables -/

section

variable {κ : Type}

/-- What a table has of the keys that satisfy a test. -/
def weight (test : κ → Bool) (counts : List (κ × Nat)) : Nat := ((counts.filter (test ·.1)).map Prod.snd).sum

/-- The table of numbers for keys, without zeros. -/
def table (keys : List κ) (number : κ → Nat) : List (κ × Nat) :=
  (keys.map fun k => (k, number k)).filter fun p => p.2 != 0

@[simp] theorem weight_nil (test : κ → Bool) : weight test [] = 0 := rfl

@[simp] theorem weight_cons (test : κ → Bool) (p : κ × Nat) (counts : List (κ × Nat)) :
    weight test (p :: counts) = (if test p.1 then p.2 else 0) + weight test counts := by
  unfold weight
  rw [List.filter_cons]
  split
  · rw [List.map_cons, List.sum_cons]
  · rw [Nat.zero_add]

theorem weight_append (test : κ → Bool) (counts counts' : List (κ × Nat)) :
    weight test (counts ++ counts') = weight test counts + weight test counts' := by
  rw [weight, List.filter_append, List.map_append, List.sum_append]
  rfl

theorem table_cons (k : κ) (keys : List κ) (number : κ → Nat) :
    table (k :: keys) number = if number k = 0 then table keys number else (k, number k) :: table keys number := by
  unfold table
  rw [List.map_cons, List.filter_cons]
  split
  · next h => rw [if_neg (bne_iff_ne.1 h)]
  · next h => rw [if_pos (Decidable.of_not_not (mt bne_iff_ne.2 h))]

theorem table_congr {keys : List κ} {number number' : κ → Nat} (h : ∀ k ∈ keys, number k = number' k) :
    table keys number = table keys number' := by
  unfold table
  rw [List.map_congr_left fun k hk => by rw [h k hk]]

theorem mem_of_mem_table {keys : List κ} {number : κ → Nat} {p : κ × Nat} (h : p ∈ table keys number) :
    p.1 ∈ keys := by
  obtain ⟨k, hk, rfl⟩ := List.mem_map.1 (List.mem_filter.1 h).1
  exact hk

end

namespace Snapshot

section

variable {κ : Type} [Ord κ]

/-- What is added to a key adds to the keys that satisfy a test, if it is one of them. -/
theorem weight_addCount [Std.LawfulEqOrd κ] (test : κ → Bool) (key : κ) (n : Nat) (counts : List (κ × Nat)) :
    weight test (addCount key n counts) = weight test counts + if test key then n else 0 := by
  induction counts with
  | nil => rw [addCount, weight_cons, Nat.add_comm]
  | cons p rest ih =>
    obtain ⟨k, m⟩ := p
    rw [addCount]
    split
    · rw [weight_cons, Nat.add_comm]
    · next heq =>
      -- the key has its place already, where the number is added
      obtain rfl := Std.LawfulEqCmp.eq_of_compare heq
      rw [weight_cons, weight_cons]
      split <;> omega
    · rw [weight_cons, weight_cons, ih, Nat.add_assoc]

/-- Nothing that is added is left out, so a table without zeros stays one. -/
theorem pos_of_mem_addCount {key : κ} {n : Nat} (hn : 0 < n) {counts : List (κ × Nat)}
    (h : ∀ p ∈ counts, 0 < p.2) : ∀ p ∈ addCount key n counts, 0 < p.2 := by
  induction counts with
  | nil => exact List.forall_mem_singleton.2 hn
  | cons q rest ih =>
    obtain ⟨k, m⟩ := q
    obtain ⟨hq, hrest⟩ := List.forall_mem_cons.1 h
    rw [addCount]
    split
    · exact List.forall_mem_cons.2 ⟨hn, h⟩
    -- the key is new and comes first, is the first one, or goes somewhere behind it
    · exact List.forall_mem_cons.2 ⟨Nat.add_pos_left hq n, hrest⟩
    · exact List.forall_mem_cons.2 ⟨hq, ih hrest⟩

/-- A key that is smaller than those of a table is put before them. -/
theorem addCount_of_lt {key : κ} {n : Nat} {counts : List (κ × Nat)} (h : ∀ p ∈ counts, compare key p.1 = .lt) :
    addCount key n counts = (key, n) :: counts := by
  cases counts with
  | nil => rfl
  | cons p rest => rw [addCount, h p List.mem_cons_self]

/-- **Adding to a table of all keys** adds to the number of the key. -/
theorem addCount_table [Std.LawfulEqOrd κ] [Std.OrientedOrd κ] [DecidableEq κ] {keys : List κ}
    (hkeys : keys.Pairwise fun a b => compare a b = .lt) (number : κ → Nat) {key : κ} (hkey : key ∈ keys) {n : Nat}
    (hn : 0 < n) :
    addCount key n (table keys number) = table keys fun k => number k + if k = key then n else 0 := by
  induction keys with
  | nil => exact absurd hkey List.not_mem_nil
  | cons k rest ih =>
    obtain ⟨hk, hrest⟩ := List.pairwise_cons.1 hkeys
    rw [table_cons, table_cons]
    rcases List.mem_cons.1 hkey with rfl | hkey
    -- the key is the first one, and the others stay as they are
    · have hothers : table rest (fun k => number k + if k = key then n else 0) = table rest number := by
        refine table_congr fun k hk' => ?_
        rw [if_neg, Nat.add_zero]
        rintro rfl
        exact nomatch Std.compare_self.symm.trans (hk k hk')
      rw [hothers, if_pos rfl, if_neg (Nat.ne_of_gt (Nat.add_pos_right _ hn))]
      split
      · next hzero =>
        rw [hzero, Nat.zero_add]
        exact addCount_of_lt fun p hp => hk p.1 (mem_of_mem_table hp)
      · simp only [addCount, Std.compare_self]
    -- the key is among the others, which are greater than the first one
    · have hlt := hk key hkey
      have hne : k ≠ key := by
        rintro rfl
        exact nomatch Std.compare_self.symm.trans hlt
      rw [if_neg hne, Nat.add_zero]
      split
      · exact ih hrest hkey
      · rw [addCount, Std.OrientedCmp.gt_of_lt hlt, ih hrest hkey]

end

/-! ### What segments count -/

theorem foldl_addCount (test : Int → Bool) (codes : List Int) (counts : List (Int × Nat)) :
    weight test (codes.foldl (fun counts n => addCount n 1 counts) counts) =
      weight test counts + codes.countP test := by
  induction codes generalizing counts with
  | nil => rfl
  | cons n rest ih =>
    rw [List.foldl_cons, ih, weight_addCount, List.countP_cons, Nat.add_assoc, Nat.add_comm (ite _ _ _)]

/-- **A segment counts each of its codes.** -/
theorem weight_codeCounts (test : Int → Bool) (codes : List Int) :
    weight test (codeCounts codes) = codes.countP test :=
  (foldl_addCount test codes []).trans (Nat.zero_add _)

theorem pos_of_mem_codeCounts (codes : List Int) : ∀ p ∈ codeCounts codes, 0 < p.2 :=
  List.foldlRecOn (motive := fun counts : List (Int × Nat) => ∀ p ∈ counts, 0 < p.2) codes _
    (fun _ hp => absurd hp List.not_mem_nil) fun _ h _ _ => pos_of_mem_addCount Nat.one_pos h

/-- What all segments have counted together. -/
theorem weight_flatten_codeCounts (test : Int → Bool) (codesBySegment : List (List Int)) :
    weight test (codesBySegment.map codeCounts).flatten = codesBySegment.flatten.countP test := by
  induction codesBySegment with
  | nil => rfl
  | cons codes rest ih =>
    rw [List.map_cons, List.flatten_cons, weight_append, ih, weight_codeCounts, List.flatten_cons, List.countP_append]

/-! ### Adding up -/

instance : Std.OrientedOrd Severity where
  eq_swap {a b} := Std.OrientedOrd.eq_swap (a := a.code) (b := b.code)

instance : Std.LawfulEqOrd Severity where
  compare_self {a} := Std.compare_self (a := a.code)
  eq_of_compare {a b} h := Severity.code_injective (Std.LawfulEqOrd.eq_of_compare (a := a.code) (b := b.code) h)

/-- The counts of codes by severity: how often the code of each of them is met. -/
def countSeverities (codes : List Int) : SeverityCounts :=
  table Severity.all fun s => codes.count (s.code : Int)

/-- **Adding a code to the table of the severities** adds to the severity that has the code. -/
theorem mergeCount_table (number : Severity → Nat) {p : Int × Nat} (hp : 0 < p.2) :
    mergeCount (table Severity.all number) p =
      table Severity.all fun s => number s + if p.1 = s.code then p.2 else 0 := by
  have hascending : Severity.all.Pairwise fun a b => compare a b = .lt := by decide
  unfold mergeCount
  cases hcode : Severity.ofCode? p.1 with
  | none =>
    -- a code of no severity is not counted
    refine table_congr fun s _ => ?_
    rw [if_neg, Nat.add_zero]
    intro h
    rw [Severity.ofCode?_eq_some.2 h] at hcode
    exact nomatch hcode
  | some s =>
    have hmem : s ∈ Severity.all := List.mem_of_find?_eq_some hcode
    have hp₁ := Severity.ofCode?_eq_some.1 hcode
    refine (addCount_table hascending number hmem hp).trans ?_
    refine table_congr fun t _ => ?_
    -- no two severities have the same code
    have hcodes : p.1 = t.code ↔ t = s := by
      rw [hp₁, Int.natCast_inj, Severity.code_injective.eq_iff, eq_comm]
    simp only [hcodes]

/-- The numbers of a table grow by all that is added to their codes. -/
theorem foldl_mergeCount (number : Severity → Nat) {counts : List (Int × Nat)} (h : ∀ p ∈ counts, 0 < p.2) :
    counts.foldl mergeCount (table Severity.all number) =
      table Severity.all fun s => number s + weight (· == (s.code : Int)) counts := by
  induction counts generalizing number with
  | nil => rfl
  | cons p rest ih =>
    obtain ⟨hp, hrest⟩ := List.forall_mem_cons.1 h
    rw [List.foldl_cons, mergeCount_table number hp, ih _ hrest]
    refine table_congr fun s _ => ?_
    rw [weight_cons, Nat.add_assoc]
    simp only [beq_iff_eq]

/-- **The counts of the segments, added up, are the counts of all codes.** -/
theorem mergeCounts_eq (codesBySegment : List (List Int)) :
    mergeCounts (codesBySegment.map codeCounts) = countSeverities codesBySegment.flatten := by
  have hpos : ∀ p ∈ (codesBySegment.map codeCounts).flatten, 0 < p.2 := by
    intro p hp
    obtain ⟨counts, hcounts, hp⟩ := List.mem_flatten.1 hp
    obtain ⟨codes, -, rfl⟩ := List.mem_map.1 hcounts
    exact pos_of_mem_codeCounts codes p hp
  -- nothing has been counted at first, and zeros do not stand in a table
  have hnone : ([] : SeverityCounts) = table Severity.all fun _ => 0 := rfl
  rw [mergeCounts, hnone, foldl_mergeCount _ hpos]
  refine table_congr fun s _ => ?_
  rw [Nat.zero_add, weight_flatten_codeCounts, List.count_eq_countP]

end Snapshot

end EventCatalog
