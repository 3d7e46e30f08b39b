import Mathlib.Data.List.Forall2
import EventCatalog.Proofs.SortKeys

/-!
# The first documents of a sort

A list collects the documents with the greatest keys, up to a number, from all that a query selects. An
index may as well collect them from each segment by itself, and then from what it has of the segments.
Where keys are equal there is a choice each time (`Top` leaves it open), so other documents may come out
of it; but their keys are the same (`SortKey.ordered_and_merged`).

The reason is that the keys of a sort are in a linear order. The keys of what is collected are then known
from how many of them reach a bound, for every bound (`eq_of_countP_eq`). These are as many as there are
in all, up to the number that is collected (`Top.countP_eq`); and up to that number, nothing is missing
from what was collected of the segments (`min_countP_flatten`).
-/

namespace EventCatalog

section

variable {α κ : Type} [LinearOrder κ]

/-- What is collected from some elements when the `n` of them with the greatest keys are asked for:
the greatest comes first, and none that is left out has a greater key. -/
structure Top (key : α → κ) (n : Nat) (all chosen : List α) : Prop where
  descending : chosen.Pairwise fun x y => key y ≤ key x
  length_eq : chosen.length = min n all.length
  exists_rest : ∃ rest, (chosen ++ rest).Perm all ∧ ∀ x ∈ chosen, ∀ y ∈ rest, key y ≤ key x

namespace Top

variable {key : α → κ} {n : Nat} {all chosen : List α}

/-- Of elements in descending order the first ones are collected. -/
theorem of_descending {sorted : List α} (hperm : sorted.Perm all)
    (hsorted : sorted.Pairwise fun x y => key y ≤ key x) : Top key n all (sorted.take n) where
  descending := hsorted.sublist (List.take_sublist n sorted)
  length_eq := by rw [List.length_take, hperm.length_eq]
  exists_rest := by
    rw [← List.take_append_drop n sorted, List.pairwise_append] at hsorted
    exact ⟨sorted.drop n, by rwa [List.take_append_drop], hsorted.2.2⟩

/-- What is collected is among what there is. -/
theorem subset (h : Top key n all chosen) : chosen ⊆ all := by
  obtain ⟨rest, hperm, -⟩ := h.exists_rest
  exact fun x hx => hperm.subset (List.mem_append_left rest hx)

/-- What is collected of parts is among the parts. -/
theorem flatten_subset {parts tops : List (List α)} (h : List.Forall₂ (Top key n) parts tops) :
    tops.flatten ⊆ parts.flatten := by
  induction h with
  | nil => exact List.Subset.refl _
  | cons htop _ ih => exact List.append_subset.2 ⟨List.subset_append_of_subset_left _ htop.subset,
      List.subset_append_of_subset_right _ ih⟩

/-- As many collected elements reach a bound as there are, up to the number that is collected. -/
theorem countP_eq (h : Top key n all chosen) (t : κ) :
    chosen.countP (t ≤ key ·) = min n (all.countP (t ≤ key ·)) := by
  obtain ⟨rest, hperm, hrest⟩ := h.exists_rest
  have hlength := h.length_eq
  rw [← hperm.length_eq, List.length_append] at hlength
  rw [← hperm.countP_eq, List.countP_append]
  have hle : chosen.countP (t ≤ key ·) ≤ chosen.length := List.countP_le_length
  by_cases hreach : ∃ y ∈ rest, t ≤ key y
  -- if one that is left out reaches the bound, all that is collected does, and nothing more fits
  · obtain ⟨y, hy, hty⟩ := hreach
    have hall : chosen.countP (t ≤ key ·) = chosen.length := by
      rw [List.countP_eq_length]
      intro x hx
      exact decide_eq_true (le_trans hty (hrest x hx y hy))
    have hpos := List.length_pos_of_mem hy
    omega
  -- otherwise all that reach it are collected
  · have hnone : rest.countP (t ≤ key ·) = 0 := by
      rw [List.countP_eq_zero]
      intro y hy hty
      exact hreach ⟨y, hy, of_decide_eq_true hty⟩
    omega

end Top

/-- Up to the number that is collected, what was left out of the parts is not missed. -/
theorem min_countP_flatten {key : α → κ} {n : Nat} {parts tops : List (List α)}
    (h : List.Forall₂ (Top key n) parts tops) (t : κ) :
    min n (tops.flatten.countP (t ≤ key ·)) = min n (parts.flatten.countP (t ≤ key ·)) := by
  induction h with
  | nil => rfl
  | cons htop _ ih =>
    rw [List.flatten_cons, List.flatten_cons, List.countP_append, List.countP_append,
      htop.countP_eq t]
    omega

/-- If any element of a descending list reaches a bound, its head does. -/
theorem le_head_of_countP_pos {x t : κ} {l : List κ} (hl : (x :: l).Pairwise (· ≥ ·))
    (h : 0 < (x :: l).countP (t ≤ ·)) : t ≤ x := by
  obtain ⟨y, hy, hty⟩ := List.countP_pos_iff.1 h
  refine le_trans (of_decide_eq_true hty) ?_
  rcases List.mem_cons.1 hy with rfl | hy
  · exact le_rfl
  · exact List.rel_of_pairwise_cons hl hy

/-- Descending lists are the same if as many of their elements reach any bound. -/
theorem eq_of_countP_eq {l l' : List κ} (hl : l.Pairwise (· ≥ ·)) (hl' : l'.Pairwise (· ≥ ·))
    (h : ∀ t, l.countP (t ≤ ·) = l'.countP (t ≤ ·)) : l = l' := by
  -- a head reaches itself
  have hpos : ∀ (x : κ) (m : List κ), 0 < (x :: m).countP (x ≤ ·) :=
    fun x m => List.countP_pos_iff.2 ⟨x, List.mem_cons_self, decide_eq_true le_rfl⟩
  induction l generalizing l' with
  | nil =>
    cases l' with
    | nil => rfl
    | cons y l' => exact absurd (h y) (Nat.ne_of_lt (hpos y l'))
  | cons x l ih =>
    cases l' with
    | nil => exact absurd (h x).symm (Nat.ne_of_lt (hpos x l))
    | cons y l' =>
      -- each head is reached in the other list as often as in its own, so neither is the greater
      have hxy : x ≤ y := le_head_of_countP_pos hl' (h x ▸ hpos x l)
      have hyx : y ≤ x := le_head_of_countP_pos hl ((h y).symm ▸ hpos y l')
      obtain rfl := le_antisymm hxy hyx
      refine congrArg _ (ih (List.Pairwise.of_cons hl) (List.Pairwise.of_cons hl') ?_)
      intro t
      have ht := h t
      rw [List.countP_cons, List.countP_cons] at ht
      omega

/-- **Collecting from what is collected of each part collects the same keys.** -/
theorem Top.map_key_eq {key : α → κ} {n : Nat} {parts tops : List (List α)} {merged chosen : List α}
    (h : List.Forall₂ (Top key n) parts tops) (hmerged : Top key n tops.flatten merged)
    (hchosen : Top key n parts.flatten chosen) : merged.map key = chosen.map key := by
  refine eq_of_countP_eq (List.pairwise_map.2 hmerged.descending)
    (List.pairwise_map.2 hchosen.descending) ?_
  -- how many keys reach a bound is the same on both sides, by way of all that there is
  intro t
  rw [List.countP_map, List.countP_map]
  calc merged.countP (t ≤ key ·)
    _ = min n (tops.flatten.countP (t ≤ key ·)) := hmerged.countP_eq t
    _ = min n (parts.flatten.countP (t ≤ key ·)) := min_countP_flatten h t
    _ = chosen.countP (t ≤ key ·) := (hchosen.countP_eq t).symm

end

/-! ### The documents of a list -/

namespace Snapshot

/-- The first documents of those that are sorted are those with the greatest keys. -/
theorem top_take_sorted (schema : Schema) (sort : List SortBy) (n : Nat) (documents : List Document) :
    Top (Document.keyFor schema sort) n documents ((sorted schema sort documents).take n) := by
  rw [sorted_eq_mergeSort]
  refine Top.of_descending (List.mergeSort_perm _ _) ?_
  refine (List.pairwise_mergeSort ?_ ?_ documents).imp of_decide_eq_true
  · intro d e f hde hef
    exact decide_eq_true (le_trans (of_decide_eq_true hef) (of_decide_eq_true hde))
  · intro d e
    rw [Bool.or_eq_true, decide_eq_true_eq, decide_eq_true_eq]
    exact le_total _ _

end Snapshot

/-- **The keys of a sort are in a total order, so it does not matter where the first are collected.** Two
keys always compare. The greater is the one that the first difference puts before the other, and only a key
itself is equal to it. The order is reflexive, antisymmetric and transitive, and turning all directions round
reverses it. So what is collected of each segment, whatever is chosen between equal keys, and then of all
that was collected, has the keys of the first of all documents as they are sorted. -/
theorem SortKey.ordered_and_merged (sort : List SortBy) :
    (∀ a b c : SortKey.For sort,
      cmp? a.key b.key = some (cmp a.key b.key) ∧
      (cmp a.key b.key = .gt ↔ Before a.key.parts b.key.parts) ∧
      (cmp a.key b.key = .lt ↔ Before b.key.parts a.key.parts) ∧
      (cmp a.key b.key = .eq ↔ a.key = b.key) ∧
      (cmp a.key a.key).isLE ∧
      ((cmp a.key b.key).isLE → (cmp b.key a.key).isLE → a.key = b.key) ∧
      ((cmp a.key b.key).isLE → (cmp b.key c.key).isLE → (cmp a.key c.key).isLE) ∧
      cmp a.key.flip b.key.flip = (cmp a.key b.key).swap) ∧
    ∀ (schema : Schema) (n : Nat) (segments tops : List (List Document)) (merged : List Document),
      List.Forall₂ (Top (Document.keyFor schema sort) n) segments tops →
      Top (Document.keyFor schema sort) n tops.flatten merged →
      merged.map (Document.sortKey schema sort) =
        ((Snapshot.sorted schema sort segments.flatten).take n).map
          (Document.sortKey schema sort) := by
  constructor
  · intro a b c
    refine ⟨cmp?_eq_some _ _, For.cmp_eq_gt_iff a b, ?_, For.cmp_eq_eq_iff a b, le_refl a, ?_,
      For.cmp_isLE_trans, cmp_flip _ _⟩
    · rw [← For.cmp_eq_gt_iff b a, For.cmp_swap a b, Ordering.swap_eq_lt]
    · intro hab hba
      exact congrArg For.key (le_antisymm hab hba : a = b)
  · intro schema n segments tops merged htops hmerged
    have hkeys := Top.map_key_eq htops hmerged (Snapshot.top_take_sorted schema sort n _)
    have hkey := congrArg (List.map For.key) hkeys
    -- forget that the keys are those of one sort
    rwa [List.map_map, List.map_map] at hkey

/-- The most severe events first. -/
def SortBy.worstFirst : List SortBy := [⟨.severity, .descending⟩]

/-- The document of an event with a number and a severity. -/
def Document.numbered (n : Nat) (s : Severity) : Document :=
  .ofEvent (.raise (.ofNat n) .epoch "host" "/Status" "down" s)

/-- Of two documents with one key, the second of a segment is collected where a list takes the first; the
keys are the same. -/
theorem SortKey.ordered_and_merged_tied :
    let e₁ := Document.numbered 1 .critical
    let e₂ := Document.numbered 2 .error
    let e₃ := Document.numbered 3 .error
    List.Forall₂ (Top (Document.keyFor .events SortBy.worstFirst) 2)
        [[e₁], [e₂, e₃]] [[e₁], [e₃, e₂]] ∧
      Top (Document.keyFor .events SortBy.worstFirst) 2 [e₁, e₃, e₂] [e₁, e₃] ∧
      (Snapshot.sorted .events SortBy.worstFirst [e₁, e₂, e₃]).take 2 = [e₁, e₂] ∧
      [e₁, e₃].map (Document.sortKey .events SortBy.worstFirst) =
        [e₁, e₂].map (Document.sortKey .events SortBy.worstFirst) := by
  intro e₁ e₂ e₃
  have htops : List.Forall₂ (Top (Document.keyFor .events SortBy.worstFirst) 2)
      [[e₁], [e₂, e₃]] [[e₁], [e₃, e₂]] :=
    .cons ⟨by decide, rfl, [], .refl _, nofun⟩
      (.cons ⟨by decide, rfl, [], .swap e₂ e₃ [], nofun⟩ .nil)
  have hmerged : Top (Document.keyFor .events SortBy.worstFirst) 2 [e₁, e₃, e₂] [e₁, e₃] :=
    ⟨by decide, rfl, [e₂], .refl _, by decide⟩
  -- the documents are sorted as they are
  have hsorted : (Snapshot.sorted .events SortBy.worstFirst [e₁, e₂, e₃]).take 2 = [e₁, e₂] := by
    rw [Snapshot.sorted_eq_mergeSort, List.mergeSort_of_pairwise (by decide)]
    rfl
  refine ⟨htops, hmerged, hsorted, ?_⟩
  rw [← hsorted]
  exact (ordered_and_merged SortBy.worstFirst).2 .events 2 _ _ _ htops hmerged

end EventCatalog
