import Mathlib.Algebra.GroupWithZero.Nat
import Mathlib.Data.List.Nodup
import Mathlib.Data.Prod.Lex
import EventCatalog.Proofs.Listing
import EventCatalog.Proofs.TopKeys

/-!
# Pages from many segments

`Catalog.page` sorts all matches and takes the first. An index goes about it in another way: it collects the first
matches of every segment by itself, and then the first of all that it has collected. Where keys are equal the smaller
address comes first. That leaves no choice (`Document.locatedKey`), so what is collected has not only the keys of the
first matches, but is the same documents in the same order, and the page is the same (`Catalog.page_eq_of_merged`).
-/

namespace EventCatalog

/-- Lists with the same images are the same, if their elements are told apart by them. -/
theorem eq_of_map_eq {α β : Type} {f : α → β} {l l' : List α} (h : l.map f = l'.map f)
    (hinj : ∀ x ∈ l, ∀ y ∈ l', f x = f y → x = y) : l = l' := by
  induction l generalizing l' with
  | nil => exact (List.map_eq_nil_iff.1 h.symm).symm
  | cons x rest ih =>
    obtain ⟨y, rest', rfl, hxy, hrest⟩ := List.map_eq_cons_iff.1 h.symm
    rw [hinj x List.mem_cons_self y List.mem_cons_self hxy.symm,
      ih hrest.symm fun a ha b hb => hinj a (List.mem_cons_of_mem x ha) b (List.mem_cons_of_mem y hb)]

/-! ### The order of addresses -/

namespace Address

/-- An address as a pair of numbers, of which the first difference decides. -/
def place (a : Address) : Lex (Nat × Nat) := toLex (a.segment, a.entry)

theorem place_injective : Function.Injective place := by
  intro a b h
  obtain ⟨hsegment, hentry⟩ := Prod.mk.inj (toLex_inj.1 h)
  exact congrArg₂ Address.mk hsegment hentry

/-- Addresses are in the order of their pairs of numbers. -/
instance : LinearOrder Address := .lift' place place_injective

theorem lt_iff_before {a b : Address} : a < b ↔ a.Before b := by
  have hplace : a < b ↔ a.place < b.place := Iff.rfl
  rw [hplace, place, place, Prod.Lex.toLex_lt_toLex]
  rfl

end Address

/-! ### Collecting with addresses -/

/-- What decides between located documents: their keys, and if these are equal their addresses, of which the
smaller one comes first. -/
def Document.locatedKey (schema : Schema) (sort : List SortBy) (p : Address × Document) :
    Lex (SortKey.For sort × Addressᵒᵈ) :=
  toLex (p.2.keyFor schema sort, OrderDual.toDual p.1)

namespace Snapshot

variable {schema : Schema} {sort : List SortBy}

/-- Sorting documents that are located one after the other leaves the greatest first, with their addresses to
decide. -/
theorem top_located (schema : Schema) (sort : List SortBy) (n : Nat) {l : List (Address × Document)}
    (hl : l.Pairwise fun p q => p.1.Before q.1) :
    ∃ chosen, Top (Document.locatedKey schema sort) n l chosen ∧
      chosen.map Prod.snd = (sorted schema sort (l.map Prod.snd)).take n := by
  let le (p q : Address × Document) : Bool := decide (q.2.keyFor schema sort ≤ p.2.keyFor schema sort)
  -- the sort is stable, and the documents come in the order of their addresses
  refine ⟨(l.mergeSort le).take n, Top.of_descending (List.mergeSort_perm l le) ?_, ?_⟩
  · refine (pairwise_mergeSort_of_stable ?_ ?_ hl).imp ?_
    · intro p q r hpq hqr
      exact decide_eq_true (le_trans (of_decide_eq_true hqr) (of_decide_eq_true hpq))
    · intro p q
      rw [Bool.or_eq_true, decide_eq_true_eq, decide_eq_true_eq]
      exact le_total _ _
    -- equal keys have been left in the order of their addresses
    · rintro p q ⟨hle, hstable⟩
      rw [Document.locatedKey, Document.locatedKey, Prod.Lex.toLex_le_toLex]
      rcases lt_or_eq_of_le (of_decide_eq_true hle) with hlt | heq
      · exact .inl hlt
      · exact .inr ⟨heq, (Address.lt_iff_before.2 (hstable (decide_eq_true heq.ge))).le⟩
  · rw [sorted_eq_mergeSort, List.map_take]
    congr 1
    exact List.map_mergeSort (f := Prod.snd) fun _ _ _ _ => rfl

/-- The documents of each segment that a query selects, with their addresses. -/
def locatedParts (s : Snapshot) (schema : Schema) (q : Query) : List (List (Address × Document)) :=
  s.segments.zipIdx.map fun seg => (seg.1.located seg.2).filter fun p => q.selects schema p.2

theorem flatten_locatedParts (s : Snapshot) (schema : Schema) (q : Query) :
    (s.locatedParts schema q).flatten = s.located.filter fun p => q.selects schema p.2 := by
  rw [locatedParts, located, List.filter_flatMap, List.flatMap_def]

theorem map_snd_flatten_locatedParts (s : Snapshot) (schema : Schema) (q : Query) :
    (s.locatedParts schema q).flatten.map Prod.snd = s.matching schema q := by
  rw [flatten_locatedParts, matching, ← map_snd_located, List.filter_map]
  rfl

/-- No two located documents have the same address. -/
theorem eq_of_address_eq {s : Snapshot} {p p' : Address × Document} (hp : p ∈ s.located) (hp' : p' ∈ s.located)
    (haddress : p.1 = p'.1) : p = p' := by
  -- the addresses increase, so none occurs twice
  have hnodup : (s.located.map Prod.fst).Nodup := by
    rw [List.Nodup, List.pairwise_map]
    exact s.pairwise_located.imp fun hbefore => (Address.lt_iff_before.2 hbefore).ne
  exact List.inj_on_of_nodup_map hnodup hp hp' haddress

/-- **What is collected from the segments and merged** is the first of all matches as they are sorted. -/
theorem map_snd_merged {s : Snapshot} {q : Query} {n : Nat} {tops : List (List (Address × Document))}
    {merged : List (Address × Document)}
    (htops : List.Forall₂ (Top (Document.locatedKey schema sort) n) (s.locatedParts schema q) tops)
    (hmerged : Top (Document.locatedKey schema sort) n tops.flatten merged) :
    merged.map Prod.snd = (sorted schema sort (s.matching schema q)).take n := by
  have hflatten := s.flatten_locatedParts schema q
  have hlocated : (s.locatedParts schema q).flatten.Pairwise fun p p' => p.1.Before p'.1 := by
    rw [hflatten]
    exact s.pairwise_located.filter _
  obtain ⟨chosen, hchosen, hsorted⟩ := top_located schema sort n hlocated
  have hmem : ∀ p ∈ (s.locatedParts schema q).flatten, p ∈ s.located := by
    rw [hflatten]
    exact fun p hp => (List.mem_filter.1 hp).1
  rw [← map_snd_flatten_locatedParts, ← hsorted]
  -- the keys are the same, and a key has an address, which tells the documents apart
  refine congrArg _ (eq_of_map_eq (Top.map_key_eq htops hmerged hchosen) fun p hp p' hp' hkey => ?_)
  have haddress : p.1 = p'.1 :=
    congrArg (fun k : Lex (SortKey.For sort × Addressᵒᵈ) => OrderDual.ofDual (ofLex k).2) hkey
  exact eq_of_address_eq (hmem p (Top.flatten_subset htops (hmerged.subset hp))) (hmem p' (hchosen.subset hp'))
    haddress

end Snapshot

/-- **A page is what the segments have, merged.** Whatever way the first matches of each segment are collected, and
of these the first of all, the page has the events of those behind the offset, and their total is summed up over the
segments. -/
theorem Catalog.page_eq_of_merged {schema : Schema} {r : Request} {greatest : Nat} {q : Query} {s : Snapshot}
    {tops : List (List (Address × Document))} {merged : List (Address × Document)}
    (htops : List.Forall₂ (Top (Document.locatedKey schema r.effectiveSort)
      (r.collected greatest s.documents.length)) (s.locatedParts schema q) tops)
    (hmerged : Top (Document.locatedKey schema r.effectiveSort)
      (r.collected greatest s.documents.length) tops.flatten merged)
    (hq : q.isRunnable schema = true) :
    let total := ((s.locatedParts schema q).map List.length).sum
    page schema greatest r q s =
      (((merged.map Prod.snd).drop r.effectiveOffset).mapM eventOf).map fun events => {
        events := events
        total := total
        limit := r.effectiveLimit greatest
        nextOffset := if r.window greatest < total then some (r.window greatest + 1) else none } := by
  have htotal : ((s.locatedParts schema q).map List.length).sum = (s.matching schema q).length := by
    rw [← s.map_snd_flatten_locatedParts, List.length_map, List.length_flatten]
  dsimp only
  -- both ways have the same documents and the same total
  rw [Snapshot.map_snd_merged htops hmerged, htotal]
  simp only [page, hq, Bool.not_true, Bool.false_eq_true, if_false]
  generalize List.mapM eventOf _ = events
  cases events <;> rfl

end EventCatalog
