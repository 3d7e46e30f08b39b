import Mathlib.Data.List.Perm.Basic
import EventCatalog.Catalog.Read
import EventCatalog.Proofs.FilterQueries
import EventCatalog.Proofs.SortOrder

/-!
# Lists

A list gives the window of the sorted matches that is asked for (`Catalog.list_window`). The matches
are the events that count and that the filter selects, each with its `Address`, the place where the
index holds it: the number of the segment and of the entry in it. They are in the order of the sort, and
events that the sort does not tell apart are in the order of their addresses (`Event.Listed`). That
makes the order strict, so there is only one such list of matches.

The index never looks at addresses: it goes through the segments in their order, and sorts so that the
order of equal keys is kept (`pairwise_mergeSort_of_stable`). Neither does it sort out all matches; it
collects as many as the window can reach, no more than there are documents and no fewer than one
(`Request.take_collected`).
-/

namespace EventCatalog

/-! ### Stable sorting -/

/-- Sorting keeps the order of what compares equal. -/
theorem pairwise_mergeSort_of_stable {α : Type} {le : α → α → Bool} {S : α → α → Prop} {l : List α}
    (htrans : ∀ a b c, le a b = true → le b c = true → le a c = true)
    (htotal : ∀ a b, (le a b || le b a) = true) (h : l.Pairwise S) :
    (l.mergeSort le).Pairwise fun a b => le a b = true ∧ (le b a = true → S a b) := by
  -- sort with the places in the list beside, which decide between equals
  have hsorted := List.pairwise_mergeSort (List.zipIdxLE_trans htrans)
    (List.zipIdxLE_total htotal) l.zipIdx
  have hperm := List.mergeSort_perm l.zipIdx (List.zipIdxLE le)
  rw [← List.mergeSort_zipIdx, List.pairwise_map]
  have hdistinct : (l.zipIdx.mergeSort (List.zipIdxLE le)).Pairwise fun a b => a.2 ≠ b.2 := by
    rw [← List.pairwise_map (f := Prod.snd)]
    refine (hperm.map Prod.snd).nodup_iff.2 ?_
    rw [List.zipIdx_map_snd]
    exact List.nodup_range'
  refine (hsorted.and hdistinct).imp_of_mem ?_
  intro a b ha hb hab
  obtain ⟨hle, hne⟩ := hab
  simp only [List.zipIdxLE] at hle
  split at hle
  · next hab =>
    refine ⟨hab, fun hba => ?_⟩
    -- both come before each other, so the places have decided
    rw [if_pos hba, decide_eq_true_eq] at hle
    have hlt : a.2 < b.2 := Nat.lt_of_le_of_ne hle hne
    -- and what stands at an earlier place of the list is related to what stands at a later one
    have hplace : ∀ x ∈ l.zipIdx.mergeSort (List.zipIdxLE le), l[x.2]? = some x.1 :=
      fun x hx => List.mem_zipIdx_iff_getElem?.1 (hperm.mem_iff.1 hx)
    obtain ⟨hi, ha⟩ := List.getElem?_eq_some_iff.1 (hplace a ha)
    obtain ⟨hj, hb⟩ := List.getElem?_eq_some_iff.1 (hplace b hb)
    rw [← ha, ← hb]
    exact List.pairwise_iff_getElem.1 h a.2 b.2 hi hj hlt
  · exact nomatch hle

/-! ### Addresses -/

/-- Where the index holds a document: the number of its segment, in the order of searching, and the
number of its entry there. -/
structure Address where
  segment : Nat
  entry : Nat
deriving DecidableEq, Repr

/-- The order of addresses. -/
def Address.Before (a b : Address) : Prop :=
  a.segment < b.segment ∨ (a.segment = b.segment ∧ a.entry < b.entry)

/-- The documents of a segment that count, with their addresses. -/
def Segment.located (s : Segment) (n : Nat) : List (Address × Document) :=
  s.entries.zipIdx.filterMap fun e => if e.1.live then some (⟨n, e.2⟩, e.1.document) else none

/-- The documents of a snapshot that count, with their addresses. -/
def Snapshot.located (s : Snapshot) : List (Address × Document) :=
  s.segments.zipIdx.flatMap fun seg => seg.1.located seg.2

theorem pairwise_zipIdx {α : Type} (l : List α) : l.zipIdx.Pairwise fun a b => a.2 < b.2 := by
  rw [← List.pairwise_map (f := Prod.snd), List.zipIdx_map_snd]
  exact List.pairwise_lt_range'

theorem Segment.map_snd_located (s : Segment) (n : Nat) :
    (s.located n).map Prod.snd = s.live := by
  rw [located, List.map_filterMap, live]
  -- the entries are the numbered entries without their numbers
  conv => rhs; rw [← List.zipIdx_map_fst 0 s.entries]
  rw [List.filterMap_map]
  refine congrFun (congrArg List.filterMap ?_) _
  funext e
  simp only [Function.comp]
  split <;> rfl

/-- Without their addresses the located documents are those that are searched. -/
theorem Snapshot.map_snd_located (s : Snapshot) : s.located.map Prod.snd = s.documents := by
  rw [located, List.map_flatMap, documents]
  conv => rhs; rw [← List.zipIdx_map_fst 0 s.segments]
  rw [List.flatMap_map]
  refine congrFun (congrArg List.flatMap ?_) _
  funext seg
  exact seg.1.map_snd_located seg.2

/-- Documents are located in the order of their addresses. -/
theorem Snapshot.pairwise_located (s : Snapshot) :
    s.located.Pairwise fun p q => p.1.Before q.1 := by
  have hsegment : ∀ seg : Segment × Nat, ∀ p ∈ seg.1.located seg.2, p.1.segment = seg.2 := by
    intro seg p hp
    obtain ⟨e, -, he⟩ := List.mem_filterMap.1 hp
    split at he
    · obtain rfl := Option.some.inj he
      rfl
    · exact nomatch he
  rw [located, List.pairwise_flatMap]
  constructor
  -- within a segment the entries decide, between segments their numbers
  · intro seg _
    rw [Segment.located, List.pairwise_filterMap]
    refine (pairwise_zipIdx seg.1.entries).imp ?_
    intro e e' hlt p hp q hq
    split at hp
    · split at hq
      · obtain rfl := Option.some.inj hp
        obtain rfl := Option.some.inj hq
        exact .inr ⟨rfl, hlt⟩
      · exact nomatch hq
    · exact nomatch hp
  · refine (pairwise_zipIdx s.segments).imp ?_
    intro seg seg' hlt p hp q hq
    left
    rw [hsegment seg p hp, hsegment seg' q hq]
    exact hlt

/-! ### The matches in their order -/

/-- One match is listed before another: by the sort, and by their addresses if that does not tell them
apart. -/
def Event.Listed (sort : List SortBy) (p q : Address × Event) : Prop :=
  Event.Before sort p.2 q.2 ∨ (Event.Tied sort p.2 q.2 ∧ p.1.Before q.1)

instance (a b : Address) : Decidable (a.Before b) :=
  inferInstanceAs (Decidable (_ ∨ _))

instance (sort : List SortBy) (p q : Address × Event) : Decidable (Event.Listed sort p q) :=
  have : Decidable (Event.Before sort p.2 q.2) := decidable_of_iff _ Event.keyFor_lt_iff
  inferInstanceAs (Decidable (_ ∨ (∀ s ∈ sort, p.2.sortValue s.field = q.2.sortValue s.field) ∧ _))

/-- What is of one form can be taken out of it. -/
private theorem exists_map_eq {α β : Type} {f : α → β} {l : List β} (h : ∀ b ∈ l, ∃ a, f a = b) :
    ∃ as : List α, as.map f = l := by
  induction l with
  | nil => exact ⟨[], rfl⟩
  | cons b rest ih =>
    obtain ⟨a, rfl⟩ := h b (by simp)
    obtain ⟨as, rfl⟩ := ih fun b hb => h b (List.mem_cons_of_mem _ hb)
    exact ⟨a :: as, rfl⟩

/-- The events of a snapshot that a query selects, each with its address, in the order of a list. -/
structure Snapshot.Matches (s : Snapshot) (q : Query) (sort : List SortBy)
    (found : List (Address × Event)) : Prop where
  perm : (found.map fun p => (p.1, Document.ofEvent p.2)).Perm
    (s.located.filter fun p => q.selects .events p.2)
  listed : found.Pairwise (Event.Listed sort)

/-- There are no more matches than documents. -/
theorem Snapshot.Matches.length_le {s : Snapshot} {q : Query} {sort : List SortBy}
    {found : List (Address × Event)} (h : s.Matches q sort found) : found.length ≤ s.documents.length := by
  have hfound := h.perm.length_eq
  rw [List.length_map] at hfound
  rw [hfound, ← s.map_snd_located, List.length_map]
  exact List.length_filter_le _ _

/-- Two matches are not listed before each other: not by their keys, which are in one order, and not by
their addresses. -/
theorem Event.Listed.asymm {sort : List SortBy} {p q : Address × Event}
    (h : Event.Listed sort p q) : ¬ Event.Listed sort q p := by
  intro h'
  simp only [Listed, ← keyFor_lt_iff, ← keyFor_eq_iff] at h h'
  rcases h with hlt | ⟨heq, hbefore⟩
  · rcases h' with hlt' | ⟨heq', -⟩
    · exact lt_asymm hlt hlt'
    · exact hlt.ne heq'
  · rcases h' with hlt' | ⟨-, hafter⟩
    · exact hlt'.ne heq
    -- keys that are tied leave it to the addresses
    · simp only [Address.Before] at hbefore hafter
      omega

/-- There is only one order of the matches. -/
theorem Snapshot.Matches.unique {s : Snapshot} {q : Query} {sort : List SortBy}
    {found found' : List (Address × Event)} (h : s.Matches q sort found)
    (h' : s.Matches q sort found') : found' = found := by
  have hinj : Function.Injective fun p : Address × Event => (p.1, Document.ofEvent p.2) := by
    intro p p' hp
    obtain ⟨haddress, hdocument⟩ := Prod.mk.inj hp
    exact Prod.ext haddress (Document.ofEvent_injective hdocument)
  have hperm : found'.Perm found := (List.map_perm_map_iff hinj).1 (h'.perm.trans h.perm.symm)
  exact hperm.eq_of_pairwise (fun p q _ _ hpq hqp => absurd hqp hpq.asymm) h'.listed h.listed

/-- **Documents of events are sorted as the events are.** Whatever located documents of events are
given, in the order of their addresses, their events can be put in the order of the sort, and the index
puts the documents in the same order. -/
theorem Snapshot.exists_listed (sort : List SortBy) {l : List (Address × Document)}
    (hevents : ∀ p ∈ l, ∃ e, p.2 = .ofEvent e)
    (hordered : l.Pairwise fun p q => p.1.Before q.1) :
    ∃ found : List (Address × Event),
      (found.map fun p => (p.1, Document.ofEvent p.2)).Perm l ∧
        found.Pairwise (Event.Listed sort) ∧
        sorted .events sort (l.map Prod.snd) = (found.map Prod.snd).map Document.ofEvent := by
  obtain ⟨es, rfl⟩ : ∃ es : List (Address × Event), (es.map fun p => (p.1, Document.ofEvent p.2)) = l :=
    exists_map_eq fun p hp => by
      obtain ⟨e, he⟩ := hevents p hp
      exact ⟨(p.1, e), by rw [← he]⟩
  -- `le p q` holds if `q` need not stand before `p`
  let le (p q : Address × Event) : Bool := decide (q.2.keyFor sort ≤ p.2.keyFor sort)
  -- sorting the events with their addresses: it is the right order, and the index finds the same
  refine ⟨es.mergeSort le, (List.mergeSort_perm es le).map _, ?_, ?_⟩
  · rw [List.pairwise_map] at hordered
    refine (pairwise_mergeSort_of_stable ?_ ?_ hordered).imp ?_
    · intro p q r hpq hqr
      exact decide_eq_true (le_trans (of_decide_eq_true hqr) (of_decide_eq_true hpq))
    · intro p q
      rw [Bool.or_eq_true, decide_eq_true_eq, decide_eq_true_eq]
      exact le_total _ _
    -- what the stable sort leaves is the order of the list: by the keys, and by the places of equal keys
    · intro p q hpq
      obtain ⟨hle, hstable⟩ := hpq
      rcases lt_or_eq_of_le (of_decide_eq_true hle) with hlt | heq
      · exact .inl (Event.keyFor_lt_iff.1 hlt)
      · exact .inr ⟨Event.keyFor_eq_iff.1 heq.symm, hstable (decide_eq_true heq.ge)⟩
  · rw [sorted_eq_mergeSort, List.map_map, List.map_map]
    exact (List.map_mergeSort (f := Document.ofEvent ∘ Prod.snd) fun _ _ _ _ => rfl).symm

/-! ### The window -/

/-- The page of sorted events that a request asks for. -/
def Request.pageOf (r : Request) (greatest : Nat) (events : List Event) : Page where
  events := (events.drop r.effectiveOffset).take (r.effectiveLimit greatest)
  total := events.length
  limit := r.effectiveLimit greatest
  nextOffset :=
    if r.effectiveLimit greatest + r.effectiveOffset < events.length then
      some (r.effectiveLimit greatest + r.effectiveOffset + 1)
    else none

theorem Request.effectiveLimit_pos (r : Request) {greatest : Nat} (h : 1 ≤ greatest) :
    1 ≤ r.effectiveLimit greatest := by
  unfold effectiveLimit
  split
  · split <;> omega
  · exact h

theorem Request.effectiveLimit_le (r : Request) (greatest : Nat) :
    r.effectiveLimit greatest ≤ greatest := by
  unfold effectiveLimit
  split
  · split <;> omega
  · exact Nat.le_refl _

/-- The limit of a request, with none given standing for one that is out of range. -/
theorem Request.effectiveLimit_eq (r : Request) (greatest : Nat) :
    r.effectiveLimit greatest =
      if 1 ≤ r.limit.getD 0 ∧ r.limit.getD 0 ≤ greatest then (r.limit.getD 0).toNat else greatest := by
  unfold effectiveLimit
  cases r.limit with
  | none => rfl
  | some n => rfl

theorem Request.effectiveOffset_eq (r : Request) : r.effectiveOffset = (max (r.offset.getD 0) 0).toNat := by
  unfold effectiveOffset
  omega

theorem Request.effectiveSort_eq (r : Request) :
    r.effectiveSort = if r.sort = [] then [⟨.lastSeen, .descending⟩] else r.sort := by
  simp only [effectiveSort, List.isEmpty_iff]
  rfl

/-- Collecting no more than there can be does not change the page. -/
theorem Request.take_collected {α : Type} (r : Request) {greatest documents : Nat} {l : List α}
    (hlimit : 1 ≤ r.effectiveLimit greatest) (hlength : l.length ≤ documents) :
    (l.take (r.collected greatest documents)).drop r.effectiveOffset =
      (l.drop r.effectiveOffset).take (r.effectiveLimit greatest) := by
  rw [List.drop_take, collected, window, List.take_eq_take_iff, List.length_drop]
  omega

namespace Catalog

/-- An index of events, opened with a configuration that is in range. -/
structure HoldsEvents (c : Catalog) : Prop where
  schema_eq : c.index.schema = .events
  in_range : c.config.rejections = []
  shown : ∀ d ∈ c.slot.current.documents, ∃ e, d = .ofEvent e

theorem maxResults_of_rejections {config : SearchConfig} (h : config.rejections = []) :
    1 ≤ config.maxResults ∧ config.maxResults ≤ 100 := by
  simp only [SearchConfig.rejections, List.append_eq_nil_iff, SearchConfig.check] at h
  have hmax := h.2
  split at hmax
  · next hin => simpa using hin
  · exact nomatch hmax

/-- A read of documents is one of those of the current snapshot, whatever leases there are on it. -/
theorem reading_of_documents {α : Type} {c : Catalog} {f : Snapshot → α} {a : α}
    (h : ∀ s : Snapshot, s.documents = c.slot.current.documents → f s = a) : c.reading f = a :=
  h _ rfl

/-- The events of documents of events are read back. -/
theorem mapM_eventOf (es : List Event) : (es.map Document.ofEvent).mapM eventOf = .ok es := by
  induction es with
  | nil => rfl
  | cons e es ih =>
    rw [List.map_cons, List.mapM_cons, ih, eventOf, Document.event_ofEvent]
    rfl

/-- A list of events yields the page of its matches. -/
theorem list_eq_pageOf {c : Catalog} (hc : c.HoldsEvents) {r : Request} {q : Query}
    (hq : Query.ofFilter .events r.filter = .ok q) :
    ∃ found, c.slot.current.Matches q r.effectiveSort found ∧
      c.list r = .ok (r.pageOf c.config.maxResults (found.map Prod.snd)) := by
  have hlocated := c.slot.current.map_snd_located
  obtain ⟨found, hperm, hlisted, hsorted⟩ := Snapshot.exists_listed r.effectiveSort
    (l := c.slot.current.located.filter fun p => q.selects .events p.2) (by
      intro p hp
      refine hc.shown p.2 ?_
      rw [← hlocated]
      exact List.mem_map_of_mem (List.mem_filter.1 hp).1)
    (c.slot.current.pairwise_located.filter _)
  refine ⟨found, ⟨hperm, hlisted⟩, ?_⟩
  have hselected : (c.slot.current.located.filter fun p => q.selects .events p.2).map Prod.snd =
      c.slot.current.matching .events q := by
    rw [Snapshot.matching, ← hlocated, List.filter_map]
    rfl
  -- matches are counted without their addresses
  have htotal : (c.slot.current.matching .events q).length = (found.map Prod.snd).length := by
    rw [← hselected, List.length_map, ← hperm.length_eq, List.length_map, List.length_map]
  have hcount : (found.map Prod.snd).length ≤ c.slot.current.documents.length := by
    rw [List.length_map]
    exact Snapshot.Matches.length_le ⟨hperm, hlisted⟩
  -- the collected documents behind the offset are those of the page
  have htop : ((Snapshot.sorted .events r.effectiveSort (c.slot.current.matching .events q)).take
      (r.collected c.config.maxResults c.slot.current.documents.length)).drop r.effectiveOffset =
      (r.pageOf c.config.maxResults (found.map Prod.snd)).events.map Document.ofEvent := by
    rw [← hselected, hsorted, Request.pageOf, ← r.take_collected
      (r.effectiveLimit_pos (maxResults_of_rejections hc.in_range).1) hcount, List.map_drop,
      List.map_take]
  unfold list
  rw [hc.schema_eq, hq]
  change page .events c.config.maxResults r q c.slot.current = _
  unfold page
  simp only [Query.isRunnable_ofFilter hq, Bool.not_true, Bool.false_eq_true, if_false, htop,
    mapM_eventOf, htotal]
  rfl

/-- **A list gives exactly the window of the sorted matches that is asked for.** The limit counts if it is between
one and the greatest page size, and the offset if it is positive; without a sort, what was last seen comes first. There
is one list of matches in the order of the sort; the page holds those from the offset on, as many as the limit says,
tells how many there are, and where to go on if any are left. No more matches are collected for it than there are
documents, but at least one, and that does not change the window. No number in it leaves the range of 64 bits. -/
theorem list_window {c : Catalog} (hc : c.HoldsEvents) {r : Request} {q : Query}
    (hq : Query.ofFilter .events r.filter = .ok q)
    (hoffset : ∀ n, r.offset = some n → n ≤ Int64.maxValue.toInt) :
    let asked := r.limit.getD 0
    let limit := if 1 ≤ asked ∧ asked ≤ c.config.maxResults then asked.toNat else c.config.maxResults
    let offset := (max (r.offset.getD 0) 0).toNat
    let sort := if r.sort = [] then [⟨.lastSeen, .descending⟩] else r.sort
    ∃ found, c.slot.current.Matches q sort found ∧
      (∀ found', c.slot.current.Matches q sort found' → found' = found) ∧
      c.list r = .ok {
        events := ((found.map Prod.snd).drop offset).take limit
        total := found.length
        limit := limit
        nextOffset := if limit + offset < found.length then some (limit + offset + 1) else none } ∧
      (let collected := max 1 (min (limit + offset) c.slot.current.documents.length)
       r.collected c.config.maxResults c.slot.current.documents.length = collected ∧ 1 ≤ collected ∧
        (found.take collected).drop offset = (found.drop offset).take limit) ∧
      limit + offset + 1 < UInt64.size := by
  -- what is spelled out here is what the index works with
  simp only [← Request.effectiveLimit_eq, ← Request.effectiveOffset_eq, ← Request.effectiveSort_eq]
  obtain ⟨found, hfound, hlist⟩ := list_eq_pageOf hc hq
  have hgreatest := maxResults_of_rejections hc.in_range
  have hlimit := r.effectiveLimit_le c.config.maxResults
  refine ⟨found, hfound, fun found' h => hfound.unique h, ?_, ⟨rfl, Nat.le_max_left _ _, ?_⟩, ?_⟩
  · rw [hlist, Request.pageOf, List.length_map]
  · exact r.take_collected (r.effectiveLimit_pos hgreatest.1) (hfound.length_le)
  · have hsize : UInt64.size = 18446744073709551616 := rfl
    -- an offset is not negative, and it was given in 64 bits with a sign
    have hrange : r.effectiveOffset ≤ 9223372036854775807 := by
      unfold Request.effectiveOffset
      cases ho : r.offset with
      | none => exact Nat.zero_le _
      | some n =>
        have hn := hoffset n ho
        have hmax : Int64.maxValue.toInt = 9223372036854775807 := rfl
        rw [Option.getD_some]
        omega
    omega

/-- An event that was counted so many times. -/
def counted (n : Nat) (count : UInt32) : Event :=
  { Event.raise (.ofNat n) .epoch "host" "/Status" "down" .error with count := count }

/-- An index of two segments. The first document of the second one is struck out; two others, one in each, have the
same count. -/
def twoSegments : Catalog where
  name := "events"
  config := .default
  index := .empty .events
  writer := .ofStamp 0
  slot := .ofSegments [
    ⟨0, [⟨.ofEvent (counted 1 2), true⟩, ⟨.ofEvent (counted 2 1), true⟩], none, 0⟩,
    ⟨1, [⟨.ofEvent (counted 3 2), false⟩, ⟨.ofEvent (counted 4 2), true⟩, ⟨.ofEvent (counted 5 3), true⟩],
      some 3, 0⟩]
  sinceOptimize := 0
  lastCommit := none

/-- The second page of two has the events with the same count in the order of their segments, and one more is left. -/
theorem list_window_twoSegments :
    twoSegments.list { sort := [⟨.count, .ascending⟩], limit := some 2, offset := some 1 } = .ok {
      events := [counted 1 2, counted 4 2]
      total := 4, limit := 2, nextOffset := some 4 } := by
  have hc : twoSegments.HoldsEvents := by
    refine ⟨rfl, by decide, ?_⟩
    have hshown : twoSegments.slot.current.documents =
        [counted 1 2, counted 2 1, counted 4 2, counted 5 3].map Document.ofEvent := rfl
    rw [hshown]
    exact fun d hd => (List.mem_map.1 hd).imp fun e he => he.2.symm
  obtain ⟨found, -, hunique, hlist, -⟩ := list_window hc (q := .all)
    (r := { sort := [⟨.count, .ascending⟩], limit := some 2, offset := some 1 }) rfl (by decide)
  have hfound := hunique
    [(⟨0, 1⟩, counted 2 1), (⟨0, 0⟩, counted 1 2), (⟨1, 1⟩, counted 4 2), (⟨1, 2⟩, counted 5 3)]
    ⟨.swap _ _ _, by decide⟩
  rw [hlist, ← hfound]
  rfl

end Catalog

end EventCatalog
