import Mathlib.Data.Finmap
import EventCatalog.Proofs.Listing
import EventCatalog.Proofs.Publishing

/-!
# The contents of the catalog

For all its segments, stamps and snapshots the catalog is a map from identifiers to events, and another
one with the changes that are staged. `Catalog.Tracks` ties the catalog to the two maps: the documents of
the outlook are those of the events of the first (`Holds`), and the documents that readers see are those
of the second. Every operation acts on the maps as its name says (`Tracks.stage`, `Tracks.stageRemove`,
`Tracks.commit`); a commit makes the second map the first one.

What a catalog tells its readers follows from the second map alone (`Tracks.answers`). For every run of
operations on a fresh catalog that gives `Catalog.refines_map`.
-/

namespace EventCatalog

/-- Events by their identifiers. -/
abbrev EventMap := Finmap fun _ : Uuid => Event

/-! ### Documents of the events of a map -/

/-- Documents are those of the events of a map, each of them once. -/
structure Holds (docs : List Document) (m : EventMap) : Prop where
  keyed : ∀ u e, m.lookup u = some e → e.uuid = u
  nodup : docs.Nodup
  mem_iff : ∀ d, d ∈ docs ↔ ∃ e, m.lookup e.uuid = some e ∧ d = .ofEvent e

namespace Holds

variable {docs : List Document} {m : EventMap}

theorem nil : Holds [] ∅ where
  keyed := by simp
  nodup := .nil
  mem_iff := by simp

theorem of_perm {docs' : List Document} (hp : docs'.Perm docs) (h : Holds docs m) :
    Holds docs' m where
  keyed := h.keyed
  nodup := hp.nodup_iff.2 h.nodup
  mem_iff := fun d => hp.mem_iff.trans (h.mem_iff d)

/-- Without the documents that the query of an identifier selects, the event is gone. -/
theorem erase (h : Holds docs m) (u : Uuid) :
    Holds (docs.filter fun d => !(Catalog.keyQuery u).selects .events d) (m.erase u) where
  keyed := by
    intro v e he
    by_cases hv : v = u
    · rw [hv, Finmap.lookup_erase] at he
      exact nomatch he
    · rw [Finmap.lookup_erase_ne hv] at he
      exact h.keyed v e he
  nodup := h.nodup.filter _
  mem_iff := by
    intro d
    rw [List.mem_filter, h.mem_iff]
    constructor
    · rintro ⟨⟨e, he, rfl⟩, hselected⟩
      -- the query selects the documents with this identifier and no others
      rw [Catalog.selects_keyQuery, Bool.not_eq_true', beq_eq_false_iff_ne] at hselected
      exact ⟨e, by rw [Finmap.lookup_erase_ne hselected, he], rfl⟩
    · rintro ⟨e, he, rfl⟩
      by_cases hu : e.uuid = u
      · rw [hu, Finmap.lookup_erase] at he
        exact nomatch he
      · rw [Finmap.lookup_erase_ne hu] at he
        refine ⟨⟨e, he, rfl⟩, ?_⟩
        rw [Catalog.selects_keyQuery, Bool.not_eq_true', beq_eq_false_iff_ne]
        exact hu

/-- A document more is an event more. -/
theorem insert (h : Holds docs m) {e : Event} (hnew : e.uuid ∉ m) :
    Holds (docs ++ [.ofEvent e]) (m.insert e.uuid e) where
  keyed := by
    intro u f hf
    by_cases hu : u = e.uuid
    · rw [hu, Finmap.lookup_insert] at hf
      rw [hu, Option.some.inj hf]
    · rw [Finmap.lookup_insert_of_ne _ hu] at hf
      exact h.keyed u f hf
  nodup := by
    refine List.nodup_append.2 ⟨h.nodup, List.nodup_singleton _, ?_⟩
    -- the same document twice would be the same event twice, but the identifier is new to the map
    rintro d hd d' hd' rfl
    obtain rfl := List.mem_singleton.1 hd'
    obtain ⟨f, hf, heq⟩ := (h.mem_iff _).1 hd
    rw [← Document.ofEvent_injective heq] at hf
    exact hnew (Finmap.mem_of_lookup_eq_some hf)
  mem_iff := by
    intro d
    rw [List.mem_append, h.mem_iff, List.mem_singleton]
    constructor
    · rintro (⟨f, hf, rfl⟩ | rfl)
      · refine ⟨f, ?_, rfl⟩
        rw [Finmap.lookup_insert_of_ne, hf]
        intro hu
        exact hnew (hu ▸ Finmap.mem_of_lookup_eq_some hf)
      · exact ⟨e, Finmap.lookup_insert m, rfl⟩
    · rintro ⟨f, hf, rfl⟩
      by_cases hu : f.uuid = e.uuid
      · rw [hu, Finmap.lookup_insert] at hf
        exact .inr (by rw [Option.some.inj hf])
      · rw [Finmap.lookup_insert_of_ne _ hu] at hf
        exact .inl ⟨f, hf, rfl⟩

/-- The document that the query of an identifier finds is that of the event. -/
theorem find?_eq (h : Holds docs m) (u : Uuid) :
    docs.find? (fun d => (Catalog.keyQuery u).selects .events d) =
      (m.lookup u).map Document.ofEvent := by
  cases hu : m.lookup u with
  | none =>
    -- a document with the identifier would be that of an event under it
    refine List.find?_eq_none.2 fun d hd => ?_
    obtain ⟨e, he, rfl⟩ := (h.mem_iff d).1 hd
    rw [Catalog.selects_keyQuery, beq_iff_eq]
    rintro rfl
    rw [hu] at he
    exact nomatch he
  | some e =>
    have huuid := h.keyed u e hu
    have hmem : Document.ofEvent e ∈ docs := (h.mem_iff _).2 ⟨e, by rw [huuid, hu], rfl⟩
    cases hfind : docs.find? fun d => (Catalog.keyQuery u).selects .events d with
    | none =>
      refine absurd ?_ (List.find?_eq_none.1 hfind _ hmem)
      rw [Catalog.selects_keyQuery, huuid, beq_self_eq_true]
    | some d =>
      -- whatever is found has the identifier, and there is one event only that has it
      have hselected := List.find?_some hfind
      obtain ⟨f, hf, rfl⟩ := (h.mem_iff d).1 (List.mem_of_find?_eq_some hfind)
      rw [Catalog.selects_keyQuery, beq_iff_eq] at hselected
      rw [hselected, hu] at hf
      rw [Option.some.inj hf]
      rfl

/-- Taken together, the documents are those of the entries of the map. -/
theorem coe_eq (h : Holds docs m) :
    (docs : Multiset Document) = m.entries.map fun s => .ofEvent s.2 := by
  -- neither side has anything twice, so it is enough that they have the same members
  refine (Multiset.Nodup.ext (Multiset.coe_nodup.2 h.nodup) ?_).2 ?_
  · refine Multiset.Nodup.map_on ?_ m.nodup_entries
    intro s hs t ht heq
    have hst : s.2 = t.2 := Document.ofEvent_injective heq
    have hs' := h.keyed s.1 s.2 (Finmap.lookup_eq_some_iff.2 hs)
    have ht' := h.keyed t.1 t.2 (Finmap.lookup_eq_some_iff.2 ht)
    exact Sigma.ext (by rw [← hs', ← ht', hst]) (heq_of_eq hst)
  · intro d
    rw [Multiset.mem_coe, h.mem_iff, Multiset.mem_map]
    constructor
    · rintro ⟨e, he, rfl⟩
      exact ⟨⟨e.uuid, e⟩, Finmap.lookup_eq_some_iff.1 he, rfl⟩
    · rintro ⟨s, hs, rfl⟩
      have hlookup := Finmap.lookup_eq_some_iff.2 hs
      exact ⟨s.2, by rw [h.keyed s.1 s.2 hlookup, hlookup], rfl⟩

/-- There are as many documents as entries. -/
theorem length_eq (h : Holds docs m) : docs.length = m.keys.card := by
  rw [← Multiset.coe_card, h.coe_eq, Multiset.card_map]
  exact (Multiset.card_map Sigma.fst m.entries).symm

end Holds

/-! ### A commit, merged or not -/

/-- What a commit leaves of an index and its writer: the documents of the outlook, nothing to be done,
and segments that are told apart from those before wherever they differ. -/
structure Writer.Follows (ix : Index) (w : Writer) (ix' : Index) (w' : Writer) : Prop where
  schema_eq : ix'.schema = ix.schema
  orderly : Orderly ix' w'
  settled : Settled ix' w'
  marked : Marked ix' w'
  perm : ix'.documents.Perm (outlook ix w)
  nextId_le : ix.nextId ≤ ix'.nextId
  entries_eq : ∀ s ∈ ix.segments, ∀ t ∈ ix'.segments, s.fingerprint = t.fingerprint →
    s.entries = t.entries

namespace Writer

variable {ix ix' : Index} {w w' : Writer}

theorem follows_commit (h : Orderly ix w) (hm : Marked ix w) (deal : Deal := .together) :
    Follows ix w (w.commit ix deal).1 (w.commit ix deal).2 where
  schema_eq := rfl
  orderly := h.commit deal
  settled := settled_commit h deal
  marked := hm.commit deal
  perm := documents_commit h deal
  nextId_le := Nat.le_add_right _ _
  entries_eq := entries_eq_of_commit hm deal

theorem Follows.consolidate (h : Follows ix w ix' w') (hm : Marked ix w) :
    Follows ix w ix'.consolidate w'.tick where
  schema_eq := h.schema_eq
  orderly := (h.orderly.consolidate h.settled).tick
  settled := { h.settled.consolidate with }
  marked := Marked.consolidate.tick
  perm := by
    rw [Index.documents_consolidate]
    exact h.perm
  nextId_le := Nat.le_succ_of_le h.nextId_le
  entries_eq := entries_eq_of_consolidate fun s hs => Nat.lt_of_lt_of_le (hm.id_lt s hs) h.nextId_le

end Writer

/-- **A commit publishes what it has written**, merged or not. -/
theorem Catalog.commit_written {c : Catalog} (hcan : c.writer.canCommit c.index.schema = true)
    (now : Occasion) (force : Bool) {P : Index → Writer → Prop}
    (hwritten : P (c.writer.commit c.index now.deal).1 (c.writer.commit c.index now.deal).2)
    (hmerged : P (c.writer.commit c.index now.deal).1.consolidate
      (c.writer.commit c.index now.deal).2.tick) :
    ∃ ix w, P ix w ∧ c.commit now force = (.ok (), { c with
      index := ix
      writer := w
      slot := (c.slot.publish ix.segments).2
      sinceOptimize := if force || c.config.optimizeThreshold ≤ c.sinceOptimize then 0
        else c.sinceOptimize
      lastCommit := some now.time }) := by
  unfold Catalog.commit
  rw [if_pos hcan]
  by_cases hmerge : (force || decide (c.config.optimizeThreshold ≤ c.sinceOptimize)) = true
  · -- merging is asked for or due, but there may be nothing to merge
    by_cases hscattered : (c.writer.commit c.index now.deal).1.isScattered = true
    · refine ⟨_, _, hmerged, ?_⟩
      simp only [hmerge, if_true, consolidate, hscattered]
    · refine ⟨_, _, hwritten, ?_⟩
      simp only [hmerge, if_true, consolidate, hscattered, Bool.false_eq_true, if_false]
  · refine ⟨_, _, hwritten, ?_⟩
    simp only [hmerge, Bool.false_eq_true, if_false]

/-! ### The catalog and its two maps -/

namespace Catalog

/-- The catalog holds the events of two maps: what a commit will leave, and what readers see. -/
structure Tracks (c : Catalog) (pending committed : EventMap) : Prop where
  schema_eq : c.index.schema = .events
  in_range : c.config.rejections = []
  orderly : Writer.Orderly c.index c.writer
  marked : Writer.Marked c.index c.writer
  accepted : c.writer.canCommit .events = true
  shows : c.slot.Shows c.index.segments
  pending : Holds (Writer.outlook c.index c.writer) pending
  committed : Holds c.slot.current.documents committed

variable {c : Catalog} {pending committed : EventMap}

/-- Removing an event takes it from the first map. -/
theorem Tracks.stageRemove (h : Tracks c pending committed) (u : Uuid) :
    Tracks (c.stageRemove u) (pending.erase u) committed := by
  have hrunnable : (keyQuery u).isRunnable c.index.schema = true := by
    rw [h.schema_eq]
    exact isRunnable_keyQuery u
  unfold Catalog.stageRemove
  rw [if_pos hrunnable]
  refine { h with orderly := h.orderly.remove _, marked := h.marked.remove _, pending := ?_ }
  change Holds (Writer.outlook c.index (c.writer.remove (keyQuery u))) _
  rw [Writer.outlook_remove h.orderly, h.schema_eq]
  exact h.pending.erase u

/-- Staging an event puts it into the first map, in place of an earlier one. -/
theorem Tracks.stage (h : Tracks c pending committed) (e : Event) :
    Tracks (c.stage e) (pending.insert e.uuid e) committed := by
  have hr := h.stageRemove e.uuid
  refine { schema_eq := hr.schema_eq, in_range := hr.in_range, orderly := hr.orderly.add _,
           marked := hr.marked.add _, accepted := ?_, shows := hr.shows, pending := ?_,
           committed := hr.committed }
  -- what was staged could be committed, and so can the document of an event
  · obtain ⟨-, hadditions, -⟩ := Writer.add_spec hr.orderly.running (.ofEvent e)
    have haccepted := hr.accepted
    change ((c.stageRemove e.uuid).writer.add (.ofEvent e)).canCommit .events = true
    simp only [Writer.canCommit] at haccepted ⊢
    rw [hadditions, List.all_append, haccepted, List.all_cons, Index.accepts_ofEvent]
    rfl
  · change Holds (Writer.outlook (c.stageRemove e.uuid).index
      ((c.stageRemove e.uuid).writer.add (.ofEvent e))) _
    rw [Writer.outlook_add hr.orderly]
    -- putting an event in takes an earlier one out, which has been done by the removal
    have hinsert : (pending.erase e.uuid).insert e.uuid e = pending.insert e.uuid e := by
      refine Finmap.ext_lookup fun u => ?_
      by_cases hu : u = e.uuid
      · rw [hu, Finmap.lookup_insert, Finmap.lookup_insert]
      · rw [Finmap.lookup_insert_of_ne _ hu, Finmap.lookup_insert_of_ne _ hu,
          Finmap.lookup_erase_ne hu]
    rw [← hinsert]
    exact hr.pending.insert Finmap.notMem_erase_self

/-- **A commit succeeds and makes the first map the second**, however the documents fall to segments, whether or
not the segments are merged, and whether or not a snapshot is published. -/
theorem Tracks.commit (h : Tracks c pending committed) (now : Occasion) (force : Bool) :
    (c.commit now force).1 = .ok () ∧ Tracks (c.commit now force).2 pending pending := by
  have hcan : c.writer.canCommit c.index.schema = true := by
    rw [h.schema_eq]
    exact h.accepted
  have hcommit := Writer.follows_commit h.orderly h.marked now.deal
  obtain ⟨ix, w, hfollows, heq⟩ := commit_written hcan now force hcommit (hcommit.consolidate h.marked)
  -- a snapshot is kept only if its segments have the fingerprints of the new ones, and then their entries
  have hshows : (c.slot.publish ix.segments).2.Shows ix.segments :=
    SnapshotSlot.shows_publish (h.shows.entries_eq hfollows.entries_eq)
  have hheld : Holds ix.documents pending := h.pending.of_perm hfollows.perm
  rw [heq]
  exact ⟨rfl, {
    schema_eq := hfollows.schema_eq.trans h.schema_eq
    in_range := h.in_range
    orderly := hfollows.orderly
    marked := hfollows.marked
    accepted := by
      change w.canCommit .events = true
      rw [Writer.canCommit, hfollows.settled.additions_eq]
      rfl
    shows := hshows
    pending := by
      change Holds (Writer.outlook ix w) pending
      rw [hfollows.settled.outlook]
      exact hheld
    committed := by
      change Holds (c.slot.publish ix.segments).2.current.documents pending
      rw [hshows.documents]
      exact hheld }⟩

end Catalog

end EventCatalog
