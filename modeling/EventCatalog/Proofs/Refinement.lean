import EventCatalog.Proofs.Contents

/-!
# The catalog as a map

Every run of operations on a fresh catalog comes to what it comes to on two plain maps
(`Catalog.refines_map`). The maps are changed by `Operation.plain`: staging puts an event into the first
one, removing takes one out, and committing makes the second map the first. What readers are told is
what the second map says (`Catalog.Answers`): the event of every identifier, the number of events, and,
page by page, all of them.

One operation keeps up that the catalog tracks the two maps (`Catalog.Tracks.run`); the rest is an
induction on the run.
-/

namespace EventCatalog

/-! ### What readers are told -/

/-- The pages of a list, put together, are the list. -/
theorem flatMap_range_take {α : Type} (l : List α) (k n : Nat) :
    ((List.range n).flatMap fun i => (l.drop (i * k)).take k) = l.take (n * k) := by
  induction n with
  | zero => simp
  | succ n ih =>
    rw [List.range_succ, List.flatMap_append, ih, List.flatMap_singleton, Nat.succ_mul,
      List.take_add]

namespace Catalog

/-- Readers are told what a map says: the event of every identifier, how many events there are, and all
events, whatever the order and the size of the pages in which they are listed. -/
structure Answers (c : Catalog) (m : EventMap) : Prop where
  find_eq : ∀ u, c.find u = .ok (m.lookup u)
  documents_eq : c.stats.documents = m.keys.card
  /-- A page of a list has room for one event at least, so there is a number of pages that have room for all. The
  pages of a list without a filter, one behind the other, then hold every event once. -/
  pages : ∀ r : Request, r.filter = none → 1 ≤ r.effectiveLimit c.config.maxResults ∧ ∃ page : Nat → Page,
    (∀ k : Nat, c.list { r with
      offset := some (k * r.effectiveLimit c.config.maxResults : Nat) } = .ok (page k)) ∧
    ∀ n, m.keys.card ≤ n * r.effectiveLimit c.config.maxResults →
      ((List.range n).flatMap fun k => (page k).events : Multiset Event) =
        m.entries.map Sigma.snd ∧
      (((List.range n).flatMap fun k => (page k).events).map Event.uuid).Nodup

variable {c : Catalog} {pending committed : EventMap}

theorem Tracks.holdsEvents (h : Tracks c pending committed) : c.HoldsEvents where
  schema_eq := h.schema_eq
  in_range := h.in_range
  shown := by
    intro d hd
    obtain ⟨e, -, he⟩ := (h.committed.mem_iff d).1 hd
    exact ⟨e, he⟩

theorem Tracks.find_eq (h : Tracks c pending committed) (u : Uuid) :
    c.find u = .ok (committed.lookup u) := by
  unfold find
  rw [h.schema_eq]
  simp only [isRunnable_keyQuery, Bool.not_true, Bool.false_eq_true, if_false]
  refine reading_of_documents fun s hs => ?_
  rw [hs, h.committed.find?_eq]
  -- what is found under an identifier is the document of its event, if there is one
  cases committed.lookup u with
  | none => rfl
  | some e =>
    rw [Option.map_some]
    simp only [eventOf, Document.event_ofEvent]
    rfl

/-- All matches of a list without a filter are the events that readers see. -/
theorem Tracks.found_eq (h : Tracks c pending committed) {sort : List SortBy}
    {found : List (Address × Event)} (hfound : c.slot.current.Matches .all sort found) :
    (found.map Prod.snd : Multiset Event) = committed.entries.map Sigma.snd := by
  -- a list without a filter leaves nothing out
  have hperm : ((found.map Prod.snd).map Document.ofEvent).Perm c.slot.current.documents := by
    have hall : c.slot.current.located.filter (fun p => Query.all.selects .events p.2) =
        c.slot.current.located :=
      List.filter_eq_self.2 fun p _ => by rw [Query.selects]
    have hsnd := hfound.perm.map Prod.snd
    rw [hall, Snapshot.map_snd_located, List.map_map] at hsnd
    rw [List.map_map]
    exact hsnd
  -- events are compared by their documents, which hold all there is to an event
  refine Multiset.map_injective (f := Document.ofEvent) (fun _ _ => Document.ofEvent_injective) ?_
  calc
    (found.map Prod.snd : Multiset Event).map Document.ofEvent
        = (c.slot.current.documents : Multiset Document) := by
      rw [Multiset.map_coe]
      exact Multiset.coe_eq_coe.2 hperm
    _ = committed.entries.map fun s => .ofEvent s.2 := h.committed.coe_eq
    _ = (committed.entries.map Sigma.snd).map Document.ofEvent := by
      rw [Multiset.map_map]
      rfl

/-- The values of the map have identifiers of their own. -/
theorem Tracks.nodup_uuids (h : Tracks c pending committed) :
    ((committed.entries.map Sigma.snd).map Event.uuid).Nodup := by
  -- every event stands under its own identifier
  have hkeys : (committed.entries.map Sigma.snd).map Event.uuid = committed.entries.keys := by
    rw [Multiset.map_map]
    refine Multiset.map_congr rfl fun s hs => ?_
    exact h.committed.keyed s.1 s.2 (Finmap.lookup_eq_some_iff.2 hs)
  rw [hkeys]
  exact Multiset.nodup_keys.2 committed.nodupKeys

/-- **Readers are told what the second map says.** -/
theorem Tracks.answers (h : Tracks c pending committed) : c.Answers committed where
  find_eq := h.find_eq
  documents_eq := h.committed.length_eq
  pages := by
    intro r hr
    have hq : Query.ofFilter .events r.filter = .ok .all := by rw [hr]; rfl
    obtain ⟨found, hfound, -⟩ := list_eq_pageOf h.holdsEvents hq
    have hvalues := h.found_eq hfound
    refine ⟨r.effectiveLimit_pos (maxResults_of_rejections h.in_range).1, fun k => Request.pageOf { r with
      offset := some (k * r.effectiveLimit c.config.maxResults : Nat) } c.config.maxResults
        (found.map Prod.snd), fun k => ?_, fun n hn => ?_⟩
    · -- the order of the matches does not depend on the offset
      obtain ⟨found', hfound', hlist⟩ := list_eq_pageOf h.holdsEvents (r := { r with
        offset := some (k * r.effectiveLimit c.config.maxResults : Nat) }) hq
      rw [hlist, hfound.unique hfound']
    -- there are pages enough for all matches
    · have hlength : (found.map Prod.snd).length ≤ n * r.effectiveLimit c.config.maxResults := by
        rw [← Multiset.coe_card, hvalues, Multiset.card_map]
        exact (Multiset.card_map Sigma.fst committed.entries).ge.trans hn
      have hpages : ((List.range n).flatMap fun k => (Request.pageOf { r with
          offset := some (k * r.effectiveLimit c.config.maxResults : Nat) } c.config.maxResults
            (found.map Prod.snd)).events) = found.map Prod.snd := by
        refine (flatMap_range_take (found.map Prod.snd)
          (r.effectiveLimit c.config.maxResults) n).trans ?_
        exact List.take_of_length_le hlength
      rw [hpages]
      refine ⟨hvalues, ?_⟩
      rw [← Multiset.coe_nodup, ← Multiset.map_coe, hvalues]
      exact h.nodup_uuids

end Catalog

/-! ### Runs of operations -/

/-- An operation on the catalog. -/
inductive Operation where
  | stage (e : Event)
  | commit (now : Instant) (force : Bool)
  | add (now : Instant) (e : Event)
  | addMany (now : Instant) (events : List Event)
  | delete (now : Instant) (u : Uuid)
  | deleteMany (now : Instant) (uuids : List Uuid)
  | optimize (now : Instant)

namespace Operation

/-- The operation on the catalog: whether it succeeded, and the catalog as it is afterwards. -/
def run (c : Catalog) : Operation → Except CatalogError Unit × Catalog
  | stage e => (.ok (), c.stage e)
  | commit now force => c.commit now force
  | add now e => c.add now e
  | addMany now events => ((c.addMany now events).1.map fun _ => (), (c.addMany now events).2)
  | delete now u => c.delete now u
  | deleteMany now uuids => ((c.deleteMany now uuids).1.map fun _ => (), (c.deleteMany now uuids).2)
  | optimize now => c.optimize now

/-- The operation on two maps: what is staged, and what has been committed. -/
def plain (m : EventMap × EventMap) : Operation → EventMap × EventMap
  | stage e => (m.1.insert e.uuid e, m.2)
  | commit _ _ => (m.1, m.1)
  | add _ e => (m.1.insert e.uuid e, m.1.insert e.uuid e)
  | addMany _ events =>
    let staged := events.foldl (fun m e => m.insert e.uuid e) m.1
    (staged, staged)
  | delete _ u => (m.1.erase u, m.1.erase u)
  | deleteMany _ uuids =>
    if uuids.isEmpty then m
    else
      let staged := uuids.foldl (fun m u => m.erase u) m.1
      (staged, staged)
  | optimize _ => (m.1, m.1)

end Operation

/-! ### Opening -/

/-- An index as it is opened: its segments have carried out none of the removals to come. -/
def Index.rewound (ix : Index) : Index :=
  { ix with segments := ix.segments.map fun s => { s with reached := 0 } }

theorem Index.mem_rewound {ix : Index} {s : Segment} (h : s ∈ ix.rewound.segments) :
    ∃ u ∈ ix.segments, s = { u with reached := 0 } := by
  obtain ⟨u, hu, rfl⟩ := List.mem_map.1 h
  exact ⟨u, hu, rfl⟩

namespace Catalog

/-- The catalog after operations, one after the other. -/
def runAll (c : Catalog) (ops : List Operation) : Catalog := ops.foldl (fun c op => (op.run c).2) c

variable {c : Catalog} {pending committed : EventMap} {name : String} {config : SearchConfig}

/-- **What is opened**, if it is: the index with a new writer, which readers see as it is. -/
theorem eq_of_ofIndex {ix : Index} {locked : Bool} (h : ofIndex name config ix locked = .ok c) :
    c = {
      name := name
      config := config
      index := ix.rewound
      writer := .ofStamp ix.stamp
      slot := .ofSegments ix.rewound.segments
      sinceOptimize := 0
      lastCommit := none } := by
  unfold ofIndex at h
  split at h
  · exact nomatch h
  · split at h
    · exact nomatch h
    · exact (Except.ok.inj h).symm

/-- Only with a configuration that is in range is a directory opened. -/
theorem rejections_of_validateConfig (h : validateConfig config = .ok ()) :
    config.rejections = [] := by
  unfold validateConfig at h
  split at h
  · next hempty => exact List.isEmpty_iff.1 hempty
  · exact nomatch h

/-- A directory is opened by opening the index in it. -/
theorem ofIndex_of_openDirectory {ix : Index} {locked : Bool}
    (h : openDirectory name config (.index ix) locked = .ok c) :
    config.rejections = [] ∧ ofIndex name config ix locked = .ok c := by
  obtain ⟨_, hvalid, hix⟩ := Except.bind_eq_ok.1 h
  exact ⟨rejections_of_validateConfig hvalid, hix⟩

/-- However a fresh catalog was opened, an empty index was. -/
theorem ofIndex_of_fresh
    (h : create name config = .ok c ∨ ∃ locked, openDirectory name config .absent locked = .ok c) :
    config.rejections = [] ∧ ∃ locked, ofIndex name config (.empty .events) locked = .ok c := by
  rcases h with h | ⟨locked, h⟩
  · obtain ⟨_, hvalid, hix⟩ := Except.bind_eq_ok.1 h
    exact ⟨rejections_of_validateConfig hvalid, _, hix⟩
  · obtain ⟨_, hvalid, hix⟩ := Except.bind_eq_ok.1 h
    exact ⟨rejections_of_validateConfig hvalid, _, hix⟩

/-- A fresh catalog holds nothing. -/
theorem tracks_of_fresh
    (h : create name config = .ok c ∨ ∃ locked, openDirectory name config .absent locked = .ok c) :
    Tracks c ∅ ∅ := by
  obtain ⟨hconfig, locked, hix⟩ := ofIndex_of_fresh h
  obtain rfl := eq_of_ofIndex hix
  exact {
    schema_eq := rfl
    in_range := hconfig
    orderly := Writer.orderly_ofStamp fun s hs => absurd hs List.not_mem_nil
    marked := ⟨.nil, by simp [Index.rewound, Index.empty], by simp [Index.rewound, Index.empty],
      by simp [Index.rewound, Index.empty]⟩
    accepted := rfl
    shows := rfl
    pending := .nil
    committed := .nil }

/-! ### Runs on a catalog -/

theorem Tracks.stageAll (h : Tracks c pending committed) (events : List Event) :
    Tracks (c.stageAll events) (events.foldl (fun m e => m.insert e.uuid e) pending) committed := by
  unfold Catalog.stageAll
  induction events generalizing c pending with
  | nil => exact h
  | cons e rest ih => exact ih (h.stage e)

theorem Tracks.stageRemoveAll (h : Tracks c pending committed) (uuids : List Uuid) :
    Tracks (uuids.foldl Catalog.stageRemove c) (uuids.foldl (fun m u => m.erase u) pending)
      committed := by
  induction uuids generalizing c pending with
  | nil => exact h
  | cons u rest ih => exact ih (h.stageRemove u)

/-- **One operation** succeeds and acts on the maps as its name says. -/
theorem Tracks.run {m : EventMap × EventMap} (h : Tracks c m.1 m.2) (op : Operation) :
    (op.run c).1 = .ok () ∧ Tracks (op.run c).2 (op.plain m).1 (op.plain m).2 := by
  cases op with
  | stage e => exact ⟨rfl, h.stage e⟩
  | commit now force => exact h.commit now force
  | add now e => exact (h.stage e).commit now false
  | addMany now events =>
    obtain ⟨hok, htracks⟩ := (h.stageAll events).commit now false
    refine ⟨?_, htracks⟩
    simp only [Operation.run, addMany, returning, hok]
    rfl
  | delete now u => exact (h.stageRemove u).commit now false
  | deleteMany now uuids =>
    simp only [Operation.run, Operation.plain, deleteMany]
    by_cases hempty : uuids.isEmpty = true
    -- for an empty list nothing is committed, not even what was staged before
    · rw [if_pos hempty, if_pos hempty]
      exact ⟨rfl, h⟩
    · rw [if_neg hempty, if_neg hempty]
      obtain ⟨hok, htracks⟩ := (h.stageRemoveAll uuids).commit now true
      refine ⟨?_, htracks⟩
      simp only [returning, hok]
      rfl
  | optimize now => exact h.commit now true

/-- The induction on the run. -/
theorem Tracks.runAll {m : EventMap × EventMap} (h : Tracks c m.1 m.2) (ops : List Operation) :
    Tracks (c.runAll ops) (ops.foldl Operation.plain m).1 (ops.foldl Operation.plain m).2 := by
  unfold Catalog.runAll
  induction ops generalizing c m with
  | nil => exact h
  | cons op rest ih => exact ih (h.run op).2

/-- **The catalog refines a plain map.** However a fresh catalog was opened, and whatever operations were
run on it, each of them succeeds, and readers are told what has been committed, as two plain maps have
it. -/
theorem refines_map {name : String} {config : SearchConfig} {c : Catalog}
    (h : create name config = .ok c ∨ ∃ locked, openDirectory name config .absent locked = .ok c)
    (ops : List Operation) :
    (∀ op : Operation, (op.run (c.runAll ops)).1 = .ok ()) ∧
      (c.runAll ops).Answers (ops.foldl Operation.plain (∅, ∅)).2 := by
  have htracks := (tracks_of_fresh h).runAll (m := (∅, ∅)) ops
  exact ⟨fun op => (htracks.run op).1, htracks.answers⟩

/-- Of an event that is staged twice and committed, readers see the later version, and nothing yet of
one that is staged afterwards. -/
theorem refines_map_restaged :
    let event (summary : String) : Event :=
      .raise (.ofNat 1) .epoch "host" "/Status" summary .warning
    ∃ c, create "events" .default = .ok c ∧
      (c.runAll [.stage (event "down"), .add .epoch (event "up"), .stage (event "gone")]).find
        (.ofNat 1) = .ok (some (event "up")) := by
  intro event
  obtain ⟨c, hc⟩ : ∃ c, create "events" .default = .ok c := ⟨_, rfl⟩
  refine ⟨c, hc, ?_⟩
  have h := refines_map (.inl hc)
    [.stage (event "down"), .add .epoch (event "up"), .stage (event "gone")]
  rw [h.2.find_eq]
  exact congrArg Except.ok (Finmap.lookup_insert _)

end Catalog

end EventCatalog
