import Mathlib.Algebra.GroupWithZero.Nat
import EventCatalog.Proofs.Batches
import EventCatalog.Proofs.Consolidation

/-!
# One handler for many batches

A handler counts what it stages, and keeps the identifiers that are to be removed until their batch is complete.
Were any of that left behind by a batch, a later one would remove events that have come back in the meantime. A
completed batch leaves nothing but the totals (`FeedTally.rested`), and what the next one does to the catalog does
not depend on them (`CatalogFeed.performAll_rested`). So it makes no difference to the catalog whether batches go
through one handler or each through a handler of its own, be the batches what they may
(`CatalogFeed.reuse_eq_renew`).

What it makes no difference to includes the number of segments, and that is up to more than the batches: a writer with
several threads deals the documents of a commit out to segments as it happens. So both ways are compared with every
commit on the same occasion, whatever it is. When the occasions differ too, the segments are others, but the events and
the counter are the same all the same (`CatalogFeed.renew_content`).
-/

namespace EventCatalog

/-- The tally between two batches: nothing is open, and the totals are those of the batches so far. -/
def FeedTally.rested (indexed deleted : Nat) : FeedTally := ⟨0, [], indexed, deleted⟩

/-- **A catalog that takes events** takes every batch. -/
theorem Catalog.TakesEvents.fed {c : Catalog} (h : c.TakesEvents) (now : Occasion) (b : Batch) :
    ∃ c', c.fed now b = (.ok (), c') ∧ c'.TakesEvents := by
  have hstaged := kept_takesEvents.stageAll h b.changed
  unfold Catalog.fed
  split
  · exact ⟨_, Prod.ext (hstaged.commit_ok now false) rfl, hstaged.commit now false⟩
  · have hremoved := kept_takesEvents.stageRemoveAll hstaged b.removed
    exact ⟨_, Prod.ext (hremoved.commit_ok now true) rfl, hremoved.commit now true⟩

/-- The counter after a batch: its changed events are counted, and its removals have the segments merged, as the
threshold does. -/
def Batch.counted (b : Batch) (threshold counter : Nat) : Nat :=
  if !b.removed.isEmpty || threshold ≤ counter + b.changed.length then 0 else counter + b.changed.length

/-- What a batch does to the counter is the same on every occasion. -/
theorem Catalog.TakesEvents.counted_fed {c : Catalog} (h : c.TakesEvents) (now : Occasion) (b : Batch) :
    (c.fed now b).2.sinceOptimize = b.counted c.config.optimizeThreshold c.sinceOptimize ∧
      (c.fed now b).2.config = c.config := by
  have hstaged := kept_takesEvents.stageAll h b.changed
  have hconfig := ((kept_settings c.name c.config).stageAll ⟨rfl, rfl⟩ b.changed)
  unfold Catalog.fed Batch.counted
  cases b.removed.isEmpty with
  | true =>
    obtain ⟨-, hcounter, -⟩ := index_commit hstaged.canCommit now false
    rw [hconfig.2, c.sinceOptimize_stageAll, Bool.false_or] at hcounter
    exact ⟨hcounter, (config_commit _ now false).trans hconfig.2⟩
  | false =>
    have hremoved := kept_takesEvents.stageRemoveAll hstaged b.removed
    have hconfig := (kept_settings c.name c.config).stageRemoveAll hconfig b.removed
    obtain ⟨-, hcounter, -⟩ := index_commit hremoved.canCommit now true
    exact ⟨hcounter, (config_commit _ now true).trans hconfig.2⟩

namespace CatalogFeed

open HandlerCall (performAll)

/-- **What a batch does** to a feed between batches: the catalog is fed with it, whatever the totals. If that
succeeds, nothing is open again, and the totals have grown by the events of the batch. -/
theorem performAll_rested (c : Catalog) (indexed deleted : Nat) (now : Occasion) {b : Batch} (hids : b.ids ≠ []) :
    performAll (⟨c, .rested indexed deleted, now⟩ : CatalogFeed) b.calls =
      match c.fed now b with
      | (.ok (), c) => (.ok (), ⟨c, .rested (indexed + b.changed.length) (deleted + b.removed.length), now⟩)
      | (.error e, c) => (.error (HandlerCall.complete.failure e.toService),
          ⟨c, ⟨b.changed.length, b.removed, indexed, deleted⟩, now⟩) := by
  let f : CatalogFeed := ⟨c, .rested indexed deleted, now⟩
  -- between batches nothing is open, so the batch is all that is open once it is loaded
  have hloaded : f.loaded b = ⟨c.stageAll b.changed, ⟨b.changed.length, b.removed, indexed, deleted⟩, now⟩ := by
    simp only [f, loaded, FeedTally.rested, Nat.zero_add, List.nil_append]
  have hperform : BatchHandler.perform (f.loaded b) .complete = (f.loaded b).complete := rfl
  rw [performAll_loaded f hids, performAll, hperform, complete_loaded rfl, hloaded]
  rcases c.fed now b with ⟨_ | _, c'⟩ <;> rfl

/-- **The rows of a fetch** can be fed to a catalog that takes events, whatever they are. -/
theorem performAll_ofRows {c : Catalog} (hc : c.TakesEvents) (indexed deleted : Nat) (now : Occasion)
    (rows : List QueueRow) :
    ∃ c' : Catalog, c'.TakesEvents ∧
      performAll (⟨c, .rested indexed deleted, now⟩ : CatalogFeed) (Batch.ofRows rows).calls =
        (.ok (), ⟨c', .rested (indexed + (Batch.ofRows rows).changed.length)
          (deleted + (Batch.ofRows rows).removed.length), now⟩) := by
  cases rows with
  -- nothing is called where no row was read
  | nil => exact ⟨c, hc, rfl⟩
  | cons r rest =>
    obtain ⟨c', hfed, hc'⟩ := hc.fed now (Batch.ofRows (r :: rest))
    refine ⟨c', hc', ?_⟩
    rw [performAll_rested c indexed deleted now (List.cons_ne_nil _ _), hfed]

/-! ### Many batches -/

/-- One handler is driven through batches, each completed at a time of its own, up to the first that fails. -/
def reuse (f : CatalogFeed) : List (Batch × Occasion) → Except ServiceError Unit × CatalogFeed
  | [] => (.ok (), f)
  | (b, now) :: rest =>
    match performAll { f with now := now } b.calls with
    | (.ok (), f) => reuse f rest
    | (.error e, f) => (.error e, f)

/-- Each batch is driven through a handler that has done nothing. -/
def renew (c : Catalog) : List (Batch × Occasion) → Except ServiceError Unit × Catalog
  | [] => (.ok (), c)
  | (b, now) :: rest =>
    match performAll (⟨c, .zero, now⟩ : CatalogFeed) b.calls with
    | (.ok (), f) => renew f.catalog rest
    | (.error e, f) => (.error e, f.catalog)

/-- The first of the batches on a handler between batches. -/
theorem reuse_cons (c : Catalog) (indexed deleted : Nat) (last now : Occasion) {b : Batch} (hids : b.ids ≠ [])
    (rest : List (Batch × Occasion)) :
    reuse ⟨c, .rested indexed deleted, last⟩ ((b, now) :: rest) =
      match c.fed now b with
      | (.ok (), c) => reuse ⟨c, .rested (indexed + b.changed.length) (deleted + b.removed.length), now⟩ rest
      | (.error e, c) => (.error (HandlerCall.complete.failure e.toService),
          ⟨c, ⟨b.changed.length, b.removed, indexed, deleted⟩, now⟩) := by
  rw [reuse, performAll_rested c indexed deleted now hids]
  rcases c.fed now b with ⟨_ | _, c'⟩ <;> rfl

/-- The first of the batches on a new handler. -/
theorem renew_cons (c : Catalog) (now : Occasion) {b : Batch} (hids : b.ids ≠ []) (rest : List (Batch × Occasion)) :
    renew c ((b, now) :: rest) =
      match c.fed now b with
      | (.ok (), c) => renew c rest
      | (.error e, c) => (.error (HandlerCall.complete.failure e.toService), c) := by
  have hzero : FeedTally.zero = .rested 0 0 := rfl
  rw [renew, hzero, performAll_rested c 0 0 now hids]
  rcases c.fed now b with ⟨_ | _, c'⟩ <;> rfl

variable {batches : List (Batch × Occasion)}

/-- A handler between batches does what new handlers do. -/
theorem reuse_rested (hids : ∀ p ∈ batches, p.1.ids ≠ []) (c : Catalog) (indexed deleted : Nat) (last : Occasion) :
    let one := reuse ⟨c, .rested indexed deleted, last⟩ batches
    one.1 = (renew c batches).1 ∧ one.2.catalog = (renew c batches).2 ∧
      (one.1 = .ok () → one.2.tally = .rested
        (indexed + (batches.map fun p => p.1.changed.length).sum)
        (deleted + (batches.map fun p => p.1.removed.length).sum)) := by
  -- on the batches, for any totals: the rest of them goes on from those after the first
  induction batches generalizing c indexed deleted last with
  | nil => exact ⟨rfl, rfl, fun _ => rfl⟩
  | cons p rest ih =>
    obtain ⟨b, now⟩ := p
    obtain ⟨hb, hrest⟩ := List.forall_mem_cons.1 hids
    simp only [reuse_cons c indexed deleted last now hb, renew_cons c now hb]
    rcases c.fed now b with ⟨e | _, c'⟩
    · exact ⟨rfl, rfl, fun hok => nomatch hok⟩
    · obtain ⟨houtcome, hcatalog, htally⟩ :=
        ih hrest c' (indexed + b.changed.length) (deleted + b.removed.length) now
      refine ⟨houtcome, hcatalog, fun hok => (htally hok).trans ?_⟩
      rw [List.map_cons, List.map_cons, List.sum_cons, List.sum_cons, Nat.add_assoc, Nat.add_assoc]

/-- If a catalog takes every batch and keeps up what is said of it, which the batches may change, new handlers
succeed, and it is kept up to the end. -/
theorem renew_fed {σ : Type} {P : σ → Catalog → Prop} {next : σ → Batch → σ} (hids : ∀ p ∈ batches, p.1.ids ≠ [])
    (hfed : ∀ {s c} now b, P s c → ∃ c', Catalog.fed c now b = (.ok (), c') ∧ P (next s b) c')
    {s : σ} {c : Catalog} (h : P s c) :
    (renew c batches).1 = .ok () ∧ P ((batches.map Prod.fst).foldl next s) (renew c batches).2 := by
  induction batches generalizing c s with
  | nil => exact ⟨rfl, h⟩
  | cons p rest ih =>
    obtain ⟨b, now⟩ := p
    obtain ⟨hb, hrest⟩ := List.forall_mem_cons.1 hids
    obtain ⟨c', heq, hc'⟩ := hfed now b h
    rw [renew_cons c now hb, heq]
    exact ih hrest hc'

/-- **The counter** after new handlers follows from the batches alone, if the catalog takes events, and then they
succeed. -/
theorem renew_counted (hids : ∀ p ∈ batches, p.1.ids ≠ []) {c : Catalog} (hc : c.TakesEvents) :
    (renew c batches).1 = .ok () ∧ (renew c batches).2.sinceOptimize =
      (batches.map Prod.fst).foldl (fun n b => b.counted c.config.optimizeThreshold n) c.sinceOptimize := by
  let P (n : Nat) (c' : Catalog) := c'.TakesEvents ∧ c'.config = c.config ∧ c'.sinceOptimize = n
  have hstep : ∀ n c' now b, P n c' →
      ∃ c'', Catalog.fed c' now b = (.ok (), c'') ∧ P (b.counted c.config.optimizeThreshold n) c'' := by
    rintro n c' now b ⟨htakes, hconfig, rfl⟩
    obtain ⟨c'', hfed, hc''⟩ := htakes.fed now b
    obtain ⟨hcounted, hkept⟩ := htakes.counted_fed now b
    rw [hfed] at hcounted hkept
    exact ⟨c'', hfed, hc'', hkept.trans hconfig, hconfig ▸ hcounted⟩
  obtain ⟨hok, -, -, hcounter⟩ := renew_fed (P := P) hids (hstep _ _) ⟨hc, rfl, rfl⟩
  exact ⟨hok, hcounter⟩

/-- **The content** after new handlers is what the batches make of the map of what was staged, one after the
other. -/
theorem renew_tracks (hids : ∀ p ∈ batches, p.1.ids ≠ []) {c : Catalog} {pending committed : EventMap}
    (hc : c.Tracks pending committed) :
    let after := (batches.map Prod.fst).foldl (fun m b => b.applied m) pending
    (renew c batches).2.Tracks after (if batches.isEmpty then committed else after) := by
  cases batches with
  | nil => exact hc
  | cons p rest =>
    obtain ⟨b, now⟩ := p
    obtain ⟨hb, hrest⟩ := List.forall_mem_cons.1 hids
    -- the first batch commits what was staged before it, so from then on both maps agree
    obtain ⟨c', heq, hc'⟩ := hc.fed now b
    rw [renew_cons c now hb, heq]
    exact (renew_fed (P := fun m c => c.Tracks m m) hrest (fun now b h => h.fed now b) hc').2

/-- What readers are told after new handlers, and the counter, do not depend on the occasions of the commits. -/
theorem renew_content {done other : List (Batch × Occasion)} (hids : ∀ p ∈ done, p.1.ids ≠ [])
    (hother : other.map Prod.fst = done.map Prod.fst) (c : Catalog) :
    (c.TakesEvents → (renew c other).1 = .ok () ∧ (renew c other).2.sinceOptimize = (renew c done).2.sinceOptimize) ∧
    ∀ pending committed, c.Tracks pending committed →
      ∃ held, (renew c done).2.Answers held ∧ (renew c other).2.Answers held := by
  have hids' : ∀ p ∈ other, p.1.ids ≠ [] := by
    intro p hp
    obtain ⟨q, hq, hpq⟩ := List.mem_map.1 (hother ▸ List.mem_map_of_mem hp : p.1 ∈ done.map Prod.fst)
    exact hpq ▸ hids q hq
  have hempty : other.isEmpty = done.isEmpty := by
    rw [← List.isEmpty_map (f := Prod.fst), hother, List.isEmpty_map]
  refine ⟨fun hc => ?_, fun pending committed hc => ⟨_, (renew_tracks hids hc).answers, ?_⟩⟩
  · obtain ⟨hok, hcounter⟩ := renew_counted hids' hc
    rw [hcounter, hother, (renew_counted hids hc).2]
    exact ⟨hok, rfl⟩
  · have htracks := renew_tracks hids' hc
    rw [hother, hempty] at htracks
    exact htracks.answers

/-- **A handler can be reused.** Batches of any events, changed and removed, are driven through one handler, and
each through a new one, on the same catalog. After each batch the outcomes are the same and so are the catalogs, with
all that is stored, staged and counted in them, if either way the documents of every commit fall to segments in the
same way. While batches succeed, which they do if the catalog takes events, the one handler has nothing open, and its
totals are the sums over the batches so far. If the new handlers commit on other occasions, and deal the documents
out to other segments, they have the same events and the same counter as the one. -/
theorem reuse_eq_renew (c : Catalog) (now : Occasion) (hids : ∀ p ∈ batches, p.1.ids ≠ []) :
    ∀ done, done <+: batches →
      let one := reuse ⟨c, .zero, now⟩ done
      one.1 = (renew c done).1 ∧ one.2.catalog = (renew c done).2 ∧
      (one.1 = .ok () → one.2.tally.staged = 0 ∧ one.2.tally.pendingRemovals = [] ∧
        one.2.tally.indexedTotal = (done.map fun p => p.1.changed.length).sum ∧
        one.2.tally.deletedTotal = (done.map fun p => p.1.removed.length).sum) ∧
      (c.TakesEvents → one.1 = .ok ()) ∧
      ∀ other, other.map Prod.fst = done.map Prod.fst →
        (c.TakesEvents → (renew c other).1 = .ok () ∧
          (renew c other).2.sinceOptimize = one.2.catalog.sinceOptimize) ∧
        ∀ pending committed, c.Tracks pending committed →
          ∃ held, one.2.catalog.Answers held ∧ (renew c other).2.Answers held := by
  intro done hdone
  -- the batches so far are some of all
  have hids : ∀ p ∈ done, p.1.ids ≠ [] := fun p hp => hids p (hdone.subset hp)
  obtain ⟨houtcome, hcatalog, htally⟩ := reuse_rested hids c 0 0 now
  refine ⟨houtcome, hcatalog, fun hok => ?_, fun hc => houtcome.trans (renew_counted hids hc).1, fun other hother => ?_⟩
  · have htally := htally hok
    rw [Nat.zero_add, Nat.zero_add] at htally
    have hzero : FeedTally.zero = .rested 0 0 := rfl
    rw [hzero, htally]
    exact ⟨rfl, rfl, rfl, rfl⟩
  -- the one handler leaves what new ones do, so they are compared on both occasions
  · have hcontent := renew_content hids hother c
    rwa [← hcatalog] at hcontent

/-- Two threads take the documents of each commit in turns. The first batch adds two events, the next two remove
one of them, and the last adds it again, with a third. -/
def recreation : List (Batch × Occasion) :=
  let e (n : Nat) : Event := .raise (.ofNat n) .epoch "host" "/Status" "down" .warning
  let turns : Occasion := ⟨.epoch, .bySlot [0, 1]⟩
  [(⟨[1, 2], [e 1, e 2], []⟩, turns), (⟨[3], [], [.ofNat 1]⟩, turns), (⟨[4], [], [.ofNat 1]⟩, turns),
    (⟨[5, 6], [e 1, e 3], []⟩, turns)]

/-- One handler keeps the event that has come back, as new ones do. The segment that is left of the first two and
those of the last batch are three. -/
theorem reuse_recreation :
    ∃ c, Catalog.create "events" .default = .ok c ∧ c.config.effectiveThreads = 2 ∧
      let one := reuse ⟨c, .zero, Instant.epoch⟩ recreation
      one.1 = .ok () ∧ one.2.catalog = (renew c recreation).2 ∧
      one.2.catalog.index.segments.length = 3 ∧ one.2.catalog.sinceOptimize = 2 ∧
      one.2.tally.indexedTotal = 4 ∧ one.2.tally.deletedTotal = 2 ∧
      one.2.catalog.find (.ofNat 1) = .ok (some (.raise (.ofNat 1) .epoch "host" "/Status" "down" .warning)) := by
  have hsegments : (Catalog.create "events" .default).toOption.map (fun c =>
      ((renew c recreation).2.index.segments.length, (renew c recreation).2.sinceOptimize)) = some (3, 2) := by
    decide +kernel
  obtain ⟨c, hc⟩ : ∃ c, Catalog.create "events" .default = .ok c := ⟨_, rfl⟩
  have hthreads : c.config.effectiveThreads = 2 := by
    obtain rfl := Except.ok.inj hc
    rfl
  have hids : ∀ p ∈ recreation, p.1.ids ≠ [] := by decide
  obtain ⟨-, hcatalog, htally, hok, -⟩ := reuse_eq_renew c Instant.epoch hids recreation List.prefix_rfl
  have hsucceeds := hok (Catalog.ofEvents_of_fresh (.inl hc)).takesEvents
  obtain ⟨-, -, hindexed, hdeleted⟩ := htally hsucceeds
  rw [hc] at hsegments
  obtain ⟨hlength, hcounter⟩ := Prod.mk.inj (Option.some.inj hsegments)
  rw [← hcatalog] at hlength hcounter
  refine ⟨c, hc, hthreads, hsucceeds, hcatalog, hlength, hcounter, hindexed, hdeleted, ?_⟩
  -- new handlers leave in the catalog what the batches make of a map
  rw [hcatalog, (renew_tracks hids (Catalog.tracks_of_fresh (.inl hc))).find_eq]
  rfl

end CatalogFeed

end EventCatalog
