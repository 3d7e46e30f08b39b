import Mathlib.Data.List.Perm.Basic
import Mathlib.Data.List.Nodup
import EventCatalog.Catalog.Read

/-!
# Leases

A slot and its readers are a `Readership`: besides the slot it has the leases that are held, each with the
generation and the segments that were current when it was taken, and it counts how often the snapshot has been
replaced. Readers take leases and give back any that they hold, and segments are published, in any order.

Whatever the order, the slot keeps exact accounts (`Readership.Exact`). On every snapshot, current or
replaced, as many leases are counted as are held on it. A snapshot that was replaced is retired, and it is
there as long as somebody holds a lease on it, so whoever does reads what was current at the time. Giving a
lease back is the one step that takes from a count; since the lease was held, there is something to take
from.

A read of the catalog takes a lease and gives it back however it ends. `Inquiry.ask` says where it takes the
lease, and comes to the answer that is given without speaking of leases (`Inquiry.ask_eq`).
-/

namespace EventCatalog

namespace SnapshotSlot

variable {slot : SnapshotSlot}

/-- All snapshots that are there. -/
def snapshots (slot : SnapshotSlot) : List Snapshot := slot.current :: slot.replaced

/-! ### The steps of a slot -/

/-- What giving back a lease does to a snapshot. -/
def givenBack (l : Lease) (s : Snapshot) : Snapshot :=
  if s.generation = l.generation then { s with leases := s.leases - 1 } else s

@[simp] theorem generation_givenBack (l : Lease) (s : Snapshot) :
    (givenBack l s).generation = s.generation := by
  unfold givenBack
  split <;> rfl

@[simp] theorem segments_givenBack (l : Lease) (s : Snapshot) :
    (givenBack l s).segments = s.segments := by
  unfold givenBack
  split <;> rfl

@[simp] theorem retired_givenBack (l : Lease) (s : Snapshot) : (givenBack l s).retired = s.retired := by
  unfold givenBack
  split <;> rfl

/-- **Giving back a lease** does the same to every snapshot, and lets go of those without leases among the
replaced ones. -/
theorem release_eq (hbefore : ∀ s ∈ slot.replaced, s.generation < slot.current.generation)
    (hleased : ∀ s ∈ slot.replaced, s.leases ≠ 0) (l : Lease) :
    slot.release l = {
      current := givenBack l slot.current
      replaced := (slot.replaced.map (givenBack l)).filter fun s => s.leases != 0 } := by
  unfold release
  by_cases hcurrent : l.generation = slot.current.generation
  -- the lease is on the current snapshot, so it is on none of the others
  · have hmap : slot.replaced.map (givenBack l) = slot.replaced := by
      refine (List.map_congr_left fun s hs => ?_).trans (List.map_id _)
      exact if_neg fun heq => absurd (hbefore s hs) (by omega)
    have hfilter : (slot.replaced.filter fun s => s.leases != 0) = slot.replaced :=
      List.filter_eq_self.2 fun s hs => by simpa using hleased s hs
    rw [if_pos hcurrent, hmap, hfilter, givenBack, if_pos hcurrent.symm]
  · rw [if_neg hcurrent, givenBack, if_neg fun heq => hcurrent heq.symm]
    rfl

/-- **A publication** is skipped, or puts the segments into a snapshot of the next generation. -/
theorem publish_cases (slot : SnapshotSlot) (segments : List Segment) :
    slot.publish segments = (false, slot) ∨
      slot.publish segments = (true, {
        current := ⟨slot.current.generation + 1, segments, 0, false⟩
        replaced := if slot.current.leases = 0 then slot.replaced
          else { slot.current with retired := true } :: slot.replaced }) := by
  unfold publish
  split
  · exact .inl rfl
  · exact .inr rfl

/-- A lease reads the snapshot of its generation. -/
theorem read_eq_some (hbefore : ∀ s ∈ slot.replaced, s.generation < slot.current.generation)
    (hdistinct : (slot.replaced.map Snapshot.generation).Nodup) {s : Snapshot} (hs : s ∈ slot.snapshots)
    {l : Lease} (hl : l.generation = s.generation) : slot.read l = some s := by
  unfold read
  rcases List.mem_cons.1 hs with rfl | hreplaced
  · rw [if_pos hl]
  · have hlt := hbefore s hreplaced
    rw [if_neg (by omega)]
    -- no other snapshot has the generation, so the first that has it is this one
    obtain ⟨t, ht⟩ : ∃ t, (slot.replaced.find? fun s => s.generation = l.generation) = some t :=
      Option.isSome_iff_exists.1 (List.find?_isSome.2 ⟨s, hreplaced, by simpa using hl.symm⟩)
    have htgen : t.generation = l.generation := by simpa using List.find?_some ht
    rw [ht, List.inj_on_of_nodup_map hdistinct (List.mem_of_find?_eq_some ht) hreplaced (htgen.trans hl)]

end SnapshotSlot

/-! ### Readers -/

/-- A lease that is held, and what was current when it was taken. -/
structure Holding where
  lease : Lease
  generation : Nat
  segments : List Segment

/-- A slot and its readers. -/
structure Readership where
  slot : SnapshotSlot
  /-- The leases that were taken and have not been given back, the latest first. -/
  held : List Holding
  /-- How many publications have said that they replaced the snapshot. -/
  swaps : Nat

namespace Readership

variable {r : Readership}

inductive Step where
  | acquire
  /-- Gives back the lease at a place among those that are held. -/
  | release (place : Nat)
  | publish (segments : List Segment)

def step (r : Readership) : Step → Readership
  | .acquire =>
    let p := r.slot.acquire
    { r with
      slot := p.2
      held := ⟨p.1, r.slot.current.generation, r.slot.current.segments⟩ :: r.held }
  | .release place =>
    match r.held[place]? with
    | none => r
    | some h => { r with slot := r.slot.release h.lease, held := r.held.eraseIdx place }
  | .publish segments =>
    let p := r.slot.publish segments
    { r with slot := p.2, swaps := if p.1 then r.swaps + 1 else r.swaps }

/-- A new slot, without readers. -/
def start (segments : List Segment) : Readership := ⟨.ofSegments segments, [], 0⟩

/-- How many leases are held on the snapshot of a generation. -/
def holders (r : Readership) (generation : Nat) : Nat :=
  r.held.countP fun h => h.lease.generation = generation

/-- The slot keeps exact accounts. -/
structure Exact (r : Readership) : Prop where
  /-- As many leases are counted on a snapshot as are held on it. -/
  leases_eq : ∀ s ∈ r.slot.snapshots, s.leases = r.holders s.generation
  /-- A lease that is held is on a snapshot, whose contents are those that were current. -/
  pinned : ∀ h ∈ r.held, h.lease.generation = h.generation ∧
    ∃ s ∈ r.slot.snapshots, s.generation = h.generation ∧ s.segments = h.segments
  fresh : r.slot.current.retired = false
  retired : ∀ s ∈ r.slot.replaced, s.retired = true
  leased : ∀ s ∈ r.slot.replaced, s.leases ≠ 0
  older : ∀ s ∈ r.slot.replaced, s.generation < r.slot.current.generation
  distinct : (r.slot.replaced.map Snapshot.generation).Nodup
  generation_eq : r.slot.current.generation = r.swaps

theorem exact_start (segments : List Segment) : (start segments).Exact where
  leases_eq := by
    intro s hs
    obtain rfl := List.mem_singleton.1 hs
    rfl
  pinned := fun _ hh => absurd hh List.not_mem_nil
  fresh := rfl
  retired := fun _ hs => absurd hs List.not_mem_nil
  leased := fun _ hs => absurd hs List.not_mem_nil
  older := fun _ hs => absurd hs List.not_mem_nil
  distinct := .nil
  generation_eq := rfl

/-- A lease counts where it is held. -/
theorem holders_pos {h : Holding} (hh : h ∈ r.held) : 0 < r.holders h.lease.generation :=
  List.countP_pos_iff.2 ⟨h, hh, by simp⟩

/-- On a generation that was never current no lease is held. -/
theorem Exact.holders_eq_zero (hr : r.Exact) {generation : Nat}
    (hnew : r.slot.current.generation < generation) : r.holders generation = 0 := by
  refine List.countP_eq_zero.2 fun h hh => ?_
  obtain ⟨hlease, s, hs, hgen, -⟩ := hr.pinned h hh
  -- a lease is on a snapshot that is there, and none is later than the current one
  have hle : s.generation ≤ r.slot.current.generation := by
    rcases List.mem_cons.1 hs with rfl | hs
    · exact Nat.le_refl _
    · exact Nat.le_of_lt (hr.older s hs)
  simp only [decide_eq_true_eq]
  omega

/-! ### Every step keeps exact accounts -/

theorem holders_acquire (r : Readership) (generation : Nat) :
    (r.step .acquire).holders generation =
      r.holders generation + if r.slot.current.generation = generation then 1 else 0 := by
  change List.countP _ (_ :: r.held) = _
  rw [List.countP_cons]
  refine congrArg (r.holders generation + ·) ?_
  exact if_congr decide_eq_true_iff rfl rfl

theorem Exact.acquire (hr : r.Exact) : (r.step .acquire).Exact where
  leases_eq := by
    intro s hs
    rw [holders_acquire]
    -- the snapshot of a lease is still there, if it is the current one with a lease more
    rcases List.mem_cons.1 hs with rfl | hs
    · have hcurrent := hr.leases_eq r.slot.current List.mem_cons_self
      change r.slot.current.leases + 1 = r.holders r.slot.current.generation +
        if r.slot.current.generation = r.slot.current.generation then 1 else 0
      rw [hcurrent, if_pos rfl]
    -- the new lease is on the current snapshot, not on one that was replaced
    · have hlt := hr.older s hs
      have hreplaced := hr.leases_eq s (List.mem_cons_of_mem _ hs)
      rw [if_neg (by omega)]
      exact hreplaced
  pinned := by
    intro h hh
    rcases List.mem_cons.1 hh with rfl | hh
    · exact ⟨rfl, _, List.mem_cons_self, rfl, rfl⟩
    · obtain ⟨hlease, s, hs, hgen, hsegments⟩ := hr.pinned h hh
      refine ⟨hlease, ?_⟩
      rcases List.mem_cons.1 hs with rfl | hs
      · exact ⟨_, List.mem_cons_self, hgen, hsegments⟩
      · exact ⟨s, List.mem_cons_of_mem _ hs, hgen, hsegments⟩
  fresh := hr.fresh
  retired := hr.retired
  leased := hr.leased
  older := hr.older
  distinct := hr.distinct
  generation_eq := hr.generation_eq

theorem step_release_of_none {place : Nat} (hplace : r.held[place]? = none) :
    r.step (.release place) = r := by
  simp only [step, hplace]

section Release

variable {place : Nat} {h : Holding} (hplace : r.held[place]? = some h)

include hplace

theorem held_release : (r.step (.release place)).held = r.held.eraseIdx place := by
  simp only [step, hplace]

/-- The lease that is given back is one of those that were held. -/
theorem holders_release (generation : Nat) :
    r.holders generation = (r.step (.release place)).holders generation +
      if h.lease.generation = generation then 1 else 0 := by
  obtain ⟨hlt, hget⟩ := List.getElem?_eq_some_iff.1 hplace
  -- the leases are those that are left and the one given back
  have hperm : (h :: r.held.eraseIdx place).Perm r.held := by
    have hcons := List.getElem_cons_eraseIdx_perm hlt
    rwa [hget] at hcons
  rw [holders, ← hperm.countP_eq, List.countP_cons, holders, held_release hplace]
  simp only [decide_eq_true_eq]

/-- **It is taken from the count** of its snapshot, and the other counts stay. -/
theorem Exact.leases_givenBack (hr : r.Exact) {s : Snapshot} (hs : s ∈ r.slot.snapshots) :
    (SnapshotSlot.givenBack h.lease s).leases = (r.step (.release place)).holders s.generation := by
  have hleases := hr.leases_eq s hs
  rw [holders_release hplace] at hleases
  unfold SnapshotSlot.givenBack
  by_cases hgen : s.generation = h.lease.generation
  · rw [if_pos hgen]
    rw [if_pos hgen.symm] at hleases
    exact Nat.sub_eq_of_eq_add hleases
  · rw [if_neg hgen]
    rwa [if_neg fun heq => hgen heq.symm] at hleases

theorem Exact.slot_release (hr : r.Exact) : (r.step (.release place)).slot = {
    current := SnapshotSlot.givenBack h.lease r.slot.current
    replaced := (r.slot.replaced.map (SnapshotSlot.givenBack h.lease)).filter fun s => s.leases != 0 } := by
  simp only [step, hplace]
  exact SnapshotSlot.release_eq hr.older hr.leased h.lease

/-- What is there of the replaced snapshots was there before, and is still leased. -/
theorem Exact.mem_replaced_release (hr : r.Exact) (s : Snapshot) :
    s ∈ (r.step (.release place)).slot.replaced ↔
      s.leases ≠ 0 ∧ ∃ u ∈ r.slot.replaced, SnapshotSlot.givenBack h.lease u = s := by
  rw [hr.slot_release hplace, List.mem_filter, List.mem_map, and_comm, bne_iff_ne]

end Release

theorem Exact.release (hr : r.Exact) (place : Nat) : (r.step (.release place)).Exact := by
  cases hplace : r.held[place]? with
  -- no lease is held at the place, so nothing happens
  | none =>
    rw [step_release_of_none hplace]
    exact hr
  | some h =>
    have hcurrent : (r.step (.release place)).slot.current = SnapshotSlot.givenBack h.lease r.slot.current := by
      rw [hr.slot_release hplace]
    have hreplaced := hr.mem_replaced_release hplace
    have hgiven := SnapshotSlot.generation_givenBack h.lease
    exact {
      leases_eq := by
        intro s hs
        rcases List.mem_cons.1 hs with rfl | hs
        · rw [hcurrent, hr.leases_givenBack hplace List.mem_cons_self, hgiven]
        · obtain ⟨-, u, hu, rfl⟩ := (hreplaced s).1 hs
          rw [hr.leases_givenBack hplace (List.mem_cons_of_mem _ hu), hgiven]
      pinned := by
        intro h' hh'
        have hheld := hh'
        rw [held_release hplace] at hheld
        obtain ⟨hlease, s, hs, hgen, hsegments⟩ := hr.pinned h' (List.mem_of_mem_eraseIdx hheld)
        refine ⟨hlease, SnapshotSlot.givenBack h.lease s, ?_, (hgiven s).trans hgen,
          (SnapshotSlot.segments_givenBack h.lease s).trans hsegments⟩
        rcases List.mem_cons.1 hs with rfl | hold
        · exact List.mem_cons.2 (.inl hcurrent.symm)
        -- the lease still held keeps its snapshot from being let go
        · refine List.mem_cons_of_mem _ ((hreplaced _).2 ⟨?_, s, hold, rfl⟩)
          have hpos := holders_pos hh'
          rw [hr.leases_givenBack hplace hs, hgen, ← hlease]
          exact Nat.ne_of_gt hpos
      fresh := by
        rw [hcurrent, SnapshotSlot.retired_givenBack]
        exact hr.fresh
      retired := by
        intro s hs
        obtain ⟨-, u, hu, rfl⟩ := (hreplaced s).1 hs
        rw [SnapshotSlot.retired_givenBack]
        exact hr.retired u hu
      leased := fun s hs => ((hreplaced s).1 hs).1
      older := by
        intro s hs
        obtain ⟨-, u, hu, rfl⟩ := (hreplaced s).1 hs
        rw [hcurrent, hgiven, hgiven]
        exact hr.older u hu
      distinct := by
        have hgenerations : Snapshot.generation ∘ SnapshotSlot.givenBack h.lease = Snapshot.generation :=
          funext hgiven
        rw [hr.slot_release hplace]
        refine List.Nodup.sublist (List.filter_sublist.map _) ?_
        rw [List.map_map, hgenerations]
        exact hr.distinct
      generation_eq := by
        rw [hcurrent, hgiven]
        simp only [Readership.step, hplace]
        exact hr.generation_eq }

theorem Exact.publish (hr : r.Exact) (segments : List Segment) :
    (r.step (.publish segments)).Exact := by
  simp only [step]
  rcases r.slot.publish_cases segments with hskipped | hswapped
  · rw [hskipped]
    exact hr
  rw [hswapped]
  have hcurrent := hr.leases_eq r.slot.current List.mem_cons_self
  -- what has been replaced: the snapshots that were, and the current one if anybody holds it
  have hreplaced : ∀ s ∈ (if r.slot.current.leases = 0 then r.slot.replaced
      else { r.slot.current with retired := true } :: r.slot.replaced), s ∈ r.slot.replaced ∨
        (r.slot.current.leases ≠ 0 ∧ s = { r.slot.current with retired := true }) := by
    intro s hs
    split at hs
    · exact .inl hs
    · next hne => exact (List.mem_cons.1 hs).symm.imp id fun h => ⟨hne, h⟩
  refine ⟨?_, ?_, rfl, ?_, ?_, ?_, ?_, congrArg (· + 1) hr.generation_eq⟩
  · intro s hs
    rcases List.mem_cons.1 hs with rfl | hs
    -- nobody can have a lease on the new snapshot yet
    · exact (hr.holders_eq_zero (Nat.lt_succ_self _)).symm
    · rcases hreplaced s hs with hs | ⟨-, rfl⟩
      · exact hr.leases_eq s (List.mem_cons_of_mem _ hs)
      · exact hcurrent
  · intro h hh
    obtain ⟨hlease, s, hs, hgen, hsegments⟩ := hr.pinned h hh
    refine ⟨hlease, ?_⟩
    rcases List.mem_cons.1 hs with rfl | hs
    -- the lease is on the snapshot that is replaced, which is kept because of it
    · have hpos := holders_pos (r := r) hh
      rw [hlease, ← hgen, ← hcurrent] at hpos
      refine ⟨{ r.slot.current with retired := true }, List.mem_cons_of_mem _ ?_, hgen, hsegments⟩
      rw [if_neg (Nat.ne_of_gt hpos)]
      exact List.mem_cons_self
    · refine ⟨s, List.mem_cons_of_mem _ ?_, hgen, hsegments⟩
      split
      · exact hs
      · exact List.mem_cons_of_mem _ hs
  · intro s hs
    rcases hreplaced s hs with hs | ⟨-, rfl⟩
    · exact hr.retired s hs
    · rfl
  · intro s hs
    rcases hreplaced s hs with hs | ⟨hne, rfl⟩
    · exact hr.leased s hs
    · exact hne
  · intro s hs
    change s.generation < r.slot.current.generation + 1
    rcases hreplaced s hs with hs | ⟨-, rfl⟩
    · exact Nat.lt_succ_of_lt (hr.older s hs)
    · exact Nat.lt_succ_self _
  · dsimp only
    split
    · exact hr.distinct
    -- the snapshot that is replaced is later than all those before it
    · refine List.nodup_cons.2 ⟨?_, hr.distinct⟩
      intro hmem
      obtain ⟨s, hs, hgen⟩ := List.mem_map.1 hmem
      exact Nat.ne_of_lt (hr.older s hs) hgen

/-- **One step** keeps exact accounts. -/
theorem Exact.step (hr : r.Exact) (s : Step) : (r.step s).Exact := by
  cases s with
  | acquire => exact hr.acquire
  | release place => exact hr.release place
  | publish segments => exact hr.publish segments

/-- **Any run** keeps exact accounts. -/
theorem Exact.steps (hr : r.Exact) (steps : List Step) : (steps.foldl Readership.step r).Exact :=
  List.foldlRecOn steps Readership.step hr fun _ h s _ => h.step s

/-- **A lease reads what was current** when it was taken, from a snapshot that counts it. -/
theorem Exact.read_eq (hr : r.Exact) {h : Holding} (hh : h ∈ r.held) :
    ∃ s, r.slot.read h.lease = some s ∧ s.generation = h.generation ∧ s.segments = h.segments ∧
      0 < s.leases := by
  obtain ⟨hlease, s, hs, hgen, hsegments⟩ := hr.pinned h hh
  have hread := SnapshotSlot.read_eq_some hr.older hr.distinct hs (hlease.trans hgen.symm)
  refine ⟨s, hread, hgen, hsegments, ?_⟩
  have hpos := holders_pos hh
  rwa [hlease, ← hgen, ← hr.leases_eq s hs] at hpos

/-- A snapshot that was replaced is there as long as somebody holds a lease on it. -/
theorem Exact.replaced_iff (hr : r.Exact) {generation : Nat}
    (hold : generation < r.slot.current.generation) :
    (∃ s ∈ r.slot.replaced, s.generation = generation) ↔ 0 < r.holders generation := by
  constructor
  · rintro ⟨s, hs, rfl⟩
    rw [← hr.leases_eq s (List.mem_cons_of_mem _ hs)]
    exact Nat.pos_of_ne_zero (hr.leased s hs)
  · intro hpos
    obtain ⟨h, hh, hgen⟩ := List.countP_pos_iff.1 hpos
    -- the lease is on a snapshot, and this is not the current one
    obtain ⟨hlease, s, hs, hsgen, -⟩ := hr.pinned h hh
    have heq : s.generation = generation := (hsgen.trans hlease.symm).trans (of_decide_eq_true hgen)
    rcases List.mem_cons.1 hs with rfl | hs
    · exact absurd heq (Nat.ne_of_gt hold)
    · exact ⟨s, hs, heq⟩

end Readership

/-! ### Reads of the catalog -/

/-- Something that is asked of a catalog. -/
inductive Inquiry where
  | list (r : Request)
  | find (uuid : Uuid)
  | severities (tags : List String)
  | worst (tags : List String)
  | stats

/-- What comes of it. -/
inductive Findings where
  | page (p : Except CatalogError Page)
  | event (e : Except CatalogError (Option Event))
  | severities (counts : Except CatalogError (List (String × SeverityCounts)))
  | worst (severities : Except CatalogError (List (String × Severity)))
  | stats (s : CatalogStats)

namespace Catalog

variable {c : Catalog}

/-- Reads from the current snapshot under a lease, and yields the catalog once it has been given back. -/
def leased {α : Type} (c : Catalog) (f : Snapshot → α) : α × Catalog :=
  let p := c.slot.reading f
  (p.1, { c with slot := p.2 })

theorem leased_eq {α : Type} (c : Catalog) (f : Snapshot → α) : c.leased f = (c.reading f, c) := by
  rw [leased, SnapshotSlot.reading_snd]
  rfl

/-- Collects something of the open events with each of the tags from one snapshot. -/
def collectFrom {α : Type} (c : Catalog) (failure : String)
    (collect : Snapshot → Query → Option (Option α)) (s : Snapshot) :
    List String → Except CatalogError (List (String × α))
  | [] => .ok []
  | tag :: rest => do
    let q ← openEventsTagged c.index.schema tag
    match collect s q with
    | none => throw (.ofText .searching (failure ++ tag))
    | some none => collectFrom c failure collect s rest
    | some (some a) =>
      let more ← collectFrom c failure collect s rest
      return (tag, a) :: more

/-- Tag by tag, the same snapshot is read. -/
theorem reading_collectFrom {α : Type} (c : Catalog) (failure : String)
    (collect : Snapshot → Query → Option (Option α)) (tags : List String) :
    (c.reading fun s => c.collectFrom failure collect s tags) = c.collectByTag failure collect tags := by
  induction tags with
  | nil => rfl
  | cons tag rest ih =>
    -- a lease changes nothing that the next tag could read
    rw [collectByTag, ← ih]
    rfl

end Catalog

namespace Inquiry

/-- The answer, and the catalog afterwards. A request with a filter that is refused takes no lease. -/
def ask (c : Catalog) : Inquiry → Findings × Catalog
  | list r =>
    match Query.ofFilter c.index.schema r.filter with
    | .error e => (.page (.error e), c)
    | .ok q => (c.leased (Catalog.page c.index.schema c.config.maxResults r q)).map .page id
  | find uuid =>
    let q := Catalog.keyQuery uuid
    (c.leased fun s =>
      if !q.isRunnable c.index.schema then
        .error (.ofText .searching ("Failed to find " ++ uuid.render))
      else match s.documents.find? fun d => q.selects c.index.schema d with
        | some d => (Catalog.eventOf d).map some
        | none => .ok none).map .event id
  | severities tags =>
    (c.leased fun s => c.collectFrom "Failed to count "
      (fun s q => (s.severityCounts? c.index.schema q).map fun counts =>
        if counts.isEmpty then none else some counts) s tags.eraseDups).map .severities id
  | worst tags =>
    (c.leased fun s => c.collectFrom "Failed to rank "
      (fun s q => s.worstSeverity? c.index.schema q) s tags.eraseDups).map .worst id
  | stats =>
    let p := c.leased fun s => (s.documents.length, s.segments.length, s.generation)
    (.stats {
      name := p.2.name
      documents := p.1.1
      segments := p.1.2.1
      generation := p.1.2.2
      leases := p.2.slot.outstandingLeases
      sinceOptimize := p.2.sinceOptimize
      lastCommit := p.2.lastCommit }, p.2)

/-- The answer alone. -/
def answer (c : Catalog) : Inquiry → Findings
  | list r => .page (c.list r)
  | find uuid => .event (c.find uuid)
  | severities tags => .severities (c.countSeverities tags)
  | worst tags => .worst (c.worstSeverities tags)
  | stats => .stats c.stats

/-- **A read gives its lease back**, also if it fails. -/
theorem ask_eq (c : Catalog) (q : Inquiry) : q.ask c = (q.answer c, c) := by
  cases q with
  | list r =>
    simp only [ask, answer, Catalog.list, Catalog.leased_eq]
    cases Query.ofFilter c.index.schema r.filter <;> rfl
  | find uuid =>
    simp only [ask, answer, Catalog.find, Catalog.leased_eq]
    cases (Catalog.keyQuery uuid).isRunnable c.index.schema <;> rfl
  | severities tags =>
    simp only [ask, answer, Catalog.countSeverities, Catalog.leased_eq, Catalog.reading_collectFrom]
    rfl
  | worst tags =>
    simp only [ask, answer, Catalog.worstSeverities, Catalog.leased_eq, Catalog.reading_collectFrom]
    rfl
  | stats =>
    simp only [ask, answer, Catalog.leased_eq]
    rfl

end Inquiry

namespace Readership

/-- **Leases are counted exactly.** Whatever is taken, given back and published, in any order: the leases
that are counted on a snapshot are those that are held on it, and a snapshot that was replaced is there
exactly as long as there are any; a lease reads the generation and the segments that were current when it
was taken; the current snapshot is not retired, and all others are; its generation is the number of
publications that replaced a snapshot; and the outstanding leases are those on it, of which there are none
right after a publication that replaces it. Every read of a catalog leaves the leases, and all else, as it
found them. -/
theorem leases_counted :
    (∀ (segments : List Segment) (steps : List Step),
      let r := steps.foldl step (start segments)
      (∀ s ∈ r.slot.snapshots, s.leases = r.holders s.generation) ∧
      (∀ g < r.slot.current.generation,
        (∃ s ∈ r.slot.replaced, s.generation = g) ↔ 0 < r.holders g) ∧
      (∀ h ∈ r.held, ∃ s, r.slot.read h.lease = some s ∧ s.generation = h.generation ∧
        s.segments = h.segments ∧ 0 < s.leases) ∧
      r.slot.current.retired = false ∧ (∀ s ∈ r.slot.replaced, s.retired = true) ∧
      r.slot.current.generation = r.swaps ∧
      r.slot.outstandingLeases = r.holders r.slot.current.generation ∧
      ∀ next, (r.slot.publish next).1 = true → (r.slot.publish next).2.outstandingLeases = 0) ∧
    ∀ (c : Catalog) (q : Inquiry),
      (q.ask c).1 = q.answer c ∧ (q.ask c).2 = c ∧
        (q.ask c).2.slot.outstandingLeases = c.slot.outstandingLeases := by
  constructor
  · intro segments steps r
    have hr : r.Exact := (exact_start segments).steps steps
    refine ⟨hr.leases_eq, fun g hg => hr.replaced_iff hg, fun h hh => hr.read_eq hh, hr.fresh, hr.retired,
      hr.generation_eq, hr.leases_eq r.slot.current List.mem_cons_self, ?_⟩
    intro next hswapped
    rcases r.slot.publish_cases next with hskip | hswap
    · rw [hskip] at hswapped
      exact absurd hswapped Bool.false_ne_true
    · rw [hswap]
      rfl
  · intro c q
    rw [Inquiry.ask_eq]
    exact ⟨rfl, rfl, rfl⟩

-- two leases are taken on an empty snapshot, which is then replaced, and a third on its successor; the second one is
-- given back, and the first still reads what it was taken on
example :
    let event : Event := .raise (.ofNat 1) .epoch "host" "/Status" "down" .error
    let next : List Segment := [⟨7, [⟨.ofEvent event, true⟩], none, 0⟩]
    let r := [Step.acquire, .acquire, .publish next, .acquire, .release 1].foldl step (start [])
    r.slot.snapshots = [⟨1, next, 1, false⟩, ⟨0, [], 1, true⟩] ∧
      r.held.map (fun h => (r.slot.read h.lease).map Snapshot.segments) = [some next, some []] ∧
      r.slot.outstandingLeases = 1 := by
  decide +kernel

end Readership

end EventCatalog
