import EventCatalog.Proofs.Consolidation

/-!
# When a snapshot is replaced

A publication is skipped if nothing has changed. The slot tells that by the fingerprints of the segments, one
after the other, so it also replaces a snapshot by one that has the same contents in another order
(`Catalog.republished`): its leases then count for a retired snapshot, although readers would see the same.

Contents are the same, whatever the order, if each fingerprint occurs as often here as there
(`Snapshot.Holds`). Other contents are always published. The same contents are passed over if they come in
the same order, and for what a commit writes the order is settled by the sizes of the segments, unless two
are of the same size: the largest comes first, in every index that can be got
(`Catalog.Reachable.descending`), and a segment keeps its size for as long as it has its fingerprint. Only
the order of equally large segments is left open, and it is a matter of the writer.
-/

namespace EventCatalog

/-- The contents of the snapshot are those of the segments, in whatever order. -/
def Snapshot.Holds (s : Snapshot) (segments : List Segment) : Prop :=
  s.fingerprint.Perm (segments.map Segment.fingerprint)

namespace Segment

/-- The largest segments come first. -/
def Descending (segments : List Segment) : Prop := segments.Pairwise fun a b => b.size ≤ a.size

theorem descending_of_length_le_one {segments : List Segment} (h : segments.length ≤ 1) :
    Descending segments := by
  -- nothing is out of order in a list of one
  match segments, h with
  | [], _ => exact .nil
  | [s], _ => exact List.pairwise_singleton _ s

/-- **Sizes settle the order**: the same fingerprints in two descending lists come in the same order if no two
of the segments are of the same size. -/
theorem fingerprints_eq {ss ts : List Segment} (hss : Descending ss) (hts : Descending ts)
    (hperm : (ss.map fingerprint).Perm (ts.map fingerprint))
    (hsize : ∀ s ∈ ss, ∀ t ∈ ts, s.fingerprint = t.fingerprint → s.size = t.size)
    (hdistinct : (ts.map size).Nodup) : ss.map fingerprint = ts.map fingerprint := by
  -- fingerprints are compared by the sizes that go with them
  let smaller (f g : Nat × Option Nat) : Prop :=
    ∀ s ∈ ts, ∀ t ∈ ts, s.fingerprint = f → t.fingerprint = g → t.size ≤ s.size
  have hself : ∀ s ∈ ts, ∀ t ∈ ts, s.fingerprint = t.fingerprint → s.size = t.size := by
    intro s hs t ht heq
    obtain ⟨u, hu, hfp⟩ := List.mem_map.1 (hperm.mem_iff.2 (List.mem_map_of_mem hs))
    rw [← hsize u hu s hs hfp, hsize u hu t ht (hfp.trans heq)]
  have hleft : (ss.map fingerprint).Pairwise smaller := by
    refine List.pairwise_map.2 (hss.imp_of_mem fun {a b} ha hb hle => ?_)
    intro s hs t ht hsa htb
    rw [← hsize a ha s hs hsa.symm, ← hsize b hb t ht htb.symm]
    exact hle
  have hright : (ts.map fingerprint).Pairwise smaller := by
    refine List.pairwise_map.2 (hts.imp_of_mem fun {a b} ha hb hle => ?_)
    intro s hs t ht hsa htb
    rw [hself s hs a ha hsa, hself t ht b hb htb]
    exact hle
  -- of two fingerprints neither of which is smaller the segments are of the same size, so they are one
  refine List.Perm.eq_of_pairwise ?_ hleft hright hperm
  intro f g hf hg hfg hgf
  obtain ⟨s, hs, rfl⟩ := List.mem_map.1 (hperm.mem_iff.1 hf)
  obtain ⟨t, ht, rfl⟩ := List.mem_map.1 hg
  have hle : t.size ≤ s.size := hfg s hs t ht rfl rfl
  have hge : s.size ≤ t.size := hgf t ht s hs rfl rfl
  rw [List.inj_on_of_nodup_map hdistinct hs ht (Nat.le_antisymm hge hle)]

end Segment

namespace SnapshotSlot

variable {slot : SnapshotSlot} {segments : List Segment}

/-- What is listed in the same way is not published. -/
theorem publish_of_listed (h : slot.current.fingerprint = segments.map Segment.fingerprint) :
    slot.publish segments = (false, slot) := if_pos h

/-- All else is, under the next generation. -/
theorem publish_of_not_listed (h : slot.current.fingerprint ≠ segments.map Segment.fingerprint) :
    (slot.publish segments).1 = true ∧
      (slot.publish segments).2.current = ⟨slot.current.generation + 1, segments, 0, false⟩ := by
  unfold publish
  rw [if_neg h]
  exact ⟨rfl, rfl⟩

end SnapshotSlot

/-! ### The order of an index -/

/-- Segments are compared by their sizes first. -/
theorem Segment.size_le_of_precedes {newestFirst : Bool} {a b : Segment} (h : precedes newestFirst a b) :
    b.size ≤ a.size := by
  unfold precedes at h
  rcases Bool.or_eq_true_iff.1 h with hlt | heq
  · exact Nat.le_of_lt (of_decide_eq_true hlt)
  · exact Nat.le_of_eq (eq_of_beq (Bool.and_eq_true_iff.1 heq).1).symm

/-- One of two segments precedes the other, so the other is not larger. -/
theorem Segment.size_le_of_not_precedes {newestFirst : Bool} {a b : Segment} (h : ¬ precedes newestFirst a b) :
    a.size ≤ b.size := by
  unfold precedes at h
  by_contra hlt
  exact h (Bool.or_eq_true_iff.2 (.inl (decide_eq_true (Nat.lt_of_not_le hlt))))

theorem Index.descending_place {newestFirst : Bool} {s : Segment} {segments : List Segment}
    (h : Segment.Descending segments) : Segment.Descending (place newestFirst s segments) := by
  induction segments with
  | nil => exact List.pairwise_singleton _ s
  | cons t rest ih =>
    obtain ⟨hhead, hrest⟩ := List.pairwise_cons.1 h
    unfold place
    split
    · next hprecedes =>
      have hle := Segment.size_le_of_precedes hprecedes
      refine List.pairwise_cons.2 ⟨fun u hu => ?_, h⟩
      rcases List.mem_cons.1 hu with rfl | hu
      · exact hle
      · exact Nat.le_trans (hhead u hu) hle
    -- the segment comes somewhere behind the first one, which is not smaller
    · next hprecedes =>
      refine List.pairwise_cons.2 ⟨fun u hu => ?_, ih hrest⟩
      rcases List.mem_cons.1 ((place_perm newestFirst s rest).mem_iff.1 hu) with rfl | hu
      · exact Segment.size_le_of_not_precedes hprecedes
      · exact hhead u hu

theorem Index.descending_arrange (newestFirst : Bool) (segments : List Segment) :
    Segment.Descending (arrange newestFirst segments) :=
  List.foldrRecOn _ (place newestFirst) .nil fun _ h _ _ => descending_place h

theorem Index.descending_consolidate (ix : Index) : Segment.Descending ix.consolidate.segments := by
  refine Segment.descending_of_length_le_one ?_
  unfold consolidate
  dsimp only
  split
  · exact Nat.zero_le 1
  · exact Nat.le_refl 1

namespace Catalog

variable {c : Catalog}

/-- What steps keep up: commits arrange the segments, and nothing else touches them. -/
theorem kept_descending : Kept (fun c => Segment.Descending c.index.segments)
    (fun c => Segment.Descending c.index.segments) :=
  .of_commit (fun _ _ _ h => h) fun {c} now force h => by
    by_cases hcan : c.writer.canCommit c.index.schema = true
    · obtain ⟨ix, w, hdescending, heq⟩ := commit_written hcan now force
        (P := fun ix _ => Segment.Descending ix.segments) (Index.descending_arrange _ _)
        (Index.descending_consolidate _)
      rw [heq]
      exact hdescending
    · unfold commit
      rw [if_neg hcan]
      exact h

/-- **In every catalog that can be got** the largest segments come first. -/
theorem Reachable.descending (h : c.Reachable) : Segment.Descending c.index.segments := by
  induction h with
  | fresh h =>
    obtain ⟨-, _, hix⟩ := ofIndex_of_fresh h
    obtain rfl := eq_of_ofIndex hix
    exact .nil
  | @changed c change _ ih =>
    refine kept_descending.apply ih change ?_ ?_
    · exact fun now _ => kept_descending.commit (c := c.emptied) now true .nil
    · intro c' _ hopen
      obtain rfl := eq_of_ofIndex (ofIndex_of_openDirectory hopen).2
      -- opening touches no sizes
      exact List.pairwise_map.2 ih

/-- **A commit stamps what it changes**: a segment that keeps its fingerprint keeps its entries. -/
theorem Current.entries_eq (h : c.Current) (now : Instant) (force : Bool) :
    ∀ s ∈ c.index.segments, ∀ t ∈ (c.commit now force).2.index.segments,
      s.fingerprint = t.fingerprint → s.entries = t.entries := by
  obtain ⟨ix, w, hentries, heq⟩ := commit_written h.events.canCommit now force
    (P := fun ix _ => ∀ s ∈ c.index.segments, ∀ t ∈ ix.segments,
      s.fingerprint = t.fingerprint → s.entries = t.entries)
    (Writer.entries_eq_of_commit h.marked)
    (Writer.entries_eq_of_consolidate fun s hs => Nat.lt_succ_of_lt (h.marked.id_lt s hs))
  rw [heq]
  exact hentries

/-- What a commit writes with the same contents is listed in the same order, if sizes settle it. -/
theorem Reachable.fingerprint_eq (h : c.Reachable) (now : Instant) (force : Bool)
    (hholds : c.slot.current.Holds (c.commit now force).2.index.segments)
    (hdistinct : ((c.commit now force).2.index.segments.map Segment.size).Nodup) :
    c.slot.current.fingerprint = (c.commit now force).2.index.segments.map Segment.fingerprint := by
  have hcommitted : (c.commit now force).2.Reachable := h.changed (.run (.commit now force))
  -- readers are up to date, so what they see are the segments before the commit
  have hshown := h.current.shows.fingerprint_eq
  unfold Snapshot.Holds at hholds
  rw [hshown] at hholds ⊢
  refine Segment.fingerprints_eq h.descending hcommitted.descending hholds ?_ hdistinct
  exact fun s hs t ht hfp => congrArg List.length (h.current.entries_eq now force s hs t ht hfp)

/-- **Other contents replace a snapshot, and the same contents do not if they are listed in the same order.**
Whatever differs from the current snapshot is published under the next generation. What has the same contents
is passed over, and the slot with all its leases stays as it is, exactly if the segments are listed in the same
order. If they are what a commit of a catalog publishes, that is so unless two of them are of the same size. -/
theorem published_by_content (slot : SnapshotSlot) (segments : List Segment) :
    (¬ slot.current.Holds segments → (slot.publish segments).1 = true ∧
      (slot.publish segments).2.current = ⟨slot.current.generation + 1, segments, 0, false⟩) ∧
    (slot.current.Holds segments →
      (slot.publish segments = (false, slot) ↔
        slot.current.fingerprint = segments.map Segment.fingerprint)) ∧
    ∀ c : Catalog, c.Reachable → c.slot = slot → ∀ (now : Instant) (force : Bool),
      (c.commit now force).2.index.segments = segments →
      (c.commit now force).1 = .ok () ∧ (c.commit now force).2.slot = (slot.publish segments).2 ∧
      (slot.current.Holds segments → (segments.map Segment.size).Nodup →
        slot.publish segments = (false, slot)) := by
  refine ⟨fun hdiffers => ?_, fun _ => ⟨fun hskipped => ?_, SnapshotSlot.publish_of_listed⟩, ?_⟩
  · exact SnapshotSlot.publish_of_not_listed fun heq => hdiffers (.of_eq heq)
  · by_contra hne
    have hswapped := (SnapshotSlot.publish_of_not_listed hne).1
    rw [hskipped] at hswapped
    exact Bool.false_ne_true hswapped
  · rintro c hc rfl now force rfl
    have hcan := hc.ofEvents.canCommit
    refine ⟨hc.ofEvents.commit_ok now force, (index_commit hcan now force).2.2, ?_⟩
    intro hholds hdistinct
    exact SnapshotSlot.publish_of_listed (hc.fingerprint_eq now force hholds hdistinct)

/-- Two events in one segment and one in another: opened again, the catalog commits nothing, and the lease stays
on the current snapshot. -/
theorem published_by_content_reopened :
    let raise (n : Nat) : Event := .raise (.ofNat n) .epoch "host" "/Status" "down" .warning
    ∃ c, create "events" .default = .ok c ∧
      let leased := [.run (.addMany .epoch [raise 1, raise 2]), .run (.add .epoch (raise 3)), .reopen,
        .acquire].foldl Change.apply c
      leased.slot.current.Holds (leased.commit Instant.epoch false).2.index.segments ∧
      ((leased.commit Instant.epoch false).2.index.segments.map Segment.size).Nodup ∧
      (leased.commit Instant.epoch false).2.slot = leased.slot ∧ leased.slot.outstandingLeases = 1 := by
  intro raise
  obtain ⟨c, hc⟩ : ∃ c, create "events" .default = .ok c := ⟨_, rfl⟩
  refine ⟨c, hc, ?_⟩
  intro leased
  have hreachable : leased.Reachable := (Reachable.fresh (.inl hc)).changes _
  have hholds : leased.slot.current.Holds (leased.commit Instant.epoch false).2.index.segments := by
    cases hc
    unfold Snapshot.Holds
    decide +kernel
  have hdistinct : ((leased.commit Instant.epoch false).2.index.segments.map Segment.size).Nodup := by
    cases hc
    decide +kernel
  refine ⟨hholds, hdistinct, ?_, ?_⟩
  · obtain ⟨-, -, hcommits⟩ :=
      published_by_content leased.slot (leased.commit Instant.epoch false).2.index.segments
    obtain ⟨-, hslot, hskipped⟩ := hcommits leased hreachable rfl Instant.epoch false rfl
    rw [hslot, hskipped hholds hdistinct]
  · cases hc
    decide +kernel

/-- **The same contents may be published again.** A catalog of twelve events, one to a segment, is opened
again. A commit then changes nothing, but it lists the segments in another order: so the snapshot is
replaced, and the lease that had been taken on it no longer counts. -/
theorem republished :
    let raise (n : Nat) : Change :=
      .run (.add .epoch (.raise (.ofNat n) .epoch "host" "/Status" "down" .warning))
    ∃ c, create "events" .default = .ok c ∧
      let leased := ((List.range' 1 12).map raise ++ [Change.reopen, .acquire]).foldl Change.apply c
      let committed := (leased.commit Instant.epoch false).2
      leased.slot.current.Holds committed.index.segments ∧
        (leased.slot.publish committed.index.segments).1 = true ∧
        leased.slot.outstandingLeases = 1 ∧ committed.slot.outstandingLeases = 0 ∧
        committed.slot.current.generation = leased.slot.current.generation + 1 := by
  intro raise
  refine ⟨_, rfl, ?_⟩
  unfold Snapshot.Holds
  decide +kernel

end Catalog

end EventCatalog
