import Mathlib.Data.List.Nodup
import EventCatalog.Index.Snapshot
import EventCatalog.Proofs.Committing

/-!
# Publishing

Publishing is skipped if the segments of the current snapshot cannot be told apart from the new ones
by their fingerprints: their numbers, and the numbers of the commits that last struck out documents of
them. Nothing is lost by that (`SnapshotSlot.shows_publish`) as long as segments with equal fingerprints
have equal entries.

They have, because of how segments are marked (`Writer.Marked`). Every segment has a number of its own
that was never used before, so only one that was there before a commit can share its number with one
that is there afterwards. It then was carried over, and if its entries changed, it was stamped with the
number of the commit, which is above all stamps that there were (`Writer.entries_eq_of_commit`).
Segments that are merged get a new number, so they are never taken for old ones
(`Writer.Marked.consolidate`).
-/

namespace EventCatalog

/-- What readers can see of a segment: everything but how far it has got with the removals. -/
def Segment.content (s : Segment) : Nat × Option Nat × List Entry := (s.id, s.deleteStamp, s.entries)

/-- Segments with the same contents have the same documents, segment by segment. -/
theorem Segment.map_live_eq {ss ts : List Segment}
    (h : ss.map Segment.content = ts.map Segment.content) : ss.map Segment.live = ts.map Segment.live := by
  have hlive : ∀ l : List Segment, l.map Segment.live = (l.map Segment.content).map fun c =>
      c.2.2.filterMap fun e => if e.live then some e.document else none := by
    intro l
    rw [List.map_map]
    rfl
  rw [hlive ss, h, hlive ts]

/-! ### The slot -/

namespace SnapshotSlot

/-- Readers see the contents of segments. -/
def Shows (slot : SnapshotSlot) (segments : List Segment) : Prop :=
  slot.current.segments.map Segment.content = segments.map Segment.content

/-- Segments with equal fingerprints that cannot differ otherwise have equal contents. -/
private theorem content_eq_of_fingerprint {ss ts : List Segment}
    (hfp : ss.map Segment.fingerprint = ts.map Segment.fingerprint)
    (h : ∀ s ∈ ss, ∀ t ∈ ts, s.fingerprint = t.fingerprint → s.entries = t.entries) :
    ss.map Segment.content = ts.map Segment.content := by
  induction ss generalizing ts with
  | nil =>
    have hnil : ts = [] := by simpa using hfp.symm
    rw [hnil]
  | cons s ss ih =>
    cases ts with
    | nil => exact absurd hfp (by simp)
    | cons t ts =>
      rw [List.map_cons, List.map_cons] at hfp
      obtain ⟨hhead, htail⟩ := List.cons.inj hfp
      have hentries := h s (by simp) t (by simp) hhead
      have hids : s.id = t.id ∧ s.deleteStamp = t.deleteStamp := Prod.mk.inj hhead
      have hrest := ih htail fun s hs t ht =>
        h s (List.mem_cons_of_mem _ hs) t (List.mem_cons_of_mem _ ht)
      rw [List.map_cons, List.map_cons, hrest, Segment.content, hids.1, hids.2, hentries]
      rfl

/-- **A skipped publication leaves nothing out**: readers see the new segments, whether or not the
snapshot was replaced. -/
theorem shows_publish {slot : SnapshotSlot} {segments : List Segment}
    (h : ∀ s ∈ slot.current.segments, ∀ t ∈ segments, s.fingerprint = t.fingerprint →
      s.entries = t.entries) : (slot.publish segments).2.Shows segments := by
  unfold publish
  split
  · next hfp => exact content_eq_of_fingerprint hfp h
  · exact Eq.refl (segments.map Segment.content)

/-- What holds of the segments that readers see also tells them apart from new ones. -/
theorem Shows.entries_eq {slot : SnapshotSlot} {old new : List Segment} (hshows : slot.Shows old)
    (h : ∀ s ∈ old, ∀ t ∈ new, s.fingerprint = t.fingerprint → s.entries = t.entries) :
    ∀ s ∈ slot.current.segments, ∀ t ∈ new, s.fingerprint = t.fingerprint →
      s.entries = t.entries := by
  intro s hs t ht hfp
  have hmem : s.content ∈ old.map Segment.content := hshows ▸ List.mem_map_of_mem hs
  -- a segment that readers see has the content of an old one
  obtain ⟨u, hu, hcontent⟩ := List.mem_map.1 hmem
  obtain ⟨hid, hstamp, hentries⟩ : u.id = s.id ∧ u.deleteStamp = s.deleteStamp ∧
      u.entries = s.entries := by
    simpa [Segment.content] using hcontent
  rw [← hentries]
  exact h u hu t ht (by rw [← hfp, Segment.fingerprint, hid, hstamp]; rfl)

/-- What readers see is a matter of the current segments alone. -/
theorem Shows.of_segments_eq {slot slot' : SnapshotSlot} {segments : List Segment}
    (h : slot.Shows segments) (hslot : slot'.current.segments = slot.current.segments) :
    slot'.Shows segments := by
  rw [Shows, hslot]
  exact h

theorem Shows.segments_eq_nil {slot : SnapshotSlot} (h : slot.Shows []) : slot.current.segments = [] :=
  List.map_eq_nil_iff.1 h

/-- What readers see has the fingerprints of what is stored. -/
theorem Shows.fingerprint_eq {slot : SnapshotSlot} {segments : List Segment} (h : slot.Shows segments) :
    slot.current.fingerprint = segments.map Segment.fingerprint := by
  have hshown := congrArg (List.map fun p : Nat × Option Nat × List Entry => (p.1, p.2.1)) h
  rw [List.map_map, List.map_map] at hshown
  exact hshown

/-- Readers see the documents of the segments. -/
theorem Shows.documents {slot : SnapshotSlot} {ix : Index} (h : slot.Shows ix.segments) :
    slot.current.documents = ix.documents := by
  rw [Snapshot.documents, Index.documents, List.flatMap_def, List.flatMap_def, Segment.map_live_eq h]

end SnapshotSlot

namespace Writer

variable {ix : Index} {w : Writer} {schema : Schema}

/-! ### Striking out -/

/-- Striking out never brings a document back. -/
private theorem countP_le_strike (selected : Document → Bool) (es : List Entry) :
    es.countP (fun e => !e.live) ≤ (Segment.strike selected es).countP fun e => !e.live := by
  rw [Segment.strike, List.countP_map]
  refine List.countP_mono_left fun e _ h => ?_
  rw [Bool.not_eq_true'] at h
  simp [h]

/-- If no more documents are struck out than there were, none of them changes. -/
private theorem strike_eq_self {selected : Document → Bool} {es : List Entry}
    (h : (Segment.strike selected es).countP (fun e => !e.live) = es.countP fun e => !e.live) :
    Segment.strike selected es = es := by
  induction es with
  | nil => rfl
  | cons e rest ih =>
    have hle := countP_le_strike selected rest
    have hcons : Segment.strike selected (e :: rest) =
        { e with live := e.live && !selected e.document } :: Segment.strike selected rest := rfl
    rw [hcons] at h ⊢
    rw [List.countP_cons, List.countP_cons] at h
    -- an entry that was struck out before counts on both sides
    cases hlive : e.live with
    | false =>
      simp only [hlive, Bool.false_and, Bool.not_false, if_true] at h ⊢
      rw [ih (by omega)]
      cases e
      simp_all
    | true =>
      -- one that was not is counted on the left only if it is selected
      cases hsel : selected e.document with
      | false =>
        simp only [hlive, hsel, Bool.not_false, Bool.and_true, Bool.not_true, Bool.false_eq_true,
          if_false] at h ⊢
        rw [ih (by omega)]
        cases e
        simp_all
      | true =>
        simp [hlive, hsel] at h
        omega

/-- A segment that carries out removals without a new stamp keeps its entries. -/
theorem entries_carryOut {commit : Nat} {s : Segment}
    (hnew : w.removals ≠ [] → s.deleteStamp ≠ some commit)
    (h : (w.carryOut schema commit s).deleteStamp = s.deleteStamp) :
    (w.carryOut schema commit s).entries = s.entries := by
  -- without removals nothing is carried out, and stamps do not matter
  by_cases hnone : w.removals = []
  · simp [carryOut, due, hnone, Segment.strike]
  · simp only [carryOut] at h ⊢
    refine strike_eq_self ?_
    have hle := countP_le_strike
      (fun d => (w.due s.reached commit).any fun r => r.query.selects schema d) s.entries
    split at h
    -- the stamp is kept if nothing is struck out, or no more than before
    · next hkept =>
      simp only [Bool.or_eq_true, decide_eq_true_eq, Bool.and_eq_true] at hkept
      rcases hkept with hzero | ⟨-, heq⟩
      · omega
      · exact heq
    · exact absurd h.symm (hnew hnone)

/-! ### The numbers of the writer -/

@[simp] theorem base_look (w : Writer) (place : Nat) : (w.look place).base = w.base := by
  unfold look
  split <;> rfl

/-- Staging a document takes a number, which is that of the document. -/
theorem add_numbers (w : Writer) (d : Document) :
    (w.add d).base = w.base ∧ (w.add d).next = w.next + 1 ∧
      ∀ a ∈ (w.add d).additions, a ∈ w.additions ∨ a.stamp = w.next := by
  unfold add
  split
  · exact ⟨rfl, rfl, fun a ha => .inl ha⟩
  -- the first document of a segment also looks at the removals
  · have hadditions : ∀ as : List Addition, ∀ a ∈ as ++ [⟨w.next, d⟩], a ∈ as ∨ a.stamp = w.next := by
      intro as a ha
      rcases List.mem_append.1 ha with ha | ha
      · exact .inl ha
      · rw [List.mem_singleton.1 ha]
        exact .inr rfl
    split
    · refine ⟨base_look _ _, congrArg (· + 1) (next_look _ _), ?_⟩
      simpa using hadditions w.additions
    · exact ⟨rfl, rfl, hadditions w.additions⟩

/-- Writing the staged documents takes a number for each segment at most. -/
theorem flush_numbers (w : Writer) (ix : Index) (deal : Deal := .together) :
    (w.flush ix deal).2.base = w.base ∧ w.next ≤ (w.flush ix deal).2.next ∧
      (w.flush ix deal).2.next ≤ w.next + (deal.groups w.additions).length := by
  obtain ⟨_, m, -, hm, heq⟩ := exists_flush_eq w ix deal
  rw [heq]
  change w.base = w.base ∧ w.next ≤ m ∧ m ≤ w.next + (deal.groups w.additions).length
  omega

/-- A commit is stamped with the number behind those of writing, and takes two more. -/
theorem commit_numbers (w : Writer) (ix : Index) (deal : Deal := .together) :
    (w.commit ix deal).2.base = w.base ∧ (w.commit ix deal).1.stamp = (w.flush ix deal).2.next ∧
      (w.commit ix deal).2.next = (w.flush ix deal).2.next + 2 := by
  obtain ⟨_, -, heq⟩ := exists_commit_eq w ix deal
  rw [heq]
  exact ⟨(flush_numbers w ix deal).1, rfl, rfl⟩

/-! ### The marks of segments -/

/-- Segments have numbers of their own, and no stamp reaches what a removal will be stamped with. -/
structure Marked (ix : Index) (w : Writer) : Prop where
  ids_nodup : (ix.segments.map Segment.id).Nodup
  id_lt : ∀ s ∈ ix.segments, s.id < ix.nextId
  stamp_le : ∀ s ∈ ix.segments, ∀ n, s.deleteStamp = some n → n ≤ w.next
  stamp_lt : w.removals ≠ [] → ∀ s ∈ ix.segments, ∀ n, s.deleteStamp = some n → n < w.next

theorem Marked.tick (h : Marked ix w) : Marked ix w.tick :=
  { h with
    stamp_le := fun s hs n hn => Nat.le_succ_of_le (h.stamp_le s hs n hn)
    stamp_lt := fun _ s hs n hn => Nat.lt_succ_of_le (h.stamp_le s hs n hn) }

theorem Marked.remove (h : Marked ix w) (q : Query) : Marked ix (w.remove q) :=
  { h with
    stamp_le := fun s hs n hn => Nat.le_succ_of_le (h.stamp_le s hs n hn)
    stamp_lt := fun _ s hs n hn => Nat.lt_succ_of_le (h.stamp_le s hs n hn) }

theorem Marked.add (h : Marked ix w) (d : Document) : Marked ix (w.add d) := by
  obtain ⟨-, hnext, -⟩ := add_numbers w d
  -- staging only raises the next number
  refine { h with stamp_le := ?_, stamp_lt := ?_ }
  · intro s hs n hn
    have := h.stamp_le s hs n hn
    omega
  · intro _ s hs n hn
    have := h.stamp_le s hs n hn
    omega

/-- New segments are numbered on. -/
theorem ids_writeAll (w : Writer) (schema : Schema) (id : Nat) (groups : List (List Addition)) :
    (w.writeAll schema id groups).1.map Segment.id = List.range' id groups.length := by
  rw [segments_writeAll, List.map_map, ← List.zipIdx_map_snd id groups]
  rfl

/-- The segments that are written to, and the new ones. -/
theorem mem_flush {deal : Deal} {s : Segment} (hs : s ∈ (w.flush ix deal).1) :
    s ∈ ix.segments ∨
      (ix.nextId ≤ s.id ∧ s.id < ix.nextId + (deal.groups w.additions).length) ∧ s.deleteStamp = none := by
  unfold flush at hs
  split at hs
  · exact .inl hs
  · refine (List.mem_append.1 hs).imp_right fun hs => ⟨?_, ?_⟩
    · have hid := List.mem_map_of_mem (f := Segment.id) hs
      rwa [ids_writeAll, List.mem_range'_1] at hid
    · rw [segments_writeAll] at hs
      obtain ⟨p, -, rfl⟩ := List.mem_map.1 hs
      rfl

private theorem ids_flush (hnodup : (ix.segments.map Segment.id).Nodup)
    (hlt : ∀ s ∈ ix.segments, s.id < ix.nextId) (deal : Deal) : ((w.flush ix deal).1.map Segment.id).Nodup := by
  unfold flush
  split
  · exact hnodup
  · rw [List.map_append, ids_writeAll]
    refine List.nodup_append.2 ⟨hnodup, List.nodup_range', ?_⟩
    intro n hn m hm
    -- the new numbers start where the old ones end
    obtain ⟨s, hs, rfl⟩ := List.mem_map.1 hn
    have hnew := (List.mem_range'_1.1 hm).1
    exact Nat.ne_of_lt (Nat.lt_of_lt_of_le (hlt s hs) hnew)

/-- A commit leaves the segments with numbers of their own. -/
theorem ids_commit (hnodup : (ix.segments.map Segment.id).Nodup)
    (hlt : ∀ s ∈ ix.segments, s.id < ix.nextId) (deal : Deal := .together) :
    ((w.commit ix deal).1.segments.map Segment.id).Nodup ∧
      ∀ s ∈ (w.commit ix deal).1.segments, s.id < (w.commit ix deal).1.nextId := by
  constructor
  · rw [segments_commit w ix deal]
    have hids : ((w.carried ix deal).map Segment.id).Nodup := by
      rw [carried, List.map_map]
      exact ids_flush hnodup hlt deal
    -- arranging drops segments and changes their order, but it renumbers none
    refine ((Index.arrange_perm _ _).map Segment.id).nodup_iff.2 ?_
    exact hids.sublist (List.filter_sublist.map _)
  · intro s hs
    obtain ⟨u, hu, rfl⟩ := List.mem_map.1 (Index.mem_of_mem_arrange hs)
    change u.id < ix.nextId + (deal.groups w.additions).length
    rcases mem_flush hu with hold | ⟨hid, -⟩
    · exact Nat.lt_add_right _ (hlt u hold)
    · exact hid.2

theorem Marked.commit (h : Marked ix w) (deal : Deal := .together) :
    Marked (w.commit ix deal).1 (w.commit ix deal).2 := by
  obtain ⟨-, hnext, -⟩ := flush_numbers w ix deal
  obtain ⟨-, -, hcommit⟩ := commit_numbers w ix deal
  have hlt : ∀ s ∈ (w.commit ix deal).1.segments, ∀ n, s.deleteStamp = some n →
      n < (w.commit ix deal).2.next := by
    intro s hs n hn
    -- a stamp is an old one, or that of the commit, whose number is taken
    obtain ⟨u, hu, rfl⟩ := List.mem_map.1 (Index.mem_of_mem_arrange hs)
    simp only [carryOut] at hn
    split at hn
    · rcases mem_flush hu with hold | ⟨-, hnone⟩
      · have := h.stamp_le u hold n hn
        omega
      · rw [hnone] at hn
        exact absurd hn (by simp)
    · obtain rfl := Option.some.inj hn
      omega
  obtain ⟨hnodup, hid⟩ := ids_commit (w := w) h.ids_nodup h.id_lt deal
  exact ⟨hnodup, hid, fun s hs n hn => Nat.le_of_lt (hlt s hs n hn), fun _ => hlt⟩

/-- **A commit marks what it changes**: a segment that cannot be told apart from one that was there
before has the same entries. -/
theorem entries_eq_of_commit (h : Marked ix w) (deal : Deal := .together) :
    ∀ s ∈ ix.segments, ∀ t ∈ (w.commit ix deal).1.segments, s.fingerprint = t.fingerprint →
      s.entries = t.entries := by
  intro s hs t ht hfp
  obtain ⟨-, hnext, -⟩ := flush_numbers w ix deal
  obtain ⟨u, hu, rfl⟩ := List.mem_map.1 (Index.mem_of_mem_arrange ht)
  obtain ⟨hid, hstamp⟩ : s.id = u.id ∧ s.deleteStamp =
      ((w.committing ix deal).carryOut ix.schema (w.flush ix deal).2.next u).deleteStamp :=
    Prod.mk.inj hfp
  rcases mem_flush hu with hold | ⟨hnew, -⟩
  · -- the same number, so the same segment, carried over
    obtain rfl : s = u := List.inj_on_of_nodup_map h.ids_nodup hs hold hid
    refine (entries_carryOut ?_ hstamp.symm).symm
    intro hne hcommit
    have hlt := h.stamp_lt (removals_committing w ix deal ▸ hne) s hs _ hcommit
    omega
  -- a number that was never used before belongs to no old segment
  · have hlt := h.id_lt s hs
    omega

/-- A segment that others are merged into is a new one. -/
theorem id_consolidate {s : Segment} (hs : s ∈ ix.consolidate.segments) :
    s.id = ix.nextId ∧ s.deleteStamp = none := by
  rw [Index.consolidate] at hs
  simp only at hs
  split at hs
  · exact absurd hs (by simp)
  · obtain rfl := List.mem_singleton.1 hs
    exact ⟨rfl, rfl⟩

/-- So it cannot be taken for one that was there before. -/
theorem entries_eq_of_consolidate {old : List Segment} (hold : ∀ s ∈ old, s.id < ix.nextId) :
    ∀ s ∈ old, ∀ t ∈ ix.consolidate.segments, s.fingerprint = t.fingerprint → s.entries = t.entries := by
  intro s hs t ht hfp
  have hid : s.id = t.id := (Prod.mk.inj hfp).1
  rw [(id_consolidate ht).1] at hid
  exact absurd hid (Nat.ne_of_lt (hold s hs))

theorem Marked.consolidate : Marked ix.consolidate w where
  ids_nodup := by
    rw [Index.consolidate]
    split
    · exact .nil
    · exact List.nodup_singleton _
  id_lt := by
    intro s hs
    rw [(id_consolidate hs).1]
    exact Nat.lt_succ_self _
  stamp_le := by
    intro s hs n hn
    rw [(id_consolidate hs).2] at hn
    exact absurd hn (by simp)
  stamp_lt := by
    intro _ s hs n hn
    rw [(id_consolidate hs).2] at hn
    exact absurd hn (by simp)

end Writer

end EventCatalog
