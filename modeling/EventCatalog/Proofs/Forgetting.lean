import EventCatalog.Proofs.Contents

/-!
# Forgetting removals

The queue of removals only grows while a writer is open. Removals that every segment has carried out, and
that the segment being written has passed over, take no part in anything any more
(`Writer.Passed`). The writer works as if it had never taken them up: what it does comes to the same
whether they are taken out of the queue before or afterwards (`Writer.forget_remove`,
`Writer.forget_add`, `Writer.forget_commit`). Nor does it show in the documents.

So a writer need not have been orderly all the time. What matters is that it is orderly once the removals
that it has behind it are forgotten.
-/

namespace EventCatalog

/-! ### Taking removals out of the queue -/

/-- The segment, for a queue without its first removals. -/
def Segment.forget (k : Nat) (s : Segment) : Segment := { s with reached := s.reached - k }

/-- The index, for a queue without its first removals. -/
def Index.forget (k : Nat) (ix : Index) : Index :=
  { ix with segments := ix.segments.map (Segment.forget k) }

/-- The writer without the first removals in its queue. -/
def Writer.forget (k : Nat) (w : Writer) : Writer :=
  { w with removals := w.removals.drop k, seen := w.seen - k, start := w.start - k }

namespace Index

variable {ix : Index}

theorem documents_forget (k : Nat) (ix : Index) : (ix.forget k).documents = ix.documents := by
  rw [documents, forget, List.flatMap_map]
  rfl

theorem map_forget_place (k : Nat) (newestFirst : Bool) (s : Segment) (segments : List Segment) :
    (place newestFirst s segments).map (Segment.forget k) =
      place newestFirst (s.forget k) (segments.map (Segment.forget k)) := by
  induction segments with
  | nil => rfl
  | cons t rest ih =>
    have hprecedes : (s.forget k).precedes newestFirst (t.forget k) = s.precedes newestFirst t := rfl
    rw [List.map_cons, place, place, hprecedes, ← ih]
    split <;> rfl

/-- Segments are arranged by their documents and numbers. -/
theorem map_forget_arrange (k : Nat) (newestFirst : Bool) (segments : List Segment) :
    (arrange newestFirst segments).map (Segment.forget k) =
      arrange newestFirst (segments.map (Segment.forget k)) := by
  have hfilter : (segments.map (Segment.forget k)).filter (fun s => !s.live.isEmpty) =
      (segments.filter fun s => !s.live.isEmpty).map (Segment.forget k) := by
    rw [List.filter_map]
    rfl
  rw [arrange, arrange, hfilter]
  induction segments.filter fun s => !s.live.isEmpty with
  | nil => rfl
  | cons s rest ih => rw [List.map_cons, List.foldr_cons, List.foldr_cons, map_forget_place, ih]

theorem forget_consolidate (k : Nat) (ix : Index) :
    ix.consolidate.forget k = (ix.forget k).consolidate := by
  have hdocuments := documents_forget k ix
  unfold consolidate
  rw [hdocuments]
  cases hsegments : ix.segments with
  | nil =>
    have hnone : ix.documents = [] := by
      rw [documents, hsegments]
      rfl
    rw [hnone]
    rfl
  | cons s rest =>
    -- the merged segment goes on in the queue from where the first one was, which is still the first
    have hhead : (ix.forget k).segments.head? = some (s.forget k) := by
      rw [forget, hsegments]
      rfl
    cases hempty : ix.documents with
    | nil => rfl
    | cons d ds =>
      simp only [hhead]
      rfl

end Index

namespace Writer

variable {ix : Index} {w : Writer} {k : Nat}

/-- The first removals of the queue are behind every segment, and behind the one being written. -/
structure Passed (k : Nat) (ix : Index) (w : Writer) : Prop where
  le_seen : k ≤ w.seen
  le_start : k ≤ w.start
  le_reached : ∀ s ∈ ix.segments, k ≤ s.reached
  le_length : k ≤ w.removals.length

theorem forget_tick (k : Nat) (w : Writer) : w.tick.forget k = (w.forget k).tick := rfl

theorem forget_remove (h : k ≤ w.removals.length) (q : Query) :
    (w.remove q).forget k = (w.forget k).remove q := by
  simp only [forget, remove, List.drop_append_of_le_length h]

theorem Passed.remove (h : Passed k ix w) (q : Query) : Passed k ix (w.remove q) where
  le_seen := h.le_seen
  le_start := h.le_start
  le_reached := h.le_reached
  le_length := by
    rw [Writer.remove, List.length_append]
    exact Nat.le_add_right_of_le h.le_length

/-- Looking at a place behind the removals that are forgotten. -/
theorem forget_look {place : Nat} (hplace : k ≤ place) (hseen : k ≤ w.seen) :
    (w.look place).forget k = (w.forget k).look (place - k) := by
  -- both places move by as much, so their order is the same
  have hiff : (w.forget k).seen ≤ place - k ↔ w.seen ≤ place := by
    change w.seen - k ≤ place - k ↔ _
    omega
  unfold look
  by_cases h : w.seen ≤ place
  · rw [if_pos h, if_pos (hiff.2 h)]
    simp only [forget, List.length_drop]
  · rw [if_neg h, if_neg fun h' => h (hiff.1 h')]

/-- The queue from a place on, behind the removals that are forgotten. -/
theorem drop_forget {place : Nat} (hplace : k ≤ place) :
    (w.forget k).removals.drop (place - k) = w.removals.drop place := by
  change (w.removals.drop k).drop (place - k) = _
  rw [List.drop_drop, Nat.add_sub_cancel' hplace]

theorem due_forget {place : Nat} (hplace : k ≤ place) (limit : Nat) :
    (w.forget k).due (place - k) limit = w.due place limit := by
  rw [due, due, drop_forget hplace]

theorem le_seen_look {place : Nat} (hseen : k ≤ w.seen) (hlength : k ≤ w.removals.length) :
    k ≤ (w.look place).seen := by
  unfold look
  split
  · exact hlength
  · exact hseen

/-- The writer before it stages a document: the first document of a segment passes over removals. -/
private def advanced (w : Writer) : Writer :=
  if w.additions.isEmpty then
    let passed := (w.removals.drop w.start).takeWhile fun r => r.stamp < w.next
    { w with start := w.start + passed.length }.look (w.start + passed.length)
  else w

private theorem forget_advanced (hseen : k ≤ w.seen) (hstart : k ≤ w.start) :
    w.advanced.forget k = (w.forget k).advanced := by
  unfold advanced
  by_cases hempty : w.additions.isEmpty = true
  · have hpassed : ((w.forget k).removals.drop (w.forget k).start).takeWhile
        (fun r => r.stamp < (w.forget k).next) =
        (w.removals.drop w.start).takeWhile fun r => r.stamp < w.next :=
      congrArg (List.takeWhile fun r => r.stamp < w.next) (drop_forget hstart)
    rw [if_pos hempty, if_pos (show (w.forget k).additions.isEmpty = true from hempty)]
    simp only [hpassed]
    generalize (w.removals.drop w.start).takeWhile (fun r => r.stamp < w.next) = passed
    -- the place in the queue moves on by as much
    have hplace : (w.forget k).start + passed.length = w.start + passed.length - k := by
      change w.start - k + passed.length = _
      omega
    rw [hplace]
    exact forget_look (w := { w with start := w.start + passed.length })
      (Nat.le_add_right_of_le hstart) hseen
  · rw [if_neg hempty, if_neg (show ¬ (w.forget k).additions.isEmpty = true from hempty)]

theorem forget_add (hseen : k ≤ w.seen) (hstart : k ≤ w.start) (d : Document) :
    (w.add d).forget k = (w.forget k).add d := by
  unfold add
  by_cases hrun : w.stalled = true
  · rw [if_pos hrun, if_pos (show (w.forget k).stalled = true from hrun)]
    rfl
  · rw [if_neg hrun, if_neg (show ¬ (w.forget k).stalled = true from hrun)]
    change Writer.mk _ _ _ _ _ _ _ = { (w.forget k).advanced with
      additions := (w.forget k).advanced.additions ++ [⟨(w.forget k).advanced.next, d⟩]
      next := (w.forget k).advanced.next + 1 }
    rw [← forget_advanced hseen hstart]
    rfl

theorem Passed.add (h : Passed k ix w) (d : Document) : Passed k ix (w.add d) := by
  unfold Writer.add
  split
  · exact { h with }
  · split
    · refine ⟨?_, ?_, h.le_reached, ?_⟩
      · exact le_seen_look h.le_seen h.le_length
      · dsimp only
        rw [start_look]
        exact Nat.le_add_right_of_le h.le_start
      · dsimp only
        rw [removals_look]
        exact h.le_length
    · exact { h with }

/-! ### Committing -/

/-- The segment that is written does not depend on what is forgotten. -/
theorem forget_write (hseen : k ≤ w.seen) (hstart : k ≤ w.start) (schema : Schema) (id : Nat) :
    (w.write schema id).1.forget k = ((w.forget k).write schema id).1 ∧
      (w.write schema id).2.forget k = ((w.forget k).write schema id).2 := by
  have hadditions : (w.forget k).additions = w.additions := rfl
  have hdue : (w.forget k).due (w.forget k).start (w.additions.foldl (fun n a => max n a.stamp) 0) =
      w.due w.start (w.additions.foldl (fun n a => max n a.stamp) 0) := due_forget hstart _
  unfold write
  simp only [hadditions, hdue]
  generalize w.due w.start (w.additions.foldl (fun n a => max n a.stamp) 0) = removals
  -- the new segment has carried out what was due, counted from where the queue now begins
  have hplace : (w.forget k).start + removals.length = w.start + removals.length - k := by
    change w.start - k + removals.length = _
    omega
  rw [hplace]
  exact ⟨rfl, forget_look (w := { w with additions := [] }) (Nat.le_add_right_of_le hstart) hseen⟩

theorem forget_flush (h : Passed k ix w) :
    (w.flush ix).1.map (Segment.forget k) = ((w.forget k).flush (ix.forget k)).1 ∧
      (w.flush ix).2.forget k = ((w.forget k).flush (ix.forget k)).2 := by
  obtain ⟨hsegment, hwriter⟩ := forget_write h.le_seen h.le_start ix.schema ix.nextId
  rw [flush_eq, flush_eq]
  by_cases hempty : w.additions.isEmpty = true
  · rw [if_pos hempty, if_pos (show (w.forget k).additions.isEmpty = true from hempty)]
    exact ⟨rfl, rfl⟩
  · rw [if_neg hempty, if_neg (show ¬ (w.forget k).additions.isEmpty = true from hempty)]
    constructor
    · simp only [List.map_append, List.map_cons, List.map_nil, hsegment]
      rfl
    · exact congrArg tick hwriter

/-- What was behind every segment is behind the new one as well. -/
theorem Passed.flush (h : Passed k ix w) :
    k ≤ (w.flush ix).2.seen ∧ (∀ s ∈ (w.flush ix).1, k ≤ s.reached) ∧
      k ≤ (w.flush ix).2.removals.length := by
  obtain ⟨n, m, hn, -, heq⟩ := exists_flush_eq w ix
  -- the writer has seen no fewer removals than before
  have hseen : k ≤ n := by
    rcases hn with rfl | rfl
    · exact h.le_seen
    · exact h.le_length
  refine ⟨heq ▸ hseen, ?_, heq ▸ h.le_length⟩
  intro s hs
  rcases mem_flush_cases hs with hs | ⟨_, -, _, rfl⟩
  · exact h.le_reached s hs
  · exact Nat.le_add_right_of_le h.le_start

theorem forget_carryOut {schema : Schema} {s : Segment} (h : k ≤ s.reached) (commit : Nat) :
    (w.carryOut schema commit s).forget k = (w.forget k).carryOut schema commit (s.forget k) := by
  have hdue : (w.forget k).due (s.forget k).reached commit = w.due s.reached commit :=
    due_forget h commit
  unfold carryOut
  rw [hdue]
  generalize w.due s.reached commit = removals
  have hplace : s.reached + removals.length - k = (s.forget k).reached + removals.length := by
    change _ = s.reached - k + removals.length
    omega
  change Segment.mk _ _ _ _ = _
  rw [hplace]
  rfl

theorem forget_foldl_look (segments : List Segment) (hseen : k ≤ w.seen)
    (hlength : k ≤ w.removals.length) (hreached : ∀ s ∈ segments, k ≤ s.reached) :
    (segments.foldl (fun w s => w.look s.reached) w).forget k =
      (segments.map (Segment.forget k)).foldl (fun w s => w.look s.reached) (w.forget k) := by
  induction segments generalizing w with
  | nil => rfl
  | cons s rest ih =>
    have hlook := forget_look (hreached s (by simp)) hseen
    have hrest := ih (w := w.look s.reached) (le_seen_look hseen hlength) (by rwa [removals_look])
      fun s hs => hreached s (List.mem_cons_of_mem _ hs)
    rw [List.foldl_cons, List.map_cons, List.foldl_cons, hrest, hlook]
    rfl

/-- **A commit comes to the same** whether removals are forgotten before or afterwards, and leaves them
behind. -/
theorem forget_commit (h : Passed k ix w) :
    (w.commit ix).1.forget k = ((w.forget k).commit (ix.forget k)).1 ∧
      (w.commit ix).2.forget k = ((w.forget k).commit (ix.forget k)).2 ∧
      Passed k (w.commit ix).1 (w.commit ix).2 := by
  obtain ⟨hsegments, hwriter⟩ := forget_flush h
  obtain ⟨hseen, hreached, hlength⟩ := h.flush
  have hcommitting : (w.committing ix).forget k = (w.forget k).committing (ix.forget k) := by
    rw [committing, committing, ← hwriter]
    rfl
  have hcarried : (w.carried ix).map (Segment.forget k) = (w.forget k).carried (ix.forget k) := by
    rw [carried, carried, ← hsegments, ← hwriter, ← hcommitting, List.map_map, List.map_map]
    exact List.map_congr_left fun s hs => forget_carryOut (hreached s hs) _
  -- a segment carries on from where it was
  have hbehind : ∀ s ∈ w.carried ix, k ≤ s.reached := by
    intro s hs
    obtain ⟨u, hu, rfl⟩ := List.mem_map.1 hs
    exact Nat.le_add_right_of_le (hreached u hu)
  refine ⟨?_, ?_, ?_⟩
  · have harranged := Index.map_forget_arrange k (w.committing ix).goesOn (w.carried ix)
    rw [hcarried] at harranged
    have hstamp : (w.commit ix).1.stamp = ((w.forget k).commit (ix.forget k)).1.stamp := by
      change ((w.flush ix).2.forget k).next = ((w.forget k).flush (ix.forget k)).2.next
      rw [hwriter]
    -- what is forgotten is no matter of where the writer started
    have horder : (w.committing ix).goesOn = ((w.forget k).committing (ix.forget k)).goesOn := by
      rw [← hcommitting]
      rfl
    change Index.mk _ ((Index.arrange (w.committing ix).goesOn (w.carried ix)).map (Segment.forget k)) _ _ =
      ((w.forget k).commit (ix.forget k)).1
    rw [harranged, hstamp, horder]
    rfl
  · have hlook := forget_foldl_look (w := w.committing ix) (w.carried ix) hseen hlength hbehind
    change ((w.carried ix).foldl (fun w s => w.look s.reached) (w.committing ix)).tick.forget k = _
    rw [forget_tick, hlook, hcarried, hcommitting]
    rfl
  -- what the writer has seen afterwards is what it had seen, or the whole queue
  · obtain ⟨n, hn, heq⟩ := exists_commit_eq w ix
    have hle : k ≤ n := by
      rcases hn with rfl | rfl
      · exact hseen
      · exact hlength
    rw [heq]
    exact ⟨hle, hseen, fun s hs => hbehind s (Index.mem_of_mem_arrange hs), hlength⟩

/-- Merging the segments leaves the removals behind as well. -/
theorem Passed.consolidate (h : Passed k ix w) : Passed k ix.consolidate w :=
  { h with le_reached := reached_consolidate (P := fun n => k ≤ n) h.le_reached }

end Writer

end EventCatalog
