import EventCatalog.Proofs.Outlook

/-!
# What a commit leaves

A commit of an orderly writer leaves the documents of its outlook (`Writer.documents_commit`), and
nothing to be done: no document is staged any more, and every segment has carried out every removal
(`Writer.Settled`), so the outlook is then what there is. That is so however the documents are dealt out to
segments. The proof follows the commit. Every document is dealt to one segment (`Deal.flatten_groups_perm`),
which is written as if its documents alone had been staged (`segments_writeAll`). That does not change the
outlook, but for its order (`spared_flush`), because the removals that a new segment has still to carry out are
younger than all of its documents. Then every segment carries out all that is waiting for it, since the number of
the commit is above every other (`live_carried`). Arranging the segments drops empty ones and changes their order.

Merging the segments changes neither the documents nor their order (`Index.documents_consolidate`).
-/

namespace EventCatalog

namespace Index

/-- Arranging segments changes the order of the documents only. -/
theorem live_arrange_perm (newestFirst : Bool) (segments : List Segment) :
    ((arrange newestFirst segments).flatMap Segment.live).Perm (segments.flatMap Segment.live) := by
  refine ((arrange_perm _ _).flatMap_right _).trans ?_
  refine List.Perm.of_eq ?_
  induction segments with
  | nil => rfl
  | cons s rest ih =>
    rw [List.flatMap_cons, List.filter_cons]
    split
    · rw [List.flatMap_cons, ih]
    -- a segment that is dropped has no documents
    · next h =>
      have hempty : s.live = [] := by simpa using h
      rw [hempty, List.nil_append, ih]

theorem mem_of_mem_arrange {newestFirst : Bool} {segments : List Segment} {s : Segment}
    (h : s ∈ arrange newestFirst segments) : s ∈ segments :=
  List.mem_of_mem_filter ((arrange_perm _ _).mem_iff.1 h)

/-- A segment of documents that all count. -/
theorem live_map_entries (ds : List Document) :
    (ds.map fun d => Entry.mk d true).filterMap (fun e => if e.live then some e.document else none) =
      ds := by
  -- reading an entry that counts gives back its document
  rw [List.filterMap_map]
  exact List.filterMap_some

/-- **Merging the segments keeps the documents in their order.** -/
theorem documents_consolidate (ix : Index) : ix.consolidate.documents = ix.documents := by
  have hlive := live_map_entries ix.documents
  unfold consolidate
  cases hdocs : ix.documents with
  | nil => rfl
  | cons d ds =>
    rw [hdocs] at hlive
    change ([_] : List Segment).flatMap Segment.live = _
    rw [List.flatMap_singleton]
    exact hlive

end Index

/-! ### Dealing out documents -/

namespace Deal

variable {α : Type}

/-- What is numbered falls into groups by its numbers. -/
theorem flatMap_filter_perm {slots : List Nat} (hnodup : slots.Nodup) {l : List (Nat × α)}
    (hslots : ∀ p ∈ l, p.1 ∈ slots) : (slots.flatMap fun k => l.filter fun p => p.1 == k).Perm l := by
  induction slots generalizing l with
  | nil =>
    rw [List.eq_nil_iff_forall_not_mem.2 fun p hp => nomatch hslots p hp]
    exact .nil
  | cons k rest ih =>
    obtain ⟨hk, hrest⟩ := List.nodup_cons.1 hnodup
    -- the group of the first number, and those of the others among what is left
    have hothers := ih hrest (l := l.filter fun p => !(p.1 == k)) (by
      intro p hp
      obtain ⟨hp, hne⟩ := List.mem_filter.1 hp
      refine (List.mem_cons.1 (hslots p hp)).resolve_left ?_
      simpa using hne)
    have hfilter : (rest.flatMap fun k' => (l.filter fun p => !(p.1 == k)).filter fun p => p.1 == k') =
        rest.flatMap fun k' => l.filter fun p => p.1 == k' := by
      refine List.flatMap_congr fun k' hk' => ?_
      rw [List.filter_filter]
      refine List.filter_congr fun p _ => ?_
      by_cases hp : p.1 = k'
      · have hne : k' ≠ k := fun h => hk (h ▸ hk')
        simp [hp, hne]
      · simp [hp]
    rw [hfilter] at hothers
    rw [List.flatMap_cons]
    exact (hothers.append_left _).trans (List.filter_append_perm _ l)

theorem le_foldr_max {n : Nat} {l : List Nat} (h : n ∈ l) : n ≤ l.foldr max 0 := by
  induction l with
  | nil => exact absurd h List.not_mem_nil
  | cons m rest ih =>
    rw [List.foldr_cons]
    rcases List.mem_cons.1 h with rfl | h
    · exact Nat.le_max_left _ _
    · exact Nat.le_trans (ih h) (Nat.le_max_right _ _)

/-- **Dealing out loses nothing**: every document goes to one segment. -/
theorem flatten_groups_perm (deal : Deal) (l : List α) : (deal.groups l).flatten.Perm l := by
  cases deal with
  | together => exact .of_eq (List.append_nil l)
  | bySlot slots =>
    have hslots : ∀ p ∈ l.zipIdx.map (fun p => (slots.getD p.2 0, p.1)),
        p.1 ∈ List.range (slots.foldr max 0 + 1) := by
      intro p hp
      obtain ⟨q, -, rfl⟩ := List.mem_map.1 hp
      rw [List.mem_range, Nat.lt_succ_iff, List.getD_eq_getElem?_getD]
      cases hslot : slots[q.2]? with
      | none => exact Nat.zero_le _
      | some slot => exact le_foldr_max (List.mem_of_getElem? hslot)
    have hperm := (flatMap_filter_perm List.nodup_range hslots).map Prod.snd
    rw [List.map_map, List.map_flatMap] at hperm
    unfold groups
    dsimp only
    rw [List.flatten_filter_not_isEmpty, ← List.flatMap_def]
    refine hperm.trans (.of_eq ?_)
    exact List.zipIdx_map_fst 0 l

/-- What is dealt out to a segment was to be dealt out. -/
theorem mem_of_mem_groups {deal : Deal} {l group : List α} (hgroup : group ∈ deal.groups l) {a : α}
    (ha : a ∈ group) : a ∈ l :=
  (deal.flatten_groups_perm l).mem_iff.1 (List.mem_flatten.2 ⟨group, hgroup, ha⟩)

end Deal

namespace Writer

variable {ix : Index} {w : Writer} {schema : Schema}

/-! ### Carrying out removals -/

/-- All removals with numbers up to a limit are due. -/
theorem due_eq_drop {place limit : Nat} (h : ∀ r ∈ w.removals, r.stamp ≤ limit) :
    w.due place limit = w.removals.drop place := by
  refine List.takeWhile_eq_self_iff.2 fun r hr => ?_
  exact decide_eq_true (h r (List.mem_of_mem_drop hr))

theorem due_length_le (w : Writer) (place limit : Nat) :
    (w.due place limit).length ≤ w.removals.length - place := by
  have htake := (List.takeWhile_sublist (fun r : Removal => decide (r.stamp ≤ limit))
    (l := w.removals.drop place)).length_le
  rwa [List.length_drop] at htake

/-- A segment keeps the documents that the removals due spare. -/
theorem live_carryOut (w : Writer) (schema : Schema) (commit : Nat) (s : Segment) :
    (w.carryOut schema commit s).live = s.live.filter (spares schema (w.due s.reached commit)) := by
  refine (Segment.live_strike _ s).trans (List.filter_congr fun d _ => ?_)
  rw [List.not_any_eq_all_not]
  rfl

/-- In a queue in the order of its numbers, what is behind those up to a limit is above it. -/
private theorem lt_of_mem_drop_takeWhile {rs : List Removal} {limit : Nat}
    (hs : rs.Pairwise fun r r' => r.stamp < r'.stamp) :
    ∀ r ∈ rs.drop (rs.takeWhile fun r => r.stamp ≤ limit).length, limit < r.stamp := by
  induction rs with
  | nil => exact fun r hr => absurd hr (by simp)
  | cons r₀ rest ih =>
    rw [List.pairwise_cons] at hs
    -- the first removal is due, or with it none is
    by_cases hle : r₀.stamp ≤ limit
    · rw [List.takeWhile_cons_of_pos (p := fun r : Removal => r.stamp ≤ limit) (by simpa using hle),
        List.length_cons, List.drop_succ_cons]
      exact ih hs.2
    · rw [List.takeWhile_cons_of_neg (p := fun r : Removal => r.stamp ≤ limit) (by simpa using hle),
        List.length_nil, List.drop_zero]
      intro r hr
      rcases List.mem_cons.1 hr with rfl | hr
      · omega
      · have := hs.1 r hr
        omega

/-! ### Writing a segment -/

/-- The greatest number of the staged documents is above all of them. -/
theorem le_foldl_max (as : List Addition) (n : Nat) :
    n ≤ as.foldl (fun n a => max n a.stamp) n ∧
      ∀ a ∈ as, a.stamp ≤ as.foldl (fun n a => max n a.stamp) n := by
  induction as generalizing n with
  | nil => exact ⟨Nat.le_refl _, fun a ha => absurd ha (by simp)⟩
  | cons a₀ rest ih =>
    obtain ⟨hn, hrest⟩ := ih (max n a₀.stamp)
    rw [List.foldl_cons]
    refine ⟨by omega, ?_⟩
    intro a ha
    rcases List.mem_cons.1 ha with rfl | ha
    · omega
    · exact hrest a ha

/-- A writer is orderly with a part of what it has staged. -/
theorem Orderly.of_additions (h : Orderly ix w) {group : List Addition} (hsub : ∀ a ∈ group, a ∈ w.additions) :
    Orderly ix { w with additions := group } :=
  { h with
    addition_lt := fun a ha => h.addition_lt a (hsub a ha)
    passed := fun r hr a ha => h.passed r hr a (hsub a ha) }

/-- The new segment has the staged documents that the removals due spare, and the others wait for
it. -/
private theorem live_write (h : Orderly ix w) (id : Nat) :
    (w.write schema id).1.live.filter
        (spares schema (w.removals.drop (w.write schema id).1.reached)) = w.staged schema := by
  have hlimit := (le_foldl_max w.additions 0).2
  simp only [write, Segment.live]
  generalize w.additions.foldl (fun n a => max n a.stamp) 0 = limit at hlimit ⊢
  rw [List.filterMap_map, List.filter_filterMap, staged]
  refine List.filterMap_congr fun a ha => ?_
  -- the queue: passed over, due, and waiting
  have hwaiting : ∀ r ∈ w.removals.drop (w.start + (w.due w.start limit).length),
      a.stamp < r.stamp := by
    intro r hr
    rw [← List.drop_drop] at hr
    have hsorted := h.sorted.sublist (List.drop_sublist w.start w.removals)
    exact Nat.lt_of_le_of_lt (hlimit a ha) (lt_of_mem_drop_takeWhile hsorted r hr)
  have hqueue : w.removals = w.removals.take w.start ++ (w.due w.start limit ++
      w.removals.drop (w.start + (w.due w.start limit).length)) := by
    rw [← List.drop_drop, due, List.prefix_iff_eq_append.1 (List.takeWhile_prefix _),
      List.take_append_drop]
  -- what was passed over is older than the document, so it leaves it alone
  have hpassed : (strikeEarlier schema (w.removals.take w.start) a).live = true :=
    live_strikeEarlier_of_earlier fun r hr => Nat.le_of_lt (h.passed r hr a ha)
  have hlive : (strikeEarlier schema w.removals a).live =
      ((strikeEarlier schema (w.due w.start limit) a).live &&
        spares schema (w.removals.drop (w.start + (w.due w.start limit).length)) a.document) := by
    rw [← live_strikeEarlier_of_later hwaiting, ← live_strikeEarlier_append]
    -- only on the left is the queue taken apart; the right speaks of two of its parts
    conv => lhs; rw [hqueue, live_strikeEarlier_append, hpassed, Bool.true_and]
  rw [hlive]
  simp only [Function.comp]
  cases (strikeEarlier schema (w.due w.start limit) a).live with
  | false => rfl
  | true => simp [strikeEarlier, Option.filter]

/-! ### Writing all segments -/

/-- **What writing groups of documents makes of the writer**: none is staged any more, and a number has been taken
for each segment. -/
theorem exists_writeAll_eq (w : Writer) (schema : Schema) (id : Nat) (groups : List (List Addition)) :
    ∃ n, (n = w.seen ∨ n = w.removals.length) ∧
      (w.writeAll schema id groups).2 =
        { w with additions := [], seen := n, next := w.next + groups.length } := by
  induction groups generalizing w id with
  | nil => exact ⟨w.seen, .inl rfl, rfl⟩
  | cons group rest ih =>
    -- writing one segment may have moved on what has been seen
    obtain ⟨m, hm, hwrite⟩ : ∃ m, (m = w.seen ∨ m = w.removals.length) ∧
        (({ w with additions := group } : Writer).write schema id).2 =
          { w with additions := [], seen := m } := by
      simp only [write]
      generalize w.start + _ = place
      unfold look
      split
      · exact ⟨_, .inr rfl, rfl⟩
      · exact ⟨_, .inl rfl, rfl⟩
    obtain ⟨n, hn, heq⟩ := ih (({ w with additions := group } : Writer).write schema id).2.tick (id + 1)
    rw [writeAll]
    dsimp only
    rw [heq, hwrite]
    rw [hwrite] at hn
    refine ⟨n, ?_, ?_⟩
    · rcases hn with rfl | rfl
      · exact hm
      · exact .inr rfl
    · rw [List.length_cons, Nat.add_comm rest.length, ← Nat.add_assoc]
      rfl

/-- **Each group is written as if it were staged alone.** -/
theorem segments_writeAll (w : Writer) (schema : Schema) (id : Nat) (groups : List (List Addition)) :
    (w.writeAll schema id groups).1 =
      (groups.zipIdx id).map fun p => (({ w with additions := p.1 } : Writer).write schema p.2).1 := by
  induction groups generalizing w id with
  | nil => rfl
  | cons group rest ih =>
    rw [writeAll, List.zipIdx_cons, List.map_cons]
    dsimp only
    rw [ih]
    -- a segment depends on the queue and on where it is taken up, which writing leaves as they are
    refine congrArg _ (List.map_congr_left fun p _ => ?_)
    simp only [write, look]
    split <;> rfl

/-- **What writing the staged documents makes of the writer**: none is staged any more, and a number may have
been taken for each segment. -/
theorem exists_flush_eq (w : Writer) (ix : Index) (deal : Deal := .together) :
    ∃ n m, (n = w.seen ∨ n = w.removals.length) ∧
      (m = w.next ∨ m = w.next + (deal.groups w.additions).length) ∧
      (w.flush ix deal).2 = { w with additions := [], seen := n, next := m } := by
  unfold flush
  split
  · next hempty =>
    refine ⟨w.seen, w.next, .inl rfl, .inl rfl, ?_⟩
    rw [← List.isEmpty_iff.1 hempty]
  · obtain ⟨n, hn, heq⟩ := w.exists_writeAll_eq ix.schema ix.nextId (deal.groups w.additions)
    exact ⟨n, _, hn, .inr rfl, heq⟩

/-- All of what is staged goes into one segment, if nothing else is said. -/
theorem flush_eq (w : Writer) (ix : Index) :
    w.flush ix = if w.additions.isEmpty then (ix.segments, w) else
      (ix.segments ++ [(w.write ix.schema ix.nextId).1], (w.write ix.schema ix.nextId).2.tick) := by
  have hnone : (w.write ix.schema ix.nextId).2.additions = [] := additions_look _ _
  have htick : { (w.write ix.schema ix.nextId).2.tick with additions := [] } =
      (w.write ix.schema ix.nextId).2.tick := by
    rw [← hnone]
    rfl
  rw [← htick]
  rfl

/-- A segment that is written is an old one, or has the documents that are dealt to it. -/
theorem mem_flush_cases {deal : Deal} {s : Segment} (hs : s ∈ (w.flush ix deal).1) :
    s ∈ ix.segments ∨ ∃ group ∈ deal.groups w.additions, ∃ id,
      s = (({ w with additions := group } : Writer).write ix.schema id).1 := by
  unfold flush at hs
  split at hs
  · exact .inl hs
  · refine (List.mem_append.1 hs).imp_right fun hs => ?_
    -- a new segment is one of those written, with the group it was made of
    rw [segments_writeAll] at hs
    obtain ⟨p, hp, rfl⟩ := List.mem_map.1 hs
    exact ⟨p.1, List.fst_mem_of_mem_zipIdx hp, p.2, rfl⟩

/-- No segment has got further than the queue, nor has a new one. -/
private theorem reached_flush_le (h : Orderly ix w) (deal : Deal) :
    ∀ s ∈ (w.flush ix deal).1, s.reached ≤ w.removals.length := by
  intro s hs
  rcases mem_flush_cases hs with hs | ⟨group, -, id, rfl⟩
  · exact h.reached_le s hs
  · have hle := h.start_le
    have hdue := w.due_length_le w.start (group.foldl (fun n a => max n a.stamp) 0)
    -- a new segment starts behind the removals that it has carried out itself
    exact Nat.le_trans (Nat.add_le_add_left hdue w.start) (Nat.le_of_eq (by omega))

/-- Writing the staged documents leaves the removals, and numbers have only risen. -/
theorem flush_spec (h : Orderly ix w) (deal : Deal := .together) :
    (w.flush ix deal).2.removals = w.removals ∧ (w.flush ix deal).2.additions = [] ∧
      w.next ≤ (w.flush ix deal).2.next ∧ (w.flush ix deal).2.seen ≤ w.removals.length ∧
      (w.flush ix deal).2.stalled = false ∧
      ∀ s ∈ (w.flush ix deal).1, s.reached ≤ w.removals.length := by
  obtain ⟨n, m, hn, hm, heq⟩ := exists_flush_eq w ix deal
  have hseen : n ≤ w.removals.length := by
    rcases hn with rfl | rfl
    · exact h.seen_le
    · exact Nat.le_refl _
  rw [heq]
  refine ⟨rfl, rfl, ?_, hseen, h.running, reached_flush_le h deal⟩
  change w.next ≤ m
  omega

/-- Writing the staged documents into segments changes the order of the outlook only. -/
private theorem spared_flush (h : Orderly ix w) (deal : Deal) :
    (w.spared ix.schema (w.flush ix deal).1).Perm (outlook ix w) := by
  unfold flush outlook
  split
  · next hempty =>
    rw [staged, List.isEmpty_iff.1 hempty, List.filterMap_nil, List.append_nil]
  · -- each new segment has what is left of its group, and the groups are what was staged
    let left (group : List Addition) : List Document := ({ w with additions := group } : Writer).staged ix.schema
    have hwritten : w.spared ix.schema (w.writeAll ix.schema ix.nextId (deal.groups w.additions)).1 =
        (deal.groups w.additions).flatMap left := by
      rw [spared, segments_writeAll, List.flatMap_map]
      conv => rhs; rw [← List.zipIdx_map_fst ix.nextId (deal.groups w.additions)]
      rw [List.flatMap_map]
      refine List.flatMap_congr fun p hp => ?_
      have hgroup : p.1 ∈ deal.groups w.additions := List.fst_mem_of_mem_zipIdx hp
      exact live_write (h.of_additions fun a ha => Deal.mem_of_mem_groups hgroup ha) p.2
    have hleft : (deal.groups w.additions).flatMap left =
        (deal.groups w.additions).flatten.filterMap fun a =>
          if (strikeEarlier ix.schema w.removals a).live then some a.document else none := by
      rw [List.filterMap_flatten, ← List.flatMap_def]
      rfl
    rw [spared, List.flatMap_append, ← spared, ← spared, hwritten, hleft]
    exact (((deal.flatten_groups_perm _).filterMap _).append_left _)

/-! ### Committing -/

/-- The writer of a commit as it carries out the removals. -/
def committing (w : Writer) (ix : Index) (deal : Deal := .together) : Writer :=
  { (w.flush ix deal).2 with start := (w.flush ix deal).2.seen }.tick

theorem removals_committing (w : Writer) (ix : Index) (deal : Deal := .together) :
    (w.committing ix deal).removals = w.removals := by
  obtain ⟨_, _, -, -, heq⟩ := exists_flush_eq w ix deal
  change (w.flush ix deal).2.removals = _
  rw [heq]

/-- The segments of a commit, before they are arranged. -/
def carried (w : Writer) (ix : Index) (deal : Deal := .together) : List Segment :=
  (w.flush ix deal).1.map ((w.committing ix deal).carryOut ix.schema (w.flush ix deal).2.next)

theorem segments_commit (w : Writer) (ix : Index) (deal : Deal := .together) :
    (w.commit ix deal).1.segments = Index.arrange (w.committing ix deal).goesOn (w.carried ix deal) := rfl

/-- Looking leaves the writer as it was, but for how much has been seen. -/
theorem exists_foldl_look (segments : List Segment) (w : Writer) :
    ∃ n, (n = w.seen ∨ n = w.removals.length) ∧
      segments.foldl (fun w s => w.look s.reached) w = { w with seen := n } := by
  induction segments generalizing w with
  | nil => exact ⟨w.seen, .inl rfl, rfl⟩
  | cons s rest ih =>
    rw [List.foldl_cons]
    -- once the end of the queue has been seen, looking again changes nothing
    by_cases h : w.seen ≤ s.reached
    · obtain ⟨n, hn, heq⟩ := ih { w with seen := w.removals.length }
      exact ⟨n, .inr (hn.elim id id), by rw [look, if_pos h, heq]⟩
    · rw [look, if_neg h]
      exact ih w

/-- **What a commit makes of the writer** that has written the staged documents: it takes two numbers, one
before and one after the segments are gone through. -/
theorem exists_commit_eq (w : Writer) (ix : Index) (deal : Deal := .together) :
    ∃ n, (n = (w.flush ix deal).2.seen ∨ n = (w.flush ix deal).2.removals.length) ∧
      (w.commit ix deal).2 = { (w.flush ix deal).2 with
        start := (w.flush ix deal).2.seen, seen := n, next := (w.flush ix deal).2.next + 2 } := by
  obtain ⟨n, hn, heq⟩ := exists_foldl_look (w.carried ix deal) (w.committing ix deal)
  exact ⟨n, hn, congrArg tick heq⟩

/-- What a commit does to the writer. -/
theorem commit_spec (h : Orderly ix w) (deal : Deal := .together) :
    (w.commit ix deal).2.removals = w.removals ∧ (w.commit ix deal).2.additions = [] ∧
      (w.flush ix deal).2.next < (w.commit ix deal).2.next ∧
      (w.commit ix deal).2.start ≤ w.removals.length ∧ (w.commit ix deal).2.seen ≤ w.removals.length ∧
      (w.commit ix deal).2.stalled = false := by
  obtain ⟨hremovals, hadditions, -, hseen, hrunning, -⟩ := flush_spec h deal
  obtain ⟨n, hn, heq⟩ := exists_commit_eq w ix deal
  have hle : n ≤ w.removals.length := by
    rcases hn with rfl | rfl
    · exact hseen
    · rw [hremovals]
  rw [heq]
  exact ⟨hremovals, hadditions, Nat.lt_add_of_pos_right (Nat.succ_pos 1), hseen, hle, hrunning⟩

theorem removals_commit (h : Orderly ix w) (deal : Deal := .together) :
    (w.commit ix deal).2.removals = w.removals := (commit_spec h deal).1

/-- The number of a commit is above those of all removals, so every segment carries out all of
them. -/
private theorem due_committing (h : Orderly ix w) (deal : Deal) (place : Nat) :
    (w.committing ix deal).due place (w.flush ix deal).2.next = w.removals.drop place := by
  obtain ⟨hremovals, -, hnext, -⟩ := flush_spec h deal
  refine (due_eq_drop ?_).trans (congrArg (List.drop place) hremovals)
  intro r hr
  have hlt := h.removal_lt r (hremovals ▸ hr)
  omega

/-- Carried out, the removals leave the documents of the outlook. -/
theorem live_carried (h : Orderly ix w) (deal : Deal) :
    ((w.carried ix deal).flatMap Segment.live).Perm (outlook ix w) := by
  refine .trans (.of_eq ?_) (spared_flush h deal)
  rw [carried, List.flatMap_map, spared]
  refine List.flatMap_congr fun s _ => ?_
  rw [live_carryOut, due_committing h]

theorem reached_carried (h : Orderly ix w) (deal : Deal := .together) :
    ∀ s ∈ w.carried ix deal, s.reached = w.removals.length := by
  intro s hs
  obtain ⟨s, hmem, rfl⟩ := List.mem_map.1 hs
  have hle := (flush_spec h deal).2.2.2.2.2 s hmem
  simp only [carryOut, due_committing h, List.length_drop]
  omega

/-- **A commit leaves the documents of the outlook.** -/
theorem documents_commit (h : Orderly ix w) (deal : Deal := .together) :
    (w.commit ix deal).1.documents.Perm (outlook ix w) :=
  (Index.live_arrange_perm _ _).trans (live_carried h deal)

/-- A commit keeps the writer orderly. -/
theorem Orderly.commit (h : Orderly ix w) (deal : Deal := .together) :
    Orderly (w.commit ix deal).1 (w.commit ix deal).2 := by
  obtain ⟨hremovals, hadditions, hnext, hstart, hseen, hrunning⟩ := commit_spec h deal
  have hflush := (flush_spec h deal).2.2.1
  refine ⟨hremovals ▸ h.sorted, ?_, ?_, ?_, hremovals ▸ hstart, hremovals ▸ hseen, ?_, hrunning⟩
  · intro r hr
    have hlt := h.removal_lt r (hremovals ▸ hr)
    omega
  · intro a ha
    rw [hadditions] at ha
    exact absurd ha (by simp)
  · intro r _ a ha
    rw [hadditions] at ha
    exact absurd ha (by simp)
  · intro s hs
    rw [hremovals]
    exact Nat.le_of_eq (reached_carried h deal s (Index.mem_of_mem_arrange hs))

/-! ### Nothing to be done -/

/-- Nothing is staged, and every segment has carried out every removal. -/
structure Settled (ix : Index) (w : Writer) : Prop where
  additions_eq : w.additions = []
  reached_eq : ∀ s ∈ ix.segments, s.reached = w.removals.length

/-- When there is nothing to be done, the outlook is what there is. -/
theorem Settled.outlook (h : Settled ix w) : outlook ix w = ix.documents := by
  rw [Writer.outlook, spared, staged, h.additions_eq, List.filterMap_nil, List.append_nil,
    Index.documents]
  refine List.flatMap_congr fun s hs => ?_
  rw [h.reached_eq s hs, List.drop_length]
  exact List.filter_eq_self.2 fun d _ => rfl

/-- After a commit there is nothing to be done. -/
theorem settled_commit (h : Orderly ix w) (deal : Deal := .together) :
    Settled (w.commit ix deal).1 (w.commit ix deal).2 where
  additions_eq := (commit_spec h deal).2.1
  reached_eq := by
    intro s hs
    rw [removals_commit h deal]
    exact reached_carried h deal s (Index.mem_of_mem_arrange hs)

/-- The segment that the others are merged into has got as far as the first of them. -/
theorem reached_consolidate {P : Nat → Prop} (h : ∀ s ∈ ix.segments, P s.reached) :
    ∀ s ∈ ix.consolidate.segments, P s.reached := by
  intro s hs
  rw [Index.consolidate] at hs
  simp only at hs
  split at hs
  · exact absurd hs (by simp)
  · next hne =>
    obtain rfl := List.mem_singleton.1 hs
    -- there is a document, so there is a first segment
    cases hsegments : ix.segments with
    | nil =>
      refine absurd ?_ hne
      rw [Index.documents, hsegments]
      rfl
    | cons s₀ rest => exact h s₀ (by rw [hsegments]; simp)

theorem Settled.consolidate (h : Settled ix w) : Settled ix.consolidate w where
  additions_eq := h.additions_eq
  reached_eq := reached_consolidate (P := fun n => n = w.removals.length) h.reached_eq

/-- Merging the segments when there is nothing to be done keeps the writer orderly. -/
theorem Orderly.consolidate (h : Orderly ix w) (hset : Settled ix w) :
    Orderly ix.consolidate w :=
  { h with reached_le := fun s hs => Nat.le_of_eq (hset.consolidate.reached_eq s hs) }

end Writer

end EventCatalog
