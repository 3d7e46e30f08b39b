import EventCatalog.Proofs.CountTables

/-!
# Rolling severities up

The severities of the open events with a tag are counted (`Catalog.countSeverities`), or the worst of them
is sought (`Catalog.worstSeverities`). Both run one query for each tag, which selects what
`Catalog.openTagged` says, and take the codes of the severities from what it selects.

Either is done in two steps, in each segment and then with what the segments have found, so it has to be shown that
nothing is lost between the two (`Snapshot.mergeCounts_eq`, `Snapshot.worstSeverity_map`). A tag is left out if it has
no open events (`Catalog.severities_by_tag`).
-/

namespace EventCatalog

/-! ### The greatest of a list -/

/-- The greater of what has been met before and what is met now, by a key. -/
def keepGreater {α : Type} (key : α → Int) : Option α → α → Option α
  | some b, a => some (if key b ≤ key a then a else b)
  | none, a => some a

/-- Keeping the greater, one ends with the greatest. -/
theorem foldl_keepGreater {α : Type} (key : α → Int) (b : α) (l : List α) :
    ∃ a ∈ b :: l, l.foldl (keepGreater key) (some b) = some a ∧ ∀ x ∈ b :: l, key x ≤ key a := by
  induction l generalizing b with
  | nil => exact ⟨b, List.mem_cons_self, rfl, fun x hx => (congrArg key (List.mem_singleton.1 hx)).le⟩
  | cons a rest ih =>
    -- of the first two the greater is kept
    obtain ⟨m, hm, hfold, hgreatest⟩ := ih (if key b ≤ key a then a else b)
    refine ⟨m, ?_, hfold, ?_⟩
    · rcases List.mem_cons.1 hm with rfl | hm
      · split
        · exact List.mem_cons_of_mem b List.mem_cons_self
        · exact List.mem_cons_self
      · exact List.mem_cons_of_mem b (List.mem_cons_of_mem a hm)
    -- what is kept is not less than either, and the greatest of the rest is not less than it
    · have hkept := hgreatest _ List.mem_cons_self
      intro x hx
      rcases List.mem_cons.1 hx with rfl | hx
      · split at hkept <;> omega
      rcases List.mem_cons.1 hx with rfl | hx
      · split at hkept <;> omega
      · exact hgreatest x (List.mem_cons_of_mem _ hx)

/-- Without its repetitions, a list has each of its members once. -/
theorem nodup_eraseDups {α : Type} [DecidableEq α] (l : List α) : l.eraseDups.Nodup := by
  match l with
  | [] => exact List.nodup_nil
  | a :: rest =>
    rw [List.eraseDups_cons, List.nodup_cons]
    refine ⟨fun ha => ?_, nodup_eraseDups _⟩
    rw [List.mem_eraseDups, List.mem_filter, beq_self_eq_true] at ha
    exact nomatch ha.2
  termination_by l.length
  decreasing_by exact Nat.lt_succ_of_le (List.length_filter_le _ _)

namespace SeverityCounts

/-- How many events are counted. -/
def total (counts : SeverityCounts) : Nat := counts.foldr (fun p n => p.2 + n) 0

/-- The counts of events by severity: those that are not zero, each severity once. -/
structure CountsOf (counts : SeverityCounts) (events : List Event) : Prop where
  nodup : (counts.map Prod.fst).Nodup
  mem_iff : ∀ s n, (s, n) ∈ counts ↔ n ≠ 0 ∧ n = events.countP fun e => e.severity = s

/-- A severity is counted if any event has it. -/
theorem CountsOf.mem_severities {counts : SeverityCounts} {events : List Event}
    (h : counts.CountsOf events) (s : Severity) :
    s ∈ counts.map Prod.fst ↔ ∃ e ∈ events, e.severity = s := by
  have hcount : (events.countP fun e => e.severity = s) ≠ 0 ↔ ∃ e ∈ events, e.severity = s := by
    rw [← Nat.pos_iff_ne_zero, List.countP_pos_iff]
    simp only [decide_eq_true_eq]
  rw [← hcount, List.mem_map]
  constructor
  · rintro ⟨⟨s, n⟩, hmem, rfl⟩
    obtain ⟨hn, rfl⟩ := (h.mem_iff s n).1 hmem
    exact hn
  · exact fun hn => ⟨(s, _), (h.mem_iff s _).2 ⟨hn, rfl⟩, rfl⟩

end SeverityCounts

namespace Snapshot

/-! ### What is collected of events -/

theorem severityCodes_map (events : List Event) :
    severityCodes (events.map .ofEvent) = events.map fun e => (e.severity.code : Int) := by
  unfold severityCodes
  rw [List.filterMap_map, ← List.filterMap_eq_map]
  refine List.filterMap_congr fun e _ => ?_
  -- an event has its severity as the one number of that field
  rw [Function.comp_apply, Document.ints_of_mem_numbers (n := e.severity.code) (by simp [Event.numbers])]
  rfl

/-- The event index has a column of severities. -/
theorem canCollectSeverities_events (s : Snapshot) : s.canCollectSeverities .events = true := by
  unfold canCollectSeverities
  rw [Bool.or_eq_true]
  exact .inr rfl

/-- How often a code is met is how many events have its severity. -/
theorem count_code (events : List Event) (s : Severity) :
    (events.map fun e => (e.severity.code : Int)).count (s.code : Int) =
      events.countP fun e => e.severity = s := by
  rw [List.count_eq_countP, List.countP_map]
  refine List.countP_congr fun e _ => ?_
  rw [Function.comp_apply, beq_iff_eq, Int.natCast_inj, decide_eq_true_eq, Severity.code_injective.eq_iff]

theorem countsOf_countSeverities (events : List Event) :
    (countSeverities (events.map fun e => (e.severity.code : Int))).CountsOf events := by
  have hall : ∀ s : Severity, s ∈ Severity.all := by
    intro s
    cases s <;> decide
  unfold countSeverities table
  simp only [count_code]
  constructor
  -- severities are gone through in their order, each once, and some are left out
  · have hsub := List.filter_sublist (p := fun p : Severity × Nat => p.2 != 0)
      (l := Severity.all.map fun s => (s, events.countP fun e => e.severity = s))
    have hnodup : Severity.all.Nodup := by decide
    refine List.Nodup.sublist (hsub.map Prod.fst) ?_
    rwa [List.map_map, Function.comp_def, List.map_id']
  · intro s n
    rw [List.mem_filter, List.mem_map, bne_iff_ne, and_comm]
    refine and_congr_right fun _ => ?_
    constructor
    · rintro ⟨s', -, heq⟩
      obtain ⟨rfl, rfl⟩ := Prod.mk.inj heq
      rfl
    · rintro rfl
      exact ⟨s, hall s, rfl⟩

/-- All events are counted. -/
theorem total_countSeverities (events : List Event) :
    (countSeverities (events.map fun e => (e.severity.code : Int))).total = events.length := by
  -- zeros that are left out do not change the total
  have hzeros : ∀ l : SeverityCounts,
      SeverityCounts.total (l.filter fun p => p.2 != 0) = SeverityCounts.total l := by
    intro l
    induction l with
    | nil => rfl
    | cons p rest ih =>
      rw [List.filter_cons]
      split
      · exact congrArg (p.2 + ·) ih
      · next hzero =>
        have hzero : p.2 = 0 := Decidable.of_not_not (mt bne_iff_ne.2 hzero)
        change _ = p.2 + SeverityCounts.total rest
        rw [ih, hzero, Nat.zero_add]
  unfold countSeverities table
  simp only [count_code]
  rw [hzeros]
  induction events with
  | nil => rfl
  | cons e rest ih =>
    rw [List.length_cons, ← ih]
    -- one more event adds one to the count of its severity, and nothing to the others
    simp only [SeverityCounts.total, Severity.all, List.map_cons, List.map_nil, List.countP_cons,
      List.foldr_cons, List.foldr_nil]
    cases e.severity <;> simp only [reduceCtorEq, decide_true, decide_false, if_true, if_false,
      Bool.false_eq_true] <;> omega

theorem greatest?_eq (codes : List Int) : greatest? codes = codes.foldl (keepGreater id) none := by
  unfold greatest?
  congr 1
  funext best n
  cases best with
  | none => rfl
  | some m => exact congrArg some (max_def m n)

/-- The worst severity, as a fold over what the segments have found. -/
theorem worstSeverity_eq (codesBySegment : List (List Int)) :
    worstSeverity codesBySegment =
      (codesBySegment.filterMap fun codes => (greatest? codes).bind Severity.ofCode?).foldl
        (keepGreater fun s => (s.code : Int)) none := by
  unfold worstSeverity
  dsimp only
  congr 1
  funext best s
  cases best with
  | none => rfl
  | some b =>
    simp only [keepGreater, Int.ofNat_le]
    rfl

/-- The worst severity of events, which has to be one of theirs. -/
def IsWorst (s : Severity) (events : List Event) : Prop :=
  (∃ e ∈ events, e.severity = s) ∧ ∀ e ∈ events, e.severity ≤ s

/-- What a segment finds: the worst severity of its events, if there are any. -/
theorem greatest?_map (events : List Event) :
    (events = [] ∧
      (greatest? (events.map fun e => (e.severity.code : Int))).bind Severity.ofCode? = none) ∨
    ∃ s, (greatest? (events.map fun e => (e.severity.code : Int))).bind Severity.ofCode? = some s ∧
      IsWorst s events := by
  cases events with
  | nil => exact .inl ⟨rfl, rfl⟩
  | cons e rest =>
    obtain ⟨n, hn, hfold, hgreatest⟩ := foldl_keepGreater id (e.severity.code : Int)
      (rest.map fun e => (e.severity.code : Int))
    obtain ⟨e', he', rfl⟩ : ∃ e' ∈ e :: rest, (e'.severity.code : Int) = n := List.mem_map.1 hn
    refine .inr ⟨e'.severity, ?_, ⟨e', he', rfl⟩, ?_⟩
    · have hfound : greatest? ((e :: rest).map fun e => (e.severity.code : Int)) =
          some (e'.severity.code : Int) := (greatest?_eq _).trans hfold
      rw [hfound, Option.bind_some, Severity.ofCode?_code]
    · intro x hx
      -- the severities are in the order of their codes
      have hcode : (x.severity.code : Int) ∈ (e :: rest).map fun e => (e.severity.code : Int) :=
        List.mem_map.2 ⟨x, hx, rfl⟩
      exact Int.ofNat_le.1 (hgreatest _ hcode)

/-- **The worst of what the segments find** is the worst severity of all their events. -/
theorem worstSeverity_map (segments : List (List Event)) :
    (segments.flatten = [] ∧
      worstSeverity (segments.map (List.map fun e => (e.severity.code : Int))) = none) ∨
    ∃ s, worstSeverity (segments.map (List.map fun e => (e.severity.code : Int))) = some s ∧
      IsWorst s segments.flatten := by
  rw [worstSeverity_eq, List.filterMap_map]
  generalize hfound : segments.filterMap _ = found
  -- what is found is the severity of an event, and no event is worse than all that is found
  have hmem : ∀ s ∈ found, ∃ e ∈ segments.flatten, e.severity = s := by
    intro s hs
    rw [← hfound] at hs
    obtain ⟨events, hevents, hs⟩ := List.mem_filterMap.1 hs
    rcases greatest?_map events with ⟨-, hnone⟩ | ⟨s', hs', ⟨e, he, rfl⟩, -⟩
    · exact nomatch hs.symm.trans hnone
    · exact ⟨e, List.mem_flatten.2 ⟨events, hevents, he⟩, Option.some.inj (hs'.symm.trans hs)⟩
  have hbound : ∀ e ∈ segments.flatten, ∃ s ∈ found, e.severity ≤ s := by
    intro e he
    obtain ⟨events, hevents, he⟩ := List.mem_flatten.1 he
    rcases greatest?_map events with ⟨rfl, -⟩ | ⟨s, hs, -, hworst⟩
    · exact nomatch he
    · exact ⟨s, hfound ▸ List.mem_filterMap.2 ⟨events, hevents, hs⟩, hworst e he⟩
  cases found with
  | nil =>
    refine .inl ⟨List.eq_nil_iff_forall_not_mem.2 fun e he => ?_, rfl⟩
    obtain ⟨s, hs, -⟩ := hbound e he
    exact nomatch hs
  | cons s rest =>
    obtain ⟨m, hm, hfold, hgreatest⟩ := foldl_keepGreater (fun s : Severity => (s.code : Int)) s rest
    refine .inr ⟨m, hfold, hmem m hm, fun e he => ?_⟩
    obtain ⟨s', hs', hle⟩ := hbound e he
    exact Nat.le_trans hle (Int.ofNat_le.1 (hgreatest s' hs'))

end Snapshot

/-! ### The query of a tag -/

namespace Clause

variable {e : Event}

theorem selects_tag (he : ∀ t ∈ e.tags, Analysis.byteLength t.toList ≤ maxTokenBytes) (tag : String) :
    (exactSet Field.tag [tag] .any).Selects .events (.ofEvent e) ↔ tag ∈ e.tags := by
  have hquery : Query.ofClause .events (.exactSet Field.tag [tag] .any) =
      .ok (some (.term Field.tag (.text tag))) := rfl
  rw [selects_iff hquery]
  simp only [Option.mem_some_iff, forall_eq']
  exact Query.selects_text (by simp [Event.names]) he tag

theorem selects_open :
    (codes Field.status (Status.openStatuses.map fun s => (s.code : Int))).Selects .events (.ofEvent e) ↔
      e.status = .new ∨ e.status = .acknowledged := by
  have hquery : Query.ofClause .events
      (.codes Field.status (Status.openStatuses.map fun s => (s.code : Int))) =
        .ok (Query.combine .should
          ((Status.openStatuses.map fun s => (s.code : Int)).map fun n =>
            .term Field.status (.int n))) := rfl
  have hcode : ∀ s : Status, (Query.term Field.status (.int s.code)).selects .events (.ofEvent e) = true ↔
      e.status = s := by
    intro s
    rw [Query.selects_number (n := e.status.code) (by simp [Event.numbers]), Int.natCast_inj,
      Status.code_injective.eq_iff]
  -- a document is selected by one of the two codes
  rw [selects_iff hquery, Query.selects_combine_should, List.map_map]
  simp only [Status.openStatuses, List.map_cons, List.map_nil, List.mem_cons, List.not_mem_nil, or_false,
    exists_eq_or_imp, exists_eq_left, Function.comp_apply, hcode, reduceCtorEq, false_or]

end Clause

namespace Catalog

variable {c : Catalog}

/-- The open events with a tag, among those that readers see. -/
def openTagged (c : Catalog) (tag : String) : List Event :=
  c.visible.filter fun e => (e.status = .new ∨ e.status = .acknowledged) ∧ tag ∈ e.tags

/-- The events that readers see, segment by segment. -/
def visibleBySegment (c : Catalog) : List (List Event) :=
  c.slot.current.segments.map fun s => s.live.filterMap fun d => d.event.toOption

theorem flatten_visibleBySegment (c : Catalog) : c.visibleBySegment.flatten = c.visible := by
  unfold visibleBySegment visible
  rw [← List.flatMap_def, Snapshot.documents, List.filterMap_flatMap]

/-- What is searched in each segment are the documents of its visible events. -/
theorem HoldsEvents.map_live (hc : c.HoldsEvents) :
    c.slot.current.segments.map Segment.live = c.visibleBySegment.map (List.map .ofEvent) := by
  unfold visibleBySegment
  rw [List.map_map]
  refine List.map_congr_left fun s hs => Document.eq_map_ofEvent fun d hd => ?_
  exact hc.shown d (List.mem_flatMap.2 ⟨s, hs, hd⟩)

/-- The open events with a tag, segment by segment. -/
def openTaggedBySegment (c : Catalog) (tag : String) : List (List Event) :=
  c.visibleBySegment.map (List.filter fun e =>
    (e.status = .new ∨ e.status = .acknowledged) ∧ tag ∈ e.tags)

theorem flatten_openTaggedBySegment (c : Catalog) (tag : String) :
    (c.openTaggedBySegment tag).flatten = c.openTagged tag := by
  unfold openTaggedBySegment openTagged
  rw [← List.filter_flatten, flatten_visibleBySegment]

/-- The query of a tag can be run, and finds the open events with the tag. -/
theorem run_openEventsTagged (hc : c.HoldsEvents)
    (htags : ∀ e ∈ c.visible, ∀ t ∈ e.tags, Analysis.byteLength t.toList ≤ maxTokenBytes)
    (tag : String) :
    ∃ q, openEventsTagged c.index.schema tag = .ok q ∧
      c.slot.acquire.2.current.run .events q =
        some ((c.openTaggedBySegment tag).map (List.map .ofEvent)) := by
  rw [hc.schema_eq]
  obtain ⟨q, hq⟩ : ∃ q, openEventsTagged .events tag = .ok q := ⟨_, rfl⟩
  -- both fields can be looked up
  have hrunnable : q.isRunnable .events = true := by
    refine Query.isRunnable_ofClauses ?_ hq
    rw [List.forall_mem_cons, List.forall_mem_singleton]
    exact ⟨trivial, rfl⟩
  have hselects : ∀ e ∈ c.visible, q.selects .events (.ofEvent e) =
      decide ((e.status = .new ∨ e.status = .acknowledged) ∧ tag ∈ e.tags) := by
    intro e he
    rw [Bool.eq_iff_iff, decide_eq_true_eq, Query.selects_ofClauses hq, List.forall_mem_cons,
      List.forall_mem_singleton, Clause.selects_tag (htags e he), Clause.selects_open, and_comm]
  -- a lease does not change the segments
  have hsegments : c.slot.acquire.2.current.segments = c.slot.current.segments := rfl
  refine ⟨q, hq, ?_⟩
  unfold Snapshot.run openTaggedBySegment
  rw [if_pos hrunnable, hsegments, ← Function.comp_def (List.filter (q.selects .events)) Segment.live,
    ← List.map_map, hc.map_live, List.map_map, List.map_map]
  refine congrArg some (List.map_congr_left fun events hevents => ?_)
  rw [Function.comp_apply, Function.comp_apply, List.filter_map]
  refine congrArg _ (List.filter_congr fun e he => hselects e ?_)
  rw [← flatten_visibleBySegment]
  exact List.mem_flatten.2 ⟨events, hevents, he⟩

/-- What is found for some tags: each of them once, without those for which nothing is found. -/
def foundFor {α : Type} (found : String → Option α) (tags : List String) : List (String × α) :=
  tags.eraseDups.filterMap fun tag => (found tag).map fun a => (tag, a)

theorem mem_foundFor {α : Type} {found : String → Option α} {tags : List String} {tag : String} {a : α} :
    (tag, a) ∈ foundFor found tags ↔ tag ∈ tags ∧ found tag = some a := by
  unfold foundFor
  rw [List.mem_filterMap]
  constructor
  · rintro ⟨t, ht, hfound⟩
    obtain ⟨b, hb, heq⟩ := Option.map_eq_some_iff.1 hfound
    obtain ⟨rfl, rfl⟩ := Prod.mk.inj heq
    exact ⟨List.mem_eraseDups.1 ht, hb⟩
  · rintro ⟨ht, hfound⟩
    exact ⟨tag, List.mem_eraseDups.2 ht, by rw [hfound]; rfl⟩

theorem map_fst_foundFor {α : Type} (found : String → Option α) (tags : List String) :
    (foundFor found tags).map Prod.fst = tags.eraseDups.filter fun tag => (found tag).isSome := by
  unfold foundFor
  rw [List.map_filterMap, ← List.filterMap_eq_filter]
  refine List.filterMap_congr fun tag _ => ?_
  cases hfound : found tag <;> simp [Option.guard, hfound]

theorem nodup_foundFor {α : Type} (found : String → Option α) (tags : List String) :
    ((foundFor found tags).map Prod.fst).Nodup := by
  rw [map_fst_foundFor]
  exact (nodup_eraseDups tags).filter _

/-- What is collected with each tag, if the queries of all tags can be run. -/
theorem collectByTag_eq {α : Type} {collect : Snapshot → Query → Option (Option α)}
    {found : String → Option α} (failure : String) (tags : List String)
    (h : ∀ tag, ∃ q, openEventsTagged c.index.schema tag = .ok q ∧
      (c.reading fun s => collect s q) = some (found tag)) :
    c.collectByTag failure collect tags.eraseDups = .ok (foundFor found tags) := by
  unfold foundFor
  generalize tags.eraseDups = tags
  induction tags with
  | nil => rfl
  | cons tag rest ih =>
    obtain ⟨q, hq, hfound⟩ := h tag
    rw [collectByTag, hq, List.filterMap_cons]
    simp only [bind, Except.bind, hfound]
    cases found tag with
    -- a tag without open events is left out
    | none => exact ih
    | some a =>
      simp only [ih]
      rfl

/-- The counts of the severities of the open events with a tag, if there are any. -/
def openCounts? (c : Catalog) (tag : String) : Option SeverityCounts :=
  let counts := Snapshot.countSeverities ((c.openTagged tag).map fun e => (e.severity.code : Int))
  if counts.isEmpty then none else some counts

/-- The worst severity of the open events with a tag, if there are any. -/
def openWorst? (c : Catalog) (tag : String) : Option Severity :=
  Snapshot.worstSeverity
    ((c.openTaggedBySegment tag).map (List.map fun e => (e.severity.code : Int)))

theorem countSeverities_eq (hc : c.HoldsEvents)
    (htags : ∀ e ∈ c.visible, ∀ t ∈ e.tags, Analysis.byteLength t.toList ≤ maxTokenBytes)
    (tags : List String) : c.countSeverities tags = .ok (foundFor c.openCounts? tags) := by
  refine collectByTag_eq _ _ fun tag => ?_
  obtain ⟨q, hq, hrun⟩ := run_openEventsTagged hc htags tag
  refine ⟨q, hq, ?_⟩
  rw [hc.schema_eq]
  change Option.map _ (Snapshot.severityCounts? .events c.slot.acquire.2.current q) = _
  unfold Snapshot.severityCounts?
  rw [hrun, Option.bind_eq_bind, Option.bind_some, if_pos (Snapshot.canCollectSeverities_events _),
    Snapshot.mergeCounts_eq, List.map_map, funext (f := Snapshot.severityCodes ∘ _) Snapshot.severityCodes_map,
    ← List.map_flatten, flatten_openTaggedBySegment]
  rfl

theorem worstSeverities_eq (hc : c.HoldsEvents)
    (htags : ∀ e ∈ c.visible, ∀ t ∈ e.tags, Analysis.byteLength t.toList ≤ maxTokenBytes)
    (tags : List String) : c.worstSeverities tags = .ok (foundFor c.openWorst? tags) := by
  refine collectByTag_eq _ _ fun tag => ?_
  obtain ⟨q, hq, hrun⟩ := run_openEventsTagged hc htags tag
  refine ⟨q, hq, ?_⟩
  rw [hc.schema_eq]
  change Snapshot.worstSeverity? .events c.slot.acquire.2.current q = _
  unfold Snapshot.worstSeverity?
  rw [hrun, Option.bind_eq_bind, Option.bind_some, if_pos (Snapshot.canCollectSeverities_events _), List.map_map,
    funext (f := Snapshot.severityCodes ∘ _) Snapshot.severityCodes_map]
  rfl

theorem openCounts?_eq_some {tag : String} {counts : SeverityCounts} (h : c.openCounts? tag = some counts) :
    counts.CountsOf (c.openTagged tag) ∧ counts.total = (c.openTagged tag).length := by
  unfold openCounts? at h
  dsimp only at h
  split at h
  · exact nomatch h
  · obtain rfl := Option.some.inj h
    exact ⟨Snapshot.countsOf_countSeverities _, Snapshot.total_countSeverities _⟩

/-- There are counts if there is anything to count. -/
theorem isSome_openCounts? (c : Catalog) (tag : String) :
    (c.openCounts? tag).isSome = true ↔ c.openTagged tag ≠ [] := by
  have hcounts := Snapshot.countsOf_countSeverities (c.openTagged tag)
  unfold openCounts?
  dsimp only
  split
  · next hempty =>
    rw [List.isEmpty_iff] at hempty
    refine iff_of_false nofun fun hopen => ?_
    obtain ⟨e, he⟩ := List.exists_mem_of_ne_nil _ hopen
    -- an open event has a severity, which is then counted
    have hmem := (hcounts.mem_severities e.severity).2 ⟨e, he, rfl⟩
    rw [hempty] at hmem
    exact nomatch hmem
  · next hsome =>
    refine iff_of_true rfl fun hopen => hsome ?_
    rw [hopen]
    rfl

theorem isSome_openWorst? (c : Catalog) (tag : String) :
    (c.openWorst? tag).isSome = true ↔ c.openTagged tag ≠ [] := by
  rcases Snapshot.worstSeverity_map (c.openTaggedBySegment tag) with ⟨hnil, hworst⟩ | ⟨s, hworst, ⟨e, he, -⟩, -⟩
  all_goals rw [flatten_openTaggedBySegment] at *
  · rw [openWorst?, hworst]
    exact iff_of_false nofun fun hopen => hopen hnil
  · rw [openWorst?, hworst]
    exact iff_of_true rfl (List.ne_nil_of_mem he)

theorem openWorst?_eq_some {tag : String} {s : Severity} (h : c.openWorst? tag = some s) :
    Snapshot.IsWorst s (c.openTagged tag) := by
  rcases Snapshot.worstSeverity_map (c.openTaggedBySegment tag) with ⟨-, hworst⟩ | ⟨s', hworst, his⟩
  · exact nomatch h.symm.trans hworst
  · rw [flatten_openTaggedBySegment] at his
    rwa [Option.some.inj (h.symm.trans hworst)]

/-- What is counted for a tag are all its open events. -/
theorem total_lookup_openCounts (c : Catalog) {tags : List String} {tag : String} (htag : tag ∈ tags) :
    SeverityCounts.total (((foundFor c.openCounts? tags).lookup tag).getD []) =
      (c.openTagged tag).length := by
  cases hcounts : c.openCounts? tag with
  | some counts =>
    have hfound : (tag, counts) ∈ foundFor c.openCounts? tags := mem_foundFor.2 ⟨htag, hcounts⟩
    rw [Json.Record.lookup_eq_some (nodup_foundFor _ _) hfound]
    exact (openCounts?_eq_some hcounts).2
  | none =>
    -- without counts there are no open events, and nothing is found
    have hnone : c.openTagged tag = [] := by
      by_contra hopen
      have hsome := (isSome_openCounts? c tag).2 hopen
      rw [hcounts] at hsome
      exact nomatch hsome
    have hlookup : (foundFor c.openCounts? tags).lookup tag = none := by
      rw [List.lookup_eq_none_iff]
      rintro ⟨t, counts⟩ hfound
      rw [bne_iff_ne]
      rintro rfl
      exact nomatch hcounts.symm.trans (mem_foundFor.1 hfound).2
    rw [hlookup, hnone]
    rfl

/-- A list of the open events with a tag has them all in total. -/
theorem list_openTagged (hc : c.HoldsEvents)
    (htags : ∀ e ∈ c.visible, ∀ t ∈ e.tags, Analysis.byteLength t.toList ≤ maxTokenBytes)
    (tag : String) (sort : List SortBy) (limit offset : Option Int) :
    ∃ page, c.list ⟨some { tags := [tag], statuses := [.new, .acknowledged] }, sort, limit, offset⟩ =
        .ok page ∧ page.total = (c.openTagged tag).length := by
  -- the conditions are those of a roll-up, in the other order
  have hclauses : Filter.clauses { tags := [tag], statuses := [.new, .acknowledged] } = [
      .codes Field.status (Status.openStatuses.map fun s => (s.code : Int)),
      .exactSet Field.tag [tag] .any] := by
    simp [Filter.clauses, Filter.anyOf, Status.openStatuses]
  obtain ⟨q, hq⟩ : ∃ q, Query.ofClauses .events [
      .codes Field.status (Status.openStatuses.map fun s => (s.code : Int)),
      .exactSet Field.tag [tag] .any] = .ok q := ⟨_, rfl⟩
  have hfilter : Query.ofFilter .events
      (some { tags := [tag], statuses := [.new, .acknowledged] }) = .ok q := by
    rw [Query.ofFilter, hclauses, hq]
  obtain ⟨found, hperm, hlist⟩ := list_visible hc ⟨_, sort, none, none⟩ hfilter
  refine ⟨_, hlist limit offset, ?_⟩
  change found.length = _
  rw [hperm.length_eq, openTagged]
  refine congrArg List.length (List.filter_congr fun e he => ?_)
  rw [Bool.eq_iff_iff, decide_eq_true_eq, Query.selects_ofClauses hq, List.forall_mem_cons,
    List.forall_mem_singleton, Clause.selects_tag (htags e he), Clause.selects_open]

/-- **Severities rolled up by tag.** In an index of events whose tags are short enough to be indexed, the
tags for which severities are counted are those asked for that have open events, each of them once. The
counts of a tag are those of its open events by severity, and the worst severity of a tag is the greatest
that is counted. What is counted are as many events as a list of the open events with the tag has in all,
on whatever page. -/
theorem severities_by_tag (hc : c.HoldsEvents)
    (htags : ∀ e ∈ c.visible, ∀ t ∈ e.tags, Analysis.byteLength t.toList ≤ maxTokenBytes)
    (tags : List String) :
    ∃ counted worst,
      c.countSeverities tags = .ok counted ∧ c.worstSeverities tags = .ok worst ∧
      (counted.map Prod.fst).Nodup ∧
      (∀ tag, tag ∈ counted.map Prod.fst ↔ tag ∈ tags ∧ c.openTagged tag ≠ []) ∧
      (∀ tag counts, (tag, counts) ∈ counted → counts.CountsOf (c.openTagged tag)) ∧
      worst.map Prod.fst = counted.map Prod.fst ∧
      (∀ tag s counts, (tag, s) ∈ worst → (tag, counts) ∈ counted →
        s ∈ counts.map Prod.fst ∧ ∀ s' ∈ counts.map Prod.fst, s' ≤ s) ∧
      ∀ tag ∈ tags, ∀ sort limit offset, ∃ page,
        c.list ⟨some { tags := [tag], statuses := [.new, .acknowledged] }, sort, limit, offset⟩ =
          .ok page ∧
        page.total = SeverityCounts.total ((counted.lookup tag).getD []) := by
  refine ⟨_, _, countSeverities_eq hc htags tags, worstSeverities_eq hc htags tags,
    nodup_foundFor _ _, ?_, ?_, ?_, ?_, ?_⟩
  · intro tag
    rw [map_fst_foundFor, List.mem_filter, List.mem_eraseDups, isSome_openCounts?]
  · intro tag counts hcounts
    exact (openCounts?_eq_some (mem_foundFor.1 hcounts).2).1
  · rw [map_fst_foundFor, map_fst_foundFor]
    refine List.filter_congr fun tag _ => ?_
    rw [Bool.eq_iff_iff, isSome_openWorst?, isSome_openCounts?]
  · intro tag s counts hs hcounts
    obtain ⟨hof, -⟩ := openCounts?_eq_some (mem_foundFor.1 hcounts).2
    obtain ⟨hhas, hworst⟩ := openWorst?_eq_some (mem_foundFor.1 hs).2
    refine ⟨(hof.mem_severities s).2 hhas, fun s' hs' => ?_⟩
    obtain ⟨e, he, rfl⟩ := (hof.mem_severities s').1 hs'
    exact hworst e he
  · intro tag htag sort limit offset
    rw [total_lookup_openCounts c htag]
    exact list_openTagged hc htags tag sort limit offset

/-- Two open events with a tag, which one of them carries twice, and a closed one. -/
def coreEvents : List Event := [
  hostTagged 1 ["core"],
  { hostTagged 2 ["core", "core"] with severity := .error },
  { hostTagged 3 ["core"] with severity := .critical, status := .closed }]

/-- The closed event does not count, and no tag is counted twice. -/
theorem severities_by_tag_core :
    ∃ c, openDirectory "events" .default (.index (indexOf coreEvents)) false = .ok c ∧
      c.countSeverities ["core", "web", "core"] = .ok [("core", [(.warning, 1), (.error, 1)])] ∧
      c.worstSeverities ["core", "web", "core"] = .ok [("core", .error)] ∧
      ∃ page, c.list ⟨some { tags := ["core"], statuses := [.new, .acknowledged] }, [], some 1, none⟩ =
        .ok page ∧ page.total = 2 := by
  obtain ⟨c, hopen⟩ : ∃ c, openDirectory "events" .default (.index (indexOf coreEvents)) false = .ok c :=
    ⟨_, rfl⟩
  have hvisible : c.visible = coreEvents := by
    refine visible_eq_of_documents ?_
    cases hopen
    rfl
  have hcounts : c.countSeverities ["core", "web", "core"] =
      .ok [("core", [(.warning, 1), (.error, 1)])] := by
    cases hopen
    rfl
  obtain ⟨counted, worst, hcounted, hworst, -, -, -, hsame, hgreatest, hlist⟩ :=
    severities_by_tag (ofEvents_indexOf hopen).holdsEvents (by rw [hvisible]; decide)
      ["core", "web", "core"]
  obtain rfl : counted = [("core", [(.warning, 1), (.error, 1)])] :=
    Except.ok.inj (hcounted.symm.trans hcounts)
  -- the only worst severity is one of the two that are counted, and not below the other
  obtain ⟨⟨tag, s⟩, rfl, htag⟩ := List.map_eq_singleton_iff.1 hsame
  obtain rfl : tag = "core" := htag
  obtain ⟨hmem, hle⟩ := hgreatest "core" s _ (List.mem_singleton.2 rfl) (List.mem_singleton.2 rfl)
  have herror : Severity.error ≤ s := hle .error (by decide)
  obtain rfl : s = .error := by
    revert hmem herror
    cases s <;> decide
  exact ⟨c, hopen, hcounts, hworst, hlist "core" (by decide) [] (some 1) none⟩

end Catalog

end EventCatalog
