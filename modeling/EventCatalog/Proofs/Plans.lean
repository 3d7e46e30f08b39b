import EventCatalog.Proofs.Lifetime

/-!
# What changes stage and commit

Every change of a catalog stages something and then commits, or does not commit at all (`Change.plan`,
`Change.apply_eq_result`). So all changes can be told apart by what they have staged, and by whether and how
they commit: whether the commit succeeds (`Change.commits`), whether it asks for the segments to be merged
(`Change.forces`), and whether it merges them (`Change.merges`).

Every run of changes has a last one of a kind, if it has any (`Change.exists_lastOf`): it falls into what has
been done up to that change, and what has been done since.
-/

namespace EventCatalog

/-! ### Plans -/

/-- What a change comes to: a catalog with everything staged, and the commit of it, if there is one. -/
structure Plan where
  staged : Catalog
  /-- The time of the commit, and whether the segments are to be merged. -/
  commit : Option (Instant × Bool)

namespace Plan

def result (p : Plan) : Catalog :=
  match p.commit with
  | none => p.staged
  | some (now, force) => (p.staged.commit now force).2

/-- Whether there is a commit, and it succeeds. -/
def commits (p : Plan) : Bool :=
  match p.commit with
  | none => false
  | some (now, force) => (p.staged.commit now force).1.isOk

end Plan

/-- What an operation stages, and how it commits. -/
def Operation.plan (c : Catalog) : Operation → Plan
  | stage e => ⟨c.stage e, none⟩
  | commit now force => ⟨c, some (now, force)⟩
  | add now e => ⟨c.stage e, some (now, false)⟩
  | addMany now events => ⟨c.stageAll events, some (now, false)⟩
  | delete now u => ⟨c.stageRemove u, some (now, false)⟩
  | deleteMany now uuids =>
    if uuids.isEmpty then ⟨c, none⟩ else ⟨uuids.foldl Catalog.stageRemove c, some (now, true)⟩
  | optimize now => ⟨c, some (now, true)⟩

/-- The removal of what a query selects is staged if the query can be run. -/
def Catalog.planDeletion (c : Catalog) (now : Instant) (q : Query) : Plan :=
  if q.isRunnable c.index.schema then ⟨{ c with writer := c.writer.remove q }, some (now, true)⟩
  else ⟨c, none⟩

theorem Operation.run_eq_result (c : Catalog) (op : Operation) : (op.run c).2 = (op.plan c).result := by
  cases op with
  | stage e => rw [run, plan, Plan.result]
  | commit now force => rw [run, plan, Plan.result]
  | add now e => rw [run, plan, Plan.result, Catalog.add]
  | addMany now events => rw [run, plan, Plan.result, Catalog.addMany, Catalog.returning]
  | delete now u => rw [run, plan, Plan.result, Catalog.delete]
  | deleteMany now uuids =>
    simp only [run, plan, Catalog.deleteMany]
    -- an empty list stages nothing and is not committed
    by_cases hempty : uuids.isEmpty = true
    · rw [if_pos hempty, if_pos hempty, Plan.result]
    · rw [if_neg hempty, if_neg hempty, Plan.result, Catalog.returning]
  | optimize now => rw [run, plan, Plan.result, Catalog.optimize]

theorem Catalog.result_planDeletion (c : Catalog) (now : Instant) (q : Query) :
    (c.planDeletion now q).result = (c.deleteSelected now q).2 := by
  unfold planDeletion deleteSelected
  by_cases hq : q.isRunnable c.index.schema = true
  · rw [if_pos hq, if_pos hq, Plan.result]
  · rw [if_neg hq, if_neg hq, Plan.result]

namespace Change

/-- What a change stages, and how it commits. -/
def plan (c : Catalog) : Change → Plan
  | run op => op.plan c
  | deleteByFilter now f =>
    match Query.ofFilter c.index.schema (some f) with
    | .error _ => ⟨c, none⟩
    | .ok q => c.planDeletion now q
  | purge now age =>
    if age.nanos < 0 then ⟨c, none⟩
    else match now.before? age with
      | none => ⟨c, none⟩
      | some cutoff => c.planDeletion now (.range Field.lastSeen none (some cutoff.millis))
  | clear now => ⟨c.emptied, some (now, true)⟩
  | acquire => ⟨acquire.apply c, none⟩
  | release lease => ⟨(release lease).apply c, none⟩
  | reopen => ⟨reopen.apply c, none⟩

/-- **A change does what is planned.** -/
theorem apply_eq_result (c : Catalog) (change : Change) : change.apply c = (change.plan c).result := by
  cases change with
  | run op => exact op.run_eq_result c
  | deleteByFilter now f =>
    simp only [apply, plan, Catalog.deleteByFilter]
    -- a filter that is refused changes nothing
    cases Query.ofFilter c.index.schema (some f) with
    | error e => rfl
    | ok q => exact (c.result_planDeletion now q).symm
  | purge now age =>
    simp only [apply, plan, Catalog.purgeOlder]
    split
    · rfl
    · cases now.before? age with
      -- nor does an age that reaches back before all times
      | none => rfl
      | some cutoff => exact (c.result_planDeletion now _).symm
  | clear now => rw [apply, plan, Plan.result, Catalog.clear_eq]
  | acquire => rfl
  | release lease => rfl
  | reopen => rfl

end Change

/-! ### What is staged -/

namespace Catalog

/-- Staging is done in a few steps. `KeptStaging P` says that they keep up `P`. -/
structure KeptStaging (P : Catalog → Prop) : Prop where
  stage : ∀ {c} (e : Event), P c → P (c.stage e)
  stageRemove : ∀ {c} (u : Uuid), P c → P (c.stageRemove u)
  remove : ∀ {c} (q : Query), P c → P { c with writer := c.writer.remove q }
  lease : ∀ {c} (slot : SnapshotSlot), slot.current.segments = c.slot.current.segments → P c →
    P { c with slot := slot }

theorem Kept.staging {P : Catalog → Prop} (h : Kept P P) : KeptStaging P :=
  ⟨h.stage, h.stageRemove, h.remove, h.lease⟩

namespace KeptStaging

variable {P : Catalog → Prop} {c : Catalog}

theorem stageAll (hkept : KeptStaging P) (h : P c) (events : List Event) : P (c.stageAll events) :=
  List.foldlRecOn events Catalog.stage h fun _ hc e _ => hkept.stage e hc

theorem stageRemoveAll (hkept : KeptStaging P) (h : P c) (uuids : List Uuid) :
    P (uuids.foldl Catalog.stageRemove c) :=
  List.foldlRecOn uuids Catalog.stageRemove h fun _ hc u _ => hkept.stageRemove u hc

theorem planDeletion (hkept : KeptStaging P) (h : P c) (now : Instant) (q : Query) :
    P (c.planDeletion now q).staged := by
  unfold Catalog.planDeletion
  split
  · exact hkept.remove q h
  · exact h

/-- **What a change stages** keeps up what its steps do, if emptying and reopening do. -/
theorem plan (hkept : KeptStaging P) (h : P c) (change : Change)
    (hclear : ∀ now, change = .clear now → P c.emptied)
    (hreopen : change = .reopen → P (Change.reopen.apply c)) : P (change.plan c).staged := by
  cases change with
  | run op =>
    cases op with
    | stage e => exact hkept.stage e h
    | commit now force => exact h
    | add now e => exact hkept.stage e h
    | addMany now events => exact hkept.stageAll h events
    | delete now u => exact hkept.stageRemove u h
    | deleteMany now uuids =>
      simp only [Change.plan, Operation.plan]
      split
      · exact h
      · exact hkept.stageRemoveAll h uuids
    | optimize now => exact h
  | deleteByFilter now f =>
    simp only [Change.plan]
    split
    · exact h
    · exact hkept.planDeletion h now _
  | purge now age =>
    simp only [Change.plan]
    split
    · exact h
    · split
      · exact h
      · exact hkept.planDeletion h now _
  | clear now => exact hclear now rfl
  | acquire => exact hkept.lease c.slot.acquire.2 rfl h
  | release lease => exact hkept.lease (c.slot.release lease) (c.slot.segments_release lease) h
  | reopen => exact hreopen rfl

end KeptStaging

end Catalog

/-! ### Kinds of changes -/

namespace Change

/-- Whether a change commits, and the commit succeeds. -/
def commits (c : Catalog) (change : Change) : Bool := (change.plan c).commits

theorem ofEvents_plan {c : Catalog} (h : c.OfEvents) (change : Change) :
    (change.plan c).staged.OfEvents :=
  Catalog.kept_ofEvents.staging.plan h change (fun _ _ => h.emptied) fun _ => h.apply .reopen

/-- Every commit of a catalog of events succeeds. -/
theorem commits_eq {c : Catalog} (h : c.OfEvents) (change : Change) :
    change.commits c = (change.plan c).commit.isSome := by
  have hstaged := ofEvents_plan h change
  unfold commits Plan.commits
  cases (change.plan c).commit with
  | none => rfl
  | some p =>
    -- a commit fails on staged documents only, and those of events fit the schema
    simp only [hstaged.commit_ok]
    rfl

/-- How many events a change stages. -/
def staging : Change → Nat
  | run (.stage _) => 1
  | run (.add _ _) => 1
  | run (.addMany _ events) => events.length
  | _ => 0

/-! ### The last change of a kind -/

/-- None of the changes is of a kind, as they are made one after the other. -/
def NoneOf (kind : Catalog → Change → Bool) : Catalog → List Change → Prop
  | _, [] => True
  | c, change :: rest => kind c change = false ∧ NoneOf kind (change.apply c) rest

/-- The first part of a run ends with a change of a kind, unless it is empty, and the second has none. -/
structure LastOf (kind : Catalog → Change → Bool) (c : Catalog) (before since : List Change) : Prop where
  ends : before = [] ∨ ∃ earlier change, before = earlier ++ [change] ∧
    kind (earlier.foldl Change.apply c) change = true
  none_since : NoneOf kind (before.foldl Change.apply c) since

/-- **Every run has a last change of a kind**, if it has any. -/
theorem exists_lastOf (kind : Catalog → Change → Bool) (c : Catalog) (changes : List Change) :
    ∃ before since, changes = before ++ since ∧ LastOf kind c before since := by
  induction changes generalizing c with
  | nil => exact ⟨[], [], rfl, .inl rfl, trivial⟩
  | cons change rest ih =>
    obtain ⟨before, since, rfl, hends, hnone⟩ := ih (change.apply c)
    rcases hends with rfl | ⟨earlier, last, rfl, hlast⟩
    -- none of the later changes is of the kind, so the first is the last one, or there is none at all
    · cases hkind : kind c change with
      | true => exact ⟨[change], since, rfl, .inr ⟨[], change, rfl, hkind⟩, hnone⟩
      | false => exact ⟨[], change :: since, rfl, .inl rfl, hkind, hnone⟩
    · exact ⟨change :: (earlier ++ [last]), since, rfl, .inr ⟨change :: earlier, last, rfl, hlast⟩, hnone⟩

end Change

end EventCatalog
