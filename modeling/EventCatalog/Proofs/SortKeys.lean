import Mathlib.Order.Lattice
import EventCatalog.Index.Collect
import EventCatalog.Proofs.ByteOrder

/-!
# The order of sort keys

Comparing two keys takes the directions from the first of them, and ends with the shorter one. Of all
keys together that is no order. It is one of the keys of a single sort, which have the same directions,
part by part (`SortKey.For`): the keys are then compared by the first part in which they differ
(`SortKey.Before`, `SortKey.For.cmp_eq_gt_iff`), and the comparison makes them a linear order
(`SortKey.For.instLinearOrder`).

The argument is the same for each law. Values have it, since values of different kinds compare without
being looked at; a part has it, being a value or a value turned round; and a list of parts has it by
induction, since a part decides before the parts behind it.
-/

namespace EventCatalog

/-! ### The order of values -/

namespace SortValue

/-- The order of values: what is missing is below everything else, numbers are below texts, and texts
are in the order of their bytes. -/
def Below : SortValue → SortValue → Prop
  | .missing, .int _ => True
  | .missing, .text _ => True
  | .int m, .int n => m < n
  | .int _, .text _ => True
  | .text s, .text t => Text.bytes s < Text.bytes t
  | _, _ => False

theorem compare_eq_lt_iff (a b : SortValue) : compare a b = .lt ↔ Below a b := by
  change cmp a b = .lt ↔ Below a b
  cases a <;> cases b <;> simp only [cmp, Below, reduceCtorEq]
  case int.int m n => exact Int.compare_eq_lt
  case text.text s t =>
    rw [Text.bytes_lt_iff]
    exact compareOfLessAndEq_eq_lt

instance : Std.OrientedOrd SortValue where
  eq_swap := by
    intro a b
    change cmp a b = (cmp b a).swap
    cases a <;> cases b <;> simp only [cmp] <;> first | rfl | exact Std.OrientedOrd.eq_swap

instance : Std.TransOrd SortValue where
  isLE_trans := by
    intro a b c hab hbc
    change (cmp a b).isLE at hab
    change (cmp b c).isLE at hbc
    change (cmp a c).isLE
    -- values of different kinds compare without being looked at
    cases a <;> cases b <;> cases c <;> simp only [cmp] at hab hbc ⊢
    all_goals first
      | rfl
      | contradiction
      | exact Std.TransOrd.isLE_trans hab hbc

instance : Std.LawfulEqOrd SortValue where
  compare_self := Std.ReflCmp.compare_self
  eq_of_compare := by
    intro a b h
    change cmp a b = .eq at h
    cases a <;> cases b <;> simp only [cmp, reduceCtorEq] at h
    · rfl
    · rw [Std.LawfulEqOrd.eq_of_compare h]
    · rw [Std.LawfulEqOrd.eq_of_compare h]

end SortValue

/-- Whether a direction puts a value before another. -/
def Direction.Puts : Direction → SortValue → SortValue → Prop
  | .ascending, a, b => a.Below b
  | .descending, a, b => b.Below a

namespace SortKey

/-! ### The order of parts -/

/-- Parts with one direction are in the order of their values, either way round. -/
instance (d : Direction) : Std.TransCmp (cmpPart d) := by
  cases d with
  | ascending =>
    change Std.TransCmp fun a b : SortValue => compare b a
    exact Std.TransCmp.opposite
  | descending =>
    change Std.TransCmp fun a b : SortValue => compare a b
    infer_instance

theorem cmpPart_swap (d : Direction) (a b : SortValue) : cmpPart d a b = (cmpPart d b a).swap :=
  Std.OrientedCmp.eq_swap

theorem cmpPart_eq_gt_iff (d : Direction) (a b : SortValue) :
    cmpPart d a b = .gt ↔ d.Puts a b := by
  cases d with
  | ascending =>
    rw [cmpPart, Std.OrientedCmp.gt_iff_lt]
    exact SortValue.compare_eq_lt_iff a b
  | descending =>
    rw [cmpPart, Std.OrientedCmp.gt_iff_lt]
    exact SortValue.compare_eq_lt_iff b a

theorem cmpPart_eq_eq_iff (d : Direction) (a b : SortValue) : cmpPart d a b = .eq ↔ a = b := by
  cases d with
  | ascending =>
    rw [cmpPart, Std.LawfulEqOrd.compare_eq_iff_eq]
    exact eq_comm
  | descending =>
    rw [cmpPart, Std.LawfulEqOrd.compare_eq_iff_eq]

/-- The opposite direction compares the other way round. -/
theorem cmpPart_flip (d : Direction) (a b : SortValue) :
    cmpPart d.flip a b = (cmpPart d a b).swap := by
  rw [← cmpPart_swap]
  cases d with
  | ascending => rfl
  | descending => rfl

/-! ### The order of lists of parts -/

/-- The order of two lists of parts: each part decides before those behind it. -/
def cmpParts : List (Direction × SortValue) → List (Direction × SortValue) → Ordering
  | (d, a) :: as, (_, b) :: bs => (cmpPart d a b).then (cmpParts as bs)
  | _, _ => .eq

/-- Comparing lists of parts always has an answer. -/
theorem cmpParts?_eq_some (as bs : List (Direction × SortValue)) :
    cmpParts? as bs = some (cmpParts as bs) := by
  induction as generalizing bs with
  | nil => rfl
  | cons p as ih =>
    cases bs with
    | nil => rfl
    | cons q bs =>
      rw [cmpParts?, cmpParts, ih]
      cases cmpPart p.1 p.2 q.2 <;> rfl

/-- Some first parts are the same, and the next one puts its value before the other. -/
inductive Before : List (Direction × SortValue) → List (Direction × SortValue) → Prop
  | here {d : Direction} {a b : SortValue} {as bs : List (Direction × SortValue)} :
    d.Puts a b → Before ((d, a) :: as) ((d, b) :: bs)
  | later {p : Direction × SortValue} {as bs : List (Direction × SortValue)} :
    Before as bs → Before (p :: as) (p :: bs)

/-- Two lists of parts have the same directions. -/
inductive SameDirections : List (Direction × SortValue) → List (Direction × SortValue) → Prop
  | nil : SameDirections [] []
  | cons (d : Direction) (a b : SortValue) {as bs : List (Direction × SortValue)} :
    SameDirections as bs → SameDirections ((d, a) :: as) ((d, b) :: bs)

theorem SameDirections.of_map_eq {as bs : List (Direction × SortValue)}
    (h : as.map Prod.fst = bs.map Prod.fst) : SameDirections as bs := by
  induction as generalizing bs with
  | nil =>
    obtain rfl := List.map_eq_nil_iff.1 h.symm
    exact .nil
  | cons p as ih =>
    obtain ⟨d, a⟩ := p
    -- a list with as many directions has a first part as well, with the same direction
    obtain ⟨⟨e, b⟩, bs, rfl, hd, hrest⟩ := List.map_eq_cons_iff.1 h.symm
    obtain rfl : e = d := hd
    exact .cons e a b (ih hrest.symm)

theorem cmpParts_swap {as bs : List (Direction × SortValue)} (h : SameDirections as bs) :
    cmpParts as bs = (cmpParts bs as).swap := by
  induction h with
  | nil => rfl
  | cons d a b _ ih =>
    rw [cmpParts, cmpParts, Ordering.swap_then, ih, cmpPart_swap]

theorem cmpParts_eq_eq_iff {as bs : List (Direction × SortValue)} (h : SameDirections as bs) :
    cmpParts as bs = .eq ↔ as = bs := by
  induction h with
  | nil => simp [cmpParts]
  | cons d a b _ ih =>
    rw [cmpParts, Ordering.then_eq_eq, cmpPart_eq_eq_iff, ih, List.cons.injEq, Prod.mk.injEq,
      and_iff_right rfl]

theorem cmpParts_eq_gt_iff {as bs : List (Direction × SortValue)} (h : SameDirections as bs) :
    cmpParts as bs = .gt ↔ Before as bs := by
  induction h with
  | nil => exact ⟨nofun, nofun⟩
  | cons d a b _ ih =>
    -- either the first part decides, or it is the same and the rest decides
    rw [cmpParts, Ordering.then_eq_gt, cmpPart_eq_gt_iff, cmpPart_eq_eq_iff, ih]
    constructor
    · rintro (hputs | ⟨rfl, hbefore⟩)
      · exact .here hputs
      · exact .later hbefore
    · intro hbefore
      cases hbefore with
      | here hputs => exact .inl hputs
      | later hbefore => exact .inr ⟨rfl, hbefore⟩

/-- Of three lists of parts, the first parts decide, and where two of them are the same, the others. -/
theorem cmpParts_isLE_trans {as bs cs : List (Direction × SortValue)} (h : SameDirections as bs)
    (h' : SameDirections bs cs) (hab : (cmpParts as bs).isLE) (hbc : (cmpParts bs cs).isLE) :
    (cmpParts as cs).isLE := by
  induction h generalizing cs with
  | nil => rfl
  | cons d a b _ ih =>
    cases h' with
    | cons _ _ c hrest =>
      rw [cmpParts, Ordering.isLE_then_iff_and] at hab hbc ⊢
      obtain ⟨hle, hab⟩ := hab
      obtain ⟨hle', hbc⟩ := hbc
      refine ⟨Std.TransCmp.isLE_trans hle hle', ?_⟩
      -- a strict step at the first part settles it; otherwise the first parts are all equal
      rcases hab with hlt | hab
      · exact .inl (Std.TransCmp.lt_of_lt_of_isLE hlt hle')
      rcases hbc with hlt | hbc
      · exact .inl (Std.TransCmp.lt_of_isLE_of_lt hle hlt)
      · exact .inr (ih hrest hab hbc)

/-! ### The keys of one sort -/

/-- **Two keys always compare**, by their parts. -/
theorem cmp?_eq_some (a b : SortKey) : cmp? a b = some (cmp a b) := by
  rw [cmp, cmp?, cmpParts?_eq_some]
  rfl

theorem cmp_eq_cmpParts (a b : SortKey) : cmp a b = cmpParts a.parts b.parts := by
  rw [cmp, cmp?, cmpParts?_eq_some]
  rfl

/-- The directions of a key. -/
def directions (k : SortKey) : List Direction := k.parts.map Prod.fst

/-- The key with all directions turned round. -/
def flip (k : SortKey) : SortKey := ⟨k.parts.map fun p => (p.1.flip, p.2)⟩

/-- Keys that are turned round compare the other way round. -/
theorem cmp_flip (a b : SortKey) : cmp a.flip b.flip = (cmp a b).swap := by
  -- here the directions need not be the same, as each part is turned round by itself
  obtain ⟨as⟩ := a
  obtain ⟨bs⟩ := b
  rw [cmp_eq_cmpParts, cmp_eq_cmpParts, flip, flip]
  induction as generalizing bs with
  | nil => rfl
  | cons p as ih =>
    cases bs with
    | nil => rfl
    | cons q bs =>
      rw [List.map_cons, List.map_cons, cmpParts, cmpParts, ih, cmpPart_flip, Ordering.swap_then]

/-- A key for a sort has its directions, with any values. -/
@[ext]
structure For (sort : List SortBy) where
  key : SortKey
  directions_eq : key.directions = sort.map SortBy.direction

namespace For

variable {sort : List SortBy}

theorem sameDirections (a b : For sort) : SameDirections a.key.parts b.key.parts :=
  .of_map_eq (a.directions_eq.trans b.directions_eq.symm)

theorem cmp_eq_gt_iff (a b : For sort) :
    cmp a.key b.key = .gt ↔ Before a.key.parts b.key.parts := by
  rw [cmp_eq_cmpParts]
  exact cmpParts_eq_gt_iff (a.sameDirections b)

theorem cmp_eq_eq_iff (a b : For sort) : cmp a.key b.key = .eq ↔ a.key = b.key := by
  rw [cmp_eq_cmpParts, cmpParts_eq_eq_iff (a.sameDirections b)]
  exact ⟨fun h => congrArg SortKey.mk h, fun h => congrArg SortKey.parts h⟩

theorem cmp_swap (a b : For sort) : cmp a.key b.key = (cmp b.key a.key).swap := by
  rw [cmp_eq_cmpParts, cmp_eq_cmpParts]
  exact cmpParts_swap (a.sameDirections b)

theorem cmp_isLE_trans {a b c : For sort} (hab : (cmp a.key b.key).isLE)
    (hbc : (cmp b.key c.key).isLE) : (cmp a.key c.key).isLE := by
  rw [cmp_eq_cmpParts] at hab hbc ⊢
  exact cmpParts_isLE_trans (a.sameDirections b) (b.sameDirections c) hab hbc

/-- **The keys of a sort are in a linear order**, in which a key comes before those below it. -/
instance instLinearOrder : LinearOrder (For sort) where
  le a b := (cmp a.key b.key).isLE
  le_refl a := by
    rw [(cmp_eq_eq_iff a a).2 rfl]
    rfl
  le_trans _ _ _ := cmp_isLE_trans
  le_antisymm a b hab hba := by
    refine For.ext ((cmp_eq_eq_iff a b).1 ?_)
    -- keys that compare as equal have equal parts, for their directions are fixed by the sort
    rw [cmp_swap b a, Ordering.isLE_swap] at hba
    exact Ordering.eq_eq_of_isLE_of_isGE hab hba
  le_total a b := by
    rw [cmp_swap b a, Ordering.isLE_swap]
    cases cmp a.key b.key with
    | lt => exact .inl rfl
    | eq => exact .inl rfl
    | gt => exact .inr rfl
  toDecidableLE a b := inferInstanceAs (Decidable ((cmp a.key b.key).isLE = true))

/-- A key is at most another unless the comparison finds the other one less. -/
theorem le_iff_ne_lt (a b : For sort) : a ≤ b ↔ cmp b.key a.key ≠ .lt := by
  change (cmp a.key b.key).isLE = true ↔ _
  rw [cmp_swap a b, Ordering.isLE_swap]
  exact Ordering.isGE_iff_ne_lt

theorem lt_iff_eq_gt (a b : For sort) : a < b ↔ cmp b.key a.key = .gt := by
  rw [← not_le, le_iff_ne_lt, Ne, not_not, cmp_swap a b, Ordering.swap_eq_lt]

end For

end SortKey

/-! ### The keys of documents -/

/-- The key of a document for a sort has its directions. -/
def Document.keyFor (schema : Schema) (sort : List SortBy) (d : Document) : SortKey.For sort where
  key := d.sortKey schema sort
  directions_eq := List.map_map

/-- Documents are sorted by their keys, in the order of the keys of the sort. -/
theorem Snapshot.sorted_eq_mergeSort (schema : Schema) (sort : List SortBy)
    (documents : List Document) :
    sorted schema sort documents =
      documents.mergeSort fun d e => decide (e.keyFor schema sort ≤ d.keyFor schema sort) := by
  -- documents are sorted with their keys beside them, which are dropped in the end
  have hkeyed := List.map_mergeSort (l := documents)
    (r := fun d e => decide (e.keyFor schema sort ≤ d.keyFor schema sort))
    (s := fun a b : SortKey × Document => SortKey.cmp a.1 b.1 != .lt)
    (f := fun d => (d.sortKey schema sort, d)) (by
      intro d _ e _
      rw [Bool.eq_iff_iff, decide_eq_true_eq, bne_iff_ne]
      exact SortKey.For.le_iff_ne_lt _ _)
  change List.map Prod.snd (List.mergeSort _ _) = _
  rw [← hkeyed, List.map_map]
  exact List.map_id _

end EventCatalog
