import Mathlib.Data.List.Induction
import Mathlib.Data.List.Sort
import Mathlib.Data.String.Basic
import EventCatalog.Proofs.EventJson

/-!
# Fields by their names

Fields with different names are a table: a list of names and a value for each (`Json.tabulate`). What is done
to objects then acts on the values alone. Sorting puts the names into order (`sortFields_tabulate`), and setting
a field changes the value at its name (`insertField_tabulate`), since fields that are in order stay where they
are.
-/

namespace EventCatalog.Json

variable {names : List String} {g : String → Json} {n : String} {v : Json} {fields : List (String × Json)}

/-- The fields with the given names and the values that belong to them. -/
def tabulate (names : List String) (g : String → Json) : List (String × Json) := names.map fun n => (n, g n)

theorem tabulate_cons (k : String) (names : List String) (g : String → Json) :
    tabulate (k :: names) g = (k, g k) :: tabulate names g := rfl

@[simp] theorem map_fst_tabulate (names : List String) (g : String → Json) :
    (tabulate names g).map Prod.fst = names := by
  rw [tabulate, List.map_map]
  exact List.map_id names

theorem tabulate_congr {h : String → Json} (heq : ∀ n ∈ names, g n = h n) : tabulate names g = tabulate names h :=
  List.map_congr_left fun n hn => by rw [heq n hn]

theorem lookup_tabulate (names : List String) (g : String → Json) (n : String) :
    (tabulate names g).lookup n = if n ∈ names then some (g n) else none := by
  induction names with
  | nil => rfl
  | cons k names ih =>
    rw [tabulate_cons, List.lookup_cons]
    by_cases hk : n = k
    · simp [hk]
    · simp only [beq_false_of_ne hk, ih, List.mem_cons, hk, false_or]

/-- Fields with different names are a table of what is found by these. -/
theorem tabulate_lookup (h : (fields.map Prod.fst).Nodup) :
    tabulate (fields.map Prod.fst) (fun n => (fields.lookup n).getD .null) = fields := by
  rw [tabulate, List.map_map]
  conv_rhs => rw [← List.map_id fields]
  -- what is found by a name that occurs once is the field itself
  refine List.map_congr_left fun f hf => ?_
  simp [Record.lookup_eq_some h hf]

theorem canonicalFields_tabulate (names : List String) (g : String → Json) :
    canonicalFields (tabulate names g) = tabulate names fun n => (g n).canonical := by
  induction names with
  | nil => rfl
  | cons k names ih => rw [tabulate_cons, tabulate_cons, canonicalFields, ih]

/-! ### Names in order -/

/-- Names in order, each once. -/
def sortedNames (names : List String) : List String :=
  (sortFields (tabulate names fun _ => .null)).map Prod.fst

/-- Where a field goes depends on the names alone. -/
private theorem insertField_map (g : String → Json) (n : String) (v : Json) (fields : List (String × Json)) :
    (insertField n v fields).map (fun f => (f.1, g f.1)) =
      insertField n (g n) (fields.map fun f => (f.1, g f.1)) := by
  induction fields with
  | nil => rfl
  | cons f fields ih =>
    obtain ⟨k, w⟩ := f
    rw [List.map_cons, insertField, insertField]
    split
    · rfl
    split
    -- the name is there already, and its value is replaced
    · next hk => rw [hk]; rfl
    · rw [List.map_cons, ih]

private theorem foldl_insertField (g : String → Json) (names : List String) (fields : List (String × Json)) :
    (names.foldl (fun sorted n => insertField n .null sorted) fields).map (fun f => (f.1, g f.1)) =
      names.foldl (fun sorted n => insertField n (g n) sorted) (fields.map fun f => (f.1, g f.1)) :=
  (List.foldl_hom (List.map fun f => (f.1, g f.1)) fun fields n => (insertField_map g n .null fields).symm).symm

/-- **Sorting a table** puts its names into order. -/
theorem sortFields_tabulate (names : List String) (g : String → Json) :
    sortFields (tabulate names g) = tabulate (sortedNames names) g := by
  rw [sortedNames, sortFields, sortFields, tabulate, tabulate, tabulate, List.foldl_map, List.foldl_map,
    List.map_map]
  exact (foldl_insertField g names []).symm

private theorem mem_insertField {k : String} :
    k ∈ (insertField n v fields).map Prod.fst ↔ k = n ∨ k ∈ fields.map Prod.fst := by
  induction fields with
  | nil => simp [insertField]
  | cons f fields ih =>
    rw [insertField]
    split
    · simp
    split
    · next hk => simp [hk]
    · rw [List.map_cons, List.mem_cons, ih, List.map_cons, List.mem_cons]
      tauto

private theorem pairwise_insertField (h : (fields.map Prod.fst).Pairwise (· < ·)) :
    ((insertField n v fields).map Prod.fst).Pairwise (· < ·) := by
  induction fields with
  | nil => simp [insertField]
  | cons f fields ih =>
    rw [List.map_cons, List.pairwise_cons] at h
    obtain ⟨hf, hfields⟩ := h
    rw [insertField]
    split
    · next hlt =>
      -- the field comes first, before the one that was first
      rw [List.map_cons, List.map_cons, List.pairwise_cons, List.pairwise_cons]
      refine ⟨?_, hf, hfields⟩
      intro k hk
      rcases List.mem_cons.1 hk with rfl | hk
      · exact hlt
      · exact lt_trans hlt (hf k hk)
    split
    · next heq =>
      rw [List.map_cons, List.pairwise_cons]
      -- it takes the place of the field with its name
      exact ⟨fun k hk => heq ▸ hf k hk, hfields⟩
    · next hlt hne =>
      rw [List.map_cons, List.pairwise_cons]
      -- it goes behind the first field, and the names behind this are greater
      refine ⟨?_, ih hfields⟩
      intro k hk
      rcases mem_insertField.1 hk with rfl | hk
      · exact lt_of_le_of_ne (not_lt.1 hlt) (Ne.symm hne)
      · exact hf k hk

private theorem sortedNames_concat (names : List String) (n : String) :
    sortedNames (names ++ [n]) = (insertField n .null (sortFields (tabulate names fun _ => .null))).map Prod.fst := by
  rw [sortedNames, sortFields, sortFields, tabulate, List.map_append, List.foldl_append]
  rfl

@[simp] theorem mem_sortedNames {k : String} : k ∈ sortedNames names ↔ k ∈ names := by
  induction names using List.reverseRecOn with
  | nil => rfl
  | append_singleton names n ih =>
    rw [sortedNames_concat, mem_insertField, ← sortedNames, ih, List.mem_append, List.mem_singleton, or_comm]

theorem pairwise_sortedNames (names : List String) : (sortedNames names).Pairwise (· < ·) := by
  induction names using List.reverseRecOn with
  | nil => exact .nil
  | append_singleton names n ih =>
    rw [sortedNames_concat]
    exact pairwise_insertField ih

/-- Names that are in order stay so. -/
theorem sortedNames_of_pairwise (h : names.Pairwise (· < ·)) : sortedNames names = names :=
  (pairwise_sortedNames names).eq_of_mem_iff h fun _ => mem_sortedNames

/-- **Setting a field** of a table in order changes the value at its name. -/
theorem insertField_tabulate (h : names.Pairwise (· < ·)) (hn : n ∈ names) :
    insertField n v (tabulate names g) = tabulate names (Function.update g n v) := by
  induction names with
  | nil => exact absurd hn (by simp)
  | cons k names ih =>
    rw [List.pairwise_cons] at h
    obtain ⟨hk, hnames⟩ := h
    rw [tabulate_cons, tabulate_cons, insertField]
    rcases List.mem_cons.1 hn with rfl | hn
    · -- its name comes first, and none behind it is the same
      rw [if_neg (lt_irrefl n), if_pos rfl, Function.update_self]
      congr 1
      refine tabulate_congr fun m hm => ?_
      rw [Function.update_of_ne (ne_of_gt (hk m hm))]
    -- its name comes later, so the first field stays as it is
    · rw [if_neg (lt_asymm (hk n hn)), if_neg (ne_of_gt (hk n hn)), ih hnames hn,
        Function.update_of_ne (ne_of_lt (hk n hn))]

end EventCatalog.Json
