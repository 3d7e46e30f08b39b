import EventCatalog.Event.Basic
import EventCatalog.Proofs.InstantText
import EventCatalog.Proofs.JsonText

/-!
# Events read back from JSON

An event is read back from the JSON text that was written of it (`Event.decodeText_render`): all its texts,
tags and notes, and the times that stand in the text. These are the times that were written where they are
instants (`Event.asWritten_eq_self`).

A record is described once, and the description serves writing only by its names. `Record.Reads`
says what the fields that are given have to do with the description: every field finds a value that
it accepts, and the values make the record. The lemmas on `<$>` and `<*>` follow the description
from left to right, one field each; `Record.Reads.decode_obj` then decodes an object that has just
these fields in this order.
-/

namespace EventCatalog

/-! ### Identifiers -/

namespace Uuid

@[simp] theorem length_hexDigits (k n : Nat) : (hexDigits k n).length = k := by
  induction k generalizing n with
  | zero => rfl
  | succ k ih => simp [hexDigits, ih]

/-- With its hyphens an identifier has 36 characters. -/
theorem length_render (u : Uuid) : u.render.toList.length = 36 := by
  simp [render, hyphenated]

private theorem hexValue?_digitChar :
    ∀ d, d < 16 → Json.hexValue? (Nat.digitChar d) = some d := by
  decide

/-- Hexadecimal digits are read back, as far as there are digits. -/
theorem hexNumber?_hexDigits (k n : Nat) : hexNumber? (hexDigits k n) = some (n % 16 ^ k) := by
  induction k generalizing n with
  | zero => simp [hexDigits, hexNumber?, Nat.mod_one]
  | succ k ih =>
    have hdigit := hexValue?_digitChar (n % 16) (Nat.mod_lt _ (by decide))
    have hfront := ih (n / 16)
    simp only [hexNumber?] at hfront ⊢
    -- the last digit is what is left modulo 16
    rw [hexDigits, List.foldlM_append, hfront]
    simp only [List.foldlM_cons, List.foldlM_nil, hdigit, Option.map_some, Option.bind_eq_bind,
      Option.bind_some, Option.pure_def, Option.some.injEq]
    rw [Nat.pow_succ, Nat.mul_comm (16 ^ k) 16, Nat.mod_mul]
    omega

/-- The hyphens stand where they are looked for, and without them the digits are left. -/
private theorem ofHyphenated?_hyphenated {ds : List Char} (h : ds.length = 32) :
    ofHyphenated? (hyphenated ds) = ofDigits? ds := by
  have h₁ : (ds.take 8).length = 8 := by simp [h]
  have h₂ : ((ds.drop 8).take 4).length = 4 := by simp [h]
  have h₃ : ((ds.drop 12).take 4).length = 4 := by simp [h]
  have h₄ : ((ds.drop 16).take 4).length = 4 := by simp [h]
  have h₅ : (ds.drop 20).length = 12 := by simp [h]
  calc ofHyphenated? (hyphenated ds)
      = ofDigits? (ds.take 8 ++ ((ds.drop 8).take 4 ++ ((ds.drop 12).take 4 ++
          ((ds.drop 16).take 4 ++ ds.drop 20)))) := by
        unfold hyphenated
        -- of the five groups only their lengths matter
        generalize ds.take 8 = a at *
        generalize (ds.drop 8).take 4 = b at *
        generalize (ds.drop 12).take 4 = c at *
        generalize (ds.drop 16).take 4 = d at *
        generalize ds.drop 20 = e at *
        simp [ofHyphenated?, List.drop_append, h₁, h₂, h₃, h₄, h₅, List.drop_of_length_le]
    _ = ofDigits? ds := by
        rw [show ds.drop 20 = (ds.drop 16).drop 4 by rw [List.drop_drop], List.take_append_drop,
          show ds.drop 16 = (ds.drop 12).drop 4 by rw [List.drop_drop], List.take_append_drop,
          show ds.drop 12 = (ds.drop 8).drop 4 by rw [List.drop_drop], List.take_append_drop,
          List.take_append_drop]

/-- Every identifier is read back from its written form. -/
theorem ofText?_render (u : Uuid) : ofText? u.render = some u := by
  have hlen := length_render u
  simp only [ofText?, hlen]
  rw [if_neg (by decide), if_pos trivial, render, String.toList_ofList,
    ofHyphenated?_hyphenated (length_hexDigits 32 _), ofDigits?, hexNumber?_hexDigits]
  -- an identifier has 128 bits, for which 32 digits suffice
  have hlt : u.toNat < 16 ^ 32 := u.value.isLt
  rw [Nat.mod_eq_of_lt hlt]
  simp [ofNat, toNat]

/-- Different identifiers are written differently. -/
theorem render_injective {u v : Uuid} (h : u.render = v.render) : u = v := by
  have hu := ofText?_render u
  rw [h, ofText?_render] at hu
  exact (Option.some.inj hu).symm

theorem decoder_toJson (u : Uuid) : decoder u.toJson = .ok u := by
  simp only [toJson, decoder, ofText?_render]

end Uuid

/-! ### Records -/

namespace Json.Record

variable {α β : Type} {given : String → Option Json}

/-- The fields that are given are accepted by a record, which they make into `a`. -/
structure Reads (r : Record α) (given : String → Option Json) (a : α) : Prop where
  /-- Every field is given, with a value that passes its test. -/
  checks : ∀ slot ∈ r.slots, ∃ v, given slot.name = some v ∧ slot.check v = .ok ()
  /-- The record that is made. -/
  builds : r.build given = .ok a

theorem Reads.map {r : Record α} {a : α} (h : r.Reads given a) (f : α → β) :
    (f <$> r).Reads given (f a) where
  checks := h.checks
  builds := by
    change (r.build given).map f = _
    rw [h.builds]
    rfl

theorem Reads.seq {f : Record (α → β)} {x : Record α} {g : α → β} {a : α}
    (hf : f.Reads given g) (hx : x.Reads given a) : (f <*> x).Reads given (g a) where
  checks := by
    intro slot hslot
    rcases List.mem_append.1 (show slot ∈ f.slots ++ x.slots from hslot) with h | h
    · exact hf.checks slot h
    · exact hx.checks slot h
  builds := by
    change (f.build given >>= fun g => x.build given >>= fun a => Except.ok (g a)) = _
    rw [hf.builds, hx.builds]
    rfl

/-- A single field whose value passes its test. -/
private theorem checks_single {name : String} {check : Decoder Unit} {isDefaulted : Bool}
    {v : Json} (hv : given name = some v) (hc : check v = .ok ()) :
    ∀ slot ∈ [Slot.mk name check isDefaulted], ∃ v, given slot.name = some v ∧
      slot.check v = .ok () := by
  intro slot hslot
  obtain rfl := List.mem_singleton.1 hslot
  exact ⟨v, hv, hc⟩

theorem Reads.required {name : String} {d : Decoder α} {v : Json} {a : α}
    (hv : given name = some v) (hd : d v = .ok a) : (Record.required name d).Reads given a where
  checks := checks_single hv (by rw [hd]; rfl)
  builds := by
    simp only [Record.required, hv]
    exact hd

theorem Reads.defaulted {name : String} {d : Decoder α} {default : α} {v : Json} {a : α}
    (hv : given name = some v) (hd : d v = .ok a) :
    (Record.defaulted name d default).Reads given a where
  checks := checks_single hv (by rw [hd]; rfl)
  builds := by
    simp only [Record.defaulted, hv]
    exact hd

theorem Reads.optional {name : String} {d : Decoder α} {v : Json} {o : Option α}
    (hv : given name = some v) (hd : Json.optional d v = .ok o) :
    (Record.optional name d).Reads given o where
  checks := checks_single hv (by rw [hd]; rfl)
  builds := by
    simp only [Record.optional, hv]
    exact hd

/-- Fields with different names that are known and pass their tests pass all together. -/
private theorem checkFields_eq_ok {slots : List Slot} {fields : List (String × Json)}
    {seen : List String} (hnodup : (fields.map Prod.fst).Nodup)
    (hseen : ∀ f ∈ fields, f.1 ∉ seen)
    (hcheck : ∀ f ∈ fields, ∃ slot, slots.find? (·.name == f.1) = some slot ∧
      slot.check f.2 = .ok ()) : checkFields slots seen fields = .ok () := by
  induction fields generalizing seen with
  | nil => rfl
  | cons f rest ih =>
    obtain ⟨name, v⟩ := f
    obtain ⟨slot, hslot, hv⟩ := hcheck (name, v) (by simp)
    rw [List.map_cons, List.nodup_cons] at hnodup
    -- the name has not been met before, neither in front of the object nor in it
    have hfresh : seen.contains name = false := by
      simpa using hseen (name, v) (by simp)
    -- and the other fields do not repeat it
    have hrest : checkFields slots (name :: seen) rest = .ok () := ih hnodup.2
      (by
        intro g hg hmem
        rcases List.mem_cons.1 hmem with heq | hmem
        · have hmap := List.mem_map_of_mem (f := Prod.fst) hg
          rw [heq] at hmap
          exact hnodup.1 hmap
        · exact hseen g (List.mem_cons_of_mem _ hg) hmem)
      (fun g hg => hcheck g (List.mem_cons_of_mem _ hg))
    rw [checkFields]
    simp only at hslot hv
    rw [hslot]
    simp only [hfresh, Bool.false_eq_true, if_false, hv, hrest]
    rfl

/-- A field of an object whose names are all different is the one found by its name. -/
theorem lookup_eq_some {α : Type} {fields : List (String × α)}
    (hnodup : (fields.map Prod.fst).Nodup) {f : String × α} (hf : f ∈ fields) :
    fields.lookup f.1 = some f.2 := by
  induction fields with
  | nil => exact absurd hf (by simp)
  | cons g rest ih =>
    rw [List.map_cons, List.nodup_cons] at hnodup
    rcases List.mem_cons.1 hf with rfl | hf
    · rw [List.lookup_cons, beq_self_eq_true]
    · have hne : (f.1 == g.1) = false := by
        rw [beq_eq_false_iff_ne]
        intro heq
        exact hnodup.1 (heq ▸ List.mem_map_of_mem hf)
      rw [List.lookup_cons, hne]
      exact ih hnodup.2 hf

/-- **Decoding an object.** An object that has just the fields of a record, in whatever order, is
decoded as the record that its fields make. -/
theorem Reads.decode_fields {r : Record α} {a : α} {fields : List (String × Json)}
    {expected : String} (h : r.Reads (fun name => fields.lookup name) a)
    (hnodup : (fields.map Prod.fst).Nodup)
    (hknown : ∀ f ∈ fields, f.1 ∈ r.slots.map Slot.name) :
    r.decode expected (.obj fields) = .ok a := by
  have hcheck : checkFields r.slots [] fields = .ok () := by
    refine checkFields_eq_ok hnodup (by simp) ?_
    intro f hf
    -- the slot of that name exists, and what passes its test is this field
    obtain ⟨slot, hslot, hslotName⟩ := List.mem_map.1 (hknown f hf)
    cases hfind : r.slots.find? (·.name == f.1) with
    | none =>
      exact absurd (List.find?_eq_none.1 hfind slot hslot) (by simp [hslotName])
    | some found =>
      have hfound : found.name = f.1 := by simpa using List.find?_some hfind
      obtain ⟨v, hv, hpass⟩ := h.checks found (List.mem_of_find?_eq_some hfind)
      rw [hfound, lookup_eq_some hnodup hf] at hv
      obtain rfl := Option.some.inj hv
      exact ⟨found, rfl, hpass⟩
  rw [decode, hcheck]
  exact h.builds

/-- In the declared order, too. -/
theorem Reads.decode_obj {r : Record α} {a : α} {fields : List (String × Json)}
    {expected : String} (h : r.Reads (fun name => fields.lookup name) a)
    (hnames : fields.map Prod.fst = r.slots.map Slot.name)
    (hdistinct : (r.slots.map Slot.name).Nodup) : r.decode expected (.obj fields) = .ok a :=
  h.decode_fields (hnames ▸ hdistinct) fun _ hf => hnames ▸ List.mem_map_of_mem hf

end Json.Record

/-! ### The times of an event -/

section

variable {τ σ ρ : Type}

/-- The note with another time. -/
def Note.retimed (f : τ → σ) (n : Note τ) : Note σ := { n with createdTime := f n.createdTime }

namespace Event

/-- The event with other times. -/
def retimed (f : τ → σ) (e : Event τ) : Event σ :=
  { e with
    firstSeen := f e.firstSeen
    lastSeen := f e.lastSeen
    statusChange := f e.statusChange
    updateTime := f e.updateTime
    notes := e.notes.map (Note.retimed f) }

/-- The times of an event and of its notes. -/
def times (e : Event τ) : List τ :=
  [e.firstSeen, e.lastSeen, e.statusChange, e.updateTime] ++ e.notes.map Note.createdTime

theorem retimed_retimed (f : τ → σ) (g : σ → ρ) (e : Event τ) :
    (e.retimed f).retimed g = e.retimed (g ∘ f) := by
  simp only [retimed, List.map_map]
  rfl

/-- An event stays as it is if its times do. -/
theorem retimed_eq_self_iff {f : τ → τ} {e : Event τ} : e.retimed f = e ↔ ∀ t ∈ e.times, f t = t := by
  -- the times of notes are the only ones that do not stand in the event itself
  have hnotes : e.notes.map (Note.retimed f) = e.notes ↔ ∀ n ∈ e.notes, f n.createdTime = n.createdTime := by
    rw [← List.map_id e.notes, List.map_map, List.map_inj_left, List.map_id]
    refine forall₂_congr fun n _ => ?_
    obtain ⟨_, _, _, _, _⟩ := n
    simp [Note.retimed]
  rw [times, List.forall_mem_append, List.forall_mem_map, ← hnotes]
  obtain ⟨⟩ := e
  simp [retimed, and_assoc]

end Event

variable [HasTimestamp τ]

/-- The note with the time that is written in it. -/
def Note.asWritten (n : Note τ) : Note := n.retimed fun t => (timestamp t).asWritten

/-- The event with the times that are written in it and its notes. -/
def Event.asWritten (e : Event τ) : Event := e.retimed fun t => (timestamp t).asWritten

/-- Instants are written as they are. -/
@[simp] theorem Event.asWritten_eq_self (e : Event) : e.asWritten = e :=
  Event.retimed_eq_self_iff.2 fun t _ => t.asWritten_toTimestamp

end

/-! ### Parts of an event -/

section

variable {τ : Type} [HasTimestamp τ]

/-- A list whose items are all decoded is decoded. -/
theorem Json.list_map {α β : Type} {d : Json.Decoder β} {f : α → Json} {g : α → β} {l : List α}
    (h : ∀ a, d (f a) = .ok (g a)) : Json.list d (.arr (l.map f)) = .ok (l.map g) := by
  rw [Json.list]
  induction l with
  | nil => rfl
  | cons a l ih =>
    rw [List.map_cons, List.mapM_cons, h a, ih]
    rfl

/-- What may be absent is decoded if it is a text where it is present. -/
theorem Json.optional_ofOption {α : Type} {d : Json.Decoder α} {f : α → String} {o : Option α}
    (h : ∀ a, d (.str (f a)) = .ok a) :
    Json.optional d (Json.ofOption (fun a => .str (f a)) o) = .ok o := by
  cases o with
  | none => rfl
  | some a =>
    change (d (.str (f a))).map some = _
    rw [h a]
    rfl

/-- What may be absent is readable if it is where it is present. -/
theorem Json.readable_ofOption {α : Type} {depth : Nat} {f : α → Json} {o : Option α}
    (h : ∀ a, Json.Readable depth (f a)) : Json.Readable depth (Json.ofOption f o) := by
  cases o with
  | none => exact .null
  | some a => exact h a

theorem Severity.decoder_toJson (s : Severity) : decoder s.toJson = .ok s := by
  cases s <;> rfl

theorem Status.decoder_toJson (s : Status) : decoder s.toJson = .ok s := by
  cases s <;> rfl

/-- A number of 32 bits is decoded from its JSON form. -/
theorem Json.nat32_int (n : UInt32) : Json.nat32 (.int n.toNat) = .ok n := by
  have hlt : n.toNat < UInt32.size := n.toNat_lt_size
  have hle : ((n.toNat : Int)) ≤ UInt32.size - 1 := by omega
  simp only [Json.nat32, Json.integer]
  -- the number is in the range of the decoder, as it comes out of it
  rw [if_pos (by simp only [Bool.and_eq_true, decide_eq_true_eq]; omega)]
  simp [Except.map]

namespace Note

/-- A note is decoded with the time that its JSON form shows. -/
theorem decoder_toJson (n : Note τ) : decoder n.toJson = .ok n.asWritten := by
  refine Json.Record.Reads.decode_obj (a := n.asWritten) ?_ rfl (by decide)
  refine .seq (.seq (.seq (.seq (.map (.required rfl ?_) _) (.optional rfl ?_))
    (.optional rfl ?_)) (.required rfl ?_)) (.required rfl ?_)
  · exact Uuid.decoder_toJson n.uuid
  · exact Json.optional_ofOption Uuid.decoder_toJson
  · exact Json.optional_ofOption fun _ => rfl
  · exact Instant.decoder_toJson (timestamp n.createdTime)
  · rfl

theorem readable_toJson (depth : Nat) (n : Note τ) : Json.Readable (depth + 1) n.toJson := by
  refine .obj ?_
  intro f hf
  simp only [List.mem_cons, List.not_mem_nil, or_false] at hf
  rcases hf with rfl | rfl | rfl | rfl | rfl
  · exact .str _
  · exact Json.readable_ofOption fun _ => .str _
  · exact Json.readable_ofOption fun _ => .str _
  · exact .str _
  · exact .str _

end Note

/-! ### Events -/

namespace Event

/-- An event is decoded with the times that its JSON form shows. -/
theorem decoder_toJson (e : Event τ) : decoder e.toJson = .ok e.asWritten := by
  refine Json.Record.Reads.decode_obj (a := e.asWritten) ?_ rfl (by decide)
  refine .seq (.seq (.seq (.seq (.seq (.seq (.seq (.seq (.seq (.seq (.seq (.seq (.seq (.seq (.seq
    (.seq (.seq (.seq (.map (.required rfl ?_) _)
      (.required rfl ?_)) (.required rfl ?_)) (.required rfl ?_)) (.required rfl ?_))
      (.required rfl ?_)) (.required rfl ?_)) (.required rfl ?_)) (.optional rfl ?_))
      (.optional rfl ?_)) (.optional rfl ?_)) (.required rfl ?_)) (.required rfl ?_))
      (.defaulted rfl ?_)) (.required rfl ?_)) (.defaulted rfl ?_)) (.defaulted rfl ?_))
      (.defaulted rfl ?_)) (.defaulted rfl ?_)
  -- each field is found by its name, so what is left is to decode the values one by one
  · exact Uuid.decoder_toJson e.uuid
  · exact Status.decoder_toJson e.status
  · exact Severity.decoder_toJson e.severity
  · exact Instant.decoder_toJson (timestamp e.firstSeen)
  · exact Instant.decoder_toJson (timestamp e.lastSeen)
  · exact Instant.decoder_toJson (timestamp e.statusChange)
  · exact Instant.decoder_toJson (timestamp e.updateTime)
  · exact Json.nat32_int e.count
  · exact Json.optional_ofOption Uuid.decoder_toJson
  · exact Json.optional_ofOption fun _ => rfl
  · exact Json.optional_ofOption Uuid.decoder_toJson
  · rfl
  · rfl
  · rfl
  · rfl
  · exact Json.optional_ofOption fun _ => rfl
  · exact Json.optional_ofOption fun _ => rfl
  · have htags := Json.list_map (d := Json.text) (f := Json.str) (g := id) (l := e.tags) fun _ => rfl
    rwa [List.map_id] at htags
  · exact Json.list_map Note.decoder_toJson

/-- The JSON form of an event holds nothing that could not be read back. -/
theorem readable_toJson (e : Event τ) : Json.Readable Json.maxDepth e.toJson := by
  -- an event is nested three deep: the object, its list of notes, and a note
  change Json.Readable (124 + 1 + 1 + 1) e.toJson
  refine .obj ?_
  intro f hf
  have hcount : e.count.toNat < UInt32.size := e.count.toNat_lt_size
  have hsize : UInt32.size = 4294967296 := rfl
  simp only [List.mem_cons, List.not_mem_nil, or_false] at hf
  rcases hf with rfl | rfl | rfl | rfl | rfl | rfl | rfl | rfl | rfl | rfl | rfl | rfl | rfl |
    rfl | rfl | rfl | rfl | rfl | rfl
  · exact .str _
  · exact .str _
  · exact .str _
  · exact .str _
  · exact .str _
  · exact .str _
  · exact .str _
  · exact .int (by omega) (by omega)
  · exact Json.readable_ofOption fun _ => .str _
  · exact Json.readable_ofOption fun _ => .str _
  · exact Json.readable_ofOption fun _ => .str _
  · exact .str _
  · exact .str _
  · exact .str _
  · exact .str _
  · exact Json.readable_ofOption fun _ => .str _
  · exact Json.readable_ofOption fun _ => .str _
  · refine .arr fun v hv => ?_
    obtain ⟨t, -, rfl⟩ := List.mem_map.1 hv
    exact .str t
  · refine .arr fun v hv => ?_
    obtain ⟨n, -, rfl⟩ := List.mem_map.1 hv
    exact n.readable_toJson 124

/-- **What is read back** from the JSON text of an event is the event with the times that are written there. -/
theorem decodeText_render (e : Event τ) : Json.decodeText decoder e.toJson.render = .ok e.asWritten := by
  simp only [Json.decodeText, Json.read_render e.readable_toJson, decoder_toJson, if_true]

end Event

end

end EventCatalog
