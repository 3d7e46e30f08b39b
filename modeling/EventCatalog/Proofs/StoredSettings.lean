import EventCatalog.Proofs.SettingKinds

/-!
# Stored settings read back

Settings are stored as records of a name and a text, and reading lays the records over the defaults. What is read
depends on the last record of each name alone, as long as all records can be parsed (`EventSettings.decode_eq_ok_iff`):
the settings that are read are those whose values are written just as these records say. From this the two
statements on whole lists of records follow: which lists can be read at all, and that the records of settings are
read back, in any order and among others (`EventSettings.decode_interspersed`).

The reader goes through the records with a value for each name and parses each text as the sort of the value that
stands there. The values change on the way, their sorts do not: this is the invariant of `overlay_eq_ok_iff`, whose
induction is on the records.
-/

namespace EventCatalog

namespace SettingRecord

/-- The text of a record without the blanks around it. -/
def text (r : SettingRecord) : List Char := Text.trim r.value.toList

/-- If the record has the name of a setting, its text is JSON of the sort of that setting. -/
def Parses (r : SettingRecord) : Prop := ∀ k, (r.name, k) ∈ SettingKind.named → k.Parses r.text

/-- The last record with a name. -/
def lastOf? (name : String) (records : List SettingRecord) : Option SettingRecord :=
  (records.filter fun r => r.name = name).getLast?

variable {r : SettingRecord} {name : String} {records : List SettingRecord}

theorem lastOf?_cons (r : SettingRecord) (records : List SettingRecord) (name : String) :
    lastOf? name (r :: records) = (lastOf? name records).or (if r.name = name then some r else none) := by
  by_cases h : r.name = name
  · rw [lastOf?, List.filter_cons_of_pos (by simpa using h), List.getLast?_cons, if_pos h, ← lastOf?]
    -- a later record of the name comes before this one
    cases lastOf? name records <;> rfl
  · rw [lastOf?, List.filter_cons_of_neg (by simpa using h), if_neg h, ← lastOf?, Option.or_none]

end SettingRecord

namespace EventSettings

open SettingKind (named)
open SettingRecord (lastOf?)

variable {s : EventSettings} {g : String → Json} {records : List SettingRecord} {n : String} {k : SettingKind}

/-! ### Laying records over values -/

/-- The kind of the setting with a name. -/
private theorem lookup_named (h : (n, k) ∈ named) : named.lookup n = some k :=
  Json.Record.lookup_eq_some (f := (n, k)) (by decide) h

private theorem match_number_eq_ok {s : List Char} {v : Json} {e : ServiceError} :
    (match Json.number s with
      | some (v, []) => Except.ok v
      | _ => Except.error e) = .ok v ↔ Json.number s = some (v, []) := by
  constructor
  · intro h
    split at h
    · next heq => rw [heq, Except.ok.inj h]
    · cases h
  · intro h
    rw [h]

/-- A text is parsed as the sort of the value that it replaces. -/
private theorem parseValue_eq_ok {v current : Json} {text : String} (h : k.Replaces current) :
    parseValue n current text = .ok v ↔ k.read? (Text.trim text.toList) = some v := by
  cases k with
  | truth =>
    obtain ⟨b, rfl⟩ := h
    simp only [parseValue, SettingKind.read?]
    split
    · exact ⟨fun h => congrArg some (Except.ok.inj h), fun h => congrArg Except.ok (Option.some.inj h)⟩
    split
    · exact ⟨fun h => congrArg some (Except.ok.inj h), fun h => congrArg Except.ok (Option.some.inj h)⟩
    · simp
  | whole =>
    -- over a number of either sort any number may be laid
    rcases h with ⟨x, rfl⟩ | ⟨m, rfl⟩
    all_goals exact match_number_eq_ok.trans Json.numberOf?_eq_some.symm
  | severity =>
    rcases h with ⟨x, rfl⟩ | ⟨m, rfl⟩
    all_goals exact match_number_eq_ok.trans Json.numberOf?_eq_some.symm

/-- The value at a name when records have been laid over: that of the last record of the name. -/
def overlaid (g : String → Json) (records : List SettingRecord) (n : String) : Json :=
  match lastOf? n records with
  | none => g n
  | some r => ((named.lookup n).bind fun k => k.read? r.text).getD .null

theorem overlaid_nil (g : String → Json) : overlaid g [] = g := rfl

/-- A record that is read first changes the value at its name, unless another comes later. -/
private theorem overlaid_update {r : SettingRecord} {v : Json} (hk : (r.name, k) ∈ named)
    (hv : k.read? r.text = some v) :
    overlaid (Function.update g r.name v) records = overlaid g (r :: records) := by
  funext n
  rw [overlaid, overlaid, SettingRecord.lastOf?_cons]
  -- at the name of the record its value stands if no later record is there
  by_cases hn : r.name = n
  · subst hn
    rw [if_pos rfl]
    cases lastOf? r.name records with
    | none => simp [lookup_named hk, hv]
    | some r' => rfl
  · rw [if_neg hn, Option.or_none, Function.update_of_ne (Ne.symm hn)]

/-- A record with an unknown name changes no value of a setting. -/
private theorem overlaid_unknown {r : SettingRecord} (hn : n ∈ names) (hr : r.name ∉ names) :
    overlaid g (r :: records) n = overlaid g records n := by
  rw [overlaid, overlaid, SettingRecord.lastOf?_cons, if_neg (fun heq => hr (by rw [heq]; exact hn)), Option.or_none]

/-- Another value of the right sort keeps all values so. -/
private theorem replaces_update {m : String} {v : Json} (hg : ∀ n k, (n, k) ∈ named → k.Replaces (g n))
    (hk : (m, k) ∈ named) (hv : k.Replaces v) :
    ∀ n k, (n, k) ∈ named → k.Replaces (Function.update g m v n) := by
  intro n k' hk'
  by_cases hn : n = m
  · subst hn
    rw [Function.update_self, Option.some.inj ((lookup_named hk').symm.trans (lookup_named hk))]
    exact hv
  · rw [Function.update_of_ne hn]
    exact hg n k' hk'

/-- **Laying records over values** succeeds if all can be parsed, and leaves the last value of each name. -/
theorem overlay_eq_ok_iff {fields : List (String × Json)} (hg : ∀ n k, (n, k) ∈ named → k.Replaces (g n)) :
    overlay (Json.tabulate names g) records = .ok fields ↔
      (∀ r ∈ records, r.Parses) ∧ fields = Json.tabulate names (overlaid g records) := by
  induction records generalizing g with
  | nil =>
    rw [overlay, overlaid_nil]
    constructor
    · intro h
      exact ⟨by simp, (Except.ok.inj h).symm⟩
    · rintro ⟨-, rfl⟩
      rfl
  | cons r records ih =>
    rw [overlay, Json.lookup_tabulate]
    rw [List.forall_mem_cons]
    by_cases hr : r.name ∈ names
    · obtain ⟨k, hk⟩ := mem_names.1 hr
      have hparses : r.Parses ↔ ∃ v, k.read? r.text = some v := by
        rw [← SettingKind.parses_iff]
        constructor
        · intro h
          exact h k hk
        · intro h k' hk'
          rw [Option.some.inj ((lookup_named hk').symm.trans (lookup_named hk))]
          exact h
      rw [if_pos hr]
      simp only [Except.bind_eq_ok, parseValue_eq_ok (hg r.name k hk), hparses]
      constructor
      · rintro ⟨v, hv, h⟩
        -- the value is of the sort of the one that it replaces
        have hg' := replaces_update hg hk (SettingKind.replaces_of_read? hv)
        rw [Json.insertField_tabulate pairwise_names hr, ih hg', overlaid_update hk hv] at h
        exact ⟨⟨⟨v, hv⟩, h.1⟩, h.2⟩
      · rintro ⟨⟨⟨v, hv⟩, h⟩, hfields⟩
        have hg' := replaces_update hg hk (SettingKind.replaces_of_read? hv)
        refine ⟨v, hv, ?_⟩
        rw [Json.insertField_tabulate pairwise_names hr, ih hg', overlaid_update hk hv]
        exact ⟨h, hfields⟩
    -- an unknown name is passed over, whatever its text
    · have hparses : r.Parses := fun k hk => absurd (mem_names.2 ⟨k, hk⟩) hr
      have hsame : Json.tabulate names (overlaid g (r :: records)) = Json.tabulate names (overlaid g records) :=
        Json.tabulate_congr fun n hn => overlaid_unknown hn hr
      rw [if_neg hr, hsame]
      simp only [hparses, true_and]
      exact ih hg

/-! ### Reading records -/

private theorem canonical_eq_int {v : Json} {m : Int} : v.canonical = .int m ↔ v = .int m := by
  cases v <;> simp [Json.canonical]

private theorem canonical_eq_bool {v : Json} {b : Bool} : v.canonical = .bool b ↔ v = .bool b := by
  cases v <;> simp [Json.canonical]

/-- A value of a setting is found in its order again. -/
private theorem canonical_eq_value {v : Json} (hn : n ∈ names) : v.canonical = s.value n ↔ v = s.value n := by
  obtain ⟨k, hk⟩ := mem_names.1 hn
  have hfits := s.fits_value hk
  cases k with
  | whole =>
    obtain ⟨m, hm⟩ := hfits
    rw [hm, canonical_eq_int]
  | severity =>
    obtain ⟨m, hm⟩ := hfits
    rw [hm, canonical_eq_int]
  | truth =>
    obtain ⟨b, hb⟩ := hfits
    rw [hb, canonical_eq_bool]

/-- Values by name are decoded as the settings that have them. -/
private theorem decodeValue_eq_ok_iff :
    Json.decodeValue decoder (.obj (Json.tabulate names g)) = .ok s ↔ ∀ n ∈ names, g n = s.value n := by
  have hcanonical : (Json.obj (Json.tabulate names g)).canonical =
      .obj (Json.tabulate names fun n => (g n).canonical) := by
    rw [Json.canonical, Json.canonicalFields_tabulate, Json.sortFields_tabulate,
      Json.sortedNames_of_pairwise pairwise_names]
  rw [Json.decodeValue, hcanonical, decoder_eq_ok_iff]
  exact forall₂_congr fun n hn => canonical_eq_value hn

/-- What the last record of a name says of its value: if there is none, the default holds. -/
def IsLastValue (records : List SettingRecord) (n : String) (v : Json) : Prop :=
  match lastOf? n records with
  | none => v = EventSettings.default.value n
  | some r => r.text = v.renderChars

private theorem overlaid_eq_iff (hk : (n, k) ∈ named) :
    overlaid EventSettings.default.value records n = s.value n ↔ IsLastValue records n (s.value n) := by
  have hfits := s.fits_value hk
  rw [overlaid, IsLastValue]
  cases lastOf? n records with
  | none => exact eq_comm
  | some r =>
    -- a value of the kind is read from the one text that is written for it
    simp only [lookup_named hk, Option.bind_some, ← hfits.read?_eq_some]
    cases k.read? r.text with
    | none => exact ⟨fun h => absurd h.symm hfits.ne_null, fun h => absurd h (by simp)⟩
    | some v => simp

/-- **Reading records.** Settings are read when all records can be parsed, and they are those whose values are
written as the last record of each name says. -/
theorem decode_eq_ok_iff : decode records = .ok s ↔
    (∀ r ∈ records, r.Parses) ∧ ∀ n k, (n, k) ∈ named → IsLastValue records n (s.value n) := by
  have hdefault : ∀ n k, (n, k) ∈ named → k.Replaces (EventSettings.default.value n) :=
    fun n k hk => (EventSettings.default.fits_value hk).replaces
  rw [decode, sortFields_fields, Except.bind_eq_ok]
  constructor
  · rintro ⟨fields, hfields, h⟩
    obtain ⟨hparses, rfl⟩ := (overlay_eq_ok_iff hdefault).1 hfields
    split at h
    · next t ht =>
      obtain rfl : t = s := Except.ok.inj h
      refine ⟨hparses, fun n k hk => (overlaid_eq_iff hk).1 ?_⟩
      exact decodeValue_eq_ok_iff.1 ht n (mem_names.2 ⟨k, hk⟩)
    · cases h
  · rintro ⟨hparses, hlast⟩
    refine ⟨_, (overlay_eq_ok_iff hdefault).2 ⟨hparses, rfl⟩, ?_⟩
    have hvalues : ∀ n ∈ names, overlaid EventSettings.default.value records n = s.value n := by
      intro n hn
      obtain ⟨k, hk⟩ := mem_names.1 hn
      exact (overlaid_eq_iff hk).2 (hlast n k hk)
    rw [decodeValue_eq_ok_iff.2 hvalues]
    rfl

/-- **Which records can be read**: those that can be parsed, if the last of each name holds a value of the kind of its
setting. -/
theorem exists_decode_iff : (∃ s, decode records = .ok s) ↔ (∀ r ∈ records, r.Parses) ∧
    ∀ n k r, (n, k) ∈ named → lastOf? n records = some r → k.Holds r.text := by
  simp only [decode_eq_ok_iff]
  constructor
  · rintro ⟨s, hparses, hlast⟩
    refine ⟨hparses, fun n k r hk hr => SettingKind.holds_iff.2 ⟨_, s.fits_value hk, ?_⟩⟩
    have hvalue := hlast n k hk
    rwa [IsLastValue, hr] at hvalue
  · rintro ⟨hparses, hlast⟩
    -- a value for each name, from the last record or from the defaults
    have hvalue : ∀ n k, (n, k) ∈ named → ∃ v, k.Fits v ∧ IsLastValue records n v := by
      intro n k hk
      cases hr : lastOf? n records with
      | none => exact ⟨_, EventSettings.default.fits_value hk, by rw [IsLastValue, hr]⟩
      | some r =>
        obtain ⟨v, hv, htext⟩ := SettingKind.holds_iff.1 (hlast n k r hk hr)
        exact ⟨v, hv, by rw [IsLastValue, hr]; exact htext⟩
    choose! v hfits hv using hvalue
    -- the value is asked for by name alone, with the kind from the table
    have hkind : ∀ n k, (n, k) ∈ named → v n ((named.lookup n).getD .whole) = v n k := by
      intro n k hk
      rw [lookup_named hk, Option.getD_some]
    obtain ⟨s, hs⟩ := exists_value (g := fun n => v n ((named.lookup n).getD .whole)) (by
      intro n k hk
      rw [hkind n k hk]
      exact hfits n k hk)
    refine ⟨s, hparses, fun n k hk => ?_⟩
    rw [← hs n (mem_names.2 ⟨k, hk⟩), hkind n k hk]
    exact hv n k hk

/-! ### The records of settings -/

theorem encode_eq (s : EventSettings) : s.encode = names.map fun n => ⟨n, (s.value n).render⟩ := by
  rw [encode, sortFields_fields, Json.tabulate, List.map_map]
  rfl

theorem map_name_encode (s : EventSettings) : s.encode.map SettingRecord.name = names := by
  rw [encode_eq, List.map_map]
  exact List.map_id names

/-- The text of a value has no blanks. -/
private theorem isBlank_of_mem_renderChars {v : Json} (h : k.Fits v) {c : Char} (hc : c ∈ v.renderChars) :
    Text.isBlank c = false := by
  -- a numeral is made of digits and perhaps a minus sign
  have hint : ∀ m : Int, c ∈ Json.renderInt m → Text.isBlank c = false := by
    intro m hm
    rw [Json.renderInt] at hm
    split at hm
    · rcases List.mem_cons.1 hm with rfl | hm
      · exact Text.isBlank_of_visible (by decide) (by decide)
      · exact Text.isBlank_of_isDigit (Text.isDigit_of_mem_toDigits hm)
    · exact Text.isBlank_of_isDigit (Text.isDigit_of_mem_toDigits hm)
  cases k with
  | whole => obtain ⟨m, rfl⟩ := h; exact hint _ (by rwa [Json.renderChars] at hc)
  | severity => obtain ⟨m, rfl⟩ := h; exact hint _ (by rwa [Json.renderChars] at hc)
  | truth =>
    obtain ⟨b, rfl⟩ := h
    cases b with
    | true =>
      simp only [Json.renderChars, List.mem_cons, List.not_mem_nil, or_false] at hc
      rcases hc with rfl | rfl | rfl | rfl
      all_goals exact Text.isBlank_of_visible (by decide) (by decide)
    | false =>
      simp only [Json.renderChars, List.mem_cons, List.not_mem_nil, or_false] at hc
      rcases hc with rfl | rfl | rfl | rfl | rfl
      all_goals exact Text.isBlank_of_visible (by decide) (by decide)

/-- A record of settings has the text of the value. -/
theorem text_of_mem_encode {r : SettingRecord} (hr : r ∈ s.encode) (hk : (r.name, k) ∈ named) :
    r.text = (s.value r.name).renderChars := by
  rw [encode_eq] at hr
  obtain ⟨n, -, rfl⟩ := List.mem_map.1 hr
  rw [SettingRecord.text, Json.render, String.toList_ofList]
  exact Text.trim_eq_self fun c hc => isBlank_of_mem_renderChars (s.fits_value hk) hc

theorem parses_of_mem_encode {r : SettingRecord} (hr : r ∈ s.encode) : r.Parses := by
  intro k hk
  rw [SettingKind.parses_iff]
  exact ⟨_, (s.fits_value hk).read?_eq_some.2 (text_of_mem_encode hr hk)⟩

/-- Records in their order with others among them: records with unknown names anywhere, and before a record others
with its name that can be parsed. -/
inductive Interspersed : List SettingRecord → List SettingRecord → Prop
  | nil : Interspersed [] []
  | own {own records : List SettingRecord} (r : SettingRecord) (h : Interspersed own records) :
    Interspersed (r :: own) (r :: records)
  | unknown {own records : List SettingRecord} (r : SettingRecord) (hr : ∀ k, (r.name, k) ∉ named)
    (h : Interspersed own records) : Interspersed own (r :: records)
  | earlier {own records : List SettingRecord} (r : SettingRecord) (hr : r.Parses)
    (hlater : r.name ∈ own.map SettingRecord.name) (h : Interspersed own records) :
    Interspersed own (r :: records)

namespace Interspersed

variable {own : List SettingRecord}

theorem refl (own : List SettingRecord) : Interspersed own own := by
  induction own with
  | nil => exact .nil
  | cons r own ih => exact .own r ih

theorem parses (h : Interspersed own records) (hown : ∀ r ∈ own, r.Parses) : ∀ r ∈ records, r.Parses := by
  induction h with
  | nil => exact hown
  | own r h ih =>
    rw [List.forall_mem_cons] at hown ⊢
    exact ⟨hown.1, ih hown.2⟩
  | unknown r hr h ih => exact List.forall_mem_cons.2 ⟨fun k hk => absurd hk (hr k), ih hown⟩
  | earlier r hr hlater h ih => exact List.forall_mem_cons.2 ⟨hr, ih hown⟩

/-- The others have no known name but those of the records. -/
theorem lastOf?_eq_none (h : Interspersed own records) (hk : (n, k) ∈ named)
    (hn : n ∉ own.map SettingRecord.name) : lastOf? n records = none := by
  induction h with
  | nil => rfl
  | own r h ih =>
    rw [List.map_cons, List.mem_cons, not_or] at hn
    rw [SettingRecord.lastOf?_cons, ih hn.2, if_neg (Ne.symm hn.1)]
    rfl
  | unknown r hr h ih =>
    rw [SettingRecord.lastOf?_cons, ih hn, if_neg (fun heq => hr k (by rw [heq]; exact hk))]
    rfl
  | earlier r hr hlater h ih =>
    -- an earlier record only has a name that a later one has as well
    rw [SettingRecord.lastOf?_cons, ih hn, if_neg (fun heq => hn (by rw [← heq]; exact hlater))]
    rfl

/-- Each of the records is the last of its name. -/
theorem lastOf?_eq_some (h : Interspersed own records) (hnodup : (own.map SettingRecord.name).Nodup)
    {r : SettingRecord} (hr : r ∈ own) (hk : (r.name, k) ∈ named) : lastOf? r.name records = some r := by
  induction h with
  | nil => exact absurd hr (by simp)
  | own r' h ih =>
    rw [List.map_cons, List.nodup_cons] at hnodup
    rw [SettingRecord.lastOf?_cons]
    rcases List.mem_cons.1 hr with rfl | hr
    -- nothing behind it has its name, since the names are all different
    · rw [h.lastOf?_eq_none hk hnodup.1, if_pos rfl]
      rfl
    · rw [ih hnodup.2 hr]
      rfl
  | unknown r' hr' h ih =>
    rw [SettingRecord.lastOf?_cons, ih hnodup hr]
    rfl
  | earlier r' hr' hlater h ih =>
    rw [SettingRecord.lastOf?_cons, ih hnodup hr]
    rfl

end Interspersed

/-- The records of settings are read back in any order and among others. -/
theorem decode_of_interspersed {own : List SettingRecord} (hown : own.Perm s.encode)
    (h : Interspersed own records) : decode records = .ok s := by
  have hnodup : (own.map SettingRecord.name).Nodup := by
    rw [(hown.map _).nodup_iff, map_name_encode]
    exact pairwise_names.imp ne_of_lt
  refine decode_eq_ok_iff.2 ⟨h.parses fun r hr => parses_of_mem_encode (hown.mem_iff.1 hr), ?_⟩
  intro n k hk
  -- the record that was written for this setting is the last of its name
  have hmem : (⟨n, (s.value n).render⟩ : SettingRecord) ∈ s.encode := by
    rw [encode_eq]
    exact List.mem_map.2 ⟨n, mem_names.2 ⟨k, hk⟩, rfl⟩
  have hlast := h.lastOf?_eq_some hnodup (hown.mem_iff.2 hmem) hk
  rw [IsLastValue, hlast]
  exact text_of_mem_encode hmem hk

/-- **Settings survive their record form.** They are read back from their records, also when these are in another
order and have others among them: any with unknown names, and earlier ones with known names that can be parsed. Records
can be read at all exactly when each with a known name is JSON of the sort of its setting and the last of each name is
a whole number of 64 bits, the code of a severity or a truth value, as the setting requires. -/
theorem decode_interspersed (s : EventSettings) (records : List SettingRecord) :
    decode s.encode = .ok s ∧
      (∀ own, own.Perm s.encode → Interspersed own records → decode records = .ok s) ∧
      ((∃ t, decode records = .ok t) ↔ (∀ r ∈ records, ∀ k, (r.name, k) ∈ named → k.Parses r.text) ∧
        ∀ n k r, (n, k) ∈ named → lastOf? n records = some r → k.Holds r.text) :=
  ⟨decode_of_interspersed (.refl _) (.refl _), fun _ => decode_of_interspersed, exists_decode_iff⟩

/-- Settings with the least and the greatest number of 64 bits. -/
def extremes : EventSettings :=
  ⟨Int64.minValue, .critical, true, Int64.maxValue, 30, 3, 255, 1000, 30000, 0⟩

/-- The records of such settings in reverse, behind an unknown name and a limit that is a number but too large. -/
def extremeRecords : List SettingRecord :=
  ⟨"no_such_setting", "x"⟩ :: ⟨"index_limit", " 18446744073709551615\n"⟩ :: extremes.encode.reverse

theorem decode_interspersed_extremes : Interspersed extremes.encode.reverse extremeRecords ∧
    decode extremeRecords = .ok extremes := by
  -- the limit can be parsed as a number, though it does not fit; it is no matter, as another one comes later
  have hparses : SettingRecord.Parses ⟨"index_limit", " 18446744073709551615\n"⟩ := by
    intro k hk
    obtain rfl : SettingKind.whole = k := Option.some.inj ((by decide : some _ = _).trans (lookup_named hk))
    have htext : SettingRecord.text ⟨"index_limit", " 18446744073709551615\n"⟩ =
        Json.renderInt 18446744073709551615 := by decide +kernel
    exact ⟨_, htext ▸ (Json.number_eq_int_iff (by decide) (by decide)).2 rfl⟩
  have hlater : "index_limit" ∈ extremes.encode.reverse.map SettingRecord.name := by
    rw [List.map_reverse, List.mem_reverse, map_name_encode, mem_names]
    exact ⟨.whole, by decide⟩
  have hinterspersed : Interspersed extremes.encode.reverse extremeRecords :=
    .unknown _ (by intro k; cases k <;> decide) (.earlier _ hparses hlater (.refl _))
  exact ⟨hinterspersed,
    (decode_interspersed extremes extremeRecords).2.1 _ (List.reverse_perm _) hinterspersed⟩

end EventSettings

end EventCatalog
