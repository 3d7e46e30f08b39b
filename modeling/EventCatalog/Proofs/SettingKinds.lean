import EventCatalog.Proofs.FilterQueries
import EventCatalog.Proofs.JsonNumbers
import EventCatalog.Proofs.NamedFields
import EventCatalog.Settings.Record

/-!
# The kinds of settings

A setting is a whole number of 64 bits, a severity, stored by its code, or a truth value (`SettingKind.named`).
Two things are asked of the text of a stored setting. Reading it asks for JSON of the right sort: a truth value,
or a number of any size, whole or not (`SettingKind.Parses`). Only when all records have been read the last
numbers are asked to be whole, of 64 bits, and codes of severities (`SettingKind.Holds`).

The reader takes the sort of a value from the one that it replaces. `SettingKind.Replaces` says that a value
is of the right sort, and what is read is so again (`SettingKind.replaces_of_read?`).

The values of settings are looked up by name, `EventSettings.value`. An object that has a value for each name is
decoded as the settings that have these values (`EventSettings.decoder_eq_ok_iff`).
-/

namespace EventCatalog

/-! ### Decoders of single values -/

namespace Json

variable {v : Json}

namespace Record

variable {α β : Type} {given : String → Option Json}

theorem build_map_eq_ok {f : α → β} {x : Record α} {b : β} :
    (f <$> x).build given = .ok b ↔ ∃ a, x.build given = .ok a ∧ f a = b := by
  change (x.build given).map f = _ ↔ _
  cases x.build given with
  | error e =>
    constructor
    · intro h
      cases h
    · rintro ⟨a, h, -⟩
      cases h
  | ok a =>
    constructor
    · intro h
      exact ⟨a, rfl, Except.ok.inj h⟩
    · rintro ⟨a', ha, rfl⟩
      rw [Except.ok.inj ha]
      rfl

theorem build_seq_eq_ok {f : Record (α → β)} {x : Record α} {b : β} :
    (f <*> x).build given = .ok b ↔ ∃ g a, f.build given = .ok g ∧ x.build given = .ok a ∧ g a = b := by
  change (f.build given >>= fun g => x.build given >>= fun a => Except.ok (g a)) = _ ↔ _
  simp only [Except.bind_eq_ok, Except.ok.injEq]
  constructor
  · rintro ⟨g, hg, a, ha, rfl⟩
    exact ⟨g, a, hg, ha, rfl⟩
  · rintro ⟨g, a, hg, ha, rfl⟩
    exact ⟨g, hg, a, ha, rfl⟩

/-- A field that is given is decoded. -/
theorem build_defaulted {name : String} {d : Decoder α} {default : α} (h : given name = some v) :
    (Record.defaulted name d default).build given = d v := by
  simp only [Record.defaulted, h]

end Record

theorem int64_eq_ok {n : Int64} : int64 v = .ok n ↔ v = .int n.toInt := by
  constructor
  · intro h
    cases v with
    | int k =>
      simp only [int64, signed64, integer] at h
      split at h
      · next hrange =>
        obtain rfl : Int64.ofInt k = n := Except.ok.inj h
        simp only [Int64.toInt_minValue, Int64.toInt_maxValue, Bool.and_eq_true, decide_eq_true_eq] at hrange
        -- within the range nothing wraps around
        rw [Int64.toInt_ofInt_of_le (by omega) (by omega)]
      · cases h
    | _ => cases h
  · rintro rfl
    simp only [int64, signed64, integer]
    rw [if_pos (by
      simp only [Bool.and_eq_true, decide_eq_true_eq]
      exact ⟨n.minValue_le_toInt, n.toInt_le⟩)]
    exact congrArg Except.ok (Int64.ofInt_toInt n)

/-- The number that the text is as a whole. -/
def numberOf? (s : List Char) : Option Json :=
  match number s with
  | some (v, []) => some v
  | _ => none

theorem numberOf?_eq_some {s : List Char} : numberOf? s = some v ↔ number s = some (v, []) := by
  rw [numberOf?]
  constructor
  · intro h
    split at h
    · next heq => rw [heq, Option.some.inj h]
    · cases h
  · intro h
    rw [h]

theorem boolean_eq_ok {b : Bool} : boolean v = .ok b ↔ v = .bool b := by
  cases v with
  | bool c => simp [boolean]
  | _ =>
    constructor
    · intro h
      cases h
    · intro h
      cases h

end Json

theorem EventSettings.severityCode_eq_ok {v : Json} {s : Severity} :
    severityCode v = .ok s ↔ v = .int s.code := by
  -- codes are small, so they are the same in 64 bits
  have hcode : (Int64.ofInt s.code).toInt = s.code := by cases s <;> rfl
  rw [severityCode, Except.bind_eq_ok]
  constructor
  · rintro ⟨n, hn, h⟩
    split at h
    · next t ht =>
      obtain rfl : t = s := Except.ok.inj h
      rw [Json.int64_eq_ok.1 hn, Severity.ofCode?_eq_some.1 ht]
    · cases h
  · rintro rfl
    refine ⟨Int64.ofInt s.code, Json.int64_eq_ok.2 (by rw [hcode]), ?_⟩
    rw [hcode, Severity.ofCode?_code]
    rfl

/-! ### Kinds -/

/-- What the value of a setting may be. -/
inductive SettingKind where
  /-- A whole number of 64 bits. -/
  | whole
  /-- A severity, by its code. -/
  | severity
  | truth
deriving DecidableEq, Repr

namespace SettingKind

/-- The kinds of the settings by their names. -/
def named : List (String × SettingKind) := [
  ("event_age_interval_minutes", .whole),
  ("event_age_disable_severity", .severity),
  ("event_age_severity_inclusive", .truth),
  ("event_archive_purge_interval_days", .whole),
  ("event_occurrence_purge_interval_days", .whole),
  ("event_archive_interval_days", .whole),
  ("event_max_summary_length", .whole),
  ("index_summary_interval_milliseconds", .whole),
  ("index_archive_interval_milliseconds", .whole),
  ("index_limit", .whole)]

/-- The text is JSON of the sort that the kind is written in: a truth value or a number. -/
def Parses : SettingKind → List Char → Prop
  | truth, s => s = "true".toList ∨ s = "false".toList
  | _, s => ∃ v, Json.number s = some (v, [])

/-- The text is that of a value of the kind. -/
def Holds : SettingKind → List Char → Prop
  | whole, s => ∃ n : Int64, s = Json.renderInt n.toInt
  | severity, s => ∃ v : Severity, s = Json.renderInt v.code
  | truth, s => s = "true".toList ∨ s = "false".toList

/-- The value is one of the kind. -/
def Fits : SettingKind → Json → Prop
  | whole, v => ∃ n : Int64, v = .int n.toInt
  | severity, v => ∃ s : Severity, v = .int s.code
  | truth, v => ∃ b, v = .bool b

/-- The value is of the sort that the kind is written in. -/
def Replaces : SettingKind → Json → Prop
  | truth, v => ∃ b, v = .bool b
  | _, v => (∃ x, v = .real x) ∨ ∃ n, v = .int n

/-- The value that the text is read as. -/
def read? : SettingKind → List Char → Option Json
  | truth, s =>
    if s = "true".toList then some (.bool true)
    else if s = "false".toList then some (.bool false)
    else none
  | _, s => Json.numberOf? s

variable {k : SettingKind} {v : Json} {s : List Char}

theorem Fits.replaces (h : k.Fits v) : k.Replaces v := by
  cases k with
  | whole => obtain ⟨n, rfl⟩ := h; exact .inr ⟨_, rfl⟩
  | severity => obtain ⟨s, rfl⟩ := h; exact .inr ⟨_, rfl⟩
  | truth => exact h

theorem Fits.ne_null (h : k.Fits v) : v ≠ .null := by
  cases k with
  | whole => obtain ⟨n, rfl⟩ := h; simp
  | severity => obtain ⟨s, rfl⟩ := h; simp
  | truth => obtain ⟨b, rfl⟩ := h; simp

theorem parses_iff : k.Parses s ↔ ∃ v, k.read? s = some v := by
  cases k with
  | truth =>
    rw [Parses]
    constructor
    · rintro (rfl | rfl) <;> exact ⟨_, rfl⟩
    · rintro ⟨v, hv⟩
      rw [read?] at hv
      split at hv
      · exact .inl ‹_›
      split at hv
      · exact .inr ‹_›
      · cases hv
  | whole => exact exists_congr fun v => Json.numberOf?_eq_some.symm
  | severity => exact exists_congr fun v => Json.numberOf?_eq_some.symm

/-- **The sort of a value** is kept by reading another in its place. -/
theorem replaces_of_read? (h : k.read? s = some v) : k.Replaces v := by
  cases k with
  | truth =>
    rw [read?] at h
    split at h
    · exact ⟨true, (Option.some.inj h).symm⟩
    split at h
    · exact ⟨false, (Option.some.inj h).symm⟩
    · cases h
  | whole =>
    -- a number is read as one, whole or not
    refine (Json.number_cases (Json.numberOf?_eq_some.1 h)).imp_right ?_
    rintro ⟨n, rfl, -⟩
    exact ⟨n, rfl⟩
  | severity =>
    refine (Json.number_cases (Json.numberOf?_eq_some.1 h)).imp_right ?_
    rintro ⟨n, rfl, -⟩
    exact ⟨n, rfl⟩

/-- A value of the kind is read from one text, the one that is written for it. -/
theorem Fits.read?_eq_some (h : k.Fits v) : k.read? s = some v ↔ s = Json.renderChars v := by
  cases k with
  | truth =>
    obtain ⟨b, rfl⟩ := h
    rw [read?]
    cases b with
    | true =>
      constructor
      · intro h
        split at h
        · next hs => exact hs
        split at h
        · exact absurd (Option.some.inj h) (by simp)
        · cases h
      · rintro rfl; rfl
    | false =>
      constructor
      · intro h
        split at h
        · exact absurd (Option.some.inj h) (by simp)
        split at h
        · next hs => exact hs
        · cases h
      · rintro rfl; rfl
  | whole =>
    obtain ⟨n, rfl⟩ := h
    -- numbers of 64 bits are among those that have one numeral
    have hl := n.le_toInt
    have hg := n.toInt_lt
    rw [Json.renderChars, ← Json.number_eq_int_iff (by omega) (by omega)]
    exact Json.numberOf?_eq_some
  | severity =>
    obtain ⟨t, rfl⟩ := h
    have hle : t.code ≤ 5 := by cases t <;> decide
    rw [Json.renderChars, ← Json.number_eq_int_iff (by omega) (by omega)]
    exact Json.numberOf?_eq_some

/-- What holds a value of the kind is the text written for one. -/
theorem holds_iff : k.Holds s ↔ ∃ v, k.Fits v ∧ s = Json.renderChars v := by
  cases k with
  | truth =>
    constructor
    · rintro (rfl | rfl)
      · exact ⟨_, ⟨true, rfl⟩, rfl⟩
      · exact ⟨_, ⟨false, rfl⟩, rfl⟩
    · rintro ⟨_, ⟨b, rfl⟩, rfl⟩
      cases b with
      | true => exact .inl rfl
      | false => exact .inr rfl
  | whole =>
    constructor
    · rintro ⟨n, rfl⟩
      exact ⟨_, ⟨n, rfl⟩, by rw [Json.renderChars]⟩
    · rintro ⟨_, ⟨n, rfl⟩, rfl⟩
      exact ⟨n, by rw [Json.renderChars]⟩
  | severity =>
    constructor
    · rintro ⟨t, rfl⟩
      exact ⟨_, ⟨t, rfl⟩, by rw [Json.renderChars]⟩
    · rintro ⟨_, ⟨t, rfl⟩, rfl⟩
      exact ⟨t, by rw [Json.renderChars]⟩

end SettingKind

/-! ### Values by name -/

namespace EventSettings

open SettingKind (named)

variable {s : EventSettings} {n : String} {k : SettingKind} {g : String → Json}

/-- The value of the setting of that name. -/
def value (s : EventSettings) (n : String) : Json := (s.fields.lookup n).getD .null

/-- The names of the settings in order. -/
def names : List String := Json.sortedNames (named.map Prod.fst)

theorem pairwise_names : names.Pairwise (· < ·) := Json.pairwise_sortedNames _

theorem mem_names : n ∈ names ↔ ∃ k, (n, k) ∈ named := by
  rw [names, Json.mem_sortedNames, List.mem_map]
  constructor
  · rintro ⟨f, hf, rfl⟩
    exact ⟨f.2, hf⟩
  · rintro ⟨k, hk⟩
    exact ⟨(n, k), hk, rfl⟩

theorem sortFields_fields (s : EventSettings) : Json.sortFields s.fields = Json.tabulate names s.value := by
  -- no two settings have the same name
  have hnodup : (s.fields.map Prod.fst).Nodup := show (named.map Prod.fst).Nodup by decide
  rw [← Json.tabulate_lookup hnodup, Json.sortFields_tabulate]
  rfl

/-- Every setting has a value of its kind. -/
theorem fits_value (s : EventSettings) (h : (n, k) ∈ named) : k.Fits (s.value n) := by
  -- the value at each name is by definition that of a field of its kind
  simp only [named, List.mem_cons, List.not_mem_nil, or_false, Prod.mk.injEq] at h
  rcases h with ⟨rfl, rfl⟩ | ⟨rfl, rfl⟩ | ⟨rfl, rfl⟩ | ⟨rfl, rfl⟩ | ⟨rfl, rfl⟩ | ⟨rfl, rfl⟩ | ⟨rfl, rfl⟩ |
    ⟨rfl, rfl⟩ | ⟨rfl, rfl⟩ | ⟨rfl, rfl⟩
  all_goals exact ⟨_, rfl⟩

/-- **Values of the right kinds** are those of settings. -/
theorem exists_value (h : ∀ n k, (n, k) ∈ named → k.Fits (g n)) :
    ∃ s : EventSettings, ∀ n ∈ names, g n = s.value n := by
  obtain ⟨ageInterval, h₁⟩ := h "event_age_interval_minutes" .whole (by simp [named])
  obtain ⟨ageDisable, h₂⟩ := h "event_age_disable_severity" .severity (by simp [named])
  obtain ⟨ageInclusive, h₃⟩ := h "event_age_severity_inclusive" .truth (by simp [named])
  obtain ⟨archivePurge, h₄⟩ := h "event_archive_purge_interval_days" .whole (by simp [named])
  obtain ⟨occurrencePurge, h₅⟩ := h "event_occurrence_purge_interval_days" .whole (by simp [named])
  obtain ⟨archive, h₆⟩ := h "event_archive_interval_days" .whole (by simp [named])
  obtain ⟨summaryLength, h₇⟩ := h "event_max_summary_length" .whole (by simp [named])
  obtain ⟨summaryPoll, h₈⟩ := h "index_summary_interval_milliseconds" .whole (by simp [named])
  obtain ⟨archivePoll, h₉⟩ := h "index_archive_interval_milliseconds" .whole (by simp [named])
  obtain ⟨limit, h₁₀⟩ := h "index_limit" .whole (by simp [named])
  -- each value goes into the field of its name
  refine ⟨⟨ageInterval, ageDisable, ageInclusive, archivePurge, occurrencePurge, archive, summaryLength,
    summaryPoll, archivePoll, limit⟩, ?_⟩
  intro n hn
  obtain ⟨k, hk⟩ := mem_names.1 hn
  simp only [named, List.mem_cons, List.not_mem_nil, or_false, Prod.mk.injEq] at hk
  rcases hk with ⟨rfl, -⟩ | ⟨rfl, -⟩ | ⟨rfl, -⟩ | ⟨rfl, -⟩ | ⟨rfl, -⟩ | ⟨rfl, -⟩ | ⟨rfl, -⟩ | ⟨rfl, -⟩ |
    ⟨rfl, -⟩ | ⟨rfl, -⟩
  all_goals assumption

/-- The value at the name of a setting is found. -/
private theorem lookup_given (k : SettingKind) (h : (n, k) ∈ named) :
    (Json.tabulate names g).lookup n = some (g n) := by
  rw [Json.lookup_tabulate, if_pos (mem_names.2 ⟨k, h⟩)]

/-- What is decoded has the values that are given. -/
private theorem eq_value_of_decoder (h : decoder (.obj (Json.tabulate names g)) = .ok s) (hn : n ∈ names) :
    g n = s.value n := by
  obtain ⟨-, -, h⟩ := Except.bind_eq_ok.1 h
  -- one value after the other is taken off the record, the last first
  obtain ⟨_, limit, front₉, h₁₀, rfl⟩ := Json.Record.build_seq_eq_ok.1 h
  obtain ⟨_, archivePoll, front₈, h₉, rfl⟩ := Json.Record.build_seq_eq_ok.1 front₉
  obtain ⟨_, summaryPoll, front₇, h₈, rfl⟩ := Json.Record.build_seq_eq_ok.1 front₈
  obtain ⟨_, summaryLength, front₆, h₇, rfl⟩ := Json.Record.build_seq_eq_ok.1 front₇
  obtain ⟨_, archive, front₅, h₆, rfl⟩ := Json.Record.build_seq_eq_ok.1 front₆
  obtain ⟨_, occurrencePurge, front₄, h₅, rfl⟩ := Json.Record.build_seq_eq_ok.1 front₅
  obtain ⟨_, archivePurge, front₃, h₄, rfl⟩ := Json.Record.build_seq_eq_ok.1 front₄
  obtain ⟨_, ageInclusive, front₂, h₃, rfl⟩ := Json.Record.build_seq_eq_ok.1 front₃
  obtain ⟨_, ageDisable, front₁, h₂, rfl⟩ := Json.Record.build_seq_eq_ok.1 front₂
  obtain ⟨ageInterval, h₁, rfl⟩ := Json.Record.build_map_eq_ok.1 front₁
  -- no default is taken, for every name has a value
  rw [Json.Record.build_defaulted (lookup_given .whole (by simp [named]))] at h₁ h₄ h₅ h₆ h₇ h₈ h₉ h₁₀
  rw [Json.Record.build_defaulted (lookup_given .severity (by simp [named]))] at h₂
  rw [Json.Record.build_defaulted (lookup_given .truth (by simp [named]))] at h₃
  obtain ⟨k, hk⟩ := mem_names.1 hn
  simp only [named, List.mem_cons, List.not_mem_nil, or_false, Prod.mk.injEq] at hk
  rcases hk with ⟨rfl, -⟩ | ⟨rfl, -⟩ | ⟨rfl, -⟩ | ⟨rfl, -⟩ | ⟨rfl, -⟩ | ⟨rfl, -⟩ | ⟨rfl, -⟩ | ⟨rfl, -⟩ |
    ⟨rfl, -⟩ | ⟨rfl, -⟩
  · exact Json.int64_eq_ok.1 h₁
  · exact severityCode_eq_ok.1 h₂
  · exact Json.boolean_eq_ok.1 h₃
  · exact Json.int64_eq_ok.1 h₄
  · exact Json.int64_eq_ok.1 h₅
  · exact Json.int64_eq_ok.1 h₆
  · exact Json.int64_eq_ok.1 h₇
  · exact Json.int64_eq_ok.1 h₈
  · exact Json.int64_eq_ok.1 h₉
  · exact Json.int64_eq_ok.1 h₁₀

/-- Settings are decoded from their values. -/
private theorem decoder_value (s : EventSettings) : decoder (.obj (Json.tabulate names s.value)) = .ok s := by
  refine Json.Record.Reads.decode_fields (a := s) ?_ ?_ ?_
  · refine .seq (.seq (.seq (.seq (.seq (.seq (.seq (.seq (.seq (.map (.defaulted
      (lookup_given .whole (by simp [named])) ?_) _) (.defaulted (lookup_given .severity (by simp [named])) ?_))
      (.defaulted (lookup_given .truth (by simp [named])) ?_))
      (.defaulted (lookup_given .whole (by simp [named])) ?_)) (.defaulted (lookup_given .whole (by simp [named])) ?_))
      (.defaulted (lookup_given .whole (by simp [named])) ?_)) (.defaulted (lookup_given .whole (by simp [named])) ?_))
      (.defaulted (lookup_given .whole (by simp [named])) ?_)) (.defaulted (lookup_given .whole (by simp [named])) ?_))
      (.defaulted (lookup_given .whole (by simp [named])) ?_)
    · exact Json.int64_eq_ok.2 rfl
    · exact severityCode_eq_ok.2 rfl
    · exact Json.boolean_eq_ok.2 rfl
    all_goals exact Json.int64_eq_ok.2 rfl
  -- no name is given twice, and none is unknown
  · rw [Json.map_fst_tabulate]
    exact pairwise_names.imp ne_of_lt
  · intro f hf
    obtain ⟨n, hn, rfl⟩ := List.mem_map.1 hf
    obtain ⟨k, hk⟩ := mem_names.1 hn
    exact List.mem_map_of_mem (f := Prod.fst) hk

/-- **Decoding values by name** gives the settings that have them. -/
theorem decoder_eq_ok_iff :
    decoder (.obj (Json.tabulate names g)) = .ok s ↔ ∀ n ∈ names, g n = s.value n := by
  constructor
  · intro h n hn
    exact eq_value_of_decoder h hn
  · intro h
    rw [Json.tabulate_congr h]
    exact decoder_value s

end EventSettings

end EventCatalog
