import Mathlib.Algebra.GroupWithZero.Nat
import Mathlib.Data.List.Induction
import EventCatalog.Queue.Throttle

/-!
# When ingestion is held back

A throttle is told the lengths of queues, one after the other. It passes over those of tables that are not of recent
events, and of the others each one decides anew; so all that it knows is the last of them
(`Throttle.noticeAll_eq`), and it holds back if that one lies above the threshold (`Throttle.engaged_iff_last`).

Two things are not as one would wish. A table counts as one of recent events if its name begins with theirs, so the
queue of a table that is named otherwise may hold ingestion back. And twice the limit of a drain is taken in 64 bits,
so for limits of 2 ^ 63 and more the threshold is not what it should be, which is `Throttle.exactThreshold`
(`Throttle.toNat_thresholdFor`, `Throttle.engaged_by_namesake`).
-/

namespace EventCatalog

/-- The name of the table begins with that of the table of recent events. -/
def QueueSize.IsRecent (s : QueueSize) : Prop := EventTable.summaryName.toList <+: s.table.toList

instance : DecidablePred QueueSize.IsRecent := fun s =>
  inferInstanceAs (Decidable (EventTable.summaryName.toList <+: s.table.toList))

namespace Throttle

variable {t : Throttle} {s : QueueSize}

/-! ### The threshold -/

/-- The threshold for a drain with a limit, in exact arithmetic. -/
def exactThreshold (t : Throttle) (limit : UInt64) : Nat :=
  if t.threshold = 0 then 2 * max limit.toNat 100 else t.threshold.toNat

/-- The threshold is the exact one, but for what 64 bits do not hold. -/
theorem toNat_thresholdFor (t : Throttle) (limit : UInt64) :
    (t.thresholdFor limit).toNat = t.exactThreshold limit % 2 ^ 64 := by
  unfold thresholdFor exactThreshold
  split
  -- the greater of the two is the same in 64 bits; only doubling may wrap around
  · have hmax : (max limit 100).toNat = max limit.toNat 100 := by
      by_cases hle : limit ≤ 100
      · rw [UInt64.max_def, if_pos hle]
        exact (Nat.max_eq_right (UInt64.le_iff_toNat_le.1 hle)).symm
      · rw [UInt64.max_def, if_neg hle]
        exact (Nat.max_eq_left (Nat.le_of_not_le fun h => hle (UInt64.le_iff_toNat_le.2 h))).symm
    rw [UInt64.toNat_mul, hmax, Nat.mul_comm]
    rfl
  · exact (Nat.mod_eq_of_lt t.threshold.toNat_lt).symm

/-- It fits if it is set, or the limit is less than half of what 64 bits hold. -/
theorem exactThreshold_lt_iff (t : Throttle) (limit : UInt64) :
    t.exactThreshold limit < 2 ^ 64 ↔ t.threshold ≠ 0 ∨ limit.toNat < 2 ^ 63 := by
  have hset := t.threshold.toNat_lt
  unfold exactThreshold
  split
  · next hzero =>
    rw [or_iff_right (not_not.2 hzero)]
    omega
  · next hnonzero => exact iff_of_true hset (.inl hnonzero)

/-! ### One length -/

/-- The length of a queue of recent events decides, whatever was before. -/
theorem notice_of_isRecent (t : Throttle) (h : s.IsRecent) :
    t.notice s = { t with engaged := t.exactThreshold s.limit % 2 ^ 64 < s.size.toNat } := by
  rw [← toNat_thresholdFor]
  exact if_pos (String.startsWith_string_iff.2 h)

/-- Any other does not matter. -/
theorem notice_of_not_isRecent (t : Throttle) (h : ¬ s.IsRecent) : t.notice s = t :=
  if_neg fun hstarts => h (String.startsWith_string_iff.1 hstarts)

/-- Ingestion is asked for no pause if and only if it is not held back. -/
theorem delay?_eq_none_iff (t : Throttle) : t.delay? = none ↔ t.engaged = false := by
  rw [delay?]
  cases t.engaged <;> simp

/-- So of two lengths, the first is forgotten if the second one decides. -/
theorem notice_notice (t : Throttle) (r : QueueSize) (h : s.IsRecent) : (t.notice r).notice s = t.notice s := by
  by_cases hr : r.IsRecent
  · rw [notice_of_isRecent _ h, notice_of_isRecent _ hr, notice_of_isRecent _ h]
    rfl
  · rw [notice_of_not_isRecent _ hr]

/-! ### Many lengths -/

/-- A throttle that is told the lengths of queues, one after the other. -/
def noticeAll (t : Throttle) (sizes : List QueueSize) : Throttle := sizes.foldl notice t

/-- The last length of a queue of recent events. -/
def lastRecent? (sizes : List QueueSize) : Option QueueSize := (sizes.filter fun s => s.IsRecent).getLast?

theorem lastRecent?_concat (sizes : List QueueSize) (s : QueueSize) :
    lastRecent? (sizes ++ [s]) = if s.IsRecent then some s else lastRecent? sizes := by
  unfold lastRecent?
  rw [List.filter_append]
  -- the filter keeps the new length or drops it
  by_cases hs : s.IsRecent
  · rw [if_pos hs, List.filter_cons, if_pos (decide_eq_true hs), List.filter_nil, List.getLast?_concat]
  · rw [if_neg hs, List.filter_cons, if_neg (by rwa [decide_eq_true_eq]), List.filter_nil, List.append_nil]

/-- **All that a throttle knows** is the last length of a queue of recent events. -/
theorem noticeAll_eq (t : Throttle) (sizes : List QueueSize) :
    t.noticeAll sizes = match lastRecent? sizes with
      | none => t
      | some s => t.notice s := by
  -- on the lengths from the end: the last one decides, or it does not matter
  induction sizes using List.reverseRecOn with
  | nil => rfl
  | append_singleton sizes s ih =>
    have hlast : t.noticeAll (sizes ++ [s]) = (t.noticeAll sizes).notice s := List.foldl_append
    rw [hlast, ih, lastRecent?_concat]
    by_cases hs : s.IsRecent
    · rw [if_pos hs]
      cases lastRecent? sizes with
      | none => rfl
      | some r => exact t.notice_notice r hs
    · rw [if_neg hs]
      exact notice_of_not_isRecent _ hs

/-- The length that decides is one of a queue of recent events. -/
theorem isRecent_of_lastRecent? {sizes : List QueueSize} (h : lastRecent? sizes = some s) :
    s ∈ sizes ∧ s.IsRecent := by
  obtain ⟨hmem, hrecent⟩ := List.mem_filter.1 (List.mem_of_getLast? h)
  exact ⟨hmem, of_decide_eq_true hrecent⟩

/-- A throttle holds back if the length that decides lies above the threshold. -/
theorem engaged_noticeAll_iff (h : t.engaged = false) (sizes : List QueueSize) :
    (t.noticeAll sizes).engaged = true ↔
      ∃ s, lastRecent? sizes = some s ∧ t.exactThreshold s.limit % 2 ^ 64 < s.size.toNat := by
  rw [noticeAll_eq]
  cases hlast : lastRecent? sizes with
  -- no length decides, so it does not hold back, as at first
  | none => exact iff_of_false (by simp [h]) nofun
  | some s =>
    dsimp only
    rw [notice_of_isRecent t (isRecent_of_lastRecent? hlast).2, decide_eq_true_iff]
    simp only [Option.some.injEq, exists_eq_left']

/-- Where only the table of recent events is named so, the lengths that count are those of its queue. -/
theorem lastRecent?_of_forall {sizes : List QueueSize}
    (h : ∀ s ∈ sizes, s.IsRecent → s.table = EventTable.summaryName) :
    lastRecent? sizes = (sizes.filter fun s => s.table = EventTable.summaryName).getLast? := by
  refine congrArg List.getLast? (List.filter_congr fun s hs => decide_eq_decide.2 ⟨h s hs, fun htable => ?_⟩)
  simp only [QueueSize.IsRecent, htable, List.prefix_rfl]

/-- **What holds ingestion back.** A throttle that is told any lengths of queues of any tables, and does not hold back
at first, holds back in the end if and only if there is a last length of a queue of recent events, and that one is
greater than what 64 bits hold of the threshold. A length of another queue changes nothing. The threshold is what it
should be if it is set, or else if the limit of the drain is less than half of what 64 bits hold. So if the last limit
is, and only the table of recent events has a name that begins with its own, then the last length of its queue decides,
at the exact threshold. -/
theorem engaged_iff_last (threshold delayMillis : UInt64) (sizes : List QueueSize) :
    let t := ofThreshold threshold delayMillis
    ((t.noticeAll sizes).engaged = true ↔
      ∃ s, lastRecent? sizes = some s ∧ t.exactThreshold s.limit % 2 ^ 64 < s.size.toNat) ∧
    (∀ s : QueueSize, ¬ s.IsRecent → (t.noticeAll sizes).notice s = t.noticeAll sizes) ∧
    (∀ limit, (t.thresholdFor limit).toNat = t.exactThreshold limit ↔ threshold ≠ 0 ∨ limit.toNat < 2 ^ 63) ∧
    ((∀ s ∈ sizes, s.IsRecent → s.table = EventTable.summaryName) →
      (∀ s, lastRecent? sizes = some s → threshold ≠ 0 ∨ s.limit.toNat < 2 ^ 63) →
      ((t.noticeAll sizes).engaged = true ↔
        ∃ s, (sizes.filter fun s => s.table = EventTable.summaryName).getLast? = some s ∧
          t.exactThreshold s.limit < s.size.toNat)) := by
  intro t
  have hlaw := engaged_noticeAll_iff (t := t) rfl sizes
  refine ⟨hlaw, fun s hs => notice_of_not_isRecent _ hs, fun limit => ?_, fun hnames hlimits => ?_⟩
  · rw [toNat_thresholdFor, Nat.mod_eq_iff_lt (by decide)]
    exact t.exactThreshold_lt_iff limit
  · rw [hlaw, ← lastRecent?_of_forall hnames]
    refine exists_congr fun s => and_congr_right fun hlast => ?_
    rw [Nat.mod_eq_of_lt ((t.exactThreshold_lt_iff s.limit).2 (hlimits s hlast))]

/-- **Another table may hold ingestion back**, if its name begins with that of the table of recent events. And a
single entry does, with a limit of half of what 64 bits hold: twice that is nothing in 64 bits. -/
theorem engaged_by_namesake :
    let other : QueueSize := ⟨"event_summary_x", 2, 10⟩
    let single : QueueSize := ⟨EventTable.summaryName, 1, 9223372036854775808⟩
    (other.table ≠ EventTable.summaryName ∧ ((ofThreshold 1 100).noticeAll [other]).engaged = true) ∧
      (ofThreshold 0 100).exactThreshold single.limit = 2 ^ 64 ∧
        ((ofThreshold 0 100).noticeAll [single]).engaged = true := by
  refine ⟨⟨by decide, ?_⟩, by decide, ?_⟩
  · exact (engaged_noticeAll_iff rfl _).2 ⟨_, rfl, by decide⟩
  · exact (engaged_noticeAll_iff rfl _).2 ⟨_, rfl, by decide⟩

end Throttle

end EventCatalog
