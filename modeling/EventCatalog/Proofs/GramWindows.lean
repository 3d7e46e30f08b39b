import Mathlib.Algebra.GroupWithZero.Nat
import EventCatalog.Proofs.WrittenWords

/-!
# The grams of a text, window by window

Which grams the stream gives can be said without going through the text. A maximal run of characters that are no
blanks is a piece of the text with a blank or an end on either side (`Grams.IsRun`); there are as many as are found by
going through it, and no others (`Grams.mem_runs`). The letters of a run are those of its characters, one after the
other (`Grams.lettersOf`), a gram is what is seen of them through a window of three, and its position is the number of
positions that the runs in front of it take, plus its place in the run (`Grams.listed`). A window begins and ends with
a letter, so the bytes of a gram are those of a piece of its run (`Grams.exists_piece_of_window`).

The stream is taken one gram after the other (`GramStream.Yields`). It gives the windows and then ends, and a stream
that has ended does not change any more (`GramStream.yields_windows`).
-/

namespace EventCatalog.Analysis

open Text (isBlank lowerChar trimStart)

/-! ### Windows -/

/-- The gram of some letters: it reaches from the character of the first letter to that of the last. -/
def Token.ofLetters (position : Nat) (window : List Letter) : Token where
  text := window.map Letter.char
  start := (window.head?.map Letter.start).getD 0
  stop := (window.getLast?.map Letter.stop).getD 0
  position := position

namespace Grams

/-- The letters of a run that starts at a byte. Those of a character reach from the end of the characters before it to
its own end. -/
def lettersOf (run : Nat × List Char) : List Letter :=
  (run.2.mapIdx fun j c => (lowerChar c).map fun d =>
    Letter.mk d (run.1 + byteLength (run.2.take j)) (run.1 + byteLength (run.2.take (j + 1)))).flatten

/-- How many windows a word has. -/
def count (word : List Letter) : Nat := word.length + 1 - gramSize

/-- How many positions a word takes: those of its grams, and the gap behind them. -/
def room (word : List Letter) : Nat := if count word = 0 then 0 else count word + 1

/-- The windows of words. Those of a word stand behind the room of the words before it, one after the other. -/
def listed (words : List (List Letter)) : List Token :=
  (words.mapIdx fun k word => (List.range (count word)).map fun i =>
    Token.ofLetters (((words.take k).map room).sum + i) ((word.drop i).take gramSize)).flatten

theorem letters_eq_lettersOf (offset : Nat) (word : List Char) : letters offset word = lettersOf (offset, word) := by
  unfold lettersOf
  dsimp only
  induction word generalizing offset with
  | nil => rfl
  | cons c rest ih =>
    rw [letters, ih, List.mapIdx_cons, List.flatten_cons]
    simp only [List.take_zero, List.take_succ_cons, byteLength_nil, byteLength_cons, Nat.add_zero, Nat.add_assoc]

theorem windows_eq_map (position : Nat) (word : List Letter) :
    windows position word = (List.range (count word)).map fun i =>
      Token.ofLetters (position + i) ((word.drop i).take gramSize) := by
  fun_induction windows position word with
  | case1 position a b c rest ih =>
    have hcount : count (a :: b :: c :: rest) = count (b :: c :: rest) + 1 := rfl
    rw [ih, hcount, List.range_succ_eq_map, List.map_cons, List.map_map]
    -- the windows behind the first one are those of the rest, one position further on
    congr 1
    refine List.map_congr_left fun i _ => ?_
    rw [Function.comp_apply, List.drop_succ_cons, Nat.add_assoc, Nat.add_comm 1]
  | case2 word position hword =>
    match word with
    | [] => rfl
    | [_] => rfl
    | [_, _] => rfl
    | a :: b :: c :: rest => exact (hword a b c rest rfl).elim

theorem number_eq (position : Nat) (words : List (List Letter)) :
    number position words =
      (words.mapIdx fun k word => windows (position + ((words.take k).map room).sum) word).flatten := by
  induction words generalizing position with
  | nil => rfl
  | cons word rest ih =>
    -- a word without windows takes no room, neither in `number` nor here
    have hbehind : (if (windows position word).isEmpty then position
        else position + (windows position word).length + 1) = position + room word := by
      have hlength : (windows position word).length = count word := length_windows position word
      unfold room
      simp only [List.isEmpty_iff, ← List.length_eq_zero_iff, hlength]
      split
      · rfl
      · rw [Nat.add_assoc]
    rw [number, hbehind, ih, List.mapIdx_cons, List.flatten_cons]
    simp only [List.take_zero, List.map_nil, List.sum_nil, Nat.add_zero, List.take_succ_cons, List.map_cons,
      List.sum_cons, Nat.add_assoc]

theorem number_zero (words : List (List Letter)) : number 0 words = listed words := by
  rw [number_eq, listed]
  simp only [windows_eq_map, Nat.zero_add]

/-- A letter comes from a character of the text. -/
theorem exists_of_mem_letters {offset : Nat} {word : List Char} {a : Letter} (h : a ∈ letters offset word) :
    ∃ before c after, word = before ++ c :: after ∧ a.char ∈ lowerChar c ∧
      a.start = offset + byteLength before ∧ a.stop = a.start + c.utf8Size := by
  induction word generalizing offset with
  | nil => exact nomatch h
  | cons c rest ih =>
    rw [letters, List.mem_append, List.mem_map] at h
    rcases h with ⟨d, hd, rfl⟩ | h
    · exact ⟨[], c, rest, rfl, hd, rfl, rfl⟩
    · obtain ⟨before, b, after, hsplit, hlower, hstart, hstop⟩ := ih h
      refine ⟨c :: before, b, after, by rw [hsplit, List.cons_append], hlower, ?_, hstop⟩
      rw [hstart, byteLength_cons, Nat.add_assoc]

/-- Two letters that follow each other come from a piece of the text, from the first character of which to the last
one they reach. -/
theorem pairwise_letters (offset : Nat) (word : List Char) :
    (letters offset word).Pairwise fun a b => ∃ before piece after, word = before ++ piece ++ after ∧ piece ≠ [] ∧
      a.start = offset + byteLength before ∧ b.stop = a.start + byteLength piece := by
  induction word generalizing offset with
  | nil => exact List.Pairwise.nil
  | cons c rest ih =>
    rw [letters, List.pairwise_append, List.pairwise_map]
    -- both letters of the first character, both of later ones, or one of each
    refine ⟨List.pairwise_of_forall fun d e => ⟨[], [c], rest, rfl, List.cons_ne_nil c [], rfl, rfl⟩,
      (ih _).imp ?_, fun a ha b hb => ?_⟩
    · rintro a b ⟨before, piece, after, hsplit, hne, hstart, hstop⟩
      refine ⟨c :: before, piece, after, by rw [hsplit]; rfl, hne, ?_, hstop⟩
      rw [hstart, byteLength_cons, Nat.add_assoc]
    · obtain ⟨d, -, rfl⟩ := List.mem_map.1 ha
      obtain ⟨before, e, after, hsplit, -, hstart, hstop⟩ := exists_of_mem_letters hb
      refine ⟨[], c :: (before ++ [e]), after, ?_, List.cons_ne_nil c _, rfl, ?_⟩
      · rw [hsplit, List.nil_append, List.cons_append, List.append_assoc]
        rfl
      · rw [hstop, hstart, byteLength_cons, byteLength_append, byteLength_cons, byteLength_nil]
        simp only [Nat.add_assoc, Nat.add_zero]

/-- A window of three letters. -/
theorem exists_window {word : List Letter} {i : Nat} (h : i < count word) :
    ∃ a b c, (word.drop i).take gramSize = [a, b, c] ∧ [a, b, c] <+: word.drop i := by
  have hlength : 3 ≤ (word.drop i).length := by
    rw [List.length_drop]
    unfold count gramSize at h
    omega
  match hdrop : word.drop i, hlength with
  | a :: b :: c :: rest, _ => exact ⟨a, b, c, rfl, rest, rfl⟩

/-- A gram that is listed is a window of one of the words. -/
theorem exists_of_mem_listed {words : List (List Letter)} {g : Token} (h : g ∈ listed words) :
    ∃ word ∈ words, ∃ i < count word, ∃ position, g = Token.ofLetters position ((word.drop i).take gramSize) := by
  unfold listed at h
  obtain ⟨grams, hgrams, hg⟩ := List.mem_flatten.1 h
  -- the word is known by its place, and the window by its own in the word
  obtain ⟨k, hk, rfl⟩ := List.mem_mapIdx.1 hgrams
  obtain ⟨i, hi, rfl⟩ := List.mem_map.1 hg
  exact ⟨words[k], List.getElem_mem hk, i, List.mem_range.1 hi, _, rfl⟩

/-- A window of the letters of a run reaches from the first to the last character of a piece of it. -/
theorem exists_piece_of_window {run : Nat × List Char} {i : Nat} (h : i < count (lettersOf run)) (position : Nat) :
    let g := Token.ofLetters position (((lettersOf run).drop i).take gramSize)
    ∃ before piece after, run.2 = before ++ piece ++ after ∧ piece ≠ [] ∧
      g.start = run.1 + byteLength before ∧ g.stop = g.start + byteLength piece := by
  obtain ⟨a, b, c, hwindow, hprefix⟩ := exists_window h
  have hsublist : [a, b, c].Sublist (letters run.1 run.2) := by
    rw [letters_eq_lettersOf]
    exact hprefix.sublist.trans (List.drop_sublist i _)
  rw [hwindow]
  exact List.rel_of_pairwise_cons ((pairwise_letters run.1 run.2).sublist hsublist) (by simp)

/-! ### Maximal runs -/

/-- A maximal run of characters of a text that are no blanks, with the byte at which it starts. -/
structure IsRun (s : List Char) (run : Nat × List Char) : Prop where
  ne_nil : run.2 ≠ []
  unbroken : ∀ c ∈ run.2, isBlank c = false
  stands : ∃ before after, s = before ++ run.2 ++ after ∧ run.1 = byteLength before ∧
    (∀ c ∈ before.getLast?, isBlank c = true) ∧ ∀ c ∈ after.head?, isBlank c = true

variable {s : List Char} {c : Char} {run : Nat × List Char}

/-- A text without blanks is its only run. -/
theorem isRun_iff_of_unbroken (hs : ∀ c ∈ s, isBlank c = false) : IsRun s run ↔ s ≠ [] ∧ run = (0, s) := by
  constructor
  · rintro ⟨hne, -, before, after, hsplit, hstart, hbefore, hafter⟩
    -- neither in front of the run nor behind it is room for a blank
    have hfront : before = [] := by
      rw [← List.getLast?_eq_none_iff, Option.eq_none_iff_forall_ne_some]
      intro c hc
      have hmem : c ∈ s := by
        rw [hsplit]
        exact List.mem_append_left _ (List.mem_append_left _ (List.mem_of_getLast? hc))
      exact Bool.false_ne_true ((hs c hmem).symm.trans (hbefore c hc))
    have hback : after = [] := by
      rw [← List.head?_eq_none_iff, Option.eq_none_iff_forall_ne_some]
      intro c hc
      have hmem : c ∈ s := by
        rw [hsplit]
        exact List.mem_append_right _ (List.mem_of_head? hc)
      exact Bool.false_ne_true ((hs c hmem).symm.trans (hafter c hc))
    rw [hfront, hback, List.nil_append, List.append_nil] at hsplit
    rw [hfront] at hstart
    rw [hsplit]
    exact ⟨hne, Prod.ext hstart rfl⟩
  · rintro ⟨hne, rfl⟩
    exact ⟨hne, hs, [], [], (List.append_nil s).symm, rfl, nofun, nofun⟩

/-- A blank behind a text cuts no run of it short. -/
theorem IsRun.append_cons (h : IsRun s run) (hc : isBlank c = true) (t : List Char) : IsRun (s ++ c :: t) run := by
  obtain ⟨hne, hunbroken, before, after, rfl, hstart, hbefore, hafter⟩ := h
  refine ⟨hne, hunbroken, before, after ++ c :: t, List.append_assoc _ _ _, hstart, hbefore, fun b hb => ?_⟩
  -- what follows the run is what followed it before, or else the blank
  rw [List.head?_append] at hb
  cases hhead : after.head? with
  | none =>
    rw [hhead] at hb
    cases hb
    exact hc
  | some d =>
    rw [hhead] at hb
    cases hb
    exact hafter _ hhead

/-- Neither does a blank in front of it. -/
theorem IsRun.cons_append {t w : List Char} {m : Nat} (h : IsRun t (m, w)) (hc : isBlank c = true) (s : List Char) :
    IsRun (s ++ c :: t) (byteLength s + c.utf8Size + m, w) := by
  obtain ⟨hne, hunbroken, before, after, rfl, rfl, hbefore, hafter⟩ := h
  refine ⟨hne, hunbroken, s ++ c :: before, after, ?_, ?_, fun b hb => ?_, hafter⟩
  · simp only [List.append_assoc, List.cons_append]
  · rw [byteLength_append, byteLength_cons, Nat.add_assoc]
  · rw [List.getLast?_append, List.getLast?_cons] at hb
    cases hlast : before.getLast? with
    | none =>
      rw [hlast] at hb
      cases hb
      exact hc
    | some d =>
      rw [hlast] at hb
      cases hb
      exact hbefore _ hlast

/-- A run stands on one side of each blank. -/
theorem IsRun.of_append_cons {t : List Char} (h : IsRun (s ++ c :: t) run) (hc : isBlank c = true) :
    IsRun s run ∨ ∃ m, run.1 = byteLength s + c.utf8Size + m ∧ IsRun t (m, run.2) := by
  obtain ⟨hne, hunbroken, before, after, hsplit, hstart, hbefore, hafter⟩ := h
  have hnot : c ∉ run.2 := fun hmem => Bool.false_ne_true ((hunbroken c hmem).symm.trans hc)
  rw [List.append_assoc, List.append_eq_append_iff] at hsplit
  rcases hsplit with ⟨front, rfl, hrest⟩ | ⟨back, rfl, hrest⟩
  -- the run begins behind `s`
  · cases front with
    | nil =>
      obtain ⟨b, rest, hrun⟩ := List.exists_cons_of_ne_nil hne
      rw [List.nil_append, hrun, List.cons_append] at hrest
      rw [hrun, (List.cons.inj hrest).1] at hnot
      exact absurd List.mem_cons_self hnot
    | cons b front =>
      obtain ⟨rfl, rfl⟩ := List.cons.inj hrest
      refine .inr ⟨byteLength front, ?_, hne, hunbroken, front, after, (List.append_assoc _ _ _).symm, rfl,
        fun b hb => hbefore b ?_, hafter⟩
      · rw [hstart, byteLength_append, byteLength_cons, Nat.add_assoc]
      · rw [List.getLast?_append, List.getLast?_cons, hb]
        rfl
  -- the run begins within `s`, and has to end there
  · rw [List.append_eq_append_iff] at hrest
    rcases hrest with ⟨behind, rfl, rfl⟩ | ⟨front, hrun, hrest⟩
    · refine .inl ⟨hne, hunbroken, before, behind, (List.append_assoc _ _ _).symm, hstart, hbefore,
        fun b hb => hafter b ?_⟩
      rw [List.head?_append, hb]
      rfl
    · cases front with
      | nil =>
        rw [List.append_nil] at hrun
        exact .inl ⟨hne, hunbroken, before, [], by rw [hrun, List.append_nil], hstart, hbefore, nofun⟩
      | cons b front =>
        rw [hrun, (List.cons.inj hrest).1] at hnot
        exact absurd (List.mem_append_right _ List.mem_cons_self) hnot

/-- **The runs of a text with a blank** are those in front of it and those behind it. -/
theorem isRun_append_cons (hc : isBlank c = true) (t : List Char) :
    IsRun (s ++ c :: t) run ↔
      IsRun s run ∨ ∃ m, run.1 = byteLength s + c.utf8Size + m ∧ IsRun t (m, run.2) := by
  refine ⟨fun h => h.of_append_cons hc, ?_⟩
  rintro (h | ⟨m, hstart, h⟩)
  · exact h.append_cons hc t
  · rw [show run = (_, run.2) from Prod.ext hstart rfl]
    exact h.cons_append hc s

/-- A run ends within the text. -/
theorem IsRun.stop_le (h : IsRun s run) : run.1 + byteLength run.2 ≤ byteLength s := by
  obtain ⟨-, -, before, after, rfl, hstart, -, -⟩ := h
  rw [hstart, byteLength_append, byteLength_append]
  omega

/-- **The runs that are found** are the maximal ones. -/
theorem mem_runs (offset : Nat) : run ∈ runs offset [] s ↔ ∃ m, run.1 = offset + m ∧ IsRun s (m, run.2) := by
  -- a text without blanks is a run itself, unless it is empty
  have hword : ∀ (offset : Nat) (w : List Char), (∀ c ∈ w, isBlank c = false) →
      (run ∈ runs offset [] w ↔ ∃ m, run.1 = offset + m ∧ IsRun w (m, run.2)) := by
    intro offset w hw
    simp only [isRun_iff_of_unbroken hw]
    by_cases hne : w = []
    · rw [hne]
      simp [runs]
    · rw [runs_eq_singleton hne hw, List.mem_singleton]
      simp [hne, Prod.ext_iff]
  -- on the blanks of the text, each of which splits it in two
  induction s using blank_induction generalizing offset with
  | word w hw => exact hword offset w hw
  | blank w c rest hw hc ih =>
    have hrest : run ∈ runs (offset + byteLength w + c.utf8Size) [] rest ↔ _ := ih _
    rw [runs_append_cons hc, List.mem_append, hword offset w hw, hrest]
    simp only [isRun_append_cons hc]
    constructor
    · rintro (⟨m, hm, hrun⟩ | ⟨m, hm, hrun⟩)
      · exact ⟨m, hm, .inl hrun⟩
      · exact ⟨byteLength w + c.utf8Size + m, by omega, .inr ⟨m, rfl, hrun⟩⟩
    · rintro ⟨n, hn, hrun | ⟨m, hm, hrun⟩⟩
      · exact .inl ⟨n, hn, hrun⟩
      · exact .inr ⟨m, by omega, hrun⟩

theorem mem_runs_zero : run ∈ runs 0 [] s ↔ IsRun s run := by
  rw [mem_runs]
  constructor
  · rintro ⟨m, hm, hrun⟩
    rw [Nat.zero_add] at hm
    rwa [← hm] at hrun
  · exact fun hrun => ⟨run.1, (Nat.zero_add _).symm, hrun⟩

/-- The runs are found in order, and there is something between them. -/
theorem pairwise_runs (s : List Char) (offset : Nat) :
    (runs offset [] s).Pairwise fun a b => a.1 + byteLength a.2 < b.1 := by
  have hword : ∀ (offset : Nat) (w : List Char), (∀ c ∈ w, isBlank c = false) →
      (runs offset [] w).Pairwise fun a b => a.1 + byteLength a.2 < b.1 := by
    intro offset w hw
    by_cases hne : w = []
    · rw [hne]
      exact List.Pairwise.nil
    · rw [runs_eq_singleton hne hw]
      exact List.pairwise_singleton _ _
  induction s using blank_induction generalizing offset with
  | word w hw => exact hword offset w hw
  | blank w c rest hw hc ih =>
    rw [runs_append_cons hc, List.pairwise_append]
    refine ⟨hword offset w hw, ih _, fun a ha b hb => ?_⟩
    -- a run in front of the blank ends there, and one behind it starts behind it
    obtain ⟨m, ham, hfront⟩ := (mem_runs offset).1 ha
    obtain ⟨n, hbn, -⟩ := (mem_runs _).1 hb
    have hstop := hfront.stop_le
    have hsize := c.utf8Size_pos
    dsimp only at hstop
    omega

end Grams

/-- The grams of a text are the windows of its runs. -/
theorem grams_eq_listed (s : List Char) : grams s = Grams.listed ((Grams.runs 0 [] s).map Grams.lettersOf) := by
  rw [grams_eq_describe, Grams.describe, Grams.number_zero]
  simp only [Grams.letters_eq_lettersOf]

/-! ### The stream -/

namespace GramStream

variable {s t : GramStream}

/-- The run of a stream up to its end: what it gives, and the stream that is left over then. -/
inductive Yields : GramStream → List Token → GramStream → Prop
  | done {s t : GramStream} (stops : s.advance = (none, t)) : Yields s [] t
  | gram {s t last : GramStream} {g : Token} {grams : List Token} (next : s.advance = (some g, t))
      (others : Yields t grams last) : Yields s (g :: grams) last

/-- A stream that has ended gives nothing any more, and stays as it is. -/
theorem advance_of_none (h : s.advance = (none, t)) : t.advance = (none, t) := by
  fun_induction advance s with
  | case1 s a b c rest hword => cases h
  | case2 s u hnext hword ih => exact ih h
  | case3 s hnext hword =>
    cases h
    rw [advance]
    rfl

/-- **Each stream ends.** -/
theorem exists_yields (s : GramStream) : ∃ last, Yields s s.toList last := by
  -- on what is still to come: the list of a stream is made by taking it to its end
  fun_induction toList s with
  | case1 s g t hadvance ih =>
    obtain ⟨last, hyields⟩ := ih
    exact ⟨last, .gram hadvance hyields⟩
  | case2 s t hadvance => exact ⟨t, .done hadvance⟩

/-- At the end there is nothing more. -/
theorem Yields.advance_last {grams : List Token} (h : Yields s grams t) : t.advance = (none, t) := by
  induction h with
  | done stops => exact advance_of_none stops
  | gram _ _ ih => exact ih

/-- **The grams of a text, window by window.** There are the maximal runs of characters that are no blanks, in the
order in which they stand in the text, and the windows of three letters of each of them, in the order in which they
stand in it. The stream of a text gives these windows, numbered through with a gap between two runs that have some,
and then it ends; from there on it gives nothing, however often it is asked. Each of the windows reaches from the first
to the last byte of a piece of its run. -/
theorem yields_windows (text : List Char) :
    ∃ (runs : List (Nat × List Char)) (last : GramStream),
      (∀ run, run ∈ runs ↔ Grams.IsRun text run) ∧
      runs.Pairwise (fun a b => a.1 + byteLength a.2 < b.1) ∧
      (ofText text).Yields (Grams.listed (runs.map Grams.lettersOf)) last ∧
      last.advance = (none, last) ∧
      ∀ g ∈ Grams.listed (runs.map Grams.lettersOf), ∃ run ∈ runs, ∃ before piece after,
        run.2 = before ++ piece ++ after ∧ piece ≠ [] ∧
          g.start = run.1 + byteLength before ∧ g.stop = g.start + byteLength piece := by
  obtain ⟨last, hyields⟩ := exists_yields (ofText text)
  rw [← grams, grams_eq_listed] at hyields
  refine ⟨Grams.runs 0 [] text, last, fun run => Grams.mem_runs_zero, Grams.pairwise_runs text 0, hyields,
    hyields.advance_last, fun g hg => ?_⟩
  obtain ⟨word, hword, i, hi, position, rfl⟩ := Grams.exists_of_mem_listed hg
  obtain ⟨run, hrun, rfl⟩ := List.mem_map.1 hword
  exact ⟨run, hrun, Grams.exists_piece_of_window hi position⟩

end GramStream

end EventCatalog.Analysis
