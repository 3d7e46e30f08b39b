import EventCatalog.Analysis.Token
import EventCatalog.Text.Blank
import EventCatalog.Text.LowerCase

/-!
# Grams of identifiers

An identifier is searched by any part of it of three characters or more. To that end each of its
words, which blanks separate, is lower-cased character by character and cut into all windows of
three characters, its *grams*. Positions rise by one from gram to gram of a word, and skip one
number between the grams of two words, so that a phrase never runs from one word into the next.

`GramStream` produces the grams one at a time. `Grams.describe` says what they are: the windows of
each word, numbered through.
-/

namespace EventCatalog.Analysis

open Text (isBlank lowerChar trimStart)

/-- The number of characters of a gram. -/
def gramSize : Nat := 3

/-- A lower-cased character with the span of bytes of the character that it comes from. -/
structure Letter where
  char : Char
  start : Nat
  stop : Nat
deriving DecidableEq, Repr

/-- The letters of a text whose first byte is the byte `offset`. -/
def letters (offset : Nat) : List Char → List Letter
  | [] => []
  | c :: rest =>
    (lowerChar c).map (fun d => ⟨d, offset, offset + c.utf8Size⟩) ++
      letters (offset + c.utf8Size) rest

/-- The grams of a text that are still to come. -/
structure GramStream where
  /-- The text behind the current word. -/
  unread : List Char
  /-- The byte at which the unread text starts. -/
  offset : Nat
  /-- The letters of the current word from the next gram on. -/
  word : List Letter
  /-- Whether the current word has had a gram. -/
  begun : Bool
  /-- The position of the next gram of the current word. -/
  position : Nat
deriving Repr

namespace GramStream

/-- The stream of all grams of a text. -/
def ofText (s : List Char) : GramStream := ⟨s, 0, [], false, 0⟩

/-- The stream with the next word of its text as the current word, if there is one. A word that has
had a gram leaves a gap of one position behind it. -/
def nextWord (s : GramStream) : Option GramStream :=
  let rest := trimStart s.unread
  let word := rest.takeWhile fun c => !isBlank c
  if word.isEmpty then none
  else
    let start := s.offset + byteLength (s.unread.takeWhile isBlank)
    some {
      unread := rest.dropWhile fun c => !isBlank c
      offset := start + byteLength word
      word := letters start word
      begun := false
      position := if s.begun then s.position + 1 else s.position }

theorem unread_nextWord_lt {s t : GramStream} (h : s.nextWord = some t) :
    t.unread.length < s.unread.length := by
  unfold nextWord at h
  simp only at h
  split at h
  · exact absurd h (by simp)
  · rename_i hne
    simp only [Option.some.injEq] at h
    subst h
    have hle : (trimStart s.unread).length ≤ s.unread.length :=
      (List.dropWhile_suffix _).length_le
    generalize trimStart s.unread = rest at hne hle
    cases rest with
    | nil => simp at hne
    | cons c cs =>
      have hc : (!isBlank c) = true := by
        by_cases hb : (!isBlank c) = true
        · exact hb
        · simp [hb] at hne
      have : (cs.dropWhile fun c => !isBlank c).length ≤ cs.length :=
        (List.dropWhile_suffix _).length_le
      simp only [List.dropWhile_cons, hc, if_true, List.length_cons] at hle ⊢
      omega

/-- The next gram and the stream behind it; no gram at the end. -/
def advance (s : GramStream) : Option Token × GramStream :=
  match s.word with
  | a :: b :: c :: rest =>
    (some ⟨[a.char, b.char, c.char], a.start, c.stop, s.position⟩,
      { s with word := b :: c :: rest, begun := true, position := s.position + 1 })
  | _ =>
    match _h : s.nextWord with
    | some t => advance t
    | none => (none, { s with unread := [], word := [], begun := false })
termination_by s.unread.length
decreasing_by exact unread_nextWord_lt _h

/-- A stream that gives a gram gets shorter: in the unread text, or in the current word. -/
theorem advance_lt {s t : GramStream} {g : Token} (h : s.advance = (some g, t)) :
    t.unread.length < s.unread.length ∨
      t.unread.length = s.unread.length ∧ t.word.length < s.word.length := by
  fun_induction advance s with
  | case1 s a b c rest hw =>
    simp only [Prod.mk.injEq] at h
    obtain ⟨-, rfl⟩ := h
    exact .inr ⟨rfl, by simp [hw]⟩
  | case2 s u hu hw ih =>
    have := unread_nextWord_lt hu
    rcases ih h with h' | ⟨h', -⟩
    · exact .inl (by omega)
    · exact .inl (by omega)
  | case3 s hw hu => simp at h

/-- All grams that are still to come. -/
def toList (s : GramStream) : List Token :=
  match _h : s.advance with
  | (some g, t) => g :: toList t
  | (none, _) => []
termination_by (s.unread.length, s.word.length)
decreasing_by
  rcases advance_lt _h with h | ⟨h, h'⟩
  · exact Prod.Lex.left _ _ h
  · rw [h]
    exact Prod.Lex.right _ h'

end GramStream

/-- The grams of a text. -/
def grams (s : List Char) : List Token := (GramStream.ofText s).toList

namespace Grams

/-- The windows of three letters, numbered from `position` on. -/
def windows (position : Nat) : List Letter → List Token
  | a :: b :: c :: rest =>
    ⟨[a.char, b.char, c.char], a.start, c.stop, position⟩ :: windows (position + 1) (b :: c :: rest)
  | _ => []

/-- The windows of each word; a word of fewer than three letters takes no position. -/
def number (position : Nat) : List (List Letter) → List Token
  | [] => []
  | word :: rest =>
    let grams := windows position word
    grams ++ number (if grams.isEmpty then position else position + grams.length + 1) rest

/-- The maximal runs of non-blank characters, each with the byte at which it starts. `run` is the
run so far, last character first. -/
def runs (offset : Nat) (run : List Char) : List Char → List (Nat × List Char)
  | [] => if run.isEmpty then [] else [(offset - byteLength run, run.reverse)]
  | c :: rest =>
    if isBlank c then
      (if run.isEmpty then [] else [(offset - byteLength run, run.reverse)]) ++
        runs (offset + c.utf8Size) [] rest
    else runs (offset + c.utf8Size) (c :: run) rest

/-- The grams of a text, said without a stream. -/
def describe (s : List Char) : List Token :=
  number 0 ((runs 0 [] s).map fun r => letters r.1 r.2)

end Grams

end EventCatalog.Analysis
