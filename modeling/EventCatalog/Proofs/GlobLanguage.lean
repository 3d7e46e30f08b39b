import Mathlib.Data.List.Forall2
import EventCatalog.Proofs.Expressions

/-!
# The language of globs

A glob becomes an expression in writing: its characters are held back until a wildcard or the end, and go out
escaped (`Glob.written`). The loop keeps one thing, what it would have written if the glob ended where it stands
(`Glob.Draft.flush_push`), so it writes out the expression that is matched (`Glob.written_eq`). An expression in
writing has no other reading (`Regex.read?_written`): the escaped characters stand for themselves, and what is written
for an atom never begins with a star, which would be taken for part of the dot before it.

What is accepted is said without expressions: a text follows a glob when it is put together of pieces, one for each
character, of which a star stands for any and a question mark for any of one character (`Glob.Follows`).
-/

namespace EventCatalog

namespace Regex

/-! ### Expressions in writing -/

/-- A text as it is written in an expression. -/
def escape (s : List Char) : List Char := (literal s).flatMap Atom.render

/-- Reads an expression. What has a meaning of its own is only read as an escaped character, a dot, or the star
behind a dot. -/
def read? : List Char → Option Regex
  | [] => some []
  | c :: s =>
    if c = '\\' then
      match s with
      | d :: s => if special.contains d then (read? s).map (.char d :: ·) else none
      | [] => none
    else if c = '.' then
      match s with
      | '*' :: s => (read? s).map (.anyStar :: ·)
      | s => (read? s).map (.any :: ·)
    else if special.contains c then none
    else (read? s).map (.char c :: ·)

section Reading

variable {c : Char} {s : List Char}

theorem read?_escaped (h : special.contains c = true) :
    read? ('\\' :: c :: s) = (read? s).map (.char c :: ·) := by
  rw [read?, if_pos rfl]
  exact if_pos h

theorem read?_plain (h : special.contains c = false) : read? (c :: s) = (read? s).map (.char c :: ·) := by
  have hslash : c ≠ '\\' := by
    rintro rfl
    exact absurd h (by decide)
  have hdot : c ≠ '.' := by
    rintro rfl
    exact absurd h (by decide)
  rw [read?.eq_def]
  simp only [hslash, hdot, h, if_false, Bool.false_eq_true]

theorem read?_anyStar : read? ('.' :: '*' :: s) = (read? s).map (.anyStar :: ·) := rfl

/-- A dot stands alone unless a star is behind it. -/
theorem read?_any (h : s.head? ≠ some '*') : read? ('.' :: s) = (read? s).map (.any :: ·) := by
  rw [read?.eq_def]
  simp only [if_neg (show '.' ≠ '\\' by decide), if_true]
  split
  · exact absurd rfl h
  · rfl

end Reading

/-- What is written for an expression does not begin with a star. -/
theorem head?_written_ne_star (r : Regex) : (r.flatMap Atom.render).head? ≠ some '*' := by
  cases r with
  | nil => simp
  | cons a r =>
    rw [List.flatMap_cons]
    cases a with
    | char c =>
      rw [Atom.render]
      split
      · simp
      · next h =>
        rw [List.singleton_append, List.head?_cons]
        -- a star of the text would have been escaped
        rintro ⟨⟩
        exact h rfl
    | any => simp [Atom.render]
    | anyStar => simp [Atom.render]

/-- **Reading what is written** gives the expression back. -/
theorem read?_written (r : Regex) : read? (r.flatMap Atom.render) = some r := by
  induction r with
  | nil => rfl
  | cons a r ih =>
    rw [List.flatMap_cons]
    cases a with
    | char c =>
      rw [Atom.render]
      split
      -- either it is escaped, or it has no meaning of its own
      · next h => rw [List.cons_append, List.singleton_append, read?_escaped h, ih, Option.map_some]
      · next h =>
        rw [List.singleton_append, read?_plain (Bool.eq_false_iff.2 h), ih, Option.map_some]
    | any => rw [Atom.render, List.singleton_append, read?_any (head?_written_ne_star r), ih, Option.map_some]
    | anyStar => rw [Atom.render, List.cons_append, List.singleton_append, read?_anyStar, ih, Option.map_some]

/-! ### Pieces -/

/-- What an atom takes of a text. -/
inductive Atom.Takes : Atom → List Char → Prop
  | char (c : Char) : Takes (.char c) [c]
  | any (d : Char) (h : d ≠ '\n') : Takes .any [d]
  | anyStar (piece : List Char) (h : '\n' ∉ piece) : Takes .anyStar piece

namespace Atom

variable {c : Char} {piece : List Char}

theorem takes_char : (char c).Takes piece ↔ piece = [c] := by
  constructor
  · rintro ⟨⟩
    rfl
  · rintro rfl
    exact .char c

theorem takes_any : any.Takes piece ↔ ∃ d, piece = [d] ∧ d ≠ '\n' := by
  constructor
  · rintro (_ | ⟨d, h⟩)
    exact ⟨d, rfl, h⟩
  · rintro ⟨d, rfl, h⟩
    exact .any d h

theorem takes_anyStar : anyStar.Takes piece ↔ '\n' ∉ piece := by
  constructor
  · rintro (_ | _ | ⟨_, h⟩)
    exact h
  · exact .anyStar piece

end Atom

variable {a : Atom} {r : Regex} {s : List Char}

/-- The first atom takes a piece, and the others what is behind it. -/
theorem accepts_cons : accepts (a :: r) s = true ↔
    ∃ piece rest, s = piece ++ rest ∧ a.Takes piece ∧ accepts r rest = true := by
  cases a with
  | char c =>
    -- a character is a literal of one
    have hcons : .char c :: r = literal [c] ++ r := rfl
    simp only [hcons, accepts_literal_append, Atom.takes_char]
    constructor
    · rintro ⟨rest, rfl, h⟩
      exact ⟨[c], rest, rfl, rfl, h⟩
    · rintro ⟨-, rest, rfl, rfl, h⟩
      exact ⟨rest, rfl, h⟩
  | any =>
    simp only [Atom.takes_any]
    rw [accepts.eq_def]
    constructor
    · intro h
      cases s with
      | nil => exact absurd h Bool.false_ne_true
      | cons d s =>
        rw [Bool.and_eq_true, isAny, bne_iff_ne] at h
        exact ⟨[d], s, rfl, ⟨d, rfl, h.1⟩, h.2⟩
    · rintro ⟨-, rest, rfl, ⟨d, rfl, hd⟩, h⟩
      exact Bool.and_eq_true_iff.2 ⟨bne_iff_ne.2 hd, h⟩
  | anyStar => simp only [accepts_anyStar_cons, Atom.takes_anyStar]

/-- **What is accepted** is put together of pieces, one for each atom. -/
theorem accepts_iff_takes : accepts r s = true ↔
    ∃ pieces, List.Forall₂ Atom.Takes r pieces ∧ s = pieces.flatten := by
  induction r generalizing s with
  | nil => simp [accepts]
  | cons a r ih =>
    simp only [accepts_cons, ih, List.forall₂_cons_left_iff]
    constructor
    · rintro ⟨piece, -, rfl, hpiece, pieces, hpieces, rfl⟩
      exact ⟨piece :: pieces, ⟨piece, pieces, hpiece, hpieces, rfl⟩, List.flatten_cons.symm⟩
    · rintro ⟨-, ⟨piece, pieces, hpiece, hpieces, rfl⟩, rfl⟩
      exact ⟨piece, pieces.flatten, List.flatten_cons, hpiece, pieces, hpieces, rfl⟩

end Regex

namespace Glob

open Regex (Atom)

/-! ### Writing a glob -/

/-- What has been written of an expression, and the characters of the glob that are held back. -/
structure Draft where
  out : List Char
  held : List Char

/-- Writes the characters that were held back. -/
def Draft.flush (d : Draft) : List Char := d.out ++ Regex.escape d.held

/-- Goes on with one character: a wildcard is written, anything else held back. -/
def Draft.push (d : Draft) (c : Char) : Draft :=
  if c = '*' then ⟨d.flush ++ ['.', '*'], []⟩
  else if c = '?' then ⟨d.flush ++ ['.'], []⟩
  else ⟨d.out, d.held ++ [c]⟩

/-- The expression of a glob, in writing. -/
def written (glob : List Char) : List Char := (glob.foldl Draft.push ⟨[], []⟩).flush

/-- One more character writes its atom. -/
theorem Draft.flush_push (d : Draft) (c : Char) : (d.push c).flush = d.flush ++ (atom c).render := by
  rw [push, atom]
  split
  · simp [flush, Regex.escape, Regex.literal, Atom.render]
  split
  · simp [flush, Regex.escape, Regex.literal, Atom.render]
  · simp [flush, Regex.escape, Regex.literal]

theorem Draft.flush_foldl (glob : List Char) (d : Draft) :
    (glob.foldl push d).flush = d.flush ++ (toRegex glob).flatMap Atom.render := by
  induction glob generalizing d with
  | nil => rw [List.foldl_nil, toRegex, List.map_nil, List.flatMap_nil, List.append_nil]
  | cons c glob ih =>
    rw [List.foldl_cons, ih, flush_push, List.append_assoc]
    rfl

/-- **What is written** is the expression of the glob. -/
theorem written_eq (glob : List Char) : written glob = (toRegex glob).flatMap Atom.render :=
  Draft.flush_foldl glob ⟨[], []⟩

example : written "10.0.*".toList = "10\\.0\\..*".toList := by decide

/-! ### The language -/

/-- What a character of a glob stands for. -/
inductive StandsFor : Char → List Char → Prop
  | run (piece : List Char) : StandsFor '*' piece
  | one (d : Char) : StandsFor '?' [d]
  | self (c : Char) (hstar : c ≠ '*') (hmark : c ≠ '?') : StandsFor c [c]

/-- A text is put together of pieces that the characters of a glob stand for. -/
def Follows (glob text : List Char) : Prop :=
  ∃ pieces, List.Forall₂ StandsFor glob pieces ∧ text = pieces.flatten

/-- In one line, an atom takes what its character stands for. -/
theorem takes_atom_iff {c : Char} {piece : List Char} (h : '\n' ∉ piece) :
    (atom c).Takes piece ↔ StandsFor c piece := by
  rw [atom]
  split
  -- a run may be of any kind, as there is no line feed in the piece
  · next hc => exact iff_of_true (.anyStar piece h) (hc ▸ .run piece)
  split
  · next hc =>
    subst hc
    -- for one character this is the only difference too
    rw [Atom.takes_any]
    constructor
    · rintro ⟨d, rfl, -⟩
      exact .one d
    · rintro (_ | d | ⟨_, _, hmark⟩)
      · exact ⟨d, rfl, (List.ne_of_not_mem_cons h).symm⟩
      · exact absurd rfl hmark
  · next hstar hmark =>
    rw [Atom.takes_char]
    constructor
    · rintro rfl
      exact .self c hstar hmark
    · rintro (_ | _ | _)
      -- wildcards stand for more than themselves, but this is none
      · exact absurd rfl hstar
      · exact absurd rfl hmark
      · rfl

theorem forall₂_takes_iff {glob : List Char} {pieces : List (List Char)} (h : '\n' ∉ pieces.flatten) :
    List.Forall₂ Atom.Takes (toRegex glob) pieces ↔ List.Forall₂ StandsFor glob pieces := by
  rw [toRegex, List.forall₂_map_left_iff]
  induction pieces generalizing glob with
  | nil => simp
  | cons piece pieces ih =>
    rw [List.flatten_cons, List.mem_append, not_or] at h
    simp only [List.forall₂_cons_right_iff, takes_atom_iff h.1, ih h.2]

/-- **A glob accepts** the texts that follow it. -/
theorem test_toRegex_iff {glob text : List Char} (h : '\n' ∉ text) :
    (toRegex glob).test text = true ↔ Follows glob text := by
  rw [Regex.test_eq_accepts, Regex.accepts_iff_takes]
  constructor
  · rintro ⟨pieces, hpieces, rfl⟩
    exact ⟨pieces, (forall₂_takes_iff h).1 hpieces, rfl⟩
  · rintro ⟨pieces, hpieces, rfl⟩
    exact ⟨pieces, (forall₂_takes_iff h).2 hpieces, rfl⟩

/-- **Globs are translated exactly.** What is written for a glob has one reading, and this accepts a text of one line
when the text follows the glob: a star stands for any run of characters, a question mark for one character, and every
other character, also one with a meaning of its own in expressions, for itself. -/
theorem written_accepts_iff (glob text : List Char) (h : '\n' ∉ text) :
    Regex.read? (written glob) = some (toRegex glob) ∧
      ((toRegex glob).test text = true ↔ Follows glob text) := by
  constructor
  · rw [written_eq]
    exact Regex.read?_written (toRegex glob)
  · exact test_toRegex_iff h

theorem written_accepts_dotted :
    Follows "10.0.?*".toList "10.0.17".toList ∧ ¬ Follows "10.0.?*".toList "10.0x17".toList :=
  -- the dot of the glob is no wildcard
  ⟨(written_accepts_iff _ _ (by decide)).2.1 (by decide),
    fun h => absurd ((written_accepts_iff _ _ (by decide)).2.2 h) (by decide)⟩

end Glob

end EventCatalog
