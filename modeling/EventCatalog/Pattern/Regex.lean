/-!
# Regular expressions of filters

The expressions that filters need: characters that stand for themselves, `any` for one character,
`anyStar` for any run of characters, in sequence. Neither of the two accepts a line feed. An
expression is matched against a whole text.

`Regex.accepts` says which texts are accepted. `Regex.test` decides it in time proportional to the
text: it keeps, for each end of the expression, whether that end accepts the rest of the text
(`test_eq_accepts`).
-/

namespace EventCatalog

namespace Regex

/-- A part of an expression. -/
inductive Atom where
  /-- The character itself. -/
  | char (c : Char)
  /-- One character that is no line feed. -/
  | any
  /-- Any number of characters without a line feed. -/
  | anyStar
deriving DecidableEq, Repr, Inhabited

end Regex

/-- A sequence of atoms. -/
abbrev Regex := List Regex.Atom

namespace Regex

/-- Whether the wildcards accept a character. -/
def isAny (c : Char) : Bool := c != '\n'

/-- Whether the expression accepts the text, said by cases on the first atom. -/
def accepts : Regex → List Char → Bool
  | [], s => s.isEmpty
  | .char c :: r, s =>
    match s with
    | d :: t => c == d && accepts r t
    | [] => false
  | .any :: r, s =>
    match s with
    | d :: t => isAny d && accepts r t
    | [] => false
  | .anyStar :: r, s => accepts r s ||
    match s with
    | d :: t => isAny d && accepts (.anyStar :: r) t
    | [] => false
termination_by r s => (r.length, s.length)

/-- For each end of the expression, the whole first, whether it accepts the empty text. -/
def emptyRow : Regex → List Bool
  | [] => [true]
  | a :: r =>
    let below := emptyRow r
    (a == .anyStar && below.headD false) :: below

/-- For each end of the expression whether it accepts `c` and then a text, given the row of that
text. -/
def stepRow (c : Char) : Regex → List Bool → List Bool
  | [], _ => [false]
  | a :: r, row =>
    let below := stepRow c r row.tail
    (match a with
      | .char d => d == c && row.tail.headD false
      | .any => isAny c && row.tail.headD false
      | .anyStar => below.headD false || (isAny c && row.headD false)) :: below

/-- For each end of the expression whether it accepts the text. -/
def row (r : Regex) (s : List Char) : List Bool :=
  s.foldr (fun c row => stepRow c r row) (emptyRow r)

/-- Whether the expression accepts the text. -/
def test (r : Regex) (s : List Char) : Bool := (row r s).headD false

/-- The characters that have a meaning of their own in a written expression. -/
def special : List Char :=
  ['\\', '.', '+', '*', '?', '(', ')', '|', '[', ']', '\x7b', '\x7d', '^', '$', '#', '&', '-', '~']

/-- An atom in writing. -/
def Atom.render : Atom → List Char
  | .char c => if special.contains c then ['\\', c] else [c]
  | .any => ['.']
  | .anyStar => ['.', '*']

/-- The expression in writing. -/
def render (r : Regex) : String := String.ofList (r.flatMap Atom.render)

/-- The expression that accepts one text. -/
def literal (s : List Char) : Regex := s.map .char

/-- The expression that accepts the texts that contain a text. -/
def containing (s : List Char) : Regex := .anyStar :: literal s ++ [.anyStar]

/-! ### The row matcher -/

/-- All ends of an expression, the whole first. -/
def ends : Regex → List Regex
  | [] => [[]]
  | a :: r => (a :: r) :: ends r

theorem headD_map_ends (f : Regex → Bool) (r : Regex) : ((ends r).map f).headD false = f r := by
  cases r <;> rfl

theorem emptyRow_eq (r : Regex) : emptyRow r = (ends r).map fun u => accepts u [] := by
  induction r with
  | nil => simp [emptyRow, accepts, ends]
  | cons a r ih =>
    rw [emptyRow, ih, ends, List.map_cons, headD_map_ends]
    congr 1
    cases a <;> simp [accepts]

theorem stepRow_eq (c : Char) (r : Regex) (s : List Char) :
    stepRow c r ((ends r).map fun u => accepts u s) =
      (ends r).map fun u => accepts u (c :: s) := by
  induction r with
  | nil => simp [stepRow, accepts, ends]
  | cons a r ih =>
    simp only [ends, List.map_cons, stepRow, List.tail_cons, ih, headD_map_ends, List.headD_cons]
    congr 1
    cases a <;> simp [accepts]

theorem row_eq (r : Regex) (s : List Char) : row r s = (ends r).map fun u => accepts u s := by
  induction s with
  | nil => exact emptyRow_eq r
  | cons c s ih =>
    have : row r (c :: s) = stepRow c r (row r s) := rfl
    rw [this, ih, stepRow_eq]

/-- The row matcher decides what the expression accepts. -/
theorem test_eq_accepts (r : Regex) (s : List Char) : test r s = accepts r s := by
  rw [test, row_eq, headD_map_ends]

end Regex

end EventCatalog
