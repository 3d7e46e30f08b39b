import EventCatalog.Toml.Lexical
import EventCatalog.Toml.Scalar
import EventCatalog.Toml.Tree

/-!
# Reading TOML

`Toml.parse?` reads a document as an object; a text that is no TOML, or that defines something
twice, is nothing. Counts that start above the length of the text bound the recursion and are never
used up.
-/

namespace EventCatalog.Toml

/-- The text behind blanks, line breaks and comments, of which there are no more than `fuel`. -/
def skipSpace : Nat → List Char → List Char
  | 0, s => s
  | fuel + 1, s =>
    let rest := skipComment s
    match newline? rest with
    | some rest => skipSpace fuel rest
    | none => rest

mutual

/-- A value. -/
def value? : Nat → List Char → Option (Json × List Char)
  | 0, _ => none
  | fuel + 1, s =>
    match s with
    | '[' :: rest => (items? fuel rest).map fun p => (.arr p.1, p.2)
    | '\x7b' :: rest =>
      match skipBlanks rest with
      | '\x7d' :: rest => some (.obj [], rest)
      | rest => (pairs? fuel [] rest).map fun p => (.obj (fieldsToJson p.1), p.2)
    | '"' :: _ | '\'' :: _ => (string? s).map fun p => (.str p.1, p.2)
    | _ => (word? (takeWord s).1).map fun v => (v, (takeWord s).2)

/-- The items of an array, from behind its bracket or a comma. -/
def items? : Nat → List Char → Option (List Json × List Char)
  | 0, _ => none
  | fuel + 1, s =>
    match skipSpace s.length s with
    | ']' :: rest => some ([], rest)
    | s => do
      let (v, rest) ← value? fuel s
      match skipSpace rest.length rest with
      | ',' :: rest =>
        let (vs, rest) ← items? fuel rest
        return (v :: vs, rest)
      | ']' :: rest => return ([v], rest)
      | _ => none

/-- The pairs of a table on one line, from behind its brace or a comma, added to those before. -/
def pairs? : Nat → Fields → List Char → Option (Fields × List Char)
  | 0, _, _ => none
  | fuel + 1, t, s => do
    let (key, rest) ← key? s
    let rest ← after? '=' rest
    let (v, rest) ← value? fuel (skipBlanks rest)
    let t ← t.assign (.value v) key
    match skipBlanks rest with
    | ',' :: rest => pairs? fuel t rest
    | '\x7d' :: rest => return (t, rest)
    | _ => none

end

/-- A header from behind its brackets: the path of the table and its key. -/
def header? (closing : List Char) (s : List Char) :
    Option (List String × String × List Char) := do
  let (key, rest) ← key? s
  let last ← key.getLast?
  if rest.take closing.length = closing then
    return (key.dropLast, last, rest.drop closing.length)
  none

/-- The lines of a document, of which there are no more than `fuel`. `path` is that of the table
whose header was read last. -/
def lines? : Nat → List String → Fields → List Char → Option Fields
  | 0, _, _, _ => none
  | fuel + 1, path, doc, s =>
    match skipBlanks s with
    | [] => some doc
    | '[' :: '[' :: rest => do
      let (parents, key, rest) ← header? [']', ']'] rest
      let doc ← doc.openItem parents key
      lines? fuel (parents ++ [key]) doc (← lineEnd? rest)
    | '[' :: rest => do
      let (parents, key, rest) ← header? [']'] rest
      let doc ← doc.openTable parents key
      lines? fuel (parents ++ [key]) doc (← lineEnd? rest)
    | s =>
      match lineEnd? s with
      | some rest => lines? fuel path doc rest
      | none => do
        let (key, rest) ← key? s
        let rest ← after? '=' rest
        let (v, rest) ← value? rest.length (skipBlanks rest)
        let doc ← doc.inside (Fields.assign (.value v) key) path
        lines? fuel path doc (← lineEnd? rest)

/-- Reads a document. A mark of byte order at its beginning is passed over. -/
def parse? (text : String) : Option Json :=
  let s := match text.toList with
    | '\uFEFF' :: rest => rest
    | s => s
  (lines? (s.length + 1) [] [] s).map fun doc => .obj (fieldsToJson doc)

end EventCatalog.Toml
