import EventCatalog.Json.Parser

/-!
# Strings and keys of TOML

The four kinds of strings, comments, the ends of lines, and keys. Every reader yields what it read
and the text behind it, or nothing if the text does not begin with what it reads.
-/

namespace EventCatalog.Toml

/-- A blank within a line. -/
def isBlank (c : Char) : Bool := c == ' ' || c == '\t'

/-- The text from its first non-blank character on. -/
def skipBlanks (s : List Char) : List Char := s.dropWhile isBlank

/-- A character that may stand for itself: no control character but the tab. -/
def isPlain (c : Char) : Bool := c == '\t' || (0x20 ≤ c.toNat && c.toNat != 0x7F)

/-- The text behind the end of a line. -/
def newline? : List Char → Option (List Char)
  | '\n' :: rest => some rest
  | '\r' :: '\n' :: rest => some rest
  | _ => none

/-- The text behind blanks and a comment. -/
def skipComment (s : List Char) : List Char :=
  match skipBlanks s with
  | '#' :: rest => rest.dropWhile isPlain
  | rest => rest

/-- The text behind the rest of a line that holds nothing more, or nothing if more follows. -/
def lineEnd? (s : List Char) : Option (List Char) :=
  match skipComment s with
  | [] => some []
  | rest => newline? rest

/-! ### Strings -/

/-- The character that an escape of one letter stands for. -/
def escaped? : Char → Option Char
  | 'b' => some '\x08'
  | 't' => some '\t'
  | 'n' => some '\n'
  | 'f' => some '\x0c'
  | 'r' => some '\r'
  | '"' => some '"'
  | '\\' => some '\\'
  | _ => none

/-- The character of a number in hexadecimal digits. -/
def scalar? (ds : List Char) : Option Char := do
  let n ← ds.foldlM (fun n d => (Json.hexValue? d).map fun v => 16 * n + v) 0
  if h : n.isValidChar then some (Char.ofNatAux n h) else none

/-- An escape from behind its backslash. -/
def escape? : List Char → Option (Char × List Char)
  | 'u' :: rest => if rest.length < 4 then none else
      (scalar? (rest.take 4)).map fun c => (c, rest.drop 4)
  | 'U' :: rest => if rest.length < 8 then none else
      (scalar? (rest.take 8)).map fun c => (c, rest.drop 8)
  | e :: rest => (escaped? e).map fun c => (c, rest)
  | [] => none

/-- A string on one line, from behind its opening quote; `fuel` bounds its length. -/
def basic? : Nat → List Char → Option (List Char × List Char)
  | 0, _ => none
  | _, '"' :: rest => some ([], rest)
  | fuel + 1, '\\' :: rest => do
    let (c, rest) ← escape? rest
    Json.consChar c (basic? fuel rest)
  | fuel + 1, c :: rest => if isPlain c then Json.consChar c (basic? fuel rest) else none
  | _, [] => none

/-- The text behind a backslash at the end of a line and all blank space that follows, or nothing
where the backslash begins an escape. -/
def continuation? (s : List Char) : Option (List Char) :=
  (newline? (skipBlanks s)).map fun rest =>
    rest.dropWhile fun c => isBlank c || c == '\n' || c == '\r'

/-- A string on several lines, from behind its first line break. Up to two quotes may stand before
the three that close it. -/
def multiline? : Nat → List Char → Option (List Char × List Char)
  | 0, _ => none
  | _, '"' :: '"' :: '"' :: '"' :: '"' :: rest => some (['"', '"'], rest)
  | _, '"' :: '"' :: '"' :: '"' :: rest => some (['"'], rest)
  | _, '"' :: '"' :: '"' :: rest => some ([], rest)
  | fuel + 1, '\\' :: rest =>
    match continuation? rest with
    | some rest => multiline? fuel rest
    | none => do
      let (c, rest) ← escape? rest
      Json.consChar c (multiline? fuel rest)
  | fuel + 1, '\r' :: '\n' :: rest => Json.consChar '\n' (multiline? fuel rest)
  | fuel + 1, c :: rest =>
    if isPlain c || c == '\n' then Json.consChar c (multiline? fuel rest) else none
  | _, [] => none

/-- A string without escapes on one line, from behind its opening quote. -/
def literal? (s : List Char) : Option (List Char × List Char) :=
  match s.dropWhile fun c => isPlain c && c != '\'' with
  | '\'' :: rest => some (s.takeWhile fun c => isPlain c && c != '\'', rest)
  | _ => none

/-- A string without escapes on several lines, from behind its first line break. -/
def multilineLiteral? : List Char → Option (List Char × List Char)
  | '\'' :: '\'' :: '\'' :: '\'' :: '\'' :: rest => some (['\'', '\''], rest)
  | '\'' :: '\'' :: '\'' :: '\'' :: rest => some (['\''], rest)
  | '\'' :: '\'' :: '\'' :: rest => some ([], rest)
  | '\r' :: '\n' :: rest => Json.consChar '\n' (multilineLiteral? rest)
  | c :: rest => if isPlain c || c == '\n' then Json.consChar c (multilineLiteral? rest) else none
  | [] => none

/-- The text without a line break at its beginning. -/
def skipNewline (s : List Char) : List Char := (newline? s).getD s

/-- A string of any kind. -/
def string? (s : List Char) : Option (String × List Char) :=
  let body := match s with
    | '"' :: '"' :: '"' :: rest => multiline? s.length (skipNewline rest)
    | '"' :: rest => basic? s.length rest
    | '\'' :: '\'' :: '\'' :: rest => multilineLiteral? (skipNewline rest)
    | '\'' :: rest => literal? rest
    | _ => none
  body.map fun p => (String.ofList p.1, p.2)

/-! ### Keys -/

/-- A character of a key without quotes. -/
def isBare (c : Char) : Bool := c.isAlphanum || c == '_' || c == '-'

/-- A key without dots. -/
def simpleKey? (s : List Char) : Option (String × List Char) :=
  match s with
  | '"' :: rest => (basic? s.length rest).map fun p => (String.ofList p.1, p.2)
  | '\'' :: rest => (literal? rest).map fun p => (String.ofList p.1, p.2)
  | _ =>
    if (s.takeWhile isBare).isEmpty then none
    else some (String.ofList (s.takeWhile isBare), s.dropWhile isBare)

/-- The parts of a dotted key, of which there are no more than `fuel`, and the text behind the key
and blanks. -/
def keyParts? : Nat → List Char → Option (List String × List Char)
  | 0, _ => none
  | fuel + 1, s => do
    let (k, rest) ← simpleKey? (skipBlanks s)
    match skipBlanks rest with
    | '.' :: rest =>
      let (ks, rest) ← keyParts? fuel rest
      return (k :: ks, rest)
    | rest => return ([k], rest)

/-- A key, with dots or without. -/
def key? (s : List Char) : Option (List String × List Char) := keyParts? (s.length + 1) s

end EventCatalog.Toml
