import PeekLock.Settings.Toml.Scalar

/-!
# PeekLock.Settings.Toml.Reader

TOML documents.

A document is a sequence of lines: headers of tables, headers of tables in
lists, and assignments.  While it is read every table remembers how it
came about — by a header of its own, as a part of the path of a longer
header, or as a part of a dotted key — because that decides whether a
later line may still add to it: no table is defined twice, and a value
that was written down as a whole is never extended.
-/

namespace PeekLock.Settings.Toml

/-- How a table came about. -/
inductive Means where
  /-- By a header of its own. -/
  | header
  /-- As a part of the path in the header of another table. -/
  | passage
  /-- As a part of a dotted key. -/
  | dotted
  deriving DecidableEq, Repr

/-- What a key of a document that is being read stands for. -/
inductive Item where
  /-- A value that was written down as a whole. -/
  | value (n : Node)
  | table (means : Means) (entries : List (String × Item))
  /-- A list of tables with a header each, the last one first. -/
  | tables (last : List (String × Item)) (earlier : List Item)

/-- The entries of a table that is being read. -/
abbrev Entries := List (String × Item)

/-- The item of a key. -/
def Entries.find (key : String) : Entries → Option Item
  | [] => none
  | (k, i) :: rest => if k = key then some i else Entries.find key rest

/-- Overwrites or appends an item. -/
def Entries.store (key : String) (item : Item) : Entries → Entries
  | [] => [(key, item)]
  | (k, i) :: rest =>
    if k = key then (k, item) :: rest else (k, i) :: Entries.store key item rest

mutual

/-- The tree that an item stands for. -/
def Item.node : Item → Node
  | .value n => n
  | .table _ entries => .table none (entryNodes entries)
  | .tables last earlier =>
    .list none ((itemNodes earlier).reverse ++ [.table none (entryNodes last)])

/-- The trees that some items stand for. -/
def itemNodes : List Item → List Node
  | [] => []
  | i :: rest => i.node :: itemNodes rest

/-- The trees that some entries stand for. -/
def entryNodes : List (String × Item) → List (String × Node)
  | [] => []
  | (k, i) :: rest => (k, i.node) :: entryNodes rest

end

/-! ## Defining tables and values -/

/-- Opens the table of a header.  With `many` it is the next table of a list. -/
def openTable (many : Bool) : (path : List String) → Entries → Option Entries
  | [], _ => none
  | [key], entries =>
    match Entries.find key entries, many with
    | none, false => some (Entries.store key (.table .header []) entries)
    | some (.table .passage inner), false =>
      some (Entries.store key (.table .header inner) entries)
    | none, true => some (Entries.store key (.tables [] []) entries)
    | some (.tables last earlier), true =>
      some (Entries.store key (.tables [] (.table .header last :: earlier)) entries)
    | _, _ => none
  | key :: path, entries =>
    match Entries.find key entries with
    | none =>
      (openTable many path []).map fun inner => Entries.store key (.table .passage inner) entries
    | some (.table means inner) =>
      (openTable many path inner).map fun inner =>
        Entries.store key (.table means inner) entries
    | some (.tables last earlier) =>
      (openTable many path last).map fun last => Entries.store key (.tables last earlier) entries
    | some (.value _) => none

/-- Gives a dotted key a value.  The tables on the way must have come about by
dotted keys; `free` tells whether this one may get entries. -/
def assign (value : Node) : (free : Bool) → (keys : List String) → Entries → Option Entries
  | _, [], _ => none
  | free, [key], entries =>
    if free && (Entries.find key entries).isNone then
      some (Entries.store key (.value value) entries)
    else none
  | _, key :: keys, entries =>
    match Entries.find key entries with
    | none =>
      (assign value true keys []).map fun inner =>
        Entries.store key (.table .dotted inner) entries
    | some (.table .header _) => none
    | some (.table means inner) =>
      (assign value (means = .dotted) keys inner).map fun inner =>
        Entries.store key (.table means inner) entries
    | some _ => none

/-- Changes the table that the path of the last header leads to. -/
def within (change : Entries → Option Entries) : (path : List String) → Entries → Option Entries
  | [], entries => change entries
  | key :: path, entries =>
    match Entries.find key entries with
    | some (.table means inner) =>
      (within change path inner).map fun inner => Entries.store key (.table means inner) entries
    | some (.tables last earlier) =>
      (within change path last).map fun last => Entries.store key (.tables last earlier) entries
    | _ => none

/-! ## Keys -/

/-- Drops blanks. -/
def skipBlanks (cs : List Char) : List Char := cs.dropWhile fun c => c = ' ' || c = '\t'

/-- The characters of keys without quotes. -/
def isKeyChar (c : Char) : Bool := c.isAlphanum || c = '_' || c = '-'

/-- A key without dots. -/
def simpleKey? (cs : List Char) : Option (String × List Char) :=
  match cs with
  | '"' :: rest => basicTail (cs.length + 1) [] rest
  | '\'' :: rest => literalTail [] rest
  | _ =>
    let key := cs.takeWhile isKeyChar
    if key.isEmpty then none else some (String.ofList key, cs.drop key.length)

/-- A dotted key, with blanks around it and its dots. -/
def key? : (fuel : Nat) → List Char → Option (List String × List Char)
  | 0, _ => none
  | fuel + 1, cs => do
    let (key, rest) ← simpleKey? (skipBlanks cs)
    match skipBlanks rest with
    | '.' :: rest =>
      let (keys, rest) ← key? fuel rest
      return (key :: keys, rest)
    | rest => return ([key], rest)

/-! ## Values -/

/-- Drops a comment up to the end of its line. -/
def skipComment (cs : List Char) : Option (List Char) :=
  match cs with
  | '#' :: rest =>
    let comment := rest.takeWhile fun c => c ≠ '\n'
    let body := if comment.getLast? = some '\r' then comment.dropLast else comment
    if body.any isForbidden then none else some (rest.drop comment.length)
  | _ => some cs

/-- Drops blanks, line breaks and comments. -/
def skipSpace : (fuel : Nat) → List Char → Option (List Char)
  | 0, cs => some cs
  | fuel + 1, cs =>
    match skipBlanks cs with
    | '\n' :: rest => skipSpace fuel rest
    | '\r' :: '\n' :: rest => skipSpace fuel rest
    | '#' :: rest => (skipComment ('#' :: rest)).bind (skipSpace fuel)
    | rest => some rest

mutual

/-- A value at the front of a text, and what is behind it. -/
def value? : (fuel : Nat) → List Char → Option (Node × List Char)
  | 0, _ => none
  | fuel + 1, cs =>
    match cs with
    | '[' :: rest => (listItems fuel [] rest).map fun (items, rest) => (.list none items, rest)
    | '{' :: rest =>
      match skipBlanks rest with
      | '}' :: rest => some (.table none [], rest)
      | rest =>
        (members fuel [] rest).map fun (entries, rest) => (.table none (entryNodes entries), rest)
    | '"' :: _ | '\'' :: _ => (string? cs).map fun (s, rest) => (.scalar none (.text s), rest)
    | _ =>
      let (word, rest) := splitWord cs
      (ofWord? word).map fun s => (.scalar none s, rest)

/-- The items of a list from here on, behind the ones read so far, and the
closing bracket.  A comma may stand behind the last item. -/
def listItems : (fuel : Nat) → (behind : List Node) → List Char → Option (List Node × List Char)
  | 0, _, _ => none
  | fuel + 1, behind, cs =>
    match skipSpace cs.length cs with
    | some (']' :: rest) => some (behind.reverse, rest)
    | some rest =>
      match value? fuel rest with
      | none => none
      | some (n, rest) =>
        match skipSpace rest.length rest with
        | some (',' :: rest) => listItems fuel (n :: behind) rest
        | some (']' :: rest) => some ((n :: behind).reverse, rest)
        | _ => none
    | none => none

/-- The members of a table in braces from here on, behind the ones read so far,
and the closing brace. -/
def members : (fuel : Nat) → (entries : Entries) → List Char → Option (Entries × List Char)
  | 0, _, _ => none
  | fuel + 1, entries, cs =>
    match key? (cs.length + 1) cs with
    | some (keys, '=' :: rest) =>
      match value? fuel (skipBlanks rest) with
      | none => none
      | some (n, rest) =>
        match assign n true keys entries with
        | none => none
        | some entries =>
          match skipBlanks rest with
          | '}' :: rest => some (entries, rest)
          | ',' :: rest => members fuel entries rest
          | _ => none
    | _ => none

end

/-! ## Documents -/

/-- A document that has been read up to some line. -/
structure Document where
  entries : Entries := []
  /-- The path of the last header. -/
  path : List String := []

/-- The end of a line: blanks, a comment, and the break or the end of the text. -/
def endOfLine (cs : List Char) : Option (List Char) :=
  match skipComment (skipBlanks cs) with
  | some [] => some []
  | some ('\n' :: rest) => some rest
  | some ('\r' :: '\n' :: rest) => some rest
  | _ => none

/-- The header of a table behind its brackets. -/
def header? (many : Bool) (d : Document) (cs : List Char) : Option (Document × List Char) := do
  let (path, rest) ← key? (cs.length + 1) cs
  let ']' :: rest := rest | none
  let rest ← if many then (match rest with | ']' :: rest => some rest | _ => none) else some rest
  let entries ← openTable many path d.entries
  let rest ← endOfLine rest
  return (⟨entries, path⟩, rest)

/-- An assignment. -/
def assignment? (d : Document) (cs : List Char) : Option (Document × List Char) := do
  let (keys, rest) ← key? (cs.length + 1) cs
  let '=' :: rest := rest | none
  let rest := skipBlanks rest
  let (n, rest) ← value? (rest.length + 1) rest
  let entries ← within (assign n true keys) d.path d.entries
  let rest ← endOfLine rest
  return ({ d with entries }, rest)

/-- The lines of a document from here on; each of them takes at least one
character. -/
def lines : (fuel : Nat) → Document → List Char → Option Document
  | _, d, [] => some d
  | 0, _, _ => none
  | fuel + 1, d, cs =>
    match skipBlanks cs with
    | [] => some d
    | '[' :: '[' :: rest => (header? true d rest).bind fun (d, rest) => lines fuel d rest
    | '[' :: rest => (header? false d rest).bind fun (d, rest) => lines fuel d rest
    | c :: rest =>
      if c = '#' || c = '\n' || c = '\r' then
        (endOfLine (c :: rest)).bind fun rest => lines fuel d rest
      else (assignment? d (c :: rest)).bind fun (d, rest) => lines fuel d rest

/-- The table that a document stands for. -/
def read (text : List Char) : Option Node :=
  (lines (text.length + 1) {} text).map fun d => .table none (entryNodes d.entries)

end PeekLock.Settings.Toml
