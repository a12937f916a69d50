import PeekLock.Settings.Node

/-!
# PeekLock.Settings.Path

Paths into a tree of settings.

A path is a name followed by steps: `.name` steps into a table, `[n]` into
a list, where a negative `n` counts from the end.  Names are made of ASCII
letters, digits, `_` and `-`.  `Node.place` lays a value over whatever a
path leads to, and builds the tables and lists that are missing on the
way.
-/

namespace PeekLock.Settings

/-- A step from a node to a part of it. -/
inductive Step where
  | key (name : String)
  | index (n : Int)
  deriving DecidableEq, Repr

/-- The steps from the root, the first one by name. -/
structure Path where
  root : String
  steps : List Step
  deriving DecidableEq, Repr

namespace Path

/-- The characters of names. -/
def isNameChar (c : Char) : Bool := c.isAlphanum || c = '_' || c = '-'

/-- A name at the front of a text, and what is behind it. -/
def name? (cs : List Char) : Option (String × List Char) :=
  let name := cs.takeWhile isNameChar
  if name.isEmpty then none else some (String.ofList name, cs.drop name.length)

/-- The largest number of a list that a path can ask for. -/
def maxIndex : Nat := Decimal.maxI64

/-- A number behind an opening bracket up to its closing bracket; spaces and
tabs around the number do not count. -/
def index? (cs : List Char) : Option (Int × List Char) :=
  let isSpace := fun c : Char => c = ' ' || c = '\t'
  let cs := cs.dropWhile isSpace
  let number := cs.takeWhile fun c => c.isDigit || c = '-'
  match (cs.drop number.length).dropWhile isSpace with
  | ']' :: rest => (Decimal.int? maxIndex number).map fun n => (n, rest)
  | _ => none

/-- The steps that a text spells; `fuel` bounds their number. -/
def steps? : (fuel : Nat) → List Char → Option (List Step)
  | _, [] => some []
  | 0, _ => none
  | fuel + 1, '.' :: cs => do
    let (name, rest) ← name? cs
    let more ← steps? fuel rest
    return .key name :: more
  | fuel + 1, '[' :: cs => do
    let (n, rest) ← index? cs
    let more ← steps? fuel rest
    return .index n :: more
  | _ + 1, _ => none

/-- The path that a text spells.  A text that is no path is a name as a whole. -/
def ofText (s : String) : Path :=
  let parsed := do
    let (name, rest) ← name? s.toList
    let steps ← steps? rest.length rest
    return Path.mk name steps
  parsed.getD ⟨s, []⟩

end Path

namespace Node

/-- The items of a list; anything else has none. -/
def items : Node → List Node
  | .list _ items => items
  | _ => []

/-- A list with one item changed.  Behind the end and in front of the start
nulls fill the gap. -/
def changeItem (items : List Node) (n : Int) (change : Node → Node) : List Node :=
  let place : Int := if n < 0 then items.length + n else n
  if place < 0 then
    change absent :: List.replicate ((-place).toNat - 1) absent ++ items
  else
    let padded := items ++ List.replicate (place.toNat + 1 - items.length) absent
    padded.modify place.toNat change

/-- Changes the part of a node that some steps lead to. -/
def change (f : Node → Node) : List Step → Node → Node
  | [], n => f n
  | .key name :: steps, n => n.put name (change f steps ((n.child? name).getD absent))
  | .index i :: steps, n =>
    let source? := match n with
      | .list source? _ => source?
      | _ => none
    .list source? (changeItem n.items i (change f steps))

/-- Lays a value over the part of a tree that a path leads to. -/
def place (root : Node) (path : Path) (value : Node) : Node :=
  change (fun n => n.overlay value) (.key path.root :: path.steps) root

/-- Lays entries over a tree, each key read as a path. -/
def placeAll (root : Node) (entries : List (String × Node)) : Node :=
  entries.foldl (fun root e => root.place (.ofText e.1) e.2) root

end Node

end PeekLock.Settings
