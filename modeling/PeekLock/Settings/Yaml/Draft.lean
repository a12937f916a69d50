import PeekLock.Settings.Yaml.Scalar

/-!
# PeekLock.Settings.Yaml.Draft

What a YAML document says before its names are resolved.

A *draft* has the shape of the document: its scalars are still spellings,
a part may carry an anchor and a tag, and an alias stands for the part
that carries its anchor.  `Draft.value?` reads the spellings and replaces
every alias by what its anchor meant at that place; a later anchor of the
same name takes over.  Of the values only those have a place in settings
whose keys are scalars and which hold no infinite number (`Value.node?`).
-/

namespace PeekLock.Settings.Yaml

/-- The types that a tag can demand of a plain scalar. -/
inductive Tag where
  | null
  | bool
  | integer
  | real
  | text
  deriving DecidableEq, Repr

/-- A document, or a part of one. -/
inductive Draft where
  /-- A scalar whose meaning hangs on its spelling. -/
  | plain (text : String)
  /-- A scalar that is a text whatever its spelling. -/
  | text (value : String)
  | list (items : List Draft)
  | table (entries : List (Draft × Draft))
  | alias (anchor : String)
  | marked (anchor? : Option String) (tag? : Option Tag) (part : Draft)
  deriving Inhabited

/-- What stands where nothing is written. -/
def Draft.nothing : Draft := .plain "~"

/-! ## Values -/

/-- A scalar other than null. -/
inductive Key where
  | bool (value : Bool)
  | integer (value : Int)
  /-- A number with a point or an exponent, as it is spelled. -/
  | real (text : String)
  | text (value : String)
  deriving DecidableEq, Repr

/-- The name that a scalar is as a key of settings. -/
def Key.name : Key → String
  | .bool b => if b then "true" else "false"
  | .integer n => toString n
  | .real s | .text s => s

/-- The scalar as a setting; numbers that are not finite are none. -/
def Key.scalar? : Key → Option Scalar
  | .bool b => some (.bool b)
  | .integer n => some (.integer n)
  | .real s => (Decimal.double? s.toList).map .real
  | .text s => some (.text s)

/-- The meaning of a document. -/
inductive Value where
  | null
  | scalar (key : Key)
  | list (items : List Value)
  | table (entries : List (Key × Value))
  deriving Inhabited

/-- The meaning of a spelling. -/
def Value.ofPlain (text : String) : Value :=
  match markedInteger? text.toList with
  | some n => .scalar (.integer n)
  | none =>
    if text = "~" || text = "null" then .null
    else if text = "true" then .scalar (.bool true)
    else if text = "false" then .scalar (.bool false)
    else
      match Decimal.int? Decimal.maxI64 text.toList with
      | some n => .scalar (.integer n)
      | none => .scalar (if isReal text then .real text else .text text)

/-- The meaning of a spelling that has to be of some type; what is not of that
type is null. -/
def Value.ofTagged (text : String) : Tag → Value
  | .null => .null
  | .bool =>
    if text = "true" then .scalar (.bool true)
    else if text = "false" then .scalar (.bool false)
    else .null
  | .integer =>
    match Decimal.int? Decimal.maxI64 text.toList with
    | some n => .scalar (.integer n)
    | none => .null
  | .real => if isReal text then .scalar (.real text) else .null
  | .text => .scalar (.text text)

/-! ## Resolving -/

/-- What the anchors mean so far; the latest first. -/
abbrev Anchors := List (String × Value)

/-- Remembers what an anchor means. -/
def Anchors.mark (anchors : Anchors) (anchor? : Option String) (v : Value) : Anchors :=
  anchor?.elim anchors fun a => (a, v) :: anchors

mutual

/-- The meaning of a draft, and of the anchors behind it.  Inside the part that
carries it an anchor is null. -/
def Draft.resolve (anchors : Anchors) : Draft → Option (Value × Anchors)
  | .plain s => some (.ofPlain s, anchors)
  | .text s => some (.scalar (.text s), anchors)
  | .list items => (Draft.resolveAll anchors items).map fun (vs, as) => (.list vs, as)
  | .table entries => (Draft.resolveEntries anchors [] entries).map fun (es, as) => (.table es, as)
  | .alias a => (anchors.lookup a).map fun v => (v, anchors)
  | .marked anchor? tag? part =>
    match tag?, part with
    | some tag, .plain s =>
      let v := Value.ofTagged s tag
      some (v, anchors.mark anchor? v)
    | _, part =>
      (Draft.resolve (anchors.mark anchor? .null) part).map fun (v, as) => (v, as.mark anchor? v)

/-- The meanings of some drafts, one after the other. -/
def Draft.resolveAll (anchors : Anchors) : List Draft → Option (List Value × Anchors)
  | [] => some ([], anchors)
  | d :: rest =>
    match Draft.resolve anchors d with
    | none => none
    | some (v, as) => (Draft.resolveAll as rest).map fun (vs, as) => (v :: vs, as)

/-- The meanings of the entries of a table, behind those that are `seen`.  Every
key is a scalar, and none comes twice. -/
def Draft.resolveEntries (anchors : Anchors) (seen : List Key) :
    List (Draft × Draft) → Option (List (Key × Value) × Anchors)
  | [] => some ([], anchors)
  | (k, d) :: rest =>
    match Draft.resolve anchors k with
    | some (.scalar key, as) =>
      if seen.contains key then none
      else
        match Draft.resolve as d with
        | none => none
        | some (v, as) =>
          (Draft.resolveEntries as (key :: seen) rest).map fun (es, as) => ((key, v) :: es, as)
    | _ => none

end

/-- The meaning of a whole document. -/
def Draft.value? (d : Draft) : Option Value := (d.resolve []).map (·.1)

/-! ## Settings -/

mutual

/-- The settings that a value stands for. -/
def Value.node? : Value → Option Node
  | .null => some (.scalar none .null)
  | .scalar key => key.scalar?.map (.scalar none)
  | .list items => (Value.nodes? items).map (.list none)
  | .table entries => (Value.entries? [] entries).map (.table none)

/-- The settings that some values stand for. -/
def Value.nodes? : List Value → Option (List Node)
  | [] => some []
  | v :: rest =>
    match v.node? with
    | none => none
    | some n => (Value.nodes? rest).map (n :: ·)

/-- The entries that some keys and values stand for, added to those that are
there. -/
def Value.entries? (before : List (String × Node)) :
    List (Key × Value) → Option (List (String × Node))
  | [] => some before
  | (key, v) :: rest =>
    match v.node? with
    | none => none
    | some n => Value.entries? (Node.store key.name n before) rest

end

end PeekLock.Settings.Yaml
