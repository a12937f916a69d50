import PeekLock.Settings.Yaml.Cursor

/-!
# PeekLock.Settings.Yaml.Reader

YAML documents: mappings and sequences in blocks and in brackets, scalars
plain, quoted and in blocks, anchors, aliases and the tags of scalars,
comments, and the marks around a document.  A text that holds more than
one document is refused, and so is one whose document is no mapping.

The reader produces a draft; what the draft means is settled afterwards
(`PeekLock.Settings.Yaml.Draft`).
-/

namespace PeekLock.Settings.Yaml

/-! ## Anchors and tags -/

/-- What may stand in front of a node. -/
structure Marks where
  anchor? : Option String := none
  tag? : Option Tag := none

/-- Whether nothing stands in front of a node. -/
def Marks.isNone (m : Marks) : Bool := m.anchor?.isNone && m.tag?.isNone

/-- A node with what stands in front of it. -/
def Marks.on (m : Marks) (d : Draft) : Draft := if m.isNone then d else .marked m.anchor? m.tag? d

/-- What stands for a node of which nothing but its marks is written. -/
def Marks.alone (m : Marks) : Draft := if m.isNone then .nothing else m.on (.plain "")

/-- The characters of the names of anchors. -/
def isAnchorChar (c : Char) : Bool := !isBlank c && c ≠ '\n' && !isBracket c

/-- The name of an anchor behind its mark. -/
def anchorName? (c : Cursor) : Option (String × Cursor) :=
  let name := c.rest.takeWhile isAnchorChar
  if name.isEmpty then none else some (String.ofList name, c.skip name.length)

/-- The type that a tag demands. -/
def tagOf (text : String) : Tag :=
  if text = "!!null" then .null
  else if text = "!!bool" then .bool
  else if text = "!!int" then .integer
  else if text = "!!float" then .real
  else .text

/-- Reads the marks in front of a node: an anchor, a tag, or both in either
order, on one line. -/
def readMarks : (fuel : Nat) → Marks → Cursor → Option (Marks × Cursor)
  | 0, _, _ => none
  | fuel + 1, m, c =>
    match c.rest with
    | '&' :: _ =>
      if m.anchor?.isSome then none
      else
        (anchorName? (c.skip 1)).bind fun (name, c) =>
          readMarks fuel { m with anchor? := some name } c.skipBlanks
    | '!' :: _ =>
      if m.tag?.isSome then none
      else
        let text := c.rest.takeWhile isAnchorChar
        readMarks fuel { m with tag? := some (tagOf (String.ofList text)) }
          (c.skip text.length).skipBlanks
    | _ => some (m, c)

/-- The marks in front of a node. -/
def marks? (c : Cursor) : Option (Marks × Cursor) := readMarks 3 {} c

/-! ## Nodes in brackets -/

/-- Whether a colon stands here that separates a key from its value; directly
behind a key that is quoted or in brackets no gap need follow. -/
def atColon (adjacent : Bool) (cs : List Char) : Bool :=
  cs.head? = some ':' &&
    (adjacent || Cursor.atGap (cs.drop 1) || (cs.drop 1).head?.any isBracket)

/-- Whether a node that starts so may have its colon directly behind it. -/
def isClosed (cs : List Char) : Bool :=
  cs.head?.any fun c => c = '"' || c = '\'' || c = '[' || c = '\x7b'

mutual

/-- A node between brackets. -/
def flowNode? : (fuel : Nat) → Cursor → Option (Draft × Cursor)
  | 0, _ => none
  | fuel + 1, c =>
    match c.rest with
    | '[' :: _ => (flowItems fuel [] (c.skip 1)).map fun (items, c) => (.list items, c)
    | '{' :: _ => (flowMembers fuel [] (c.skip 1)).map fun (ms, c) => (.table ms, c)
    | '*' :: _ => (anchorName? (c.skip 1)).map fun (name, c) => (.alias name, c)
    | '"' :: _ | '\'' :: _ => (quoted? c.rest).map fun (s, rest) => (.text s, c.moveTo rest)
    | '&' :: _ | '!' :: _ =>
      match marks? c with
      | none => none
      | some (m, c) =>
        match c.next with
        | none => none
        | some t =>
          if t.rest.head?.any (fun d => d = ',' || d = ']' || d = '\x7d')
              || atColon false t.rest then
            some (m.alone, t)
          else (flowNode? fuel t).map fun (d, c) => (m.on d, c)
    | _ =>
      if startsPlain true c.rest then
        let (part, rest) := plainPart true c.rest
        let (text, c) := plainMore true 0 rest.length part (c.moveTo rest)
        some (.plain (String.ofList text), c)
      else none

/-- A node between brackets that may be a key, with its value.  A question mark may
stand in front of a key. -/
def flowPair? : (fuel : Nat) → Cursor → Option ((Draft × Option Draft) × Cursor)
  | 0, _ => none
  | fuel + 1, c =>
    match if c.atMark '?' then (c.skip 1).next else some c with
    | none => none
    | some start =>
      match flowNode? fuel start with
      | none => none
      | some (key, after) =>
        match after.next with
        | none => none
        | some t =>
          let adjacent := isClosed start.rest && t.rest.length = after.rest.length
          if atColon adjacent t.rest then
            (flowValue fuel (t.skip 1)).map fun (d, c) => ((key, some d), c)
          else some ((key, if c.atMark '?' then some .nothing else none), t)

/-- The items of a sequence in brackets from here on, and the closing bracket. -/
def flowItems : (fuel : Nat) → (behind : List Draft) → Cursor → Option (List Draft × Cursor)
  | 0, _, _ => none
  | fuel + 1, behind, c =>
    match c.next with
    | none => none
    | some c =>
      if c.rest.head? = some ']' then some (behind.reverse, c.skip 1)
      else
        match flowPair? fuel c with
        | none => none
        | some ((key, value?), c) =>
          let item := value?.elim key fun d => .table [(key, d)]
          match c.next with
          | some c =>
            if c.rest.head? = some ',' then flowItems fuel (item :: behind) (c.skip 1)
            else if c.rest.head? = some ']' then some ((item :: behind).reverse, c.skip 1)
            else none
          | none => none

/-- The value behind a colon between brackets; it may be missing. -/
def flowValue : (fuel : Nat) → Cursor → Option (Draft × Cursor)
  | 0, _ => none
  | fuel + 1, c =>
    match c.next with
    | none => none
    | some c =>
      if c.rest.head?.any (fun d => d = ',' || d = ']' || d = '\x7d') then some (.nothing, c)
      else flowNode? fuel c

/-- The members of a mapping in braces from here on, and the closing brace. -/
def flowMembers : (fuel : Nat) → (behind : List (Draft × Draft)) → Cursor →
    Option (List (Draft × Draft) × Cursor)
  | 0, _, _ => none
  | fuel + 1, behind, c =>
    match c.next with
    | none => none
    | some c =>
      if c.rest.head? = some '\x7d' then some (behind.reverse, c.skip 1)
      else
        match flowPair? fuel c with
        | none => none
        | some ((key, value?), c) =>
          let member := (key, value?.getD .nothing)
          match c.next with
          | some c =>
            if c.rest.head? = some ',' then flowMembers fuel (member :: behind) (c.skip 1)
            else if c.rest.head? = some '\x7d' then some ((member :: behind).reverse, c.skip 1)
            else none
          | none => none

end

/-! ## Nodes in blocks -/

/-- A key at the front of a line: a scalar or an alias on one line with a colon
and a gap behind it, and the cursor behind the colon. -/
def blockKey? (c : Cursor) : Option (Draft × Cursor) :=
  match marks? c with
  | none => none
  | some (m, start) =>
    let found : Option (Draft × List Char) :=
      match start.rest with
      | '*' :: _ => (anchorName? (start.skip 1)).map fun (name, c) => (.alias name, c.rest)
      | '"' :: _ | '\'' :: _ => (quoted? start.rest).map fun (s, rest) => (.text s, rest)
      | _ =>
        if startsPlain false start.rest then
          let (part, rest) := plainPart false start.rest
          some (.plain (String.ofList part), rest)
        else none
    match found with
    | none => none
    | some (key, rest) =>
      let after := start.moveTo (rest.dropWhile isBlank)
      if (start.rest.take (start.rest.length - rest.length)).contains '\n' then none
      else if after.rest.head? = some ':' && Cursor.atGap (after.rest.drop 1) then
        some (m.on key, after.skip 1)
      else none

mutual

/-- A node in a block whose collection stands at column `indent`.  On the line of
its key or of its marks (`inline`) it cannot be another block. -/
def blockNode? : (fuel : Nat) → (indent : Int) → (inline : Bool) → Cursor → Option (Draft × Cursor)
  | 0, _, _, _ => none
  | fuel + 1, indent, inline, c =>
    if c.atMark '-' then
      if inline then none
      else (blockItems fuel c.column [] c).map fun (items, c) => (.list items, c)
    else if c.atMark '?' || (blockKey? c).isSome then
      if inline then none
      else (blockMembers fuel c.column [] c).map fun (ms, c) => (.table ms, c)
    else
      match c.rest with
      | '|' :: _ | '>' :: _ => blockScalar? indent c
      | '[' :: _ | '{' :: _ => flowNode? fuel c
      | '*' :: _ => (anchorName? (c.skip 1)).map fun (name, c) => (.alias name, c)
      | '"' :: _ | '\'' :: _ => (quoted? c.rest).map fun (s, rest) => (.text s, c.moveTo rest)
      | '&' :: _ | '!' :: _ =>
        (marks? c).bind fun (m, c) => blockValue fuel indent inline true m c
      | _ =>
        if startsPlain false c.rest then
          let (part, rest) := plainPart false c.rest
          let (text, after) := plainMore false indent rest.length part (c.moveTo rest)
          if after.rest.head? = some ':' then none
          else some (.plain (String.ofList text), after)
        else none

/-- The value behind a colon, a dash or marks: on the same line, or on the next
ones if these are indented more than `indent`.  The items of a sequence that is
the value of a key may stand at `indent` itself. -/
def blockValue : (fuel : Nat) → (indent : Int) → (isKey inline : Bool) → Marks → Cursor →
    Option (Draft × Cursor)
  | 0, _, _, _, _, _ => none
  | fuel + 1, indent, isKey, inline, m, c =>
    match c.next with
    | none => none
    | some t =>
      if t.atEnd then some (m.alone, t)
      else if !t.fresh then (blockNode? fuel indent inline t).map fun (d, c) => (m.on d, c)
      else if indent < t.column then (blockNode? fuel indent false t).map fun (d, c) => (m.on d, c)
      else if isKey && indent = t.column && t.atMark '-' then
        (blockItems fuel t.column [] t).map fun (items, c) => (m.on (.list items), c)
      else some (m.alone, t)

/-- The items of a sequence at a column from here on. -/
def blockItems : (fuel : Nat) → (column : Nat) → (behind : List Draft) → Cursor →
    Option (List Draft × Cursor)
  | 0, _, _, _ => none
  | fuel + 1, column, behind, c =>
    match blockValue fuel column false false {} (c.skip 1) with
    | none => none
    | some (d, c) =>
      match c.next with
      | none => none
      | some t =>
        if t.atEnd || (t.fresh && t.column < column) then some ((d :: behind).reverse, t)
        else if t.fresh && t.column = column then
          if t.atMark '-' then blockItems fuel column (d :: behind) t
          else some ((d :: behind).reverse, t)
        else none

/-- A member of a mapping at a column: a key with its value on the same line or
below, or both behind marks of their own. -/
def blockMember? : (fuel : Nat) → (column : Nat) → Cursor → Option ((Draft × Draft) × Cursor)
  | 0, _, _ => none
  | fuel + 1, column, c =>
    if c.atMark '?' then
      match blockValue fuel column false false {} (c.skip 1) with
      | none => none
      | some (key, c) =>
        match c.next with
        | none => none
        | some t =>
          if t.fresh && t.column = column && t.atMark ':' then
            (blockValue fuel column true false {} (t.skip 1)).map fun (d, c) => ((key, d), c)
          else some ((key, .nothing), t)
    else
      match blockKey? c with
      | none => none
      | some (key, c) => (blockValue fuel column true true {} c).map fun (d, c) => ((key, d), c)

/-- The members of a mapping at a column from here on. -/
def blockMembers : (fuel : Nat) → (column : Nat) → (behind : List (Draft × Draft)) → Cursor →
    Option (List (Draft × Draft) × Cursor)
  | 0, _, _, _ => none
  | fuel + 1, column, behind, c =>
    match blockMember? fuel column c with
    | none => none
    | some (member, c) =>
      match c.next with
      | none => none
      | some t =>
        if t.atEnd || (t.fresh && t.column < column) then some ((member :: behind).reverse, t)
        else if t.fresh && t.column = column then blockMembers fuel column (member :: behind) t
        else none

end

/-! ## Documents -/

/-- Line breaks of every kind as line feeds. -/
def unifyBreaks : List Char → List Char
  | [] => []
  | '\r' :: '\n' :: rest => '\n' :: unifyBreaks rest
  | '\r' :: rest => '\n' :: unifyBreaks rest
  | c :: rest => c :: unifyBreaks rest

/-- Drops the directives in front of a document, and tells whether there were
any. -/
def skipDirectives : (fuel : Nat) → (found : Bool) → Cursor → Option (Bool × Cursor)
  | 0, _, _ => none
  | fuel + 1, found, c =>
    match c.next with
    | none => none
    | some t =>
      if t.column = 0 && t.rest.head? = some '%' then
        skipDirectives fuel true { rest := t.rest.dropWhile (· ≠ '\n') }
      else some (found, t)

/-- Whether nothing but the mark of its end follows a document. -/
def endsText : (fuel : Nat) → Cursor → Bool
  | 0, _ => false
  | fuel + 1, c =>
    match c.next with
    | none => false
    | some t =>
      if t.rest.isEmpty then true
      else if t.column = 0 && ['.', '.', '.'].isPrefixOf t.rest then endsText fuel (t.skip 3)
      else false

/-- The draft of a text with one document; a text without any is an empty table. -/
def draft? (text : List Char) : Option Draft := do
  let text := unifyBreaks text
  let fuel := 4 * text.length + 4
  let (directed, start) ← skipDirectives fuel false { rest := text }
  if start.rest.isEmpty && !directed then return .table []
  let marked := start.column = 0 && ['-', '-', '-'].isPrefixOf start.rest && start.atEnd
  if directed && !marked then none
  let (d, c) ←
    if marked then blockValue fuel (-1) false true {} (start.skip 3)
    else blockNode? fuel (-1) false start
  if endsText fuel c then return d else none

/-- The table that a text stands for. -/
def read (text : List Char) : Option Node := do
  let value ← (← draft? text).value?
  match value with
  | .table entries => (Value.table entries).node?
  | _ => none

end PeekLock.Settings.Yaml
