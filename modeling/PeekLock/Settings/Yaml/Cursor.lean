import PeekLock.Settings.Yaml.Draft

/-!
# PeekLock.Settings.Yaml.Cursor

The reading position in a YAML document, and the scalars that it stands
at.

A cursor knows its column, because the structure of blocks hangs on
columns alone.  `Cursor.next` goes on to the next token, across blanks,
line breaks and comments.
-/

namespace PeekLock.Settings.Yaml

/-- A place in the text. -/
structure Cursor where
  rest : List Char
  column : Nat := 0
  /-- Whether nothing but blanks stands in front of the place on its line. -/
  fresh : Bool := true

namespace Cursor

/-- The cursor behind `n` characters of the same line. -/
def skip (c : Cursor) (n : Nat) : Cursor := ⟨c.rest.drop n, c.column + n, c.fresh && n = 0⟩

/-- The cursor behind the blanks that stand here. -/
def skipBlanks (c : Cursor) : Cursor := c.skip (c.rest.takeWhile isBlank).length

/-- The cursor at what is left of the text after some piece was read. -/
def moveTo (c : Cursor) (rest : List Char) : Cursor :=
  let read := c.rest.take (c.rest.length - rest.length)
  let line := (read.reverse.takeWhile (· ≠ '\n')).length
  ⟨rest, if line < read.length then line else c.column + line, false⟩

/-- Whether a blank, a line break or nothing comes here. -/
def atGap : List Char → Bool
  | [] => true
  | c :: _ => c = ' ' || c = '\t' || c = '\n'

/-- Whether the document ends here. -/
def atEnd (c : Cursor) : Bool :=
  c.rest.isEmpty ||
    (c.column = 0 &&
      ((['-', '-', '-'].isPrefixOf c.rest || ['.', '.', '.'].isPrefixOf c.rest) &&
        atGap (c.rest.drop 3)))

/-- Whether a mark and a gap stand here: a dash in front of an item of a sequence, a
question mark in front of a key, or a colon in front of a value. -/
def atMark (mark : Char) (c : Cursor) : Bool := c.rest.head? = some mark && atGap (c.rest.drop 1)

/-- Goes on to the next thing that is no blank, break or comment.  `gap` says
whether a comment may start here.  On a fresh line a tab may stand in front of
a comment only. -/
def toToken : (fuel : Nat) → (gap : Bool) → Cursor → Option Cursor
  | 0, _, _ => none
  | fuel + 1, gap, c =>
    match c.rest with
    | ' ' :: rest => toToken fuel true { c with rest := rest, column := c.column + 1 }
    | '\t' :: rest =>
      if c.fresh && (rest.dropWhile isBlank).head?.any (fun d => d ≠ '\n' && d ≠ '#') then none
      else toToken fuel true { c with rest := rest, column := c.column + 1 }
    | '\n' :: rest => toToken fuel true { rest := rest }
    | '#' :: rest =>
      if gap then toToken fuel true { c with rest := rest.dropWhile (· ≠ '\n') } else some c
    | _ => some c

/-- The next token, from the end of the one before. -/
def next (c : Cursor) : Option Cursor := toToken (c.rest.length + 1) c.fresh c

end Cursor

/-! ## Plain scalars -/

/-- The characters that delimit collections in brackets. -/
def isBracket (c : Char) : Bool := c = ',' || c = '[' || c = ']' || c = '\x7b' || c = '\x7d'

/-- Whether a plain scalar can start here. -/
def startsPlain (flow : Bool) : List Char → Bool
  | [] => false
  | c :: rest =>
    if c = '-' || c = '?' || c = ':' then
      match rest with
      | [] => false
      | d :: _ => d ≠ ' ' && d ≠ '\t' && d ≠ '\n' && !(flow && isBracket d)
    else !(isBracket c || ['#', '&', '*', '!', '|', '>', '\'', '"', '%', '@', '\x60'].contains c)

/-- The part of a plain scalar on one line, and what is behind it.  It ends in
front of a colon with a gap behind it, of a comment and of the line break,
and between brackets also in front of these. -/
def plainLine (flow : Bool) : (behind : List Char) → List Char → List Char × List Char
  | behind, [] => (behind, [])
  | behind, c :: rest =>
    let ends := c = '\n' || (flow && isBracket c) ||
      (c = ':' && (Cursor.atGap rest || (flow && rest.head?.any isBracket))) ||
      (c = '#' && behind.head?.any isBlank)
    if ends then (behind, c :: rest) else plainLine flow (c :: behind) rest

/-- The part of a plain scalar on one line, without the blanks at its end. -/
def plainPart (flow : Bool) (cs : List Char) : List Char × List Char :=
  let (behind, rest) := plainLine flow [] cs
  let kept := behind.dropWhile isBlank
  (kept.reverse, (behind.take (behind.length - kept.length)).reverse ++ rest)

/-- The lines that continue a plain scalar: they are indented more than
`indent`. -/
def plainMore (flow : Bool) (indent : Int) :
    (fuel : Nat) → (text : List Char) → Cursor → List Char × Cursor
  | 0, text, c => (text, c)
  | fuel + 1, text, c =>
    match c.rest.dropWhile isBlank with
    | '\n' :: _ =>
      let (count, rest) := breaks 0 c.rest
      let here := c.moveTo rest
      if rest.isEmpty || here.atEnd || (!flow && (here.column : Int) ≤ indent) ||
          rest.head?.any (fun d => d = '#' || (flow && isBracket d)) then (text, c)
      else
        let (part, rest) := plainPart flow rest
        if part.isEmpty then (text, c)
        else plainMore flow indent fuel (text ++ folded count ++ part) (here.moveTo rest)
    | _ => (text, c)

/-! ## Block scalars -/

/-- The lines of a text. -/
def splitLines : List Char → List (List Char)
  | [] => []
  | c :: rest =>
    match c, splitLines rest with
    | '\n', lines => [] :: lines
    | _, [] => [[c]]
    | _, line :: lines => (c :: line) :: lines

/-- The number of spaces at the front of a line. -/
def indentOf (line : List Char) : Nat := (line.takeWhile (· = ' ')).length

/-- The lines of a folded block, one after the other.  Breaks between lines that
start with no blank are folded. -/
def foldLines : List (List Char) → List Char
  | [] => []
  | [line] => line
  | line :: next :: rest =>
    let tail := foldLines (next :: rest)
    if line.isEmpty then '\n' :: tail
    else if line.head?.any isBlank || next.head?.any isBlank then line ++ '\n' :: tail
    else if next.isEmpty then line ++ tail
    else line ++ ' ' :: tail

/-- A scalar in a block, at its mark.  `indent` is the column of the collection
that it is part of. -/
def blockScalar? (indent : Int) (c : Cursor) : Option (Draft × Cursor) :=
  let isFolded := c.rest.head? = some '>'
  let line := (c.rest.drop 1).takeWhile (· ≠ '\n')
  let marks := line.takeWhile fun d => !isBlank d
  let behind := (line.drop marks.length).dropWhile isBlank
  let digits := marks.filter Char.isDigit
  let others := marks.filter fun d => !d.isDigit
  if !(behind.isEmpty || behind.head? = some '#') || 1 < digits.length || 1 < others.length ||
      others.any (fun d => d ≠ '+' && d ≠ '-') || digits = ['0'] then none
  else
    let lines := splitLines (c.rest.drop (2 + line.length))
    let first := (lines.find? fun l => !(l.all (· = ' '))).getD []
    let base : Nat := match digits with
      | [d] => (max indent 0).toNat + (d.toNat - 48)
      | _ => indentOf first
    let isInside (l : List Char) : Bool :=
      if l.all (· = ' ') then true else base ≤ indentOf l && indent < (indentOf l : Int)
    let inside := lines.takeWhile isInside
    let body := inside.map fun l => l.drop base
    let kept := (body.reverse.dropWhile List.isEmpty).reverse
    let text := if isFolded then foldLines kept else (['\n'] : List Char).intercalate kept
    let ending : List Char :=
      if others = ['-'] || kept.isEmpty then
        if others = ['+'] then List.replicate body.length '\n' else []
      else if others = ['+'] then List.replicate (body.length - kept.length + 1) '\n'
      else ['\n']
    let rest := (['\n'] : List Char).intercalate (lines.drop inside.length)
    some (.text (String.ofList (text ++ ending)), { rest := rest })

end PeekLock.Settings.Yaml
