import PeekLock.Settings.Environment
import PeekLock.Text.Blank
import PeekLock.Text.Utf8

/-!
# PeekLock.Settings.DotEnv

Variables given in a file, one assignment `NAME=value` a line, perhaps
with `export` in front.

In a value single quotes keep everything as it is; in double quotes and
outside of quotes a backslash escapes, and `$NAME` or `$` with a name in
braces stands for the value of a variable that is already set.  Behind a
blank outside of quotes only a comment may come.  The file is read up to
the first line that is none of this, and a variable that is set already
keeps its value.
-/

namespace PeekLock.Settings.DotEnv

/-- Where in a value the reading stands. -/
inductive Mode where
  | bare
  | single
  | double
  /-- Behind the value; a comment may come. -/
  | ended
  deriving DecidableEq

/-- Where in the name of a variable the reading stands. -/
inductive Naming where
  | none
  /-- Behind the dollar sign. -/
  | plain
  /-- Between braces. -/
  | braced
  deriving DecidableEq

/-- The characters of values that name a variable without braces. -/
def isNameChar (c : Char) : Bool := c.isAlphanum

/-- The characters of the names that get a value. -/
def isKeyChar (c : Char) : Bool := c.isAlphanum || c = '_'

/-- What a backslash and a character stand for. -/
def escape? (c : Char) : Option Char :=
  if c = 'n' then some '\n'
  else if c = '\\' || c = '\'' || c = '"' || c = '$' || c = ' ' then some c
  else none

/-- The state of reading a value: what came out so far (last character first), and
what is being read. -/
structure Progress where
  out : List Char := []
  mode : Mode := .bare
  escaped : Bool := false
  naming : Naming := .none
  name : List Char := []

/-- The value of the variable that was named. -/
def Progress.named (value : String → String) (p : Progress) : Progress :=
  { p with
    out := (value (String.ofList p.name.reverse)).toList.reverse ++ p.out
    name := [] }

/-- A character of a value outside of names. -/
def plainStep (p : Progress) (c : Char) : Progress :=
  if c = '$' then { p with naming := .plain }
  else if p.mode = .double then
    if c = '"' then { p with mode := .bare }
    else if c = '\\' then { p with escaped := true }
    else { p with out := c :: p.out }
  else if c = '\'' then { p with mode := .single }
  else if c = '"' then { p with mode := .double }
  else if c = '\\' then { p with escaped := true }
  else if c = ' ' || c = '\t' then { p with mode := .ended }
  else { p with out := c :: p.out }

/-- A character of a value; `value` tells what variables are set to. -/
def step? (value : String → String) (p : Progress) (c : Char) : Option Progress :=
  if p.mode = .ended then if c = ' ' || c = '\t' then some p else none
  else if p.escaped then (escape? c).map fun d => { p with out := d :: p.out, escaped := false }
  else if p.mode = .single then
    if c = '\'' then some { p with mode := .bare } else some { p with out := c :: p.out }
  else
    match p.naming with
    | .none => some (plainStep p c)
    | .plain =>
      if isNameChar c then some { p with name := c :: p.name }
      else if c = '\x7b' && p.name.isEmpty then some { p with naming := .braced }
      else
        let p := p.named value
        if c = '$' then some p else some { p with naming := .none, out := c :: p.out }
    | .braced =>
      if isNameChar c then some { p with name := c :: p.name }
      else if c = '\x7d' then some { p.named value with naming := .none }
      else some { p with name := c :: p.name }

/-- The characters of a value from here on. -/
def valueFrom (value : String → String) : Progress → List Char → Option String
  | p, [] =>
    if p.naming = .braced || p.mode = .single || p.mode = .double then none
    else some (String.ofList (p.named value).out.reverse)
  | p, c :: rest =>
    if p.mode = .ended && c = '#' then some (String.ofList (p.named value).out.reverse)
    else (step? value p c).bind fun p => valueFrom value p rest

/-- Drops blanks. -/
def skipBlanks (cs : List Char) : List Char := cs.dropWhile Text.isBlank

/-- A name at the front of a line, and what is behind it and its blanks. -/
def key? (cs : List Char) : Option (String × List Char) :=
  match cs with
  | c :: _ =>
    if c.isAlpha || c = '_' then
      let key := cs.takeWhile isKeyChar
      some (String.ofList key, skipBlanks (cs.drop key.length))
    else none
  | [] => none

/-- A line: nothing, or an assignment. -/
inductive Line where
  | blank
  | assignment (name value : String)

/-- Reads a line. -/
def line? (value : String → String) (cs : List Char) : Option Line :=
  let cs := skipBlanks (cs.reverse.dropWhile Text.isBlank).reverse
  if cs.isEmpty || cs.head? = some '#' then some .blank
  else do
    let (key, rest) ← key? cs
    let (key, rest) ← match key, rest with
      | _, '=' :: rest => some (key, rest)
      | "export", rest =>
        match key? rest with
        | some (key, '=' :: rest) => some (key, rest)
        | _ => none
      | _, _ => none
    let rest := skipBlanks rest
    if rest.isEmpty || rest.head? = some '#' then return .assignment key ""
    else
      let v ← valueFrom value {} rest
      return .assignment key v

/-- Reads lines, adding to an environment.  `assigned` holds what the lines before
gave, and what these lines may refer to besides the environment. -/
def readLines (assigned : Environment) (env : Environment) : List (List UInt8) → Environment
  | [] => env
  | bytes :: rest =>
    match Text.Utf8.decode? bytes with
    | none => env
    | some cs =>
      let value (name : String) : String :=
        ((env.get? name).orElse fun _ => assigned.get? name).getD ""
      match line? value cs with
      | none => env
      | some .blank => readLines assigned env rest
      | some (.assignment name v) =>
        let env := if (env.get? name).isSome then env else env ++ [(name, v)]
        readLines ((name, v) :: assigned) env rest

/-- The lines of a file. -/
def splitLines : List UInt8 → List (List UInt8)
  | [] => []
  | b :: rest =>
    match splitLines rest with
    | [] => if b = 10 then [[]] else [[b]]
    | line :: lines => if b = 10 then [] :: line :: lines else (b :: line) :: lines

/-- An environment with the variables of a file. -/
def extend (env : Environment) (file : List UInt8) : Environment :=
  readLines [] env (splitLines file)

end PeekLock.Settings.DotEnv
