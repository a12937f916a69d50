import PeekLock.Settings.Toml.Scalar

/-!
# PeekLock.Settings.Yaml.Scalar

The scalars of YAML.

A scalar in quotes is a text.  A plain one is null, a truth value, a
number or else a text: `~` and `null`, `true` and `false` in just this
spelling, whole numbers in decimal or behind `0x` and `0o`, and numbers
with a point or exponent.  The words for infinite numbers and for no
number are recognised but stand for no value that settings can hold.

Line breaks inside a scalar are folded: one break is a space, and of
several the first is dropped.
-/

namespace PeekLock.Settings.Yaml

/-! ## Plain scalars -/

/-- The words that stand for infinite numbers and for no number. -/
def specialWords : List String :=
  [".inf", ".Inf", ".INF", "+.inf", "+.Inf", "+.INF", "-.inf", "-.Inf", "-.INF",
    ".nan", ".NaN", ".NAN"]

/-- A whole number of 64 bits in a base, with an optional sign. -/
def basedInteger? (base : Nat) (cs : List Char) : Option Int :=
  let (sign, digits) : Int × List Char := match cs with
    | '-' :: rest => (-1, rest)
    | '+' :: rest => (1, rest)
    | _ => (1, cs)
  if digits.isEmpty || !digits.all (fun c => (Toml.hexDigit? c).any (· < base)) then none
  else
    let n := sign * digits.foldl (fun (n : Nat) c => n * base + (Toml.hexDigit? c).getD 0) 0
    if -(Decimal.maxI64 : Int) - 1 ≤ n && n ≤ Decimal.maxI64 then some n else none

/-- A whole number behind a mark for its base or a plus sign. -/
def markedInteger? : List Char → Option Int
  | '0' :: 'x' :: rest => basedInteger? 16 rest
  | '0' :: 'o' :: rest => basedInteger? 8 rest
  | '+' :: rest => Decimal.int? Decimal.maxI64 rest
  | _ => none

/-- Whether a plain scalar is a number with a point or an exponent, or one of the
words for numbers that are not finite. -/
def isReal (text : String) : Bool :=
  specialWords.contains text ||
    (text.toList.any Char.isDigit && (Decimal.double? text.toList).isSome)

/-! ## Folding -/

/-- What a number of line breaks in a row becomes. -/
def folded (breaks : Nat) : List Char :=
  match breaks with
  | 0 => []
  | 1 => [' ']
  | n + 1 => List.replicate n '\n'

/-- Blanks inside a line. -/
def isBlank (c : Char) : Bool := c = ' ' || c = '\t'

/-- The line breaks at the front of a text, with the blanks around them. -/
def breaks : (count : Nat) → List Char → Nat × List Char
  | count, [] => (count, [])
  | count, c :: rest =>
    if c = '\n' then breaks (count + 1) rest
    else if isBlank c then breaks count rest
    else (count, c :: rest)

/-! ## Quoted scalars -/

/-- An escape behind its backslash. -/
def escape? : List Char → Option (Char × List Char)
  | '0' :: rest => some ('\x00', rest)
  | 'a' :: rest => some ('\x07', rest)
  | 'b' :: rest => some ('\x08', rest)
  | 't' :: rest => some ('\t', rest)
  | '\t' :: rest => some ('\t', rest)
  | 'n' :: rest => some ('\n', rest)
  | 'v' :: rest => some ('\x0b', rest)
  | 'f' :: rest => some ('\x0c', rest)
  | 'r' :: rest => some ('\r', rest)
  | 'e' :: rest => some ('\x1b', rest)
  | ' ' :: rest => some (' ', rest)
  | '"' :: rest => some ('"', rest)
  | '/' :: rest => some ('/', rest)
  | '\\' :: rest => some ('\\', rest)
  | 'N' :: rest => some ('\u0085', rest)
  | '_' :: rest => some ('\u00a0', rest)
  | 'L' :: rest => some ('\u2028', rest)
  | 'P' :: rest => some ('\u2029', rest)
  | 'x' :: rest => Toml.codePoint? 2 rest
  | 'u' :: rest => Toml.codePoint? 4 rest
  | 'U' :: rest => Toml.codePoint? 8 rest
  | _ => none

/-- A scalar in quotes behind the first one, with the blanks read last kept
apart because a line break swallows them. -/
def quotedTail (double : Bool) :
    (fuel : Nat) → (behind blanks : List Char) → List Char → Option (String × List Char)
  | 0, _, _, _ => none
  | _, _, _, [] => none
  | fuel + 1, behind, blanks, c :: rest =>
    let all := blanks ++ behind
    if c = '\n' then
      let (count, rest) := breaks 0 (c :: rest)
      quotedTail double fuel ((folded count).reverse ++ behind) [] rest
    else if isBlank c then quotedTail double fuel behind (c :: blanks) rest
    else if double then
      if c = '"' then some (String.ofList all.reverse, rest)
      else if c = '\\' then
        match rest with
        | '\n' :: rest =>
          let (count, rest) := breaks 0 rest
          quotedTail double fuel (List.replicate count '\n' ++ all) [] rest
        | _ =>
          match escape? rest with
          | some (c, rest) => quotedTail double fuel (c :: all) [] rest
          | none => none
      else quotedTail double fuel (c :: all) [] rest
    else
      match c, rest with
      | '\'', '\'' :: rest => quotedTail double fuel ('\'' :: all) [] rest
      | '\'', _ => some (String.ofList all.reverse, rest)
      | _, _ => quotedTail double fuel (c :: all) [] rest

/-- A scalar that starts with a quote. -/
def quoted? (cs : List Char) : Option (String × List Char) :=
  match cs with
  | '"' :: rest => quotedTail true (cs.length + 1) [] [] rest
  | '\'' :: rest => quotedTail false (cs.length + 1) [] [] rest
  | _ => none

end PeekLock.Settings.Yaml
