/-!
# PeekLock.Text.Utf8

UTF-8 text held in a list of bytes.

`next` looks at the first scalar value of a byte list.  It answers either
the character with the bytes behind it, or — when the bytes are not
well-formed UTF-8 — the bytes behind the *maximal broken piece*: the
longest run that some well-formed character starts with, or one byte when
there is none.  The two decoders differ only in what they do with a
broken piece: `decode?` refuses the text, `decodeLossy` writes one U+FFFD
for it.  `encode` is the other direction.
-/

namespace PeekLock.Text.Utf8

/-- What a byte list starts with. -/
inductive Next where
  /-- The list is empty. -/
  | done
  /-- A well-formed character, and the bytes behind it. -/
  | scalar (c : Char) (rest : List UInt8)
  /-- A broken piece, and the bytes behind it. -/
  | broken (rest : List UInt8)

/-- The bytes that continue a character. -/
def isContinuation (b : UInt8) : Bool := 0x80 ≤ b && b ≤ 0xBF

/-- The bytes that may stand second after a given first byte of a character
of three bytes: overlong forms and surrogates are cut off. -/
def secondOfThree (first second : UInt8) : Bool :=
  if first = 0xE0 then 0xA0 ≤ second && second ≤ 0xBF
  else if first = 0xED then 0x80 ≤ second && second ≤ 0x9F
  else isContinuation second

/-- The bytes that may stand second after a given first byte of a character
of four bytes: overlong forms and values above U+10FFFF are cut off. -/
def secondOfFour (first second : UInt8) : Bool :=
  if first = 0xF0 then 0x90 ≤ second && second ≤ 0xBF
  else if first = 0xF4 then 0x80 ≤ second && second ≤ 0x8F
  else isContinuation second

/-- The six payload bits of a continuation byte. -/
def payload (b : UInt8) : Nat := b.toNat % 64

/-- Splits off the first character, or the first broken piece. -/
def next : List UInt8 → Next
  | [] => .done
  | a :: rest =>
    if a < 0x80 then .scalar (Char.ofNat a.toNat) rest
    else if 0xC2 ≤ a && a ≤ 0xDF then
      match rest with
      | b :: rest₂ =>
        if isContinuation b then
          .scalar (Char.ofNat (a.toNat % 32 * 64 + payload b)) rest₂
        else .broken rest
      | [] => .broken []
    else if 0xE0 ≤ a && a ≤ 0xEF then
      match rest with
      | b :: rest₂ =>
        if secondOfThree a b then
          match rest₂ with
          | c :: rest₃ =>
            if isContinuation c then
              .scalar (Char.ofNat (a.toNat % 16 * 4096 + payload b * 64 + payload c)) rest₃
            else .broken rest₂
          | [] => .broken []
        else .broken rest
      | [] => .broken []
    else if 0xF0 ≤ a && a ≤ 0xF4 then
      match rest with
      | b :: rest₂ =>
        if secondOfFour a b then
          match rest₂ with
          | c :: rest₃ =>
            if isContinuation c then
              match rest₃ with
              | d :: rest₄ =>
                if isContinuation d then
                  .scalar (Char.ofNat (a.toNat % 8 * 262144 + payload b * 4096 + payload c * 64
                    + payload d)) rest₄
                else .broken rest₃
              | [] => .broken []
            else .broken rest₂
          | [] => .broken []
        else .broken rest
      | [] => .broken []
    else .broken rest

/-- The bytes that `next` leaves. -/
def Next.rest : Next → List UInt8
  | .done => []
  | .scalar _ rest => rest
  | .broken rest => rest

/-- `next` never leaves more than the bytes behind the first one. -/
theorem length_rest_next (a : UInt8) (bytes : List UInt8) :
    (next (a :: bytes)).rest.length ≤ bytes.length := by
  unfold next
  repeat' split
  all_goals (simp_all [Next.rest] <;> omega)

/-- `next` always moves on. -/
theorem length_lt_of_next {a : UInt8} {bytes : List UInt8} {piece : Next}
    (h : next (a :: bytes) = piece) : piece.rest.length < (a :: bytes).length :=
  Nat.lt_succ_of_le (h ▸ length_rest_next a bytes)

/-- Reads the bytes as text, with one U+FFFD for each broken piece. -/
def decodeLossy : List UInt8 → List Char
  | [] => []
  | a :: bytes =>
    match h : next (a :: bytes) with
    | .done => []
    | .scalar c rest =>
      have : rest.length < (a :: bytes).length := length_lt_of_next h
      c :: decodeLossy rest
    | .broken rest =>
      have : rest.length < (a :: bytes).length := length_lt_of_next h
      '\uFFFD' :: decodeLossy rest
termination_by bytes => bytes.length
decreasing_by all_goals exact this

/-- Reads the bytes as text, if they are well-formed. -/
def decode? : List UInt8 → Option (List Char)
  | [] => some []
  | a :: bytes =>
    match h : next (a :: bytes) with
    | .done => some []
    | .scalar c rest =>
      have : rest.length < (a :: bytes).length := length_lt_of_next h
      (decode? rest).map (c :: ·)
    | .broken _ => none
termination_by bytes => bytes.length
decreasing_by all_goals exact this

/-- The bytes of a text. -/
def encode (cs : List Char) : List UInt8 := cs.flatMap String.utf8EncodeChar

/-- The bytes of a string. -/
def bytesOf (s : String) : List UInt8 := encode s.toList

/-- The text of a list of bytes, broken pieces replaced. -/
def textOf (bytes : List UInt8) : String := String.ofList (decodeLossy bytes)

end PeekLock.Text.Utf8
