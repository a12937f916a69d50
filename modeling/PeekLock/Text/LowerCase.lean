/-!
# PeekLock.Text.LowerCase

Lower case, as far as comparing with ASCII words needs it.

Apart from the ASCII capitals there is one character whose lower case is a
single ASCII character: the Kelvin sign U+212A, which becomes `k`.  Every
other character stays outside ASCII when it is put into lower case, or
keeps a mark there, so a text is equal to an ASCII word in lower case
exactly when its image under `lowerCase` is.
-/

namespace PeekLock.Text

/-- A character in lower case, if that is ASCII; otherwise the character. -/
def lowerChar (c : Char) : Char :=
  if 'A' ≤ c && c ≤ 'Z' then Char.ofNat (c.toNat + 32)
  else if c.toNat = 0x212A then 'k'
  else c

/-- A text in lower case. -/
def lowerCase (s : String) : String := String.ofList (s.toList.map lowerChar)

end PeekLock.Text
