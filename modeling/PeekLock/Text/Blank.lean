/-!
# PeekLock.Text.Blank

The blank characters: the code points with the Unicode property
`White_Space`.  Entity names must not contain one, and settings are
trimmed of them at both ends before they are looked at.

Trimming works on `List Char`, and `trim` is its image on strings.  It never
leaves a blank at the end (`getLast?_trimChars`).
-/

namespace PeekLock.Text

/-- The code points outside the ASCII range that are blank. -/
def wideBlanks : List Nat :=
  [0x85, 0xA0, 0x1680, 0x2000, 0x2001, 0x2002, 0x2003, 0x2004, 0x2005, 0x2006, 0x2007, 0x2008,
    0x2009, 0x200A, 0x2028, 0x2029, 0x202F, 0x205F, 0x3000]

/-- A character is blank when it is a space, one of the five controls from
tab to carriage return, or one of `wideBlanks`. -/
def isBlank (c : Char) : Bool :=
  c.toNat = 0x20 || (0x09 ≤ c.toNat && c.toNat ≤ 0x0D) || wideBlanks.contains c.toNat

/-- Drops the blanks at both ends. -/
def trimChars (cs : List Char) : List Char :=
  ((cs.dropWhile isBlank).reverse.dropWhile isBlank).reverse

/-- `trimChars` on strings. -/
def trim (s : String) : String := String.ofList (trimChars s.toList)

/-- Whether a text holds nothing but blanks. -/
def isBlankText (s : String) : Bool := s.toList.all isBlank

theorem isBlank_space : isBlank ' ' = true := by decide

/-- Every character that is blank for ASCII text is blank here. -/
theorem isBlank_of_isWhitespace {c : Char} (h : c.isWhitespace = true) : isBlank c = true := by
  have hc : c = ' ' ∨ c = '\t' ∨ c = '\r' ∨ c = '\n' := by
    simpa [Char.isWhitespace, or_assoc] using h
  rcases hc with rfl | rfl | rfl | rfl <;> decide

private theorem head?_dropWhile_blank (cs : List Char) :
    ∀ c, (cs.dropWhile isBlank).head? = some c → isBlank c = false := by
  induction cs with
  | nil => simp
  | cons a t ih =>
    intro c hc
    by_cases ha : isBlank a = true
    · simp [List.dropWhile, ha] at hc
      exact ih c hc
    · simp [List.dropWhile, ha] at hc
      simpa [hc] using ha

/-- A trimmed text does not end in a blank. -/
theorem getLast?_trimChars (cs : List Char) (c : Char) (h : (trimChars cs).getLast? = some c) :
    isBlank c = false := by
  apply head?_dropWhile_blank (cs.dropWhile isBlank).reverse c
  simpa [trimChars, List.getLast?_reverse] using h

end PeekLock.Text
