import PeekLock.Text.Invisible

/-!
# PeekLock.Text.Quoted

Texts in double quotes, as messages show them.

A quote and a backslash get a backslash in front; the four common controls
are written by their letter and every other invisible character by its
code point in braces, so that a quoted text is always one line that can
be read on the page.
-/

namespace PeekLock.Text

/-- A character inside the quotes. -/
def quotedChar (c : Char) : List Char :=
  match c with
  | '\x00' => ['\\', '0']
  | '\t' => ['\\', 't']
  | '\r' => ['\\', 'r']
  | '\n' => ['\\', 'n']
  | '"' => ['\\', '"']
  | '\\' => ['\\', '\\']
  | _ =>
    if isInvisible c then ['\\', 'u', '\x7b'] ++ Nat.toDigits 16 c.toNat ++ ['\x7d'] else [c]

/-- A text in quotes. -/
def quoted (s : String) : String :=
  String.ofList ('"' :: s.toList.flatMap quotedChar ++ ['"'])

end PeekLock.Text
