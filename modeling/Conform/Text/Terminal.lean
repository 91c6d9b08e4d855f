import Conform.Text.Quoted

/-!
# Text for a terminal

Text that is logged may not steer the terminal on which it is read. The controls that start or end
sequences of commands are shown by their code points; line breaks and tabs are left as they are.
-/

namespace Conform.Text

/-- Whether a character of one byte steers a terminal: bell, backspace, form feed, escape and
delete. -/
def steersTerminal (c : Char) : Bool :=
  c = '\x07' || c = '\x08' || c = '\x0c' || c = '\x1b' || c = '\x7f'

/-- A character as it stands in text for a terminal. -/
def terminalChar (c : Char) : List Char :=
  if steersTerminal c then
    '\\' :: 'x' :: [Nat.digitChar (c.toNat / 16), Nat.digitChar (c.toNat % 16)]
  else if 0x80 ≤ c.toNat ∧ c.toNat ≤ 0x9f then codePoint c
  else [c]

/-- Text that does not steer a terminal. -/
def terminalText (s : String) : String := String.ofList (s.toList.flatMap terminalChar)

end Conform.Text
