/-!
# Places in a text

A place in a text is told by its line, counted from one, and its column: the number of bytes since
the last line break.
-/

namespace Conform.Text

/-- A place in a text. -/
structure Position where
  line : Nat
  column : Nat
  deriving DecidableEq

/-- The size of a text in bytes. -/
def byteSize (cs : List Char) : Nat := cs.foldr (fun c size => c.utf8Size + size) 0

/-- The place `bytes` behind another one, over the characters that follow it. -/
def Position.advance (p : Position) (bytes : Nat) : List Char → Position
  | [] => p
  | c :: rest =>
    if bytes = 0 then p
    else if c = '\n' then Position.advance ⟨p.line + 1, 0⟩ (bytes - 1) rest
    else Position.advance ⟨p.line, p.column + min bytes c.utf8Size⟩ (bytes - c.utf8Size) rest

/-- The place with `left` bytes of the text behind it. -/
def Position.before (text : List Char) (left : Nat) : Position :=
  Position.advance ⟨1, 0⟩ (byteSize text - left) text

/-- The wording of a place. -/
def Position.describe (p : Position) : String :=
  "line " ++ toString p.line ++ " column " ++ toString p.column

/-- What went wrong in a text, and where. -/
structure Located (ε : Type) where
  cause : ε
  position : Position

end Conform.Text
