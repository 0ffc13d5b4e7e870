import GoReach.Text.Position

/-!
# Source text

The characters of a text by number, with the byte offset, the line and the beginning of the line of
each.  Every table has one entry more than there are characters, for the place behind the last one.
-/

namespace GoReach.Parse

structure Source where
  chars : Array Char
  offsets : Array Nat
  lines : Array Nat
  lineStarts : Array Nat
deriving Inhabited

namespace Source

/-- Add the tables' entries for a character and go on behind it. -/
def build (offset line lineStart : Nat) (offsets lines lineStarts : Array Nat) :
    List Char → Array Nat × Array Nat × Array Nat
  | [] => (offsets.push offset, lines.push line, lineStarts.push lineStart)
  | c :: rest =>
    let next := offset + c.utf8Size
    let offsets := offsets.push offset
    let lines := lines.push line
    let lineStarts := lineStarts.push lineStart
    if c == '\n' then build next (line + 1) next offsets lines lineStarts rest
    else build next line lineStart offsets lines lineStarts rest

def ofString (s : String) : Source :=
  let chars := s.toList
  let (offsets, lines, lineStarts) := build 0 0 0 #[] #[] #[] chars
  { chars := chars.toArray, offsets, lines, lineStarts }

variable (s : Source)

/-- Number of characters. -/
def size : Nat := s.chars.size

/-- Number of bytes before the character. -/
def offset (i : Nat) : Nat := s.offsets.getD i 0

/-- Number of newlines before the character. -/
def line (i : Nat) : Nat := s.lines.getD i 0

def position (i : Nat) : Position := ⟨s.line i + 1, s.offset i - s.lineStarts.getD i 0 + 1⟩

/-- The text from one character up to another. -/
def slice (i j : Nat) : String := String.ofList (s.chars.extract i j).toList

end Source

end GoReach.Parse
