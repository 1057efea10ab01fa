/-!
# Positions and spans of script text

A position counts lines and columns from one and bytes of the UTF-8 form from zero.  A span is the
text between two positions.  The span whose line is zero belongs to nothing that was read.
-/

namespace MarketScript

/-- A place between two characters of a script. -/
structure Position where
  line : Nat
  column : Nat
  offset : Nat
deriving DecidableEq, Repr, Inhabited

namespace Position

/-- The place before the first character. -/
def start : Position := ⟨1, 1, 0⟩

/-- The place after one more character: a newline begins the next line, every other character is
    one column wide. -/
def step (p : Position) (c : Char) : Position :=
  if c = '\n' then ⟨p.line + 1, 1, p.offset + c.utf8Size⟩
  else ⟨p.line, p.column + 1, p.offset + c.utf8Size⟩

/-- The place after several more characters. -/
def walk (p : Position) (cs : List Char) : Position := cs.foldl step p

@[simp] theorem walk_nil (p : Position) : p.walk [] = p := rfl

@[simp] theorem walk_cons (p : Position) (c : Char) (cs : List Char) :
    p.walk (c :: cs) = (p.step c).walk cs := rfl

@[simp] theorem walk_append (p : Position) (cs ds : List Char) :
    p.walk (cs ++ ds) = (p.walk cs).walk ds :=
  List.foldl_append

/-- The form `line:column`. -/
def text (p : Position) : String := s!"{p.line}:{p.column}"

end Position

/-- The text from one position up to another. -/
structure Span where
  start : Position
  stop : Position
deriving DecidableEq, Repr, Inhabited

namespace Span

/-- The span of what was not read from text. -/
def synthetic : Span := ⟨⟨0, 0, 0⟩, ⟨0, 0, 0⟩⟩

def isSynthetic (s : Span) : Bool := s.start.line == 0

/-- The least span over both: the earlier start, the later end, the first span's where they agree. -/
def join (a b : Span) : Span where
  start := if a.start.offset ≤ b.start.offset then a.start else b.start
  stop := if b.stop.offset ≤ a.stop.offset then a.stop else b.stop

/-- A span is shown by its start. -/
def text (s : Span) : String := s.start.text

@[simp] theorem join_self (s : Span) : s.join s = s := by
  simp [join]

end Span

end MarketScript
