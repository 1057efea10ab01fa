import MarketScript.Source.Position

/-!
# Cursors

A reader over text that knows where it stands.  It holds the characters before it, nearest first,
and the characters after it, so that nothing of the text is lost by moving.
-/

namespace MarketScript

/-- A place in a text together with the text on both sides of it. -/
structure Cursor where
  /-- The characters already passed, the nearest first. -/
  seen : List Char
  /-- The characters still to come. -/
  rest : List Char
  position : Position

namespace Cursor

/-- Before the first character of a text. -/
def ofString (text : String) : Cursor := ⟨[], text.toList, .start⟩

/-- The whole text, wherever the cursor stands. -/
def source (c : Cursor) : List Char := c.seen.reverse ++ c.rest

/-- The next character. -/
def peek (c : Cursor) : Option Char := c.rest.head?

/-- The character after the next. -/
def peekSecond (c : Cursor) : Option Char := c.rest[1]?

/-- The cursor one character further; at the end of the text it stays. -/
def advance (c : Cursor) : Cursor :=
  match c.rest with
  | [] => c
  | ch :: rest => ⟨ch :: c.seen, rest, c.position.step ch⟩

/-- The cursor after the longest run of characters of a class. -/
def eatWhile (c : Cursor) (p : Char → Bool) : Cursor where
  seen := (c.rest.takeWhile p).reverse ++ c.seen
  rest := c.rest.dropWhile p
  position := c.position.walk (c.rest.takeWhile p)

/-- The passed characters that begin at or after a byte offset, in order. -/
def sliceFrom (c : Cursor) (offset : Nat) : String :=
  go c.seen c.position.offset []
where
  go : List Char → Nat → List Char → String
    | [], _, taken => String.ofList taken
    | ch :: before, stop, taken =>
      if stop ≤ offset then String.ofList taken
      else go before (stop - ch.utf8Size) (ch :: taken)

/-- Moving on keeps the text. -/
@[simp] theorem source_advance (c : Cursor) : c.advance.source = c.source := by
  unfold advance source
  split <;> simp_all

/-- Moving over a run keeps the text. -/
@[simp] theorem source_eatWhile (c : Cursor) (p : Char → Bool) :
    (c.eatWhile p).source = c.source := by
  simp [eatWhile, source]

end Cursor

end MarketScript
