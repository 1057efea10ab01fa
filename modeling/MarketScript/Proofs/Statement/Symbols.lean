import MarketScript.Event
import MarketScript.Token

/-!
# Symbols

What a token says, without its place in a text.  The symbols of an event are those of its written
form; the events of a line are the ones whose symbols are the line's.
-/

namespace MarketScript

inductive Symbol where
  | word (text : String)
  | quoted (text : String)
  | opening
  | closing
deriving DecidableEq

/-- What a token says; the ends of lines and of the text say nothing. -/
def Token.symbol? (t : Token) : Option Symbol :=
  match t.kind with
  | .word => some (.word t.lexeme)
  | .str => some (.quoted t.lexeme)
  | .leftParen => some .opening
  | .rightParen => some .closing
  | .newline | .eof => none

namespace Event

mutual

/-- The symbols of the written event. -/
def symbols : Event → List Symbol
  | word text => [.word text]
  | quoted text => [.quoted text]
  | list items => .opening :: (flatten items ++ [.closing])

/-- The symbols of several events in a row. -/
def flatten : List Event → List Symbol
  | [] => []
  | e :: es => e.symbols ++ flatten es

end

@[simp] theorem flatten_append (es ds : List Event) :
    flatten (es ++ ds) = flatten es ++ flatten ds := by
  induction es with
  | nil => rfl
  | cons e es ih => rw [List.cons_append, flatten, flatten, ih, List.append_assoc]

theorem flatten_singleton (e : Event) : flatten [e] = e.symbols := by
  rw [flatten, flatten, List.append_nil]

end Event

/-- The tokens are those of the written events. -/
def Spells (items : List Event) (ts : List Token) : Prop :=
  ts.map Token.symbol? = (Event.flatten items).map some

namespace Token

variable {t : Token}

theorem symbol?_eq_none : t.symbol? = none ↔ t.kind = .newline ∨ t.kind = .eof := by
  unfold symbol?
  split <;> simp_all

theorem symbol?_eq_word {text : String} :
    t.symbol? = some (.word text) ↔ t.kind = .word ∧ t.lexeme = text := by
  unfold symbol?
  split <;> simp_all

theorem symbol?_eq_quoted {text : String} :
    t.symbol? = some (.quoted text) ↔ t.kind = .str ∧ t.lexeme = text := by
  unfold symbol?
  split <;> simp_all

theorem symbol?_eq_opening : t.symbol? = some .opening ↔ t.kind = .leftParen := by
  unfold symbol?
  split <;> simp_all

theorem symbol?_eq_closing : t.symbol? = some .closing ↔ t.kind = .rightParen := by
  unfold symbol?
  split <;> simp_all

end Token

end MarketScript
