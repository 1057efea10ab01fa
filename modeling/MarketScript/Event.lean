/-!
# Events

An event is one expression of a script before anything in it is given a meaning: a bare word, a
quoted text, or a parenthesised list.  A command is a list whose first element is its keyword.
-/

namespace MarketScript

/-- A script expression. -/
inductive Event where
  /-- A bare token: keyword, name, number or address. -/
  | word (text : String)
  /-- A quoted text, without its quotes. -/
  | quoted (text : String)
  | list (items : List Event)
deriving Inhabited

namespace Event

mutual

/-- The event as it is written in a script; the inside of a quoted text is not escaped. -/
def text : Event → String
  | word text => text
  | quoted text => "\"" ++ text ++ "\""
  | list items => "(" ++ String.intercalate " " (texts items) ++ ")"

/-- The written forms of several events. -/
def texts : List Event → List String
  | [] => []
  | e :: es => e.text :: texts es

end

@[simp] theorem texts_eq_map (es : List Event) : texts es = es.map text := by
  induction es with
  | nil => rfl
  | cons e es ih => rw [texts, ih, List.map_cons]

mutual

/-- The number of words, quoted texts and lists in an event. -/
def size : Event → Nat
  | word _ => 1
  | quoted _ => 1
  | list items => 1 + sizes items

/-- The sizes of several events together. -/
def sizes : List Event → Nat
  | [] => 0
  | e :: es => e.size + sizes es

end

mutual

/-- Whether two events are the same expression. -/
def same : Event → Event → Bool
  | word a, word b => a == b
  | quoted a, quoted b => a == b
  | list as, list bs => sameItems as bs
  | _, _ => false

/-- Whether two lists hold the same expressions in the same order. -/
def sameItems : List Event → List Event → Bool
  | [], [] => true
  | a :: as, b :: bs => same a b && sameItems as bs
  | _, _ => false

end

mutual

theorem same_iff : (a b : Event) → (same a b = true ↔ a = b)
  | word a, b => by cases b <;> simp [same]
  | quoted a, b => by cases b <;> simp [same]
  | list as, b => by
    cases b with
    | list bs => simp [same, sameItems_iff as bs]
    | _ => simp [same]

theorem sameItems_iff : (as bs : List Event) → (sameItems as bs = true ↔ as = bs)
  | [], bs => by cases bs <;> simp [sameItems]
  | a :: as, bs => by
    cases bs with
    | nil => simp [sameItems]
    | cons b bs => simp [sameItems, same_iff a b, sameItems_iff as bs]

end

instance : DecidableEq Event := fun a b =>
  decidable_of_iff (same a b = true) (same_iff a b)

/-- The list of bare words. -/
def words (ws : List String) : Event := list (ws.map word)

def asWord? : Event → Option String
  | word text => some text
  | _ => none

def isList : Event → Bool
  | list _ => true
  | _ => false

/-- The elements of a list; anything else is its own only element. -/
def items : Event → List Event
  | list items => items
  | e => [e]

/-- The first element. -/
def head? (e : Event) : Option Event := e.items.head?

/-- The first element, if it is a bare word. -/
def keyword? (e : Event) : Option String := e.head?.bind asWord?

/-- The list of all elements but the first. -/
def tail (e : Event) : Event := list e.items.tail

/-- The event without parentheses around a single element: `((Geoff))` and `Geoff` mean the same. -/
def unwrapSingle : Event → Event
  | list [e] => e.unwrapSingle
  | e => e

@[simp] theorem unwrapSingle_singleton (e : Event) : (list [e]).unwrapSingle = e.unwrapSingle := rfl

@[simp] theorem unwrapSingle_word (w : String) : (word w).unwrapSingle = word w := rfl

/-- Unwrapping leaves no list of one element. -/
theorem unwrapSingle_ne_singleton (e d : Event) : e.unwrapSingle ≠ list [d] := by
  fun_induction unwrapSingle e with
  | case1 e ih => exact ih
  | case2 e h => exact h d

end Event

end MarketScript
