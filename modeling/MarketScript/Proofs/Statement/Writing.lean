import Mathlib.Data.List.Basic
import MarketScript.Proofs.Statement.Symbols

/-!
# Written symbols

The written form of an event, symbol by symbol: a blank stands before a symbol, but not after an
opening parenthesis and not before a closing one.
-/

namespace MarketScript

namespace Symbol

/-- A symbol as it is written. -/
def chars : Symbol → List Char
  | word text => text.toList
  | quoted text => '"' :: (text.toList ++ ['"'])
  | opening => ['(']
  | closing => [')']

/-- What stands between two symbols. -/
def gap (a b : Symbol) : List Char := if a = opening ∨ b = closing then [] else [' ']

/-- The written form of some symbols that come after another. -/
def writeAfter (a : Symbol) : List Symbol → List Char
  | [] => []
  | b :: rest => gap a b ++ (b.chars ++ writeAfter b rest)

theorem gap_of_ne {a b : Symbol} (ha : a ≠ opening) (hb : b ≠ closing) : gap a b = [' '] := by
  simp [gap, ha, hb]

@[simp] theorem gap_opening (b : Symbol) : gap opening b = [] := by simp [gap]

@[simp] theorem gap_closing (a : Symbol) : gap a closing = [] := by simp [gap]

theorem writeAfter_append (a : Symbol) (xs ys : List Symbol) :
    writeAfter a (xs ++ ys) = writeAfter a xs ++ writeAfter (xs.getLastD a) ys := by
  induction xs generalizing a with
  | nil => rfl
  | cons x xs ih =>
    rw [List.cons_append, writeAfter, ih, writeAfter, List.getLastD_cons]
    simp

end Symbol

namespace Event

open MarketScript.Symbol (writeAfter gap)

theorem getLastD_symbols_ne_opening (e : Event) (a : Symbol) :
    e.symbols.getLastD a ≠ .opening := by
  cases e with
  | word text => simp [symbols]
  | quoted text => simp [symbols]
  | list items =>
    rw [symbols, ← List.cons_append, List.getLastD_concat]
    simp

theorem intercalate_cons_eq_append_flatMap (sep x : List Char) (xs : List (List Char)) :
    sep.intercalate (x :: xs) = x ++ xs.flatMap (sep ++ ·) := by
  induction xs generalizing x with
  | nil => simp
  | cons y ys ih =>
    rw [List.intercalate_cons_cons, ih, List.flatMap_cons]
    simp

mutual

theorem writeAfter_symbols : (e : Event) → (a : Symbol) →
    writeAfter a e.symbols = (if a = .opening then [] else [' ']) ++ e.text.toList
  | word text, a => by
    simp [symbols, writeAfter, gap, Symbol.chars, Event.text]
  | quoted text, a => by
    simp [symbols, writeAfter, gap, Symbol.chars, Event.text]
  | list items, a => by
    rw [symbols, writeAfter, Symbol.writeAfter_append, writeAfter_flatten items, Event.text,
      texts_eq_map]
    simp [gap, writeAfter, Symbol.chars, String.toList_intercalate]

theorem writeAfter_flatten : (es : List Event) →
    writeAfter .opening (flatten es) = [' '].intercalate ((es.map text).map String.toList)
  | [] => rfl
  | e :: es => by
    rw [flatten, Symbol.writeAfter_append, writeAfter_symbols e, if_pos rfl,
      writeAfter_flatten_of_ne es (getLastD_symbols_ne_opening e _), List.map_cons, List.map_cons,
      intercalate_cons_eq_append_flatMap, List.map_map]
    simp [List.flatMap_map, Function.comp_def]

theorem writeAfter_flatten_of_ne : (es : List Event) → {a : Symbol} → a ≠ .opening →
    writeAfter a (flatten es) = es.flatMap fun e => ' ' :: e.text.toList
  | [], a, _ => rfl
  | e :: es, a, ha => by
    rw [flatten, Symbol.writeAfter_append, writeAfter_symbols e, if_neg ha,
      writeAfter_flatten_of_ne es (getLastD_symbols_ne_opening e _)]
    rfl

end

/-- The text of an event is its symbols written in a row. -/
theorem toList_text (e : Event) : e.text.toList = writeAfter .opening e.symbols := by
  rw [writeAfter_symbols, if_pos rfl, List.nil_append]

end Event

end MarketScript
