import Mathlib.Data.List.Basic
import MarketScript.Source.Diagnostic
import MarketScript.Statement

/-!
# Places further on

Text that comes after some whole lines is the same text, with its lines and bytes counted from
further on.
-/

namespace MarketScript

namespace Position

/-- The same column, so many lines and bytes further on. -/
def shift (lines bytes : Nat) (p : Position) : Position :=
  ⟨p.line + lines, p.column, p.offset + bytes⟩

variable {lines bytes : Nat}

theorem step_shift (p : Position) (c : Char) :
    (p.shift lines bytes).step c = (p.step c).shift lines bytes := by
  unfold step shift
  split <;> simp only [Nat.add_right_comm]

/-- How far a text goes. -/
theorem line_offset_walk (p : Position) (cs : List Char) :
    (p.walk cs).line = p.line + cs.count '\n' ∧
      (p.walk cs).offset = p.offset + (String.ofList cs).utf8ByteSize := by
  induction cs generalizing p with
  | nil => simp
  | cons c cs ih =>
    obtain ⟨line, offset⟩ := ih (p.step c)
    rw [walk_cons, line, offset, ← List.singleton_append, String.ofList_append,
      String.utf8ByteSize_append, ← String.singleton_eq_ofList, String.utf8ByteSize_singleton,
      List.count_append]
    unfold step
    split
    · rename_i newline
      simp [newline, Nat.add_assoc]
    · rename_i other
      simp [other, Nat.add_assoc]

/-- After whole lines a text begins as it does at the start. -/
theorem walk_newline (cs : List Char) :
    start.walk (cs ++ ['\n']) =
      start.shift (cs.count '\n' + 1) ((String.ofList cs).utf8ByteSize + 1) := by
  obtain ⟨line, offset⟩ := line_offset_walk start cs
  rw [walk_append, walk_cons, walk_nil, step, if_pos rfl, line, offset]
  simp only [shift, start, mk.injEq, Nat.zero_add, true_and]
  exact ⟨by omega, rfl⟩

end Position

namespace Span

def shift (lines bytes : Nat) (s : Span) : Span :=
  ⟨s.start.shift lines bytes, s.stop.shift lines bytes⟩

theorem join_shift (lines bytes : Nat) (a b : Span) :
    (a.shift lines bytes).join (b.shift lines bytes) = (a.join b).shift lines bytes := by
  simp only [join, shift, Position.shift, Nat.add_le_add_iff_right, mk.injEq]
  constructor <;> split <;> rfl

end Span

def Token.shift (lines bytes : Nat) (t : Token) : Token :=
  { t with span := t.span.shift lines bytes }

def Diagnostic.shift (lines bytes : Nat) (d : Diagnostic) : Diagnostic :=
  { d with span := d.span.shift lines bytes }

def Statement.shift (lines bytes : Nat) (s : Statement) : Statement :=
  { s with span := s.span.shift lines bytes }

end MarketScript
