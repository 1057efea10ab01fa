import MarketScript.Proofs.Lexer.Moves
import MarketScript.Proofs.Source.Place

/-!
# Where a text can be cut

A text can be cut before each of its tokens and after each of them.  What is read up to there is
complete, and it tells the tokens before the cut and nothing else.
-/

namespace MarketScript

open Position

namespace Lexer

/-- A text can be cut at a place, where some tokens have been told, and the rest of it is read as if
    what came before had been closed. -/
def StartsAt (cs : List Char) (p : Position) (ts : List Token) : Prop :=
  ∃ before c after, cs = before ++ c :: after ∧ p = place before ∧
    (State.read {} before).step c = (State.read {} before).close.step c ∧
    (State.read {} before).close.tokens = ts

/-- A text can be cut at a place, where some tokens have been told, and nothing is reported up to
    there that is not reported later. -/
def StopsAt (cs : List Char) (ds : List Diagnostic) (p : Position) (ts : List Token) : Prop :=
  ∃ before after, cs = before ++ after ∧ p = place before ∧
    (State.read {} before).close.tokens = ts ∧ (State.read {} before).close.diagnostics <:+ ds

/-- A text can be cut around all of some tokens. -/
def Cuttable (cs : List Char) (ds : List Diagnostic) (ts : List Token) : Prop :=
  ∀ t earlier, t :: earlier <:+ ts →
    StartsAt cs t.span.start earlier ∧ StopsAt cs ds t.span.stop (t :: earlier)

variable {cs : List Char} {ds ds' : List Diagnostic} {p : Position} {ts : List Token} {t : Token}
  {c : Char}

theorem StartsAt.append (h : StartsAt cs p ts) (more : List Char) : StartsAt (cs ++ more) p ts := by
  obtain ⟨before, c, after, rfl, here⟩ := h
  exact ⟨before, c, after ++ more, by simp, here⟩

theorem StopsAt.append (h : StopsAt cs ds p ts) (more : List Char) (grown : ds <:+ ds') :
    StopsAt (cs ++ more) ds' p ts := by
  obtain ⟨before, after, rfl, place, told, reported⟩ := h
  exact ⟨before, after ++ more, by simp, place, told, reported.trans grown⟩

theorem Cuttable.append (h : Cuttable cs ds ts) (more : List Char) (grown : ds <:+ ds') :
    Cuttable (cs ++ more) ds' ts := by
  intro t earlier along
  obtain ⟨starts, stops⟩ := h t earlier along
  exact ⟨starts.append more, stops.append more grown⟩

theorem Cuttable.cons (h : Cuttable cs ds ts) (starts : StartsAt cs t.span.start ts)
    (stops : StopsAt cs ds t.span.stop (t :: ts)) : Cuttable cs ds (t :: ts) := by
  intro u earlier along
  rcases List.suffix_cons_iff.mp along with same | along
  · obtain ⟨rfl, rfl⟩ := List.cons.inj same
    exact ⟨starts, stops⟩
  · exact h u earlier along

/-- Where the automaton is in the middle of nothing, the text can be cut. -/
theorem stopsAt_of_idle {s : State} (reads : State.read {} cs = s) (position : s.position = place cs)
    (idle : s.mode = .idle) : StopsAt cs s.diagnostics s.position s.tokens := by
  have closed : (State.read {} cs).close = s := by rw [reads, State.close, idle]
  refine ⟨cs, [], (List.append_nil cs).symm, position, ?_, ?_⟩
  · rw [closed]
  · simp only [closed, List.suffix_refl]

theorem Mode.Goes.start? {mode mode' : Mode} (h : mode.Goes c mode') :
    ∀ start ∈ mode'.start?, start ∈ mode.start? := by
  cases h <;> simp [Mode.start?]

/-- A text can be cut around what has been told of it, and before what the automaton is in the
    middle of. -/
structure Cut (cs : List Char) (s : State) : Prop where
  reads : State.read {} cs = s
  position : s.position = place cs
  told : Cuttable cs s.diagnostics s.tokens
  begun : ∀ start ∈ s.mode.start?, StartsAt cs start s.tokens

namespace Cut

variable {s t : State}

theorem close (h : Cut cs s) : Cuttable cs s.close.diagnostics s.close.tokens := by
  have earlier : Cuttable cs s.close.diagnostics s.tokens := by
    simpa using h.told.append [] s.grows_close.diagnostics
  rcases s.tokens_close with ⟨-, same⟩ | ⟨t, start, begun, span, -, more⟩
  · rw [same]
    exact earlier
  · rw [more]
    refine earlier.cons ?_ ⟨cs, [], (List.append_nil cs).symm, ?_, ?_, ?_⟩
    · rw [span]
      exact h.begun start begun
    · rw [span, h.position]
    · rw [h.reads, more]
    · simp only [h.reads, List.suffix_refl]

theorem step (h : Cut cs s) (c : Char) : Cut (cs ++ [c]) (s.step c) := by
  have reads : State.read {} (cs ++ [c]) = s.step c := by
    rw [State.read_append, h.reads]
    rfl
  have position : (s.step c).position = place (cs ++ [c]) := by
    rw [State.position_step, h.position, step_place]
  have moves := s.moves_step c
  generalize s.step c = next at moves reads position
  cases moves with
  | goes goes =>
    refine ⟨reads, position, h.told.append [c] (List.suffix_refl _), fun start here => ?_⟩
    exact (h.begun start (goes.start? start here)).append [c]
  | misread mode =>
    refine ⟨reads, position, h.told.append [c] (List.suffix_cons _ _), fun start here => ?_⟩
    refine (h.begun start ?_).append [c]
    rw [mode]
    exact here
  | quotes mode =>
    refine ⟨reads, position, ?_, by simp [State.endQuoted, Mode.start?]⟩
    refine (h.told.append [c] (List.suffix_refl _)).cons ?_ (stopsAt_of_idle reads position rfl)
    refine (h.begun _ ?_).append [c]
    rw [mode]
    rfl
  | breaks mode =>
    refine ⟨reads, position, ?_, by simp [State.breakQuoted, State.endQuoted, Mode.start?]⟩
    refine (h.told.append [c] (List.suffix_cons _ _)).cons ?_ (stopsAt_of_idle reads position rfl)
    refine (h.begun _ ?_).append [c]
    rw [mode]
    rfl
  | begins _ same begins =>
    have closed := h.close.append [c] (List.suffix_refl _)
    have idle := State.close_idle s
    -- what begins here begins where the text read so far ends
    have starts : StartsAt (cs ++ [c]) s.close.position s.close.tokens := by
      refine ⟨cs, c, [], rfl, ?_, ?_, ?_⟩
      · rw [State.position_close, h.position]
      · rw [h.reads, same]
      · rw [h.reads]
    cases begins with
    | skips => exact ⟨reads, position, closed, by simp [idle, Mode.start?]⟩
    | tells =>
      exact ⟨reads, position, closed.cons starts (stopsAt_of_idle reads position idle),
        by simp [idle, Mode.start?]⟩
    | opens opens =>
      refine ⟨reads, position, closed, fun start here => ?_⟩
      cases opens <;> cases here <;> exact starts

end Cut

theorem cut_read (cs : List Char) : Cut cs (State.read {} cs) := by
  induction cs using List.reverseRecOn with
  | nil =>
    refine ⟨rfl, rfl, ?_, by simp [Mode.start?]⟩
    intro t earlier along
    simp at along
  | append_singleton cs c ih =>
    rw [State.read_append, State.read_cons, State.read_nil]
    exact ih.step c

end Lexer

end MarketScript
