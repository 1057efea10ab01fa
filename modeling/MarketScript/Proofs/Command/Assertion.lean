import MarketScript.Proofs.Act
import MarketScript.Proofs.Error

/-!
# Assertions

An assertion fails and has done nothing, or it puts one action into the log and does nothing else.
It may be about a failed invokation, but none is its error.
-/

namespace MarketScript

namespace Act

/-- The act fails and has done nothing, or all that it does is to log an action.  No failed
    invokation is behind its failure. -/
def Tells (x : Act World) (w : World) : Prop :=
  ∀ before result after, x.Ends before result after →
    (∃ e, e.Plain ∧ result = .error e ∧ after = before) ∨
    ∃ text, (w.addAction text).Ends before result after

variable {α : Type} {w : World}

theorem tells_throw {e : ScenarioError} (plain : e.Plain) : (throw e : Act World).Tells w := by
  intro before result after ends
  obtain ⟨rfl, rfl⟩ := ends_throw.mp ends
  exact .inl ⟨e, plain, rfl, rfl⟩

theorem tells_addAction (text : String) : (w.addAction text).Tells w := by
  intro before result after ends
  exact .inr ⟨text, ends⟩

theorem tells_ask {y : Except ScenarioError α} {g : α → Act World} (plain : Plain y)
    (rest : ∀ a, (g a).Tells w) : (do g (← ofExcept y)).Tells w := by
  intro before result after ends
  rcases ends_ask.mp ends with ⟨e, failed, rfl, rfl⟩ | ⟨a, -, ends⟩
  · exact .inl ⟨e, plain e failed, rfl, rfl⟩
  · exact rest a _ _ _ ends

end Act

namespace Command

open Act

variable {w : World} {args : Args}

theorem tells_assertEqualTo : (assertEqualTo w args).Tells w := by
  refine tells_ask (args.plain_get _) fun given => tells_ask (args.plain_get _) fun expected => ?_
  split
  · exact tells_throw rfl
  · exact tells_addAction _

theorem tells_assertBool (expected : Bool) : (assertBool w args expected).Tells w := by
  refine tells_ask (args.plain_bool _) fun condition => ?_
  split
  · exact tells_throw rfl
  · exact tells_addAction _

theorem tells_assertSucceeded : (assertSucceeded w).Tells w := by
  refine tells_ask w.plain_lastError fun error => ?_
  split
  · exact tells_throw rfl
  · exact tells_addAction _

theorem tells_assertFailed : (assertFailed w args).Tells w := by
  refine tells_ask (args.plain_string _) fun expected => tells_ask w.plain_lastError fun error => ?_
  split
  · exact tells_throw rfl
  · exact tells_addAction _

theorem tells_assertReverted : (assertReverted w args).Tells w := by
  refine tells_ask w.plain_lastError fun error => ?_
  split
  · exact tells_throw rfl
  · exact tells_addAction _

end Command

end MarketScript
