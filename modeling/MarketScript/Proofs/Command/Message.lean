import MarketScript.Proofs.Command.Deed
import MarketScript.Proofs.Reading.Market

/-!
# Commands that send messages

Which deed a command of a family is, and what comes of a message to a contract that the world knows:
what the contract refuses is the error of the command, and anything else is put into the log.
-/

namespace MarketScript

namespace Command

theorem unambiguous_topLevel : Unambiguous CommandTable.topLevel.shapes where
  names := by decide +kernel
  place := by decide +kernel

end Command

namespace World

variable {w : World} {sender : Address}

section Deeds

variable {chain : Chain} {depth : Nat}

end Deeds

section Messages

variable {stage after : Stage} {target : Address} {h : Handle} {family : Family} {method : String}
  {params : List Abi} {description : String} {receipt : Receipt} {chain : Chain}

theorem record_failed {i : Invokation Value} {e : InvokationError} (failed : i.error? = some e)
    (forbidden : w.settings.allowFailures = false) :
    (w.record description i).Ends stage (.error (.invokation e)) stage := by
  unfold record
  simp only [failed, forbidden, Bool.false_eq_true, if_false]
  rfl

/-- How a failed invokation shows: as the error of the command or, where failures are allowed, as the
    last invokation, which is that of one more action. -/
inductive Surfaces (w : World) (e : InvokationError) : Except ScenarioError World → Prop
  | raised (forbidden : w.settings.allowFailures = false) :
      Surfaces w e (.error (.invokation e))
  | recorded {i : Invokation Value} {description : String} {place : Nat}
      (allowed : w.settings.allowFailures = true) (failed : i.error? = some e) :
      Surfaces w e (.ok { w with
        actions := w.actions ++ [{ description, invokation := some i, place }],
        lastInvokation := some i })

theorem Surfaces.withDryRun {e : InvokationError} {on : Bool} {r : Except ScenarioError World}
    (h : (w.withDryRun on).Surfaces e r) :
    w.Surfaces e (r.map (·.withDryRun w.settings.dryRun)) := by
  cases h with
  | raised forbidden => exact .raised forbidden
  | recorded allowed failed => exact .recorded allowed failed

theorem surfaces_record {i : Invokation Value} {e : InvokationError} (failed : i.error? = some e) :
    ∃ r after, (w.record description i).Ends stage r after ∧ w.Surfaces e r := by
  cases allowed : w.settings.allowFailures with
  | false => exact ⟨_, stage, record_failed failed allowed, .raised allowed⟩
  | true =>
    unfold record
    simp only [failed, allowed, if_true]
    exact ⟨_, _, rfl, .recorded allowed failed⟩

/-- What the answer of the chain to a message means. -/
def sentOutcome (family : Family) : Except ChainError Receipt → Except InvokationError Value
  | .error e => .error e.toInvokationError
  | .ok receipt =>
    match receipt.log? "Failure" with
    | some log => .error (.ofLog family.failures log)
    | none => .ok (.ofAbi receipt.returnValue)

/-- To send a message to a contract that the world knows is to record what the chain answers. -/
theorem ends_send (known : w.contract target = .ok h) {answer : Except ChainError Receipt}
    (sent : stage.chain.send sender h.address method params = (answer, chain))
    {result : Except ScenarioError World} :
    (w.send sender target family method params description).Ends stage result after ↔
      (w.record description { description := h.callText method params,
                              outcome := sentOutcome family answer,
                              receipt := answer.toOption }).Ends { stage with chain } result after := by
  obtain ⟨rfl, rfl⟩ := Prod.mk.inj sent
  unfold send
  rw [known]
  exact Iff.rfl

end Messages

end World

end MarketScript
