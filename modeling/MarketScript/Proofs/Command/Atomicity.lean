import MarketScript.Proofs.Command.Assertion
import MarketScript.Run

/-!
# Atomicity of commands

A command that fails leaves the contracts of the chain as they were: it fails before its one
transaction, or because of it, and then the transaction itself has changed nothing.
-/

namespace MarketScript

open Act

namespace World

variable {w : World}

theorem quiet_log (description : String) (i : Option (Invokation Value)) :
    Quiet (w.log description i) :=
  quiet_get.bind fun _ => (quiet_announce _).bind fun _ => quiet_pure _

theorem sure_log (description : String) (i : Option (Invokation Value)) :
    Sure (w.log description i) :=
  sure_get.bind fun _ => (sure_announce _).bind fun _ => sure_pure _

theorem quiet_record (description : String) (i : Invokation Value) :
    Quiet (w.record description i) := by
  have logged : ∀ text, Quiet (do
      let w ← w.log text (some i)
      return { w with lastInvokation := some i } : Act World) :=
    fun text => (quiet_log text _).bind fun _ => quiet_pure _
  unfold record
  dsimp only
  split
  · exact (quiet_pure _).bind fun _ => logged _
  · split
    · exact (quiet_pure _).bind fun _ => logged _
    · exact (quiet_throw _).bind fun _ => logged _

theorem sure_record (description : String) {i : Invokation Value} (fine : i.error? = none) :
    Sure (w.record description i) := by
  unfold record
  rw [fine]
  exact (sure_pure _).bind fun _ => (sure_log _ _).bind fun _ => sure_pure _

/-- A deployment fails only if the chain has made nothing. -/
theorem atomic_deploy {sender : Address} {family : Family} {name kind : String} {args : List Abi}
    {fields : List (String × Value)} : Atomic (w.deploy sender family name kind args fields) := by
  intro before e after ends
  unfold deploy at ends
  rcases ends_bind.mp ends with ⟨_, failed, -⟩ | ⟨made, middle, touched, rest⟩
  · cases (ends_onChain.mp failed).1
  obtain ⟨answer, rfl⟩ := ends_onChain.mp touched
  simp only [Except.ok.injEq] at answer
  subst answer
  cases creation : Contract.create kind sender ⟨"constructor", args⟩ with
  | error refusal =>
    have same : before.chain.deploy sender kind args = (.error refusal, before.chain) := by
      simp only [Chain.deploy, creation]
    rw [same] at rest
    left
    refine Quiet.bind (quiet_record _ _) (fun _ => ?_) _ _ _ rest
    exact quiet_pure _
  | ok contract =>
    have made : ∃ receipt address c, before.chain.deploy sender kind args = (.ok receipt, c) ∧
        receipt.contractAddress = some address := by
      simp only [Chain.deploy, creation]
      exact ⟨_, _, _, rfl, rfl⟩
    obtain ⟨receipt, address, c, made, placed⟩ := made
    simp only [made, placed] at rest
    refine absurd rest (Sure.bind (sure_record _ ?_) (fun _ => ?_) _ _ _)
    · rfl
    · exact sure_pure _

/-- A message fails only if it has changed no contract. -/
theorem atomic_send {sender target : Address} {family : Family} {method : String}
    {args : List Abi} {description : String} :
    Atomic (w.send sender target family method args description) := by
  unfold send
  refine (quiet_ofExcept _).bind_atomic fun h => ?_
  intro before e after ends
  rcases ends_bind.mp ends with ⟨_, failed, -⟩ | ⟨sent, middle, touched, rest⟩
  · cases (ends_onChain.mp failed).1
  obtain ⟨answer, rfl⟩ := ends_onChain.mp touched
  simp only [Except.ok.injEq] at answer
  subst answer
  by_cases failed : ∀ r, (before.chain.send sender h.address method args).1 = .ok r →
      r.log? "Failure" ≠ none
  · right
    refine ⟨sender, ?_⟩
    rw [← Chain.send_failed failed]
    exact quiet_record _ _ _ _ _ rest
  · push Not at failed
    obtain ⟨receipt, carriedOut, fine⟩ := failed
    simp only [carriedOut, fine] at rest
    exact absurd rest (sure_record _ rfl _ _ _)

theorem quiet_addAction (description : String) : Quiet (w.addAction description) :=
  quiet_log description none

theorem quiet_of_tells {x : Act World} (tells : x.Tells w) : Quiet x := by
  intro before result after ends
  rcases tells _ _ _ ends with ⟨_, -, -, rfl⟩ | ⟨text, logged⟩
  · rfl
  · exact quiet_addAction text _ _ _ logged

theorem quiet_bindExisting {family : Family} {name : String} {address : Address} :
    Quiet (w.bindExisting family name address) := by
  unfold bindExisting
  refine quiet_get.bind fun stage => ?_
  dsimp only
  split
  · refine (quiet_pure _).bind fun kind => ?_
    split
    · exact (quiet_throw _).bind fun _ => quiet_addAction _
    · exact quiet_addAction _
  · refine (quiet_throw _).bind fun kind => ?_
    split
    · exact (quiet_throw _).bind fun _ => quiet_addAction _
    · exact quiet_addAction _

end World

namespace Command

open World

variable {w : World} {sender : Address} {args : Args}

/-- A command is atomic if the commands within it are. -/
theorem atomic_perform {run : World → Address → CommandTable → Event → Act World}
    (within : ∀ w sender table e, Atomic (run w sender table e)) (c : Command) :
    Atomic (c.perform run w sender args) := by
  cases c with
  | read | print => exact atomic_ask fun _ => (quiet_addAction _).atomic
  | nameAddress => exact atomic_ask fun _ => atomic_ask fun _ => (quiet_addAction _).atomic
  | fromAccount => exact atomic_ask fun _ => atomic_ask fun _ => within _ _ _ _
  | dryRun => exact atomic_ask fun _ => (within _ _ _ _).bind_sure fun _ => sure_pure _
  | allowFailures => exact (quiet_addAction _).atomic
  | inspect => exact ((quiet_announce _).bind fun _ => quiet_addAction _).atomic
  | inTable table arg => exact atomic_ask fun _ => within _ _ _ _
  | assertEqual => exact (quiet_of_tells tells_assertEqualTo).atomic
  | assertCondition expected => exact (quiet_of_tells (tells_assertBool expected)).atomic
  | assertSuccess => exact (quiet_of_tells tells_assertSucceeded).atomic
  | assertFailure => exact (quiet_of_tells tells_assertFailed).atomic
  | assertRevert => exact (quiet_of_tells tells_assertReverted).atomic
  | deployController kind => exact atomic_ask fun _ => atomic_deploy
  | deployRegistry => exact atomic_deploy
  | deployRateModel => exact atomic_ask fun _ => atomic_ask fun _ => atomic_ask fun _ => atomic_deploy
  | bindExisting family nameArg =>
    exact atomic_ask fun _ => atomic_ask fun _ => quiet_bindExisting.atomic
  | acceptAdmin => exact atomic_ask fun _ => atomic_send
  | supportMarket | setPendingAdmin => exact atomic_ask fun _ => atomic_ask fun _ => atomic_send
  | setCloseFactor | mint | redeem =>
    exact atomic_ask fun _ => atomic_ask fun _ => atomic_ask fun _ => atomic_send
  | setCollateralFactor | tokenMessage =>
    exact atomic_ask fun _ => atomic_ask fun _ => atomic_ask fun _ => atomic_ask fun _ =>
      atomic_send
  | deployToken | deployMarket =>
    repeat refine atomic_ask fun _ => ?_
    exact atomic_deploy

end Command

namespace World

/-- However deep commands stand within each other, at most one of them acts on the chain. -/
theorem atomic_carryOut (depth : Nat) :
    ∀ (w : World) (sender : Address) (table : CommandTable) (e : Event),
      Atomic (carryOut depth w sender table e) := by
  induction depth with
  | zero =>
    intro w sender table e before error after ends
    cases ends
  | succ depth ih =>
    intro w sender table e
    unfold carryOut
    refine quiet_get.bind_atomic fun stage => ?_
    unfold dispatchCommand
    refine (quiet_ofEval _).bind_atomic ?_
    rintro ⟨d, args⟩
    dsimp only
    split
    · exact (quiet_addAction _).atomic
    · exact Command.atomic_perform ih _

theorem command_spared {w : World} {sender : Address} {e : Event} {before after : Stage}
    {error : ScenarioError} (failed : w.command sender e before = (.error error, after)) :
    before.chain.Spared after.chain := by
  unfold command at failed
  cases ends : (w.carryOut e.depth sender .topLevel e).run.run before with
  | none =>
    rw [ends] at failed
    cases failed
    exact .inl rfl
  | some ended =>
    rw [ends] at failed
    cases failed
    exact atomic_carryOut _ _ _ _ _ _ _ _ ends

/-- A command that fails leaves all contracts and what they answer, and of the counts of
    transactions it moves one at most.  A run in which it stands goes on with the same world, if it
    goes on at all. -/
theorem command_failure_atomic {w : World} {sender : Address} {e : Event} {before after : Stage}
    {error : ScenarioError} (failed : w.command sender e before = (.error error, after)) :
    after.chain.contracts = before.chain.contracts ∧
    (∀ target method args,
      after.chain.call target method args = before.chain.call target method args) ∧
    (∃ account, ∀ other, after.chain.nonceOf other = before.chain.nonceOf other ∨
      other = account ∧ after.chain.nonceOf other = before.chain.nonceOf other + 1) ∧
    ∀ (s : Statement) (rest : List Statement), s.event = e → w.defaultFrom = .ok sender →
      (w.run false (s :: rest) before).1.world = w ∧
      (w.run true (s :: rest) before).1.world =
        (w.run true rest (complain s error after)).1.world := by
  have spared := command_spared failed
  refine ⟨spared.contracts, spared.call, spared.nonceOf, ?_⟩
  rintro s rest rfl default
  have statement : w.runStatement s before = (.error error, after) := by
    rw [runStatement, default]
    exact failed
  constructor
  · simp [run, statement]
  · simp [run, statement]

section Transfer

/-- A world of two accounts. -/
def twoAccounts : World := { runId := "", accounts := [⟨"Geoff", ⟨1⟩⟩, ⟨"Torrey", ⟨2⟩⟩] }

def deployZrx : Event :=
  .list [.word "Erc20", .word "Deploy", .word "Standard", .word "ZRX", .word "Zero"]

def transferZrx : Event :=
  .list [.word "Erc20", .word "ZRX", .word "Transfer", .word "Torrey", .word "5"]

/-- A transfer from an account without tokens is sent, so it uses up a number, and is undone. -/
theorem transferZrx_spares_contracts :
    ∃ w before error after,
      twoAccounts.command ⟨1⟩ deployZrx { chain := {} } = (.ok w, before) ∧
      w.command ⟨1⟩ transferZrx before = (.error error, after) ∧
      after.chain.nonceOf ⟨1⟩ = 2 ∧ after.chain.contracts = before.chain.contracts := by
  have evaluated : (match twoAccounts.command ⟨1⟩ deployZrx { chain := {} } with
      | (.ok w, before) =>
        match w.command ⟨1⟩ transferZrx before with
        | (.error _, after) => some (after.chain.nonceOf ⟨1⟩)
        | _ => none
      | _ => none) = some 2 := by
    decide +kernel
  split at evaluated
  · rename_i w before deployed
    split at evaluated
    · rename_i error after failed
      exact ⟨w, before, error, after, deployed, failed, Option.some.inj evaluated,
        (command_failure_atomic failed).1⟩
    · cases evaluated
  · cases evaluated

end Transfer

end World

end MarketScript
