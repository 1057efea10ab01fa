import MarketScript.Run
import MarketScript.Proofs.Command.Deal
import MarketScript.Proofs.Command.Depth

/-!
# The course of a run

A statement that succeeds has done its deed, and one that fails has been given up; either asks the
chain for one thing at most.  So what holds of every run of a chain holds of the chain of every
script.
-/

namespace MarketScript

namespace World

variable {w w' : World} {s : Statement} {stage stage' : Stage}

/-- An effect asks the chain for one thing at most. -/
theorem Effect.requests {u : World} {sender : Address} {c c' : Chain}
    {i : Option (Invokation Value)} {b : Option Binding} (effect : w.Effect sender c i b u c') :
    ∃ rs : List Request, rs.length ≤ 1 ∧ (∀ r ∈ rs, r.sender = sender) ∧ c' = c.afterAll rs := by
  cases effect with
  | told | aliased | tolerant | bound => exact ⟨[], by simp, by simp, rfl⟩
  | invoked asked => exact ⟨[_], by simp, by simpa using asked, rfl⟩
  | @deployed _ _ kind _ args =>
    exact ⟨[.deploy sender kind args], by simp, by simp [Request.sender], rfl⟩

/-- The deed of a statement. -/
def deedOf? (w : World) (s : Statement) (stage : Stage) : Option Deed := do
  let sender ← w.defaultFrom.toOption
  let found ← (w.deed stage.chain s.event.depth sender .topLevel s.event).run
  found.toOption

theorem deedOf?_eq_some {d : Deed} :
    w.deedOf? s stage = some d ↔ ∃ sender, w.defaultFrom = .ok sender ∧
      (w.deed stage.chain s.event.depth sender .topLevel s.event).Ends (.ok d) := by
  unfold deedOf? Eval.Ends
  cases w.defaultFrom with
  | error e => simp [Except.toOption]
  | ok sender =>
    show ((w.deed stage.chain s.event.depth sender .topLevel s.event).run.bind Except.toOption) =
      some d ↔ _
    simp only [Except.ok.injEq, exists_eq_left']
    cases (w.deed stage.chain s.event.depth sender .topLevel s.event).run with
    | none => simp
    | some answer => cases answer <;> simp [Except.toOption]

/-- A statement fails before there is anything to do, and then not because of an invokation, or it
    does its deed. -/
theorem runStatement_cases {result : Except ScenarioError World}
    (ended : w.runStatement s stage = (result, stage')) :
    (∃ e, e.Plain ∧ result = .error e ∧ stage' = stage) ∨
    ∃ d r, w.deedOf? s stage = some d ∧ d.Within w ∧ d.act.Ends stage r stage' ∧
      result = r.map (·.withDryRun w.settings.dryRun) := by
  unfold runStatement at ended
  cases default : w.defaultFrom with
  | error e =>
    simp only [default] at ended
    cases ended
    exact .inl ⟨e, w.plain_defaultFrom e default, rfl, rfl⟩
  | ok sender =>
    simp only [default] at ended
    rcases command_cases ended with ⟨e, rfl, rfl, reason⟩ | ⟨d, r, found, within, acted, same⟩
    · refine .inl ⟨e, ?_, rfl, rfl⟩
      rcases reason with rfl | failed
      · rfl
      · have enough := CommandTable.rank_le_depth .topLevel s.event
        exact (deed_agree stage'.chain w sender .topLevel s.event enough enough).error failed
    · exact .inr ⟨d, r, deedOf?_eq_some.mpr ⟨sender, default, found⟩, within, acted, same⟩

/-- What a statement asks the chain for. -/
def Asks (w : World) (s : Statement) (stage : Stage) (r : Request) : Prop :=
  ∃ d, w.deedOf? s stage = some d ∧ d.task.Asks d.sender r

/-- A statement asks the chain only for what its deed is there to ask for, and the world records
    what the chain has answered. -/
theorem runStatement_dealt {result : Except ScenarioError World}
    (ended : w.runStatement s stage = (result, stage')) :
    w.Dealt (w.Asks s stage) stage.chain result stage'.chain := by
  rcases runStatement_cases ended with
    ⟨e, plain, rfl, rfl⟩ | ⟨d, r, found, ⟨sound, on, same⟩, acted, rfl⟩
  · exact .failed plain
  · have dealt := Deed.deals_act sound _ _ _ acted
    rw [same] at dealt
    exact dealt.withDryRun.mono fun r asked => ⟨d, found, asked⟩

/-- A statement that was carried out has done its deed. -/
theorem runStatement_done (done : w.runStatement s stage = (.ok w', stage')) :
    ∃ d i u v, w.deedOf? s stage = some d ∧ d.Within w ∧
      d.world.Effect d.sender stage.chain i (d.task.binding? v) u stage'.chain ∧
      u.Logs i (d.task.preface d.world) stage stage' v ∧ w' = v.withDryRun w.settings.dryRun := by
  rcases runStatement_cases done with ⟨_, -, impossible, -⟩ | ⟨d, r, found, within, acted, same⟩
  · cases impossible
  rcases Deed.does_act within.1 _ _ _ acted with ⟨_, rfl, -⟩ | ⟨v, i, u, rfl, effect, logged⟩
  · cases same
  · cases same
    exact ⟨d, i, u, v, found, within, effect, logged, rfl⟩

/-- A statement that failed has said nothing and asked for one thing at most. -/
theorem runStatement_failed {e : ScenarioError}
    (failed : w.runStatement s stage = (.error e, stage')) :
    ∃ sender, stage.GivenUp sender stage' := by
  rcases runStatement_cases failed with ⟨_, -, -, rfl⟩ | ⟨d, r, -, within, acted, same⟩
  · exact ⟨.zero, rfl, .inl rfl⟩
  rcases Deed.does_act within.1 _ _ _ acted with ⟨_, rfl, givenUp⟩ | ⟨_, _, _, rfl, -⟩
  · exact ⟨d.sender, givenUp⟩
  · cases same

/-- A statement asks the chain for one thing at most. -/
theorem runStatement_requests (w : World) (s : Statement) (stage : Stage) :
    ∃ rs : List Request, rs.length ≤ 1 ∧
      (w.runStatement s stage).2.chain = stage.chain.afterAll rs := by
  cases ended : w.runStatement s stage with
  | mk result stage' =>
    cases result with
    | ok w' =>
      obtain ⟨_, _, _, _, -, -, effect, -⟩ := runStatement_done ended
      obtain ⟨rs, few, -, asked⟩ := effect.requests
      exact ⟨rs, few, asked⟩
    | error e =>
      obtain ⟨_, givenUp⟩ := runStatement_failed ended
      rcases givenUp.chain with same | ⟨r, -, asked⟩
      · exact ⟨[], by simp, same⟩
      · exact ⟨[r], by simp, asked⟩

section Statement

variable {result : Except ScenarioError World} (ended : w.runStatement s stage = (result, stage'))

include ended

theorem chain_of_statement : ∃ rs : List Request, stage'.chain = stage.chain.afterAll rs := by
  obtain ⟨rs, -, asked⟩ := runStatement_requests w s stage
  rw [ended] at asked
  exact ⟨rs, asked⟩

theorem seeded_statement (seeded : stage.chain.Seeded) : stage'.chain.Seeded := by
  obtain ⟨rs, asked⟩ := chain_of_statement ended
  rw [asked]
  exact seeded.afterAll rs

end Statement

section Run

variable {ss : List Statement} {goOn : Bool} {e : ScenarioError}

theorem run_done (done : w.runStatement s stage = (.ok w', stage')) :
    run goOn (s :: ss) w stage = run goOn ss w' stage' := by
  simp only [run, done]

/-- A run that goes on after a failure goes on in the same world. -/
theorem run_failed_goOn (failed : w.runStatement s stage = (.error e, stage')) :
    run true (s :: ss) w stage =
      ({ world := (run true ss w (complain s e stage')).1.world,
         failures := ⟨s.line, s.event, e⟩ :: (run true ss w (complain s e stage')).1.failures },
        (run true ss w (complain s e stage')).2) := by
  simp only [run, failed, if_true]

theorem run_failed_stop (failed : w.runStatement s stage = (.error e, stage')) :
    run false (s :: ss) w stage =
      ({ world := w, failures := [⟨s.line, s.event, e⟩] }, complain s e stage') := by
  simp only [run, failed, Bool.false_eq_true, if_false]

end Run

/-- What statements keep of the world and the chain, whether they are carried out or fail, holds
    after every run, and the failures of a run are like those of its statements. -/
theorem run_induction {P : World → Chain → Prop} {Q : ScenarioError → Prop}
    (done : ∀ {w s stage w' stage'}, P w stage.chain →
      w.runStatement s stage = (.ok w', stage') → P w' stage'.chain)
    (failed : ∀ {w s stage e stage'}, P w stage.chain →
      w.runStatement s stage = (.error e, stage') → P w stage'.chain ∧ Q e)
    (goOn : Bool) (ss : List Statement) :
    ∀ {w : World} {stage : Stage}, P w stage.chain →
      P (run goOn ss w stage).1.world (run goOn ss w stage).2.chain ∧
        ∀ f ∈ (run goOn ss w stage).1.failures, Q f.error := by
  induction ss with
  | nil =>
    intro w stage h
    exact ⟨h, nofun⟩
  | cons s ss ih =>
    intro w stage h
    cases ended : w.runStatement s stage with
    | mk result middle =>
      cases result with
      | ok w' =>
        rw [run_done ended]
        exact ih (done h ended)
      | error e =>
        obtain ⟨kept, like⟩ := failed h ended
        cases goOn with
        | false =>
          rw [run_failed_stop ended]
          exact ⟨kept, by simpa using like⟩
        | true =>
          rw [run_failed_goOn ended]
          obtain ⟨later, others⟩ := @ih w (complain s e middle) kept
          exact ⟨later, by simpa using ⟨like, others⟩⟩

/-- A run asks the chain for no more things than it has statements. -/
theorem run_requests (goOn : Bool) (ss : List Statement) (w : World) (stage : Stage) :
    ∃ rs : List Request, rs.length ≤ ss.length ∧
      (run goOn ss w stage).2.chain = stage.chain.afterAll rs := by
  induction ss generalizing w stage with
  | nil => exact ⟨[], by simp, rfl⟩
  | cons s ss ih =>
    obtain ⟨rs, few, asked⟩ := runStatement_requests w s stage
    cases ended : w.runStatement s stage with
    | mk result middle =>
      rw [ended] at asked
      cases result with
      | ok w' =>
        obtain ⟨rs', few', asked'⟩ := ih w' middle
        refine ⟨rs ++ rs', ?_, ?_⟩
        · rw [List.length_append, List.length_cons]
          omega
        · rw [run_done ended, asked', asked, Chain.afterAll_append]
      | error e =>
        cases goOn with
        | false =>
          refine ⟨rs, few.trans (by simp), ?_⟩
          rw [run_failed_stop ended]
          exact asked
        | true =>
          obtain ⟨rs', few', asked'⟩ := ih w (complain s e middle)
          refine ⟨rs ++ rs', ?_, ?_⟩
          · rw [List.length_append, List.length_cons]
            omega
          · rw [run_failed_goOn ended, Chain.afterAll_append, ← asked]
            exact asked'

/-- Where all addresses that a run has drawn are distinct, those that were drawn before it are. -/
theorem distinctSeeds_of_run {goOn : Bool} {ss : List Statement}
    (distinct : (run goOn ss w stage).2.chain.DistinctSeeds) : stage.chain.DistinctSeeds := by
  obtain ⟨rs, -, asked⟩ := run_requests goOn ss w stage
  rw [asked] at distinct
  exact distinct.of_afterAll

end World

end MarketScript
