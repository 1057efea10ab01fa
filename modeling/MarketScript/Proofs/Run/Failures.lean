import MarketScript.Proofs.Command.Totality
import MarketScript.Proofs.Run.Names

/-!
# Failed invokations

A failed invokation is an error unless failures are allowed; then it is put into the log and nothing
else comes of it.  So the log of a run tells that failures are allowed before it tells of the first
one, and once they are allowed no statement fails because of one.
-/

namespace MarketScript

namespace Action

/-- The action tells that failures are allowed from here on. -/
def Allows (a : Action) : Prop := a.description = "Allowing failures" ∧ a.invokation = none

/-- The action has an invokation, and this failed. -/
def Failed (a : Action) : Prop := ∃ i, a.invokation = some i ∧ i.error? ≠ none

end Action

namespace World

/-- A world in which nothing was done yet, and in which failures are errors. -/
def Unused (w : World) : Prop :=
  w.actions = [] ∧ w.lastInvokation = none ∧ w.settings.allowFailures = false

/-- The log of a world accounts for its last invokation and for each that failed. -/
structure Accounted (w : World) : Prop where
  last : w.lastInvokation = (w.actions.filterMap (·.invokation)).getLast?
  allowed : w.settings.allowFailures = true → ∃ a ∈ w.actions, a.Allows
  failed : ∀ past a rest, w.actions = past ++ a :: rest → a.Failed → ∃ b ∈ past, b.Allows

variable {w w' : World} {s : Statement} {stage stage' : Stage}

theorem Unused.accounted (h : w.Unused) : w.Accounted := by
  obtain ⟨actions, last, allowed⟩ := h
  constructor
  · rw [last, actions]
    rfl
  · intro isAllowed
    rw [allowed] at isAllowed
    cases isAllowed
  · intro past a rest split
    rw [actions] at split
    simp at split

theorem unused_of_start {runId : String} {m : Manifest} (started : start runId m = .ok (w, stage)) :
    w.Unused := by
  have settings := settings_of_start started
  simp only [start, ofManifest, except_bind_eq_ok, except_pure_eq_ok, Prod.mk.injEq] at started
  obtain ⟨_, ⟨accounts, -, _, -, rfl⟩, rfl, -⟩ := started
  exact ⟨rfl, rfl, by rw [settings]⟩

/-- One more action is accounted for if it tells of a failure only where failures are allowed. -/
theorem Accounted.concat {a : Action} (h : w.Accounted) (actions : w'.actions = w.actions ++ [a])
    (last : w'.lastInvokation = a.invokation.or w.lastInvokation)
    (allowed : w'.settings.allowFailures = true → w.settings.allowFailures = true ∨ a.Allows)
    (failed : a.Failed → w.settings.allowFailures = true) : w'.Accounted := by
  constructor
  · rw [last, actions, h.last, List.filterMap_append, List.getLast?_append]
    cases invokation : a.invokation <;> simp [invokation]
  · intro isAllowed
    rw [actions]
    rcases allowed isAllowed with before | allows
    · obtain ⟨b, member, allows⟩ := h.allowed before
      exact ⟨b, List.mem_append_left _ member, allows⟩
    · exact ⟨a, by simp, allows⟩
  · intro past b rest split isFailure
    rw [actions] at split
    rcases List.eq_nil_or_concat rest with rfl | ⟨rest, last, rfl⟩
    · obtain ⟨rfl, same⟩ := List.append_inj' split rfl
      cases same
      exact h.allowed (failed isFailure)
    · rw [List.concat_eq_append, ← List.cons_append, ← List.append_assoc] at split
      exact h.failed past b rest (List.append_inj' split rfl).1 isFailure

theorem Accounted.dealt {Asked : Request → Prop} {c c' : Chain} (h : w.Accounted)
    (dealt : w.Dealt Asked c (.ok w') c') : w'.Accounted := by
  cases dealt with
  | told actions last allowed =>
    refine h.concat actions last (fun isAllowed => ?_) ?_
    · rcases allowed with same | ⟨told, -⟩
      · exact .inl (same ▸ isAllowed)
      · exact .inr ⟨told, rfl⟩
    · rintro ⟨i, impossible, -⟩
      cases impossible
  | tolerated asked refuses records allowed =>
    obtain ⟨i, description, place, -, rfl⟩ := records
    exact h.concat rfl rfl .inl fun _ => allowed
  | completed asked agrees succeeded actions last settings =>
    refine h.concat actions last (fun isAllowed => .inl (settings ▸ isAllowed)) ?_
    rintro ⟨i, same, failed⟩
    cases same
    exact absurd succeeded failed

/-- What a statement comes to of which no failed invokation is an error: it fails without having asked
    the chain for anything, or it logs an action.  The action has an invokation if the statement has
    asked for something, and this failed exactly if the chain has refused it; then the world has
    nothing else to tell of it. -/
def Tolerated (w : World) (s : Statement) (stage : Stage) (result : Except ScenarioError World)
    (c : Chain) : Prop :=
  (∃ e, result = .error e ∧ e.invokation? = none ∧ c = stage.chain) ∨
  ∃ w' a, result = .ok w' ∧ w'.actions = w.actions ++ [a] ∧
    ((a.invokation = none ∧ c = stage.chain) ∨
      ∃ r i, w.Asks s stage r ∧ c = stage.chain.after r ∧ a.invokation = some i ∧
        (i.error? ≠ none ↔ stage.chain.Refuses r) ∧
        (stage.chain.Refuses r → w.RecordsFailure w'))

theorem tolerated_of_allowed {result : Except ScenarioError World}
    (allowed : w.settings.allowFailures = true)
    (ended : w.runStatement s stage = (result, stage')) :
    w.Tolerated s stage result stage'.chain := by
  have dealt := runStatement_dealt ended
  generalize stage'.chain = c' at dealt ⊢
  cases dealt with
  | failed plain => exact .inl ⟨_, rfl, plain, rfl⟩
  | told actions last kept => exact .inr ⟨_, _, rfl, actions, .inl ⟨rfl, rfl⟩⟩
  | refused asked refuses forbidden =>
    rw [allowed] at forbidden
    cases forbidden
  | @tolerated r w' asked refuses records =>
    obtain ⟨i, _, _, failed, rfl⟩ := id records
    refine .inr ⟨_, _, rfl, rfl, .inr ⟨r, i, asked, rfl, rfl, ?_, fun _ => records⟩⟩
    exact ⟨fun _ => refuses, fun _ => failed⟩
  | @completed r w' i description place asked agrees succeeded actions =>
    refine .inr ⟨w', _, rfl, actions, .inr ⟨r, i, asked, rfl, rfl, ?_, fun refuses => ?_⟩⟩
    · exact ⟨fun failed => absurd succeeded failed, fun refuses => absurd refuses agrees⟩
    · exact absurd refuses agrees

theorem Dealt.stays_allowed {Asked : Request → Prop} {c c' : Chain}
    (dealt : w.Dealt Asked c (.ok w') c') (allowed : w.settings.allowFailures = true) :
    w'.settings.allowFailures = true := by
  cases dealt with
  | told actions last kept =>
    rcases kept with same | ⟨-, on⟩
    · rw [same, allowed]
    · exact on
  | tolerated asked refuses records =>
    obtain ⟨_, _, _, -, rfl⟩ := records
    exact allowed
  | completed asked agrees succeeded actions last settings => rw [settings, allowed]

/-- Where failures are allowed they stay so, and no statement fails because of an invokation. -/
theorem run_allowed (allowed : w.settings.allowFailures = true) (goOn : Bool) (ss : List Statement)
    (stage : Stage) :
    (run goOn ss w stage).1.world.settings.allowFailures = true ∧
      ∀ f ∈ (run goOn ss w stage).1.failures, f.error.invokation? = none := by
  refine run_induction (P := fun w _ => w.settings.allowFailures = true)
    (Q := fun e => e.invokation? = none) ?_ ?_ goOn ss allowed
  · intro w s stage w' stage' before done
    exact (runStatement_dealt done).stays_allowed before
  · intro w s stage e stage' before failed
    rcases tolerated_of_allowed before failed with ⟨e, same, plain, -⟩ | ⟨_, _, impossible, -⟩
    · cases same
      exact ⟨before, plain⟩
    · cases impossible

theorem accounted_run (h : w.Accounted) (goOn : Bool) (ss : List Statement) (stage : Stage) :
    (run goOn ss w stage).1.world.Accounted := by
  refine (run_induction (P := fun w _ => w.Accounted) (Q := fun _ => True) ?_ ?_ goOn ss h).1
  · intro w s stage w' stage' before done
    exact before.dealt (runStatement_dealt done)
  · intro w s stage e stage' before _
    exact ⟨before, trivial⟩

section Deeds

variable {sender : Address} {family : Family} {params : List Abi}

/-- A deployment that is refused is recorded where failures are allowed. -/
theorem deploy_tolerated {name kind : String} {fields : List (String × Value)}
    (allowed : w.settings.allowFailures = true)
    (refuses : stage.chain.Refuses (.deploy sender kind params)) :
    ∃ w' after, (w.deploy sender family name kind params fields).Ends stage (.ok w') after ∧
      w.RecordsFailure w' := by
  obtain ⟨result, after, ends⟩ := @total_deploy w sender family params name kind fields stage
  rcases deploy_cases ends with
    ⟨-, -, ⟨_, -, forbidden, -⟩ | ⟨w', i, rfl, valueless, -, description, same, -⟩⟩ | ⟨agrees, -⟩
  · rw [allowed] at forbidden
    cases forbidden
  · have failed : i.error? ≠ none := by
      rw [Ne, ← i.value?_isSome_iff, valueless]
      simp
    exact ⟨w', after, ends, i, description, _, failed, same⟩
  · exact absurd refuses agrees

/-- A message that is refused is recorded where failures are allowed. -/
theorem send_tolerated {target : Address} {h : Handle} {method description : String}
    (allowed : w.settings.allowFailures = true) (known : w.contract target = .ok h)
    (refuses : stage.chain.Refuses (.send sender h.address method params)) :
    ∃ w' after, (w.send sender target family method params description).Ends stage (.ok w') after ∧
      w.RecordsFailure w' := by
  obtain ⟨result, after, ends⟩ := @total_send w sender family params target method description stage
  rcases send_cases ends with ⟨e, unknown, -⟩ |
    ⟨h', i, known', -, fails, ⟨_, -, -, forbidden, -⟩ | ⟨w', rfl, -, description, same, -⟩⟩
  · rw [known] at unknown
    cases unknown
  · rw [allowed] at forbidden
    cases forbidden
  · rw [known] at known'
    cases known'
    exact ⟨w', after, ends, i, description, _, fails.mpr refuses, same⟩

end Deeds

/-- After every run from an unused world the last invokation is that of the latest action that has
    one, and before each action whose invokation failed one has told that failures are allowed.
    Where they are allowed they stay so, no statement of a run fails because of an invokation, and a
    deployment or a message that the chain refuses is put into the log and changes nothing else. -/
theorem failures_on_record {w : World} (unused : w.Unused) (goOn : Bool) (ss : List Statement)
    (stage : Stage) :
    (run goOn ss w stage).1.world.lastInvokation =
      ((run goOn ss w stage).1.world.actions.filterMap (·.invokation)).getLast? ∧
    (∀ past a rest, (run goOn ss w stage).1.world.actions = past ++ a :: rest → a.Failed →
      ∃ b ∈ past, b.Allows) ∧
    ∀ (u : World) (stage : Stage), u.settings.allowFailures = true →
      (∀ goOn ss, (run goOn ss u stage).1.world.settings.allowFailures = true ∧
        ∀ f ∈ (run goOn ss u stage).1.failures, f.error.invokation? = none) ∧
      (∀ s result stage', u.runStatement s stage = (result, stage') →
        u.Tolerated s stage result stage'.chain) ∧
      (∀ sender family name kind params fields, stage.chain.Refuses (.deploy sender kind params) →
        ∃ u' after, (u.deploy sender family name kind params fields).Ends stage (.ok u') after ∧
          u.RecordsFailure u') ∧
      ∀ sender target h family method params description, u.contract target = .ok h →
        stage.chain.Refuses (.send sender h.address method params) →
        ∃ u' after, (u.send sender target family method params description).Ends stage (.ok u')
          after ∧ u.RecordsFailure u' := by
  have after := accounted_run unused.accounted goOn ss stage
  refine ⟨after.last, after.failed, fun u stage allowed => ⟨?_, ?_, ?_, ?_⟩⟩
  · exact fun goOn ss => run_allowed allowed goOn ss stage
  · exact fun s result stage' ended => tolerated_of_allowed allowed ended
  · exact fun _ _ _ _ _ _ refuses => deploy_tolerated allowed refuses
  · exact fun _ _ _ _ _ _ _ known refuses => send_tolerated allowed known refuses

section Overdraft

/-- A script that transfers tokens that the account does not have, which is allowed to fail. -/
def overdraft : List Statement :=
  [["AllowFailures"],
    ["Erc20", "Deploy", "Standard", "ZRX", "Zero"],
    ["Erc20", "ZRX", "Transfer", "Admin", "5"],
    ["Print", "Done"]].map fun words => { event := .words words, span := default }

theorem overdraft_actions :
    (run false overdraft adminOnly { chain := {} }).1.world.actions.map
        (fun a => (a.description, a.invokation.map (·.error?))) =
      [("Allowing failures", none),
        ("Deployed ZRX (FaucetToken)", some none),
        ("Admin transferred 5 ZRX to Admin (failed: Revert: Insufficient balance)",
          some (some (.revert "Insufficient balance"))),
        ("Done", none)] ∧
    (run false overdraft adminOnly { chain := {} }).1.world.settings.allowFailures = true := by
  decide +kernel

/-- The transfer is the last invokation after the script, since no later action has one, and the
    script can go on. -/
theorem overdraft_on_record :
    adminOnly.Unused ∧
    ∃ past a rest, (run false overdraft adminOnly { chain := {} }).1.world.actions =
        past ++ a :: rest ∧ a.Failed ∧ (∃ b ∈ past, b.Allows) ∧
      (run false overdraft adminOnly { chain := {} }).1.world.lastInvokation = a.invokation ∧
      (run false overdraft adminOnly { chain := {} }).1.world.settings.allowFailures = true ∧
      ∀ goOn ss stage, ∀ f ∈ (run goOn ss
          (run false overdraft adminOnly { chain := {} }).1.world stage).1.failures,
        f.error.invokation? = none := by
  have unused : adminOnly.Unused := ⟨rfl, rfl, rfl⟩
  obtain ⟨last, before, later⟩ := failures_on_record unused false overdraft { chain := {} }
  obtain ⟨actions, allowed⟩ := overdraft_actions
  generalize (run false overdraft adminOnly { chain := {} }).1.world = w at *
  obtain ⟨a, as, split, -, actions⟩ := List.map_eq_cons_iff.mp actions
  obtain ⟨b, bs, rfl, -, actions⟩ := List.map_eq_cons_iff.mp actions
  obtain ⟨c, cs, rfl, transfer, actions⟩ := List.map_eq_cons_iff.mp actions
  obtain ⟨d, ds, rfl, print, actions⟩ := List.map_eq_cons_iff.mp actions
  obtain rfl := List.map_eq_nil_iff.mp actions
  obtain ⟨-, transferred⟩ := Prod.mk.inj transfer
  obtain ⟨i, invokation, failed⟩ := Option.map_eq_some_iff.mp transferred
  have printed : d.invokation = none := Option.map_eq_none_iff.mp (Prod.mk.inj print).2
  have isFailure : c.Failed := ⟨i, invokation, by rw [failed]; simp⟩
  refine ⟨unused, [a, b], c, [d], split, isFailure, before _ c [d] split isFailure, ?_, allowed, ?_⟩
  · have log : w.actions = [a, b] ++ [c, d] := split
    rw [last, log, List.filterMap_append, List.getLast?_append]
    simp [List.filterMap_cons, invokation, printed]
  · intro goOn ss stage
    exact ((later w stage allowed).1 goOn ss).2

end Overdraft

end World

end MarketScript
