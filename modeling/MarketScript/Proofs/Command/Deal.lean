import MarketScript.Proofs.Command.Deed
import MarketScript.Proofs.Error

/-!
# Dealings with the chain

A command that carries out no other asks the chain for one thing at most.  What it asks for follows
from the command, and what the world records of it from what the chain has answered: a request that
is refused stops the command, or is recorded as a failed invokation where failures are allowed.
-/

namespace MarketScript

namespace Command

/-- The kind of the contract that a command makes. -/
def kind? : Command → Option String
  | deployController kind | deployMarket kind => some kind
  | deployRegistry => some "Registry"
  | deployRateModel => some "FixedInterestRateModel"
  | deployToken => some "FaucetToken"
  | _ => none

/-- The method of the message that a command sends. -/
def method? : Command → Option String
  | setCloseFactor => some "_setCloseFactor"
  | supportMarket => some "_supportMarket"
  | setCollateralFactor => some "_setCollateralFactor"
  | setPendingAdmin => some "_setPendingAdmin"
  | acceptAdmin => some "_acceptAdmin"
  | mint => some "mint"
  | redeem => some "redeem"
  | tokenMessage method _ _ => some method
  | _ => none

/-- What a command asks a chain for. -/
inductive Asks (c : Command) (args : Args) (sender : Address) : Request → Prop
  /-- To make a contract; a market is one for the underlying token that is given. -/
  | deploy {kind : String} {params : List Abi} (makes : c.kind? = some kind)
      (underlying : ∀ market, c = deployMarket market →
        ∃ token, args.address "underlying" = .ok token ∧ params.head? = some (.address token)) :
      Asks c args sender (.deploy sender kind params)
  | send {method : String} {target : Address} {params : List Abi}
      (sends : c.method? = some method) : Asks c args sender (.send sender target method params)

end Command

/-- What a task asks a chain for. -/
def Task.Asks (t : Task) (sender : Address) (r : Request) : Prop :=
  match t with
  | skip _ => False
  | command c args => c.Asks args sender r

namespace World

/-- A world is another one after an invokation that failed: it has one more action, the invokation is
    the last one, and nothing else is different. -/
def RecordsFailure (w w' : World) : Prop :=
  ∃ i description place, i.error? ≠ none ∧
    w' = { w with actions := w.actions ++ [{ description, invokation := some i, place }],
                  lastInvokation := some i }

theorem RecordsFailure.withDryRun {w w' : World} {on : Bool}
    (h : (w.withDryRun on).RecordsFailure w') :
    w.RecordsFailure (w'.withDryRun w.settings.dryRun) := by
  obtain ⟨i, description, place, failed, rfl⟩ := h
  exact ⟨i, description, place, failed, rfl⟩

/-- What comes of a command in a world, and of the chain, if the command asks for things of a kind
    only. -/
inductive Dealt (w : World) (Asked : Request → Prop) (c : Chain) :
    Except ScenarioError World → Chain → Prop
  /-- The command fails without having asked for anything. -/
  | failed {e : ScenarioError} (plain : e.Plain) : Dealt w Asked c (.error e) c
  /-- The command logs an action without having asked for anything. -/
  | told {w' : World} {description : String} {place : Nat}
      (actions : w'.actions = w.actions ++ [{ description, invokation := none, place }])
      (last : w'.lastInvokation = w.lastInvokation)
      (allowed : w'.settings.allowFailures = w.settings.allowFailures ∨
        description = "Allowing failures" ∧ w'.settings.allowFailures = true) :
      Dealt w Asked c (.ok w') c
  /-- The chain refuses what the command asks for, which is an error. -/
  | refused {r : Request} {e : InvokationError} (asked : Asked r) (refuses : c.Refuses r)
      (forbidden : w.settings.allowFailures = false) :
      Dealt w Asked c (.error (.invokation e)) (c.after r)
  /-- The chain refuses what the command asks for, which is recorded and changes nothing else. -/
  | tolerated {r : Request} {w' : World} (asked : Asked r) (refuses : c.Refuses r)
      (records : w.RecordsFailure w') (allowed : w.settings.allowFailures = true) :
      Dealt w Asked c (.ok w') (c.after r)
  /-- The chain does what the command asks for. -/
  | completed {r : Request} {w' : World} {i : Invokation Value} {description : String} {place : Nat}
      (asked : Asked r) (agrees : ¬ c.Refuses r) (succeeded : i.error? = none)
      (actions : w'.actions = w.actions ++ [{ description, invokation := some i, place }])
      (last : w'.lastInvokation = some i) (settings : w'.settings = w.settings) :
      Dealt w Asked c (.ok w') (c.after r)

/-- Dry runs make no difference to what comes of a command. -/
theorem Dealt.withDryRun {w : World} {on : Bool} {Asked : Request → Prop} {c c' : Chain}
    {result : Except ScenarioError World} (h : (w.withDryRun on).Dealt Asked c result c') :
    w.Dealt Asked c (result.map (·.withDryRun w.settings.dryRun)) c' := by
  cases h with
  | failed plain => exact .failed plain
  | told actions last allowed => exact .told actions last allowed
  | refused asked refuses forbidden => exact .refused asked refuses forbidden
  | tolerated asked refuses records allowed =>
    exact .tolerated asked refuses records.withDryRun allowed
  | @completed _ w' _ _ _ asked agrees succeeded actions last settings =>
    refine .completed asked agrees succeeded actions last ?_
    show { w'.settings with dryRun := w.settings.dryRun } = w.settings
    rw [settings]
    rfl

theorem Dealt.mono {w : World} {Asked Asked' : Request → Prop} {c c' : Chain}
    {result : Except ScenarioError World} (h : w.Dealt Asked c result c')
    (more : ∀ r, Asked r → Asked' r) : w.Dealt Asked' c result c' := by
  cases h with
  | failed plain => exact .failed plain
  | told actions last allowed => exact .told actions last allowed
  | refused asked refuses forbidden => exact .refused (more _ asked) refuses forbidden
  | tolerated asked refuses records allowed => exact .tolerated (more _ asked) refuses records allowed
  | completed asked agrees succeeded actions last settings =>
    exact .completed (more _ asked) agrees succeeded actions last settings

/-- The chain is asked for one thing at most. -/
theorem Dealt.chain {w : World} {Asked : Request → Prop} {c c' : Chain}
    {result : Except ScenarioError World} (h : w.Dealt Asked c result c') :
    c' = c ∨ ∃ r, Asked r ∧ c' = c.after r := by
  cases h with
  | failed | told => exact .inl rfl
  | refused asked | tolerated asked | completed asked => exact .inr ⟨_, asked, rfl⟩

end World

namespace Act

/-- In a world the act asks for things of a kind only, and the world records what came of them. -/
def Deals (x : Act World) (w : World) (Asked : Request → Prop) : Prop :=
  ∀ before result after, x.Ends before result after → w.Dealt Asked before.chain result after.chain

variable {α : Type} {w : World} {Asked : Request → Prop}

theorem deals_ask {y : Except ScenarioError α} {g : α → Act World} (plain : Plain y)
    (rest : ∀ a, y = .ok a → (g a).Deals w Asked) : (do g (← ofExcept y)).Deals w Asked := by
  intro before result after ends
  rcases ends_ask.mp ends with ⟨e, failed, rfl, rfl⟩ | ⟨a, answer, ends⟩
  · exact .failed (plain e failed)
  · exact rest a answer _ _ _ ends

theorem deals_announce {text : String} {x : Act World} (rest : x.Deals w Asked) :
    (do announce text; x).Deals w Asked := by
  intro before result after ends
  rcases ends_bind.mp ends with ⟨_, failed, -⟩ | ⟨_, middle, said, ends⟩
  · cases (ends_announce.mp failed).1
  obtain ⟨-, rfl⟩ := ends_announce.mp said
  have dealt := rest _ _ _ ends
  exact dealt

end Act

namespace World

variable {w u : World} {sender : Address} {Asked : Request → Prop}

theorem deals_addAction {description : String} (actions : u.actions = w.actions)
    (last : u.lastInvokation = w.lastInvokation)
    (allowed : u.settings.allowFailures = w.settings.allowFailures ∨
      description = "Allowing failures" ∧ u.settings.allowFailures = true) :
    (u.addAction description).Deals w Asked := by
  intro before result after ends
  obtain ⟨rfl, rfl⟩ := ends_log.mp ends
  exact .told (congrArg (· ++ _) actions) last allowed

theorem deals_of_tells {x : Act World} (tells : x.Tells w) : x.Deals w Asked := by
  intro before result after ends
  rcases tells _ _ _ ends with ⟨e, plain, rfl, rfl⟩ | ⟨text, logged⟩
  · exact .failed plain
  · exact deals_addAction rfl rfl (.inl rfl) _ _ _ logged

theorem deals_send {target : Address} {family : Family} {method : String} {params : List Abi}
    {description : String} (asked : ∀ receiver, Asked (.send sender receiver method params)) :
    (w.send sender target family method params description).Deals w Asked := by
  intro before result after ends
  rcases send_cases ends with ⟨e, unknown, rfl, rfl⟩ |
    ⟨h, i, -, chain, fails, ⟨e, rfl, failed, forbidden, -⟩ | ⟨w', rfl, tolerated, _, rfl, -⟩⟩
  · exact .failed (w.plain_contract target e unknown)
  · rw [chain]
    exact .refused (asked _) (fails.mp (by simp [failed])) forbidden
  · rw [chain]
    by_cases failed : i.error? = none
    · exact .completed (asked _) (fun refuses => fails.mpr refuses failed) failed rfl rfl rfl
    · exact .tolerated (asked _) (fails.mp failed) ⟨i, _, _, failed, rfl⟩
        (tolerated.resolve_left failed)

theorem deals_deploy {family : Family} {name kind : String} {params : List Abi}
    {fields : List (String × Value)} (asked : Asked (.deploy sender kind params)) :
    (w.deploy sender family name kind params fields).Deals w Asked := by
  intro before result after ends
  rcases deploy_cases ends with
    ⟨refuses, chain, ⟨e, rfl, forbidden, -⟩ | ⟨_, i, rfl, valueless, allowed, _, rfl, -⟩⟩ |
    ⟨agrees, _, i, address, _, rfl, answer, ⟨_, rfl, -⟩, chain, -⟩
  · rw [chain]
    exact .refused asked refuses forbidden
  · rw [chain]
    refine .tolerated asked refuses ⟨i, _, _, fun succeeded => ?_, rfl⟩ allowed
    rw [← i.value?_isSome_iff, valueless] at succeeded
    cases succeeded
  · rw [chain]
    have succeeded : i.error? = none := by rw [Invokation.error?, answer]
    exact .completed asked agrees succeeded rfl rfl rfl

theorem deals_bindExisting {family : Family} {name : String} {address : Address} :
    (w.bindExisting family name address).Deals w Asked := by
  intro before result after ends
  rcases bindExisting_cases ends with ⟨-, rfl, rfl⟩ |
    ⟨kind, -, ⟨-, rfl, rfl⟩ | ⟨-, _, _, rfl, ⟨_, rfl, -⟩, chain⟩⟩
  · exact .failed rfl
  · exact .failed rfl
  · rw [chain]
    exact .told rfl rfl (.inl rfl)

end World

namespace Command

open World Act

variable {w : World} {sender : Address} {args : Args}

/-- A command that carries out no other asks the chain only for what it is there to ask for. -/
theorem deals_perform {run : World → Address → CommandTable → Event → Act World} (c : Command)
    (leaf : c.delegates = false) :
    (c.perform run w sender args).Deals w (c.Asks args sender) := by
  cases c with
  | fromAccount | dryRun | inTable => cases leaf
  | read =>
    exact deals_ask (args.plain_get _) fun _ _ => deals_addAction rfl rfl (.inl rfl)
  | print =>
    exact deals_ask (args.plain_string _) fun _ _ => deals_addAction rfl rfl (.inl rfl)
  | nameAddress =>
    exact deals_ask (args.plain_string _) fun _ _ => deals_ask (args.plain_address _) fun _ _ =>
      deals_addAction rfl rfl (.inl rfl)
  | allowFailures => exact deals_addAction rfl rfl (.inr ⟨rfl, rfl⟩)
  | inspect => exact deals_announce (deals_addAction rfl rfl (.inl rfl))
  | assertEqual => exact deals_of_tells tells_assertEqualTo
  | assertCondition expected => exact deals_of_tells (tells_assertBool expected)
  | assertSuccess => exact deals_of_tells tells_assertSucceeded
  | assertFailure => exact deals_of_tells tells_assertFailed
  | assertRevert => exact deals_of_tells tells_assertReverted
  | deployController kind =>
    exact deals_ask (args.plain_string _) fun _ _ => deals_deploy (.deploy rfl nofun)
  | deployRegistry => exact deals_deploy (.deploy rfl nofun)
  | deployRateModel =>
    exact deals_ask (args.plain_string _) fun _ _ => deals_ask (args.plain_get _) fun rate _ =>
      deals_ask rate.plain_encode fun _ _ => deals_deploy (.deploy rfl nofun)
  | deployToken =>
    exact deals_ask (args.plain_string _) fun _ _ => deals_ask (args.plain_string _) fun _ _ =>
      deals_ask (args.plain_get _) fun decimals _ => deals_ask decimals.plain_encode fun _ _ =>
        deals_deploy (.deploy rfl nofun)
  | deployMarket kind =>
    have encoded : ∀ name, Plain (do (← args.get name).encode) := fun name =>
      (args.plain_get name).bind Value.plain_encode
    refine deals_ask (args.plain_string _) fun _ _ => deals_ask (args.plain_string _) fun _ _ =>
      deals_ask (args.plain_address _) fun token given => deals_ask (args.plain_get _) fun decimals _ =>
        deals_ask (args.plain_address _) fun _ _ => deals_ask (args.plain_address _) fun _ _ =>
          deals_ask (args.plain_address _) fun _ _ => deals_ask (encoded _) fun _ _ =>
            deals_ask (encoded _) fun _ _ => deals_ask decimals.plain_encode fun _ _ => ?_
    exact deals_deploy (.deploy rfl fun _ _ => ⟨token, given, rfl⟩)
  | bindExisting family nameArg =>
    exact deals_ask (args.plain_string _) fun _ _ => deals_ask (args.plain_address _) fun _ _ =>
      deals_bindExisting
  | acceptAdmin =>
    exact deals_ask (args.plain_address _) fun _ _ => deals_send fun _ => .send rfl
  | supportMarket | setPendingAdmin =>
    exact deals_ask (args.plain_address _) fun _ _ => deals_ask (args.plain_address _) fun _ _ =>
      deals_send fun _ => .send rfl
  | setCloseFactor | mint | redeem =>
    exact deals_ask (args.plain_address _) fun _ _ => deals_ask (args.plain_number _) fun n _ =>
      deals_ask (Value.number n).plain_encode fun _ _ => deals_send fun _ => .send rfl
  | setCollateralFactor | tokenMessage =>
    exact deals_ask (args.plain_address _) fun _ _ => deals_ask (args.plain_address _) fun _ _ =>
      deals_ask (args.plain_number _) fun n _ => deals_ask (Value.number n).plain_encode fun _ _ =>
        deals_send fun _ => .send rfl

end Command

theorem Deed.deals_act {d : Deed} (sound : d.task.Sound) :
    d.act.Deals d.world (d.task.Asks d.sender) := by
  obtain ⟨task, w, sender⟩ := d
  cases task with
  | skip e => exact World.deals_addAction rfl rfl (.inl rfl)
  | command c args =>
    show (c.perform (fun _ _ _ _ => Act.exhausted) w sender args).Deals w (c.Asks args sender)
    exact Command.deals_perform c sound.2

end MarketScript
