import MarketScript.Proofs.Chain.Addresses
import MarketScript.Proofs.Command.Assertion
import MarketScript.Proofs.Index

/-!
# What commands do

A command that carries out no other puts one action into the log and changes the world and the chain
in one of six ways.  Every theorem about what commands keep goes through these cases.
-/

namespace MarketScript

/-- A name in a family and the contract that it has been given to. -/
structure Binding where
  family : Family
  name : String
  address : Address
deriving DecidableEq

/-- The address of the contract that the last invokation has deployed. -/
def World.deployed? (w : World) : Option Address := do
  (← (← w.lastInvokation).value?).asAddress.toOption

namespace Command

/-- Whether a command carries out another one. -/
def delegates : Command → Bool
  | fromAccount | dryRun | inTable _ _ => true
  | _ => false

/-- The family and the name under which a command is to bind a contract. -/
def target? (c : Command) (args : Args) : Option (Family × String) :=
  let under (family : Family) (arg : String) := (args.string arg).toOption.map (family, ·)
  match c with
  | deployController _ => under .controller "name"
  | deployRegistry => some (.registry, "Registry")
  | deployRateModel => under .rateModel "name"
  | deployToken => under .token "symbol"
  | deployMarket _ => under .market "symbol"
  | bindExisting family nameArg => under family nameArg
  | _ => none

/-- What a command has bound to the name: the contract at the address that it was given, or else the
    one that it has deployed. -/
def bound? (c : Command) (args : Args) (after : World) : Option Address :=
  match c with
  | bindExisting _ _ => (args.address "address").toOption
  | _ => after.deployed?

/-- The binding that a command has made, seen from the world after it. -/
def binding? (c : Command) (args : Args) (after : World) : Option Binding :=
  (c.target? args).bind fun (family, name) =>
    (c.bound? args after).map fun address => { family, name, address }

/-- What a command says before its action is announced. -/
def preface (c : Command) (w : World) : List Line :=
  match c with
  | inspect => [.note w.toJson.print]
  | _ => []

/-- A command that deploys deploys a contract of its family. -/
def Sound : Command → Prop
  | deployController kind => kind ∈ Family.controller.kinds
  | deployMarket kind => kind ∈ Family.market.kinds
  | _ => True

instance : DecidablePred Sound := fun c => by
  cases c <;> unfold Sound <;> infer_instance

/-- The commands of all tables are sound. -/
theorem sound_of_mem {table : CommandTable} {d : Shape} (member : d ∈ table.shapes) :
    d.handler.Sound := by
  have all : ∀ d ∈ table.shapes, d.handler.Sound := by
    cases table with
    | topLevel | assertions => decide
    | family family | deploy family => cases family <;> decide
  exact all d member

end Command

namespace World

/-- What a command that was carried out for a sender made of the world, apart from the log, and of
    the chain; the invokation it logged and the binding it made, if any. -/
inductive Effect (w : World) (sender : Address) (c : Chain) :
    Option (Invokation Value) → Option Binding → World → Chain → Prop
  /-- Nothing. -/
  | told : Effect w sender c none none w c
  /-- An address got a name. -/
  | aliased (name : String) (address : Address) :
      Effect w sender c none none (w.withAlias name address) c
  /-- Failures are allowed from now on. -/
  | tolerant : Effect w sender c none none (w.withSettings ({ · with allowFailures := true })) c
  /-- A message was sent, or a deployment was refused. -/
  | invoked {r : Request} {i : Invokation Value} (asked : r.sender = sender)
      (tolerated : i.error? = none ∨ w.settings.allowFailures = true) :
      Effect w sender c (some i) none { w with lastInvokation := some i } (c.after r)
  /-- A contract was deployed under a name. -/
  | deployed {family : Family} {name kind description : String} {args : List Abi}
      {address : Address} {i : Invokation Value} {fields : List (String × Value)}
      (answer : i.outcome = .ok (.address address))
      (stands : (c.after (.deploy sender kind args)).kindAt address = some kind)
      (role : kind ∈ family.kinds) (plain : Handle.NoAddress fields) :
      Effect w sender c (some i) (some ⟨family, name, address⟩)
        ({ w with lastInvokation := some i }.register ⟨name, kind, address⟩ (family.paths name)
          (Handle.data ⟨name, kind, address⟩ description fields))
        (c.after (.deploy sender kind args))
  /-- A name was given to a contract that had been there. -/
  | bound {family : Family} {name kind description : String} {address : Address}
      (stands : c.kindAt address = some kind) (role : kind ∈ family.kinds) :
      Effect w sender c none (some ⟨family, name, address⟩)
        (w.register ⟨name, kind, address⟩ (family.paths name)
          (Handle.data ⟨name, kind, address⟩ description []))
        c

/-- A world is another one with one more action in its log, which was announced after some lines. -/
def Logs (u : World) (i : Option (Invokation Value)) (said : List Line) (before after : Stage)
    (w : World) : Prop :=
  ∃ description,
    w = { u with actions :=
            u.actions ++ [{ description, invokation := i,
                            place := (before.transcript ++ said).length }] } ∧
    after.transcript = before.transcript ++ said ++ [.note description]

end World

/-- A command that failed has said nothing and has asked the chain for one thing at most. -/
structure Stage.GivenUp (before : Stage) (sender : Address) (after : Stage) : Prop where
  silent : after.transcript = before.transcript
  chain : after.chain = before.chain ∨
    ∃ r : Request, r.sender = sender ∧ after.chain = before.chain.after r

namespace Act

/-- The act fails and is given up, or it succeeds with one more action in the log, and the rest of
    what it did is an effect. -/
def Does (x : Act World) (w : World) (sender : Address) (said : List Line)
    (binding : World → Option Binding) : Prop :=
  ∀ before result after, x.Ends before result after →
    (∃ error, result = .error error ∧ before.GivenUp sender after) ∨
    ∃ w' i u, result = .ok w' ∧ w.Effect sender before.chain i (binding w') u after.chain ∧
      u.Logs i said before after w'

variable {α : Type} {w : World} {sender : Address} {said : List Line}
  {binding : World → Option Binding} {before after : Stage}

theorem does_ask {y : Except ScenarioError α} {g : α → Act World}
    (rest : ∀ a, y = .ok a → (g a).Does w sender said binding) :
    (do g (← ofExcept y)).Does w sender said binding := by
  intro before result after ends
  rcases ends_ask.mp ends with ⟨e, -, rfl, rfl⟩ | ⟨a, answer, ends⟩
  · exact .inl ⟨e, rfl, rfl, .inl rfl⟩
  · exact rest a answer _ _ _ ends

end Act

namespace World

variable {w u : World} {sender : Address} {before after : Stage}

/-- Registering a contract and logging an action do not get in each other's way. -/
theorem Logs.register {i : Option (Invokation Value)} {said : List Line} {h : Handle}
    {paths : List (List String)} {data : Value} (logged : u.Logs i said before after w) :
    (u.register h paths data).Logs i said before after (w.register h paths data) := by
  obtain ⟨description, rfl, told⟩ := logged
  exact ⟨description, rfl, told⟩

theorem ends_log {description : String} {i : Option (Invokation Value)}
    {result : Except ScenarioError World} :
    (u.log description i).Ends before result after ↔
      result = .ok { u with actions :=
        u.actions ++ [{ description, invokation := i, place := before.transcript.length }] } ∧
      after = { before with transcript := before.transcript ++ [.note description] } :=
  Act.ends_of_run rfl

/-- What is logged is announced, and the chain is left alone. -/
theorem log_done {description : String} {i : Option (Invokation Value)}
    {result : Except ScenarioError World} (ends : (u.log description i).Ends before result after) :
    ∃ w', result = .ok w' ∧ u.Logs i [] before after w' ∧ after.chain = before.chain := by
  obtain ⟨rfl, rfl⟩ := ends_log.mp ends
  refine ⟨_, rfl, ⟨description, ?_, ?_⟩, rfl⟩
  · rw [List.append_nil]
  · rw [List.append_nil]

theorem does_addAction {binding : World → Option Binding} {description : String}
    (nothing : ∀ w', binding w' = none) (effect : ∀ c, w.Effect sender c none none u c) :
    (u.addAction description).Does w sender [] binding := by
  intro before result after ends
  obtain ⟨w', same, logged, chain⟩ := log_done ends
  refine .inr ⟨w', none, u, same, ?_, logged⟩
  rw [nothing, chain]
  exact effect _

/-- An act that only logs an action has no effect besides. -/
theorem does_of_tells {x : Act World} {binding : World → Option Binding} (tells : x.Tells w)
    (nothing : ∀ w', binding w' = none) : x.Does w sender [] binding := by
  intro before result after ends
  rcases tells _ _ _ ends with ⟨e, -, rfl, rfl⟩ | ⟨text, logged⟩
  · exact .inl ⟨e, rfl, rfl, .inl rfl⟩
  · exact does_addAction nothing (fun _ => .told) _ _ _ logged

/-- A failed invokation that is not allowed is an error; any other is logged and becomes the last. -/
theorem record_cases {description : String} {i : Invokation Value}
    {result : Except ScenarioError World}
    (ends : (w.record description i).Ends before result after) :
    (∃ e, result = .error (.invokation e) ∧ i.error? = some e ∧
      w.settings.allowFailures = false ∧ after = before) ∨
    ∃ w', result = .ok w' ∧ (i.error? = none ∨ w.settings.allowFailures = true) ∧
      { w with lastInvokation := some i }.Logs (some i) [] before after w' ∧
      after.chain = before.chain := by
  have logged : ∀ text, (do
      let w ← w.log text (some i)
      return { w with lastInvokation := some i } : Act World).Ends before result after →
      ∃ w', result = .ok w' ∧ { w with lastInvokation := some i }.Logs (some i) [] before after w' ∧
        after.chain = before.chain := by
    intro text ends
    rcases Act.ends_bind.mp ends with ⟨e, failed, -⟩ | ⟨u, middle, first, rest⟩
    · obtain ⟨_, impossible, -⟩ := log_done failed
      cases impossible
    obtain ⟨rfl, rfl⟩ := Act.ends_pure.mp rest
    obtain ⟨_, same, ⟨description, rfl, told⟩, chain⟩ := log_done first
    cases same
    exact ⟨_, rfl, ⟨description, rfl, told⟩, chain⟩
  unfold record at ends
  dsimp only at ends
  split at ends
  · rename_i fine
    obtain ⟨w', rfl, done⟩ := logged _ ends
    exact .inr ⟨w', rfl, .inl fine, done⟩
  · rename_i e failed
    split at ends
    · rename_i allowed
      obtain ⟨w', rfl, done⟩ := logged _ ends
      exact .inr ⟨w', rfl, .inr allowed, done⟩
    · rename_i forbidden
      obtain ⟨rfl, rfl⟩ := Act.ends_throw.mp ends
      exact .inl ⟨e, rfl, failed, Bool.eq_false_iff.mpr forbidden, rfl⟩

/-- What is made of a world after an invokation was recorded is made of it alone. -/
theorem record_then_cases {description : String} {i : Invokation Value} {f : World → World}
    {result : Except ScenarioError World}
    (ends : (do return f (← w.record description i) : Act World).Ends before result after) :
    (∃ e, result = .error (.invokation e) ∧ i.error? = some e ∧
      w.settings.allowFailures = false ∧ after = before) ∨
    ∃ w', result = .ok (f w') ∧ (i.error? = none ∨ w.settings.allowFailures = true) ∧
      { w with lastInvokation := some i }.Logs (some i) [] before after w' ∧
      after.chain = before.chain := by
  rcases Act.ends_bind.mp ends with ⟨e, failed, rfl⟩ | ⟨w', middle, recorded, rest⟩
  · rcases record_cases failed with ⟨error, same, isFailure, forbidden, rfl⟩ | ⟨_, impossible, -⟩
    · cases same
      exact .inl ⟨error, rfl, isFailure, forbidden, rfl⟩
    · cases impossible
  · obtain ⟨rfl, rfl⟩ := Act.ends_pure.mp rest
    rcases record_cases recorded with ⟨_, impossible, -⟩ | ⟨_, same, done⟩
    · cases impossible
    · cases same
      exact .inr ⟨w', rfl, done⟩

/-- The outcome of a message is an error if the chain has answered with one, or with a receipt that
    tells a failure. -/
theorem error?_of_sent {i : Invokation Value} {sent : Except ChainError Receipt} {family : Family}
    (outcome : i.outcome = match sent with
      | .error e => .error e.toInvokationError
      | .ok receipt =>
        match receipt.log? "Failure" with
        | some log => .error (.ofLog family.failures log)
        | none => .ok (.ofAbi receipt.returnValue)) :
    i.error? ≠ none ↔ ∀ receipt, sent = .ok receipt → receipt.log? "Failure" ≠ none := by
  rw [Invokation.error?, outcome]
  cases sent with
  | error e => simp
  | ok receipt => cases told : receipt.log? "Failure" <;> simp [told]

/-- A message is not sent, as there is no such contract, or it is refused where that is an error, or
    it is recorded; it fails if the chain refuses it. -/
theorem send_cases {target : Address} {family : Family} {method : String} {args : List Abi}
    {description : String} {result : Except ScenarioError World}
    (ends : (w.send sender target family method args description).Ends before result after) :
    (∃ e, w.contract target = .error e ∧ result = .error e ∧ after = before) ∨
    ∃ h i, w.contract target = .ok h ∧
      after.chain = before.chain.after (.send sender h.address method args) ∧
      (i.error? ≠ none ↔ before.chain.Refuses (.send sender h.address method args)) ∧
      ((∃ e, result = .error (.invokation e) ∧ i.error? = some e ∧
          w.settings.allowFailures = false ∧ after.transcript = before.transcript) ∨
        ∃ w', result = .ok w' ∧ (i.error? = none ∨ w.settings.allowFailures = true) ∧
          { w with lastInvokation := some i }.Logs (some i) [] before after w') := by
  unfold send at ends
  rcases Act.ends_ask.mp ends with ⟨e, unknown, rfl, rfl⟩ | ⟨h, known, ends⟩
  · exact .inl ⟨e, unknown, rfl, rfl⟩
  refine .inr ⟨h, ?_⟩
  rcases Act.ends_bind.mp ends with ⟨_, failed, -⟩ | ⟨sent, middle, touched, rest⟩
  · cases (Act.ends_onChain.mp failed).1
  obtain ⟨answer, rfl⟩ := Act.ends_onChain.mp touched
  simp only [Except.ok.injEq] at answer
  subst answer
  rcases record_cases rest with
    ⟨e, rfl, failed, forbidden, rfl⟩ | ⟨w', rfl, tolerated, logged, chain⟩
  · exact ⟨_, known, rfl, error?_of_sent rfl, .inl ⟨e, rfl, failed, forbidden, rfl⟩⟩
  · exact ⟨_, known, chain, error?_of_sent rfl, .inr ⟨w', rfl, tolerated, logged⟩⟩

/-- A message that the chain was sent is the whole effect of sending it. -/
theorem does_send {target : Address} {family : Family} {method : String} {args : List Abi}
    {description : String} {binding : World → Option Binding} (nothing : ∀ w', binding w' = none) :
    (w.send sender target family method args description).Does w sender [] binding := by
  intro before result after ends
  rcases send_cases ends with ⟨e, -, rfl, rfl⟩ |
    ⟨h, i, -, chain, -, ⟨e, rfl, -, -, silent⟩ | ⟨w', rfl, tolerated, logged⟩⟩
  · exact .inl ⟨e, rfl, rfl, .inl rfl⟩
  · exact .inl ⟨_, rfl, silent, .inr ⟨.send sender h.address method args, rfl, chain⟩⟩
  · refine .inr ⟨w', _, _, rfl, ?_, logged⟩
    rw [nothing, chain]
    exact .invoked (r := .send sender h.address method args) rfl tolerated

/-- The value of the invokation that was logged last is what it has deployed. -/
theorem Logs.deployed? {i : Invokation Value} {said : List Line} {before after : Stage}
    (logged : { w with lastInvokation := some i }.Logs (some i) said before after u) :
    u.deployed? = i.value?.bind (·.asAddress.toOption) := by
  obtain ⟨_, rfl, -⟩ := logged
  rfl

/-- The chain refuses a deployment, which is an error or is recorded without a value, or it makes a
    contract, which is recorded first and then registered. -/
theorem deploy_cases {family : Family} {name kind : String} {args : List Abi}
    {fields : List (String × Value)} {result : Except ScenarioError World}
    (ends : (w.deploy sender family name kind args fields).Ends before result after) :
    (before.chain.Refuses (.deploy sender kind args) ∧
      after.chain = before.chain.after (.deploy sender kind args) ∧
      ((∃ e, result = .error (.invokation e) ∧ w.settings.allowFailures = false ∧
          after = before) ∨
        ∃ w' i, result = .ok w' ∧ i.value? = none ∧ w.settings.allowFailures = true ∧
          { w with lastInvokation := some i }.Logs (some i) [] before after w')) ∨
    ¬ before.chain.Refuses (.deploy sender kind args) ∧ ∃ w' i address description,
      result = .ok (w'.register ⟨name, kind, address⟩ (family.paths name)
        (Handle.data ⟨name, kind, address⟩ description fields)) ∧
      i.outcome = .ok (.address address) ∧
      { w with lastInvokation := some i }.Logs (some i) [] before after w' ∧
      after.chain = before.chain.after (.deploy sender kind args) ∧
      after.chain.kindAt address = some kind := by
  unfold deploy at ends
  rcases Act.ends_bind.mp ends with ⟨_, failed, -⟩ | ⟨made, middle, touched, rest⟩
  · cases (Act.ends_onChain.mp failed).1
  obtain ⟨answer, rfl⟩ := Act.ends_onChain.mp touched
  simp only [Except.ok.injEq] at answer
  subst answer
  rcases before.chain.deploy_cases sender kind args with
    ⟨e, refused⟩ | ⟨receipt, address, made, placed, silent, stands⟩
  · have same : before.chain.after (.deploy sender kind args) = before.chain := by
      rw [Chain.after, refused]
    refine .inl ⟨?_, ?_⟩
    · show ∀ receipt, (before.chain.deploy sender kind args).1 = .ok receipt → _
      rw [refused]
      rintro receipt ⟨⟩
    simp only [refused] at rest
    rcases record_then_cases (f := id) rest with
      ⟨error, rfl, -, forbidden, rfl⟩ | ⟨w', rfl, tolerated, logged, chain⟩
    · exact ⟨same.symm, .inl ⟨error, rfl, forbidden, rfl⟩⟩
    · rcases tolerated with impossible | allowed
      · cases impossible
      · exact ⟨chain.trans same.symm, .inr ⟨w', _, rfl, rfl, allowed, logged⟩⟩
  · refine .inr ⟨fun refuses => ?_, ?_⟩
    · have answer : before.chain.answer (.deploy sender kind args) = .ok receipt := by
        rw [Chain.answer, made]
      exact refuses receipt answer silent
    simp only [made, placed] at rest
    rcases record_then_cases rest with
      ⟨_, _, impossible, -⟩ | ⟨w', rfl, -, logged, chain⟩
    · cases impossible
    refine ⟨w', _, address, _, rfl, rfl, logged, chain, ?_⟩
    rw [chain]
    exact stands

/-- A contract that the chain has made is registered under its name. -/
theorem does_deploy {family : Family} {name kind : String} {args : List Abi}
    {fields : List (String × Value)} (role : kind ∈ family.kinds) (plain : Handle.NoAddress fields) :
    (w.deploy sender family name kind args fields).Does w sender []
      fun after => after.deployed?.map fun address => { family, name, address } := by
  intro before result after ends
  rcases deploy_cases ends with
    ⟨-, chain, ⟨e, rfl, -, rfl⟩ | ⟨w', i, rfl, valueless, tolerated, logged⟩⟩ |
    ⟨-, w', i, address, description, rfl, answer, logged, chain, stands⟩
  · exact .inl ⟨_, rfl, rfl, .inl rfl⟩
  -- a refused deployment is an invokation without a value, so it binds nothing
  · refine .inr ⟨w', some i, _, rfl, ?_, logged⟩
    dsimp only
    rw [logged.deployed?, valueless, chain]
    exact .invoked (r := .deploy sender kind args) rfl (.inr tolerated)
  -- what was recorded is what the name is bound to
  · refine .inr ⟨_, some i, _, rfl, ?_, logged.register⟩
    have known : w'.deployed? = some address := by
      rw [logged.deployed?, Invokation.value?, answer]
      rfl
    show Effect _ _ _ _ (w'.deployed?.map _) _ _
    rw [chain] at stands
    rw [known, chain]
    exact Effect.deployed answer stands role plain

/-- There is no contract that a name could be given to, or it is none of the family, or it is
    registered under the name.  The chain is asked for nothing. -/
theorem bindExisting_cases {family : Family} {name : String} {address : Address}
    {result : Except ScenarioError World}
    (ends : (w.bindExisting family name address).Ends before result after) :
    (before.chain.kindAt address = none ∧ result = .error (.chain (.noContract address)) ∧
      after = before) ∨
    ∃ kind, before.chain.kindAt address = some kind ∧
      ((kind ∉ family.kinds ∧ result = .error (.typeMismatch family.keyword kind) ∧
          after = before) ∨
        kind ∈ family.kinds ∧ ∃ w' description, result = .ok w' ∧
          (w.register ⟨name, kind, address⟩ (family.paths name)
            (Handle.data ⟨name, kind, address⟩ description [])).Logs none [] before after w' ∧
          after.chain = before.chain) := by
  unfold bindExisting at ends
  rcases Act.ends_bind.mp ends with ⟨_, failed, -⟩ | ⟨stage, _, first, rest⟩
  · cases (Act.ends_get.mp failed).1
  obtain ⟨same, rfl⟩ := Act.ends_get.mp first
  cases same
  cases stands : stage.chain.kindAt address with
  | none =>
    simp only [stands] at rest
    obtain ⟨rfl, rfl⟩ := Act.ends_throw.mp rest
    exact .inl ⟨rfl, rfl, rfl⟩
  | some kind =>
    refine .inr ⟨kind, rfl, ?_⟩
    simp only [stands, pure_bind] at rest
    by_cases role : kind ∈ family.kinds
    · have known : family.kinds.contains kind = true := List.contains_iff_mem.mpr role
      simp only [known] at rest
      obtain ⟨w', rfl, logged, chain⟩ := log_done rest
      exact .inr ⟨role, w', _, rfl, logged, chain⟩
    · have unknown : family.kinds.contains kind = false := by simpa using role
      simp only [unknown] at rest
      obtain ⟨rfl, rfl⟩ := Act.ends_throw.mp rest
      exact .inl ⟨role, rfl, rfl⟩

/-- A name that is given to a contract is registered for it. -/
theorem does_bindExisting {family : Family} {name : String} {address : Address} :
    (w.bindExisting family name address).Does w sender []
      fun _ => some { family, name, address } := by
  intro before result after ends
  rcases bindExisting_cases ends with ⟨-, rfl, rfl⟩ |
    ⟨kind, stands, ⟨-, rfl, rfl⟩ | ⟨role, w', _, rfl, logged, chain⟩⟩
  · exact .inl ⟨_, rfl, rfl, .inl rfl⟩
  · exact .inl ⟨_, rfl, rfl, .inl rfl⟩
  · refine .inr ⟨w', _, _, rfl, ?_, logged⟩
    rw [chain]
    exact .bound stands role

end World

namespace Command

open World Act

variable {w : World} {sender : Address} {args : Args}

theorem binding?_of_target {c : Command} {family : Family} {name : String}
    (target : c.target? args = some (family, name)) :
    c.binding? args = fun after =>
      (c.bound? args after).map fun address => { family, name, address } := by
  funext after
  rw [binding?, target]
  rfl

theorem binding?_of_no_target {c : Command} (target : c.target? args = none) (after : World) :
    c.binding? args after = none := by
  rw [binding?, target]
  rfl

theorem does_inspect {binding : World → Option Binding} (nothing : ∀ w', binding w' = none) :
    (do Act.announce w.toJson.print; w.addAction "Inspected world").Does w sender
      [.note w.toJson.print] binding := by
  intro before result after ends
  rcases ends_bind.mp ends with ⟨_, failed, -⟩ | ⟨_, middle, said, rest⟩
  · cases (ends_announce.mp failed).1
  obtain ⟨-, rfl⟩ := ends_announce.mp said
  obtain ⟨w', rfl, ⟨description, rfl, told⟩, chain⟩ := log_done rest
  refine .inr ⟨_, none, w, rfl, ?_, description, ?_, ?_⟩
  · rw [nothing, chain]
    exact .told
  · simp
  · simpa using told

/-- A command that carries out no other does one of six things. -/
theorem does_perform {run : World → Address → CommandTable → Event → Act World} (c : Command)
    (sound : c.Sound) (leaf : c.delegates = false) :
    (c.perform run w sender args).Does w sender (c.preface w) (c.binding? args) := by
  have nothing : c.target? args = none → ∀ after, c.binding? args after = none :=
    binding?_of_no_target
  cases c with
  | fromAccount | dryRun | inTable => cases leaf
  | read | print => exact does_ask fun _ _ => does_addAction (nothing rfl) fun _ => .told
  | nameAddress =>
    exact does_ask fun _ _ => does_ask fun _ _ => does_addAction (nothing rfl) fun _ => .aliased _ _
  | allowFailures => exact does_addAction (nothing rfl) fun _ => .tolerant
  | inspect => exact does_inspect (nothing rfl)
  | assertEqual => exact does_of_tells tells_assertEqualTo (nothing rfl)
  | assertCondition expected => exact does_of_tells (tells_assertBool expected) (nothing rfl)
  | assertSuccess => exact does_of_tells tells_assertSucceeded (nothing rfl)
  | assertFailure => exact does_of_tells tells_assertFailed (nothing rfl)
  | assertRevert => exact does_of_tells tells_assertReverted (nothing rfl)
  | deployController kind =>
    refine does_ask fun name named => ?_
    have target : (deployController kind).target? args = some (.controller, name) := by
      simp [target?, named, Except.toOption]
    rw [binding?_of_target target]
    exact does_deploy sound (Handle.noAddress_of_names [] rfl (by decide))
  | deployRegistry =>
    rw [binding?_of_target rfl]
    exact does_deploy (by decide) (Handle.noAddress_of_names [] rfl (by decide))
  | deployRateModel =>
    refine does_ask fun name named => does_ask fun rate _ => does_ask fun encoded _ => ?_
    have target : deployRateModel.target? args = some (.rateModel, name) := by
      simp [target?, named, Except.toOption]
    rw [binding?_of_target target]
    exact does_deploy (by decide) (Handle.noAddress_of_names ["borrowRate"] rfl (by decide))
  | deployToken =>
    refine does_ask fun symbol named => does_ask fun name _ => does_ask fun decimals _ =>
      does_ask fun encoded _ => ?_
    have target : deployToken.target? args = some (.token, symbol) := by
      simp [target?, named, Except.toOption]
    rw [binding?_of_target target]
    exact does_deploy (by decide)
      (Handle.noAddress_of_names ["symbol", "fullName", "decimals"] rfl (by decide))
  | deployMarket kind =>
    refine does_ask fun symbol named => ?_
    iterate 9 refine does_ask fun _ _ => ?_
    have target : (deployMarket kind).target? args = some (.market, symbol) := by
      simp [target?, named, Except.toOption]
    rw [binding?_of_target target]
    exact does_deploy sound
      (Handle.noAddress_of_names ["symbol", "fullName", "underlying", "decimals"] rfl (by decide))
  | bindExisting family nameArg =>
    refine does_ask fun name named => does_ask fun address given => ?_
    have target : (bindExisting family nameArg).target? args = some (family, name) := by
      simp [target?, named, Except.toOption]
    rw [binding?_of_target target]
    simp only [bound?, given, Except.toOption, Option.map_some]
    exact does_bindExisting
  | acceptAdmin => exact does_ask fun _ _ => does_send (nothing rfl)
  | supportMarket | setPendingAdmin =>
    exact does_ask fun _ _ => does_ask fun _ _ => does_send (nothing rfl)
  | setCloseFactor | mint | redeem =>
    exact does_ask fun _ _ => does_ask fun _ _ => does_ask fun _ _ => does_send (nothing rfl)
  | setCollateralFactor | tokenMessage =>
    exact does_ask fun _ _ => does_ask fun _ _ => does_ask fun _ _ => does_ask fun _ _ =>
      does_send (nothing rfl)

end Command

end MarketScript
