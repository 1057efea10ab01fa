import MarketScript.Run
import MarketScript.Proofs.Command.Change
import MarketScript.Proofs.Command.Deal
import MarketScript.Proofs.Command.Message
import MarketScript.Proofs.Ledger.Delivery
import MarketScript.Proofs.Ledger.Refusal

/-!
# Failures by name

A command of the protocol sends one message, or fails before.  If the contract refuses the message,
the command fails under the very names that the contract has refused it under: the numbers in the
log are read with the tables of the family that the command belongs to, and no contract of another
family carries out or refuses such a message.
-/

namespace MarketScript

/-! ## Answers of a chain -/

namespace Chain

variable {c : Chain} {sender target : Address} {kind method : String} {args : List Abi}

/-- A deployment that is carried out tells of nothing. -/
theorem answer_deploy :
    c.answer (.deploy sender kind args) =
      (fun _ => { txHash := txHash sender (c.nonceOf sender), sender, target := none,
                  contractAddress := some (contractAddress sender (c.nonceOf sender)),
                  returnValue := .unit, logs := [] }) <$>
        Contract.create kind sender ⟨"constructor", args⟩ := by
  show (c.deploy sender kind args).1 = _
  unfold deploy
  cases Contract.create kind sender ⟨"constructor", args⟩ <;> rfl

/-- A message that is carried out tells what the contracts tell. -/
theorem answer_send :
    c.answer (.send sender target method args) =
      (fun (_, returnValue, logs) =>
        { txHash := txHash sender (c.nonceOf sender), sender, target := some target,
          contractAddress := none, returnValue, logs }) <$>
        c.contracts.send sender target ⟨method, args⟩ := by
  show (c.send sender target method args).1 = _
  unfold send
  cases c.contracts.send sender target ⟨method, args⟩ <;> rfl

theorem send_of_answer {receipt : Receipt}
    (answered : c.answer (.send sender target method args) = .ok receipt) :
    ∃ after result,
      c.contracts.send sender target ⟨method, args⟩ = .ok (after, result, receipt.logs) := by
  rw [answer_send] at answered
  obtain ⟨⟨after, result, logs⟩, sent, rfl⟩ := except_map_eq_ok.mp answered
  exact ⟨after, result, sent⟩

/-- Whatever a chain is asked for, it does not fail on the way. -/
theorem delivered_answer (c : Chain) (r : Request) : Delivered (c.answer r) := by
  cases r with
  | deploy sender kind args =>
    rw [answer_deploy]
    exact (Contract.delivered_create _ kind sender).map _
  | send sender target method args =>
    rw [answer_send]
    exact (c.contracts.delivered_send _ sender target).map _

end Chain

/-! ## Messages of commands -/

namespace Act

variable {α : Type} {w : World} {sender : Address} {family : Family}

/-- To act is to send a message, which contracts of the family know, to a contract of the world. -/
def Sends (x : Act World) (w : World) (sender : Address) (family : Family) (target : Address)
    (p : Params) : Prop :=
  p.method ∈ family.methods ∧
    ∃ description, x = w.send sender target family p.method p.values description

/-- The act fails before there is anything to send, or it sends a message. -/
def SendsOnce (x : Act World) (w : World) (sender : Address) (family : Family) : Prop :=
  (∃ e : ScenarioError, e.Plain ∧ x = throw e) ∨ ∃ target p, x.Sends w sender family target p

theorem sendsOnce_send {target : Address} {method description : String} {params : List Abi}
    (known : method ∈ family.methods) :
    (w.send sender target family method params description).SendsOnce w sender family :=
  .inr ⟨target, ⟨method, params⟩, known, description, rfl⟩

theorem sendsOnce_ask {y : Except ScenarioError α} {g : α → Act World} (plain : Plain y)
    (rest : ∀ a, (g a).SendsOnce w sender family) :
    (do g (← ofExcept y)).SendsOnce w sender family := by
  cases y with
  | error e => exact .inl ⟨e, plain e rfl, rfl⟩
  | ok a => exact rest a

/-- A message can give a number if it has an encoding. -/
theorem sendsOnce_number {args : Args} {name : String} {g : Number → Abi → Act World}
    (rest : ∀ n encoded, (g n encoded).SendsOnce w sender family) :
    (do
      let n ← ofExcept (args.number name)
      let encoded ← ofExcept (Value.number n).encode
      g n encoded).SendsOnce w sender family :=
  sendsOnce_ask (args.plain_number name) fun n => sendsOnce_ask (Value.number n).plain_encode (rest n)

end Act

namespace Command

open Act

/-- Apart from the keyword of the deployments, the commands of the protocol's families send
    messages. -/
theorem sendsOnce_perform {family : Family} (protocol : family = .controller ∨ family = .market)
    {d : Shape} (member : d ∈ (CommandTable.family family).shapes)
    (leaf : d.handler.delegates = false)
    {run : World → Address → CommandTable → Event → Act World} {w : World} {sender : Address}
    {args : Args} : (d.handler.perform run w sender args).SendsOnce w sender family := by
  generalize command : d.handler = c at leaf
  rcases protocol with rfl | rfl
  · have handlers : ∀ d ∈ (CommandTable.family .controller).shapes, d.handler ∈
        [inTable (.deploy .controller) "params", setCloseFactor, supportMarket,
          setCollateralFactor, setPendingAdmin, acceptAdmin] := by
      decide
    have one := command ▸ handlers d member
    simp only [List.mem_cons, List.not_mem_nil, or_false] at one
    rcases one with rfl | rfl | rfl | rfl | rfl | rfl
    · cases leaf
    · exact sendsOnce_ask (args.plain_address _) fun _ => sendsOnce_number fun _ _ =>
        sendsOnce_send (by decide)
    · exact sendsOnce_ask (args.plain_address _) fun _ =>
        sendsOnce_ask (args.plain_address _) fun _ => sendsOnce_send (by decide)
    · exact sendsOnce_ask (args.plain_address _) fun _ =>
        sendsOnce_ask (args.plain_address _) fun _ => sendsOnce_number fun _ _ =>
          sendsOnce_send (by decide)
    · exact sendsOnce_ask (args.plain_address _) fun _ =>
        sendsOnce_ask (args.plain_address _) fun _ => sendsOnce_send (by decide)
    · exact sendsOnce_ask (args.plain_address _) fun _ => sendsOnce_send (by decide)
  · have handlers : ∀ d ∈ (CommandTable.family .market).shapes, d.handler ∈
        [inTable (.deploy .market) "params", mint, redeem] := by
      decide
    have one := command ▸ handlers d member
    simp only [List.mem_cons, List.not_mem_nil, or_false] at one
    rcases one with rfl | rfl | rfl
    · cases leaf
    · exact sendsOnce_ask (args.plain_address _) fun _ => sendsOnce_number fun _ _ =>
        sendsOnce_send (by decide)
    · exact sendsOnce_ask (args.plain_address _) fun _ => sendsOnce_number fun _ _ =>
        sendsOnce_send (by decide)

theorem sends_mint {run : World → Address → CommandTable → Event → Act World} {w : World}
    {sender market : Address} {args : Args} {amount : Number} {n : Int}
    (target : args.address "pToken" = .ok market) (given : args.number "amount" = .ok amount)
    (whole : amount.toInt? = some n) :
    (mint.perform run w sender args).Sends w sender .market market ⟨"mint", [.number n]⟩ := by
  have encoded : (Value.number amount).encode = .ok (.number n) := by rw [Value.encode, whole]
  refine ⟨show "mint" ∈ Family.market.methods by decide,
    s!"{w.nameOf sender} minted {amount.text} in {w.nameOf market}", ?_⟩
  show sendMint w sender args = _
  unfold sendMint
  rw [target, given, ask_ok, ask_ok, encoded, ask_ok]

end Command

/-! ## Failures of commands -/

namespace World

section Failures

variable {w : World} {sender target : Address} {family : Family} {p : Params}
  {stage : Stage} {h : Handle} {receipt : Receipt}

/-- The failure that a receipt tells of shows under the names that the contract has refused under. -/
theorem surfaces_send (message : p.method ∈ family.methods) (known : w.contract target = .ok h)
    (answered : stage.chain.answer (.send sender h.address p.method p.values) = .ok receipt)
    (failed : receipt.log? "Failure" ≠ none) :
    ∃ c error info detail shown, stage.chain.contracts.get? h.address = some c ∧
      c.family = family ∧ c.RefusesWith (stage.chain.contracts.erase h.address) ⟨h.address, sender⟩
        p error info (detail : Nat) ∧
      Detail error detail shown ∧
      ∀ description, ∃ r after,
        (w.send sender target family p.method p.values description).Ends stage r after ∧
          w.Surfaces (.failure error info shown) r := by
  obtain ⟨log, told⟩ := Option.ne_none_iff_exists'.mp failed
  have event : log.event = "Failure" := by simpa using List.find?_some told
  obtain ⟨_, _, sent⟩ := Chain.send_of_answer answered
  obtain ⟨c, error, info, detail, shown, here, method, refuses, isDetail, read⟩ :=
    Ledger.refusesWith_of_send sent (List.mem_of_find?_eq_some told) event
  have same : c.family = family := Family.eq_of_mem_methods _ method message
  refine ⟨c, error, info, detail, shown, here, same, refuses, isDetail, fun description => ?_⟩
  have outcome : sentOutcome family (.ok receipt) = .error (.failure error info shown) := by
    rw [← read, same]
    simp only [sentOutcome, told]
  obtain ⟨r, after, ends, surfaces⟩ := @surfaces_record w
    { stage with chain := (stage.chain.send sender h.address p.method p.values).2 } description
    { description := h.callText p.method p.values, outcome := sentOutcome family (.ok receipt),
      receipt := some receipt } (.failure error info shown) (by rw [outcome]; rfl)
  exact ⟨r, after, (ends_send known (Prod.ext answered rfl)).mpr ends, surfaces⟩

variable {e : Event} {d : Deed} {shape : Command.Shape} {args : Args}

/-- A command of the protocol fails before anything is sent, or it sends one message.  If the receipt
    of the message tells a failure, the contract has refused under two names of its family, which are
    no numbers; under these names, and with the name of what a controller has refused before, the
    failure is the error of the command or is put into the log.  No answer of a chain is that
    something failed on the way, and no deployment tells a failure. -/
theorem failures_surface_by_name (protocol : family = .controller ∨ family = .market)
    (member : shape ∈ (CommandTable.family family).shapes)
    (found : (w.deed stage.chain e.depth sender .topLevel e).Ends (.ok d))
    (task : d.task = .command shape.handler args) :
    ((∃ error : ScenarioError, error.Plain ∧ w.command sender e stage = (.error error, stage)) ∨
      ∃ target p, d.act.Sends d.world d.sender family target p) ∧
    (∀ target p h receipt, d.act.Sends d.world d.sender family target p →
      w.contract target = .ok h →
      stage.chain.answer (.send d.sender h.address p.method p.values) = .ok receipt →
      receipt.log? "Failure" ≠ none →
      ∃ c error info detail shown, stage.chain.contracts.get? h.address = some c ∧
        c.family = family ∧
        (∀ error' info' detail',
          c.RefusesWith (stage.chain.contracts.erase h.address) ⟨h.address, d.sender⟩ p error' info'
            detail' ↔ error' = error ∧ info' = info ∧ detail' = (detail : Nat)) ∧
        error ∈ family.failures.errors ∧ info ∈ family.failures.infos ∧
        (∀ n : Nat, error ≠ toString n ∧ info ≠ toString n) ∧
        Detail error detail shown ∧
        w.Surfaces (.failure error info shown) (w.command sender e stage).1) ∧
    (∀ r message, stage.chain.answer r ≠ .error (.transport message)) ∧
    ∀ sender kind params receipt, stage.chain.answer (.deploy sender kind params) = .ok receipt →
      receipt.log? "Failure" = none := by
  obtain ⟨sound, on, within⟩ := deed_within found
  refine ⟨?_, ?_, fun r => stage.chain.delivered_answer r, ?_⟩
  · obtain ⟨_, u, account⟩ := d
    cases task
    have once : (Deed.act ⟨.command shape.handler args, u, account⟩).SendsOnce u account family := by
      show (shape.handler.perform (fun _ _ _ _ => Act.exhausted) u account args).SendsOnce ..
      exact Command.sendsOnce_perform protocol member sound.2
    rcases once with ⟨error, plain, fails⟩ | sends
    · exact .inl ⟨error, plain, command_of_deed (r := .error error) found
        (fails ▸ Act.ends_throw.mpr ⟨rfl, rfl⟩)⟩
    · exact .inr sends
  · rintro target p h receipt ⟨message, description, acts⟩ known answered failed
    replace known : d.world.contract target = .ok h := by
      rw [within]
      exact known
    obtain ⟨c, error, info, detail, shown, here, same, refuses, isDetail, shows⟩ :=
      surfaces_send message known answered failed
    obtain ⟨r, after, ends, surfaces⟩ := shows description
    subst same
    obtain ⟨hasError, hasInfo⟩ := refuses.mem
    rw [← acts] at ends
    rw [within] at surfaces
    refine ⟨c, error, info, detail, shown, here, rfl, fun error' info' detail' => ⟨?_, ?_⟩, hasError,
      hasInfo, fun n => ⟨?_, ?_⟩, isDetail, ?_⟩
    · exact refuses.unique
    · rintro ⟨rfl, rfl, rfl⟩
      exact refuses
    · exact FailureFamily.ne_toString (List.mem_append_left _ hasError) n
    · exact FailureFamily.ne_toString (List.mem_append_right _ hasInfo) n
    · rw [command_of_deed found ends]
      exact surfaces.withDryRun
  · intro sender kind params receipt answered
    rw [Chain.answer_deploy] at answered
    obtain ⟨_, -, rfl⟩ := except_map_eq_ok.mp answered
    rfl

end Failures

section Unlisted

/-- A script that makes a market that no controller lists. -/
def unlisted : List Statement :=
  [["Controller", "Deploy"],
    ["InterestRateModel", "Deploy", "Fixed", "IRM", "0.05"],
    ["Erc20", "Deploy", "Standard", "ZRX", "Zero"],
    ["PToken", "Deploy", "Standard", "pZRX", "Market", "ZRX", "Controller", "IRM", "1", "0.1",
      "8"]].map fun words => { event := .words words, span := default }

/-- Another account mints in the market. -/
def mintFive : Event :=
  .list [.word "From", .word "Torrey", .list [.word "PToken", .word "pZRX", .word "Mint", .word "5"]]

/-- What is asked for by `mintFive`. -/
def mintFiveDeed (w : World) (chain : Chain) : Option (Command × Address × Address × Int) := do
  let d ← (← (w.deed chain mintFive.depth ⟨1⟩ .topLevel mintFive).run).toOption
  match d.task with
  | .skip _ => none
  | .command c args =>
    let market ← (args.address "pToken").toOption
    return (c, d.sender, market, ← (← (args.number "amount").toOption).toInt?)

theorem unlisted_run :
    let ended := run false unlisted adminAndTorrey { chain := {} }
    mintFiveDeed ended.1.world ended.2.chain =
      some (.mint, ⟨2⟩, Chain.contractAddress ⟨1⟩ 3, 5) ∧
    (ended.1.world.contract (Chain.contractAddress ⟨1⟩ 3)).toOption.map (·.address) =
      some (Chain.contractAddress ⟨1⟩ 3) ∧
    (ended.2.chain.answer (.send ⟨2⟩ (Chain.contractAddress ⟨1⟩ 3) "mint" [.number 5])).toOption.map
      (fun receipt => (receipt.log? "Failure").isSome) = some true ∧
    (match (ended.1.world.command ⟨1⟩ mintFive ended.2).1 with
      | .error (.invokation e) => some e
      | _ => none) = some (.failure "CONTROLLER_REJECTION" "MINT_CONTROLLER_REJECTION"
        "MARKET_NOT_LISTED") := by
  decide +kernel

theorem sends_mintFive {w : World} {chain : Chain} {sender market : Address} {n : Int}
    (asked : mintFiveDeed w chain = some (.mint, sender, market, n)) :
    ∃ d args, (w.deed chain mintFive.depth ⟨1⟩ .topLevel mintFive).Ends (.ok d) ∧
      d.task = .command .mint args ∧ d.sender = sender ∧
      d.act.Sends d.world d.sender .market market ⟨"mint", [.number n]⟩ := by
  simp only [mintFiveDeed, Option.bind_eq_bind, Option.bind_eq_some_iff,
    except_toOption_eq_some] at asked
  obtain ⟨_, found, ⟨task, u, account⟩, rfl, asked⟩ := asked
  cases task with
  | skip e => cases asked
  | command c args =>
    simp only [Option.bind_eq_some_iff, except_toOption_eq_some] at asked
    obtain ⟨market, target, amount, given, n, whole, same⟩ := asked
    cases same
    refine ⟨_, args, found, rfl, rfl, ?_⟩
    show (Command.mint.perform (fun _ _ _ _ => Act.exhausted) u sender args).Sends ..
    exact Command.sends_mint target given whole

/-- The market of the script is not listed, so the account that mints in it is told so by name. -/
theorem unlisted_mint_fails :
    let ended := run false unlisted adminAndTorrey { chain := {} }
    ∃ shape args d target p h receipt, ∃ c : Contract, ∃ detail,
      shape ∈ (CommandTable.family .market).shapes ∧
      (ended.1.world.deed ended.2.chain mintFive.depth ⟨1⟩ .topLevel mintFive).Ends (.ok d) ∧
      d.task = .command shape.handler args ∧ d.act.Sends d.world d.sender .market target p ∧
      ended.1.world.contract target = .ok h ∧
      ended.2.chain.answer (.send d.sender h.address p.method p.values) = .ok receipt ∧
      receipt.log? "Failure" ≠ none ∧
      c.RefusesWith (ended.2.chain.contracts.erase h.address) ⟨h.address, d.sender⟩ p
        "CONTROLLER_REJECTION" "MINT_CONTROLLER_REJECTION" detail ∧
      (ended.1.world.command ⟨1⟩ mintFive ended.2).1 = .error (.invokation
        (.failure "CONTROLLER_REJECTION" "MINT_CONTROLLER_REJECTION" "MARKET_NOT_LISTED")) := by
  have facts := unlisted_run
  generalize run false unlisted adminAndTorrey { chain := {} } = ended at facts ⊢
  dsimp only
  obtain ⟨asked, isHandle, tells, evaluated⟩ := facts
  have mints : ∃ shape ∈ (CommandTable.family .market).shapes, shape.handler = .mint := by decide
  obtain ⟨shape, member, handler⟩ := mints
  obtain ⟨d, args, found, task, sender, sends⟩ := sends_mintFive asked
  obtain ⟨h, known, address⟩ := Option.map_eq_some_iff.mp isHandle
  replace known := except_toOption_eq_some.mp known
  obtain ⟨receipt, answered, tells⟩ := Option.map_eq_some_iff.mp tells
  replace answered := except_toOption_eq_some.mp answered
  rw [← address, ← sender] at answered
  have failed : receipt.log? "Failure" ≠ none := Option.isSome_iff_ne_none.mp tells
  rw [← handler] at task
  obtain ⟨-, surface, -⟩ := failures_surface_by_name (.inr rfl) member found task
  obtain ⟨c, error, info, detail, shown, -, -, refuses, -, -, -, -, surfaces⟩ :=
    surface _ _ h receipt sends known answered failed
  generalize (ended.1.world.command ⟨1⟩ mintFive ended.2).1 = result at surfaces evaluated ⊢
  cases surfaces with
  | raised =>
    cases evaluated
    exact ⟨shape, args, d, _, _, h, receipt, c, detail, member, found, task, sends, known, answered,
      failed, (refuses _ _ _).mpr ⟨rfl, rfl, rfl⟩, rfl⟩
  | recorded => cases evaluated

end Unlisted

end World

end MarketScript
