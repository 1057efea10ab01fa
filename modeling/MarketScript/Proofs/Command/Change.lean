import MarketScript.Proofs.Command.Deed

/-!
# What commands change

A command that succeeds has put one action into the log, and of the rest of the world it has changed
only what it is there to change: an alias, the permission to fail, or the contract of one name.
-/

namespace MarketScript

/-- A binding, and the names of the further fields that the data of the contract has. -/
structure Registration extends Binding where
  fields : List String
deriving DecidableEq

namespace Command

/-- Whether a command binds a contract. -/
def deploys : Command → Bool
  | deployController _ | deployRegistry | deployRateModel | deployToken | deployMarket _
  | bindExisting _ _ => true
  | _ => false

/-- Only the `Deploy` commands of the families bind contracts. -/
theorem deploys_iff_of_mem (table : CommandTable) :
    ∀ d ∈ table.shapes, d.handler.deploys = true ↔
      (match table with
        | .deploy _ => True
        | .family .registry => d.name = "Deploy"
        | _ => False) := by
  cases table with
  | topLevel | assertions => decide
  | family family | deploy family => cases family <;> decide

/-- Only the `Alias` command names addresses. -/
theorem nameAddress_iff_of_mem (table : CommandTable) :
    ∀ d ∈ table.shapes, d.handler = .nameAddress ↔ table = .topLevel ∧ d.name = "Alias" := by
  cases table with
  | topLevel | assertions => decide
  | family family | deploy family => cases family <;> decide

/-- The settings after a command that carries out no other. -/
def settings (c : Command) (args : Args) (s : Settings) : Settings :=
  match c with
  | nameAddress =>
    match args.string "name", args.address "address" with
    | .ok name, .ok address => s.setAlias name address
    | .error _, _ | _, .error _ => s
  | allowFailures => { s with allowFailures := true }
  | _ => s

/-- The names of the fields that the data of a contract has besides the usual ones, if the command
    binds it. -/
def fieldNames : Command → List String
  | deployRateModel => ["borrowRate"]
  | deployToken => ["symbol", "fullName", "decimals"]
  | deployMarket _ => ["symbol", "fullName", "underlying", "decimals"]
  | _ => []

/-- The registration that a command has made, seen from the world after it. -/
def registration? (c : Command) (args : Args) (after : World) : Option Registration :=
  (c.binding? args after).map fun b => { toBinding := b, fields := c.fieldNames }

/-- A command that has registered something binds contracts. -/
theorem deploys_of_registration {c : Command} {args : Args} {after : World} {r : Registration}
    (registered : c.registration? args after = some r) : c.deploys = true := by
  cases c <;> first | rfl | cases registered

end Command

namespace Value

/-- What a contract takes is not data with fields. -/
theorem isData_of_encode {v : Value} {a : Abi} (encoded : v.encode = .ok a) :
    ContractIndex.isData v = false := by
  cases v with
  | map fields => cases encoded
  | _ => rfl

end Value

namespace World

/-- The contracts and the index of a world after a registration, if there was one.  None of the
    further fields is itself data with fields. -/
inductive Entered (w : World) : Option Registration → World → Prop
  | nothing {w' : World} (contracts : w'.contracts = w.contracts) (index : w'.index = w.index) :
      Entered w none w'
  | contract {w' : World} {r : Registration} {kind description : String}
      {fields : List (String × Value)} (names : fields.map (·.1) = r.fields)
      (plain : ∀ f ∈ fields, ContractIndex.isData f.2 = false)
      (contracts : w'.contracts = w.contracts.insert r.address ⟨r.name, kind, r.address⟩)
      (index : w'.index = (w.register ⟨r.name, kind, r.address⟩ (r.family.paths r.name)
        (Handle.data ⟨r.name, kind, r.address⟩ description fields)).index) :
      Entered w (some r) w'

/-- A world with one more action, other settings, and a registration if there is one. -/
structure Became (w : World) (settings : Settings) (r : Option Registration) (w' : World) :
    Prop where
  action : ∃ a, w'.actions = w.actions ++ [a]
  runId : w'.runId = w.runId
  accounts : w'.accounts = w.accounts
  settings : w'.settings = settings
  entered : w.Entered r w'

variable {w w' : World} {s : Settings} {last : Option (Invokation Value)} {before after : Stage}

theorem Logs.became {i : Option (Invokation Value)} {said : List Line}
    (logged : { w with settings := s, lastInvokation := last }.Logs i said before after w') :
    w.Became s none w' := by
  obtain ⟨description, rfl, -⟩ := logged
  exact ⟨⟨_, rfl⟩, rfl, rfl, rfl, .nothing rfl rfl⟩

theorem Became.register {family : Family} {name kind description : String} {address : Address}
    {fields : List (String × Value)} {names : List String} (h : w.Became s none w')
    (named : fields.map (·.1) = names) (plain : ∀ f ∈ fields, ContractIndex.isData f.2 = false) :
    w.Became s (some ⟨⟨family, name, address⟩, names⟩)
      (w'.register ⟨name, kind, address⟩ (family.paths name)
        (Handle.data ⟨name, kind, address⟩ description fields)) := by
  cases h.entered with
  | nothing contracts index =>
    let handle : Handle := ⟨name, kind, address⟩
    have known : (w'.register handle (family.paths name) (handle.data description fields)).contracts =
        w.contracts.insert address handle := by
      rw [← contracts]
      rfl
    have indexed : (w'.register handle (family.paths name) (handle.data description fields)).index =
        (w.register handle (family.paths name) (handle.data description fields)).index := by
      rw [World.register, World.register, index]
    exact ⟨h.action, h.runId, h.accounts, h.settings, .contract named plain known indexed⟩

end World

namespace Act

variable {α : Type}

/-- Every world or other answer that the act comes to has a property. -/
def Yields (x : Act α) (P : α → Prop) : Prop :=
  ∀ before a after, x.Ends before (.ok a) after → P a

variable {β : Type} {P : α → Prop}

theorem yields_ask {y : Except ScenarioError β} {g : β → Act α}
    (rest : ∀ b, y = .ok b → (g b).Yields P) : (do g (← ofExcept y)).Yields P := by
  intro before a after ends
  rcases ends_ask.mp ends with ⟨_, -, impossible, -⟩ | ⟨b, answer, ends⟩
  · cases impossible
  · exact rest b answer _ _ _ ends

theorem yields_bind {x : Act β} {f : β → Act α} (rest : ∀ b, (f b).Yields P) :
    (x >>= f).Yields P := by
  intro before a after ends
  rcases ends_bind.mp ends with ⟨_, -, impossible⟩ | ⟨b, middle, -, ends⟩
  · cases impossible
  · exact rest b _ _ _ ends

end Act

namespace World

open Act

variable {w : World} {sender : Address} {s : Settings} {last : Option (Invokation Value)}

theorem yields_addAction {description : String} :
    (addAction { w with settings := s, lastInvokation := last } description).Yields
      (w.Became s none) := by
  intro before w' after ends
  obtain ⟨_, same, logged, -⟩ := log_done ends
  cases same
  exact logged.became

theorem yields_of_tells {x : Act World} (tells : x.Tells w) :
    x.Yields (w.Became w.settings none) := by
  intro before w' after ends
  rcases tells _ _ _ ends with ⟨_, -, impossible, -⟩ | ⟨text, logged⟩
  · cases impossible
  · exact yields_addAction _ _ _ logged

theorem yields_send {target : Address} {family : Family} {method : String} {args : List Abi}
    {description : String} :
    (w.send sender target family method args description).Yields (w.Became w.settings none) := by
  intro before w' after ends
  rcases send_cases ends with ⟨_, -, impossible, -⟩ |
    ⟨_, i, -, -, -, ⟨_, impossible, -⟩ | ⟨_, same, -, logged⟩⟩
  · cases impossible
  · cases impossible
  · cases same
    exact logged.became

theorem yields_deploy {family : Family} {name kind : String} {args : List Abi}
    {fields : List (String × Value)} (names : List String) (named : fields.map (·.1) = names)
    (plain : ∀ f ∈ fields, ContractIndex.isData f.2 = false) :
    (w.deploy sender family name kind args fields).Yields fun w' =>
      w.Became w.settings
        (w'.deployed?.map fun address => ⟨⟨family, name, address⟩, names⟩) w' := by
  intro before w' after ends
  rcases deploy_cases ends with ⟨-, -, ⟨_, impossible, -⟩ | ⟨_, i, same, valueless, -, logged⟩⟩ |
    ⟨-, u, i, address, description, same, answer, logged, -⟩
  · cases impossible
  · cases same
    rw [logged.deployed?, valueless]
    exact logged.became
  · cases same
    have known : u.deployed? = some address := by
      rw [logged.deployed?, Invokation.value?, answer]
      rfl
    show Became _ _ (u.deployed?.map _) _
    rw [known]
    exact logged.became.register named plain

theorem yields_bindExisting {family : Family} {name : String} {address : Address} :
    (w.bindExisting family name address).Yields
      (w.Became w.settings (some ⟨⟨family, name, address⟩, []⟩)) := by
  intro before w' after ends
  rcases bindExisting_cases ends with ⟨-, impossible, -⟩ |
    ⟨_, -, ⟨-, impossible, -⟩ | ⟨-, _, _, same, ⟨_, rfl, -⟩, -⟩⟩
  · cases impossible
  · cases impossible
  · cases same
    have named : ([] : List (String × Value)).map (·.1) = [] := rfl
    exact ⟨⟨_, rfl⟩, rfl, rfl, rfl, .contract named (by simp) rfl rfl⟩

end World

namespace Command

open World Act

variable {w : World} {sender : Address} {args : Args}

/-- The registration of a command that is to bind a name. -/
theorem registration?_of_target {c : Command} {family : Family} {name : String}
    (target : c.target? args = some (family, name)) (after : World) :
    c.registration? args after =
      (c.bound? args after).map fun address => ⟨⟨family, name, address⟩, c.fieldNames⟩ := by
  rw [registration?, binding?_of_target target, Option.map_map]
  rfl

/-- A command that carries out no other changes the settings and the contracts as it is to. -/
theorem yields_perform {run : World → Address → CommandTable → Event → Act World} (c : Command)
    (leaf : c.delegates = false) :
    (c.perform run w sender args).Yields fun w' =>
      w.Became (c.settings args w.settings) (c.registration? args w') w' := by
  cases c with
  | fromAccount | dryRun | inTable => cases leaf
  | read | print => exact yields_ask fun _ _ => yields_addAction
  | nameAddress =>
    refine yields_ask fun name named => yields_ask fun address given => ?_
    simp only [settings, named, given]
    exact yields_addAction
  | allowFailures => exact yields_addAction
  | inspect => exact yields_bind fun _ => yields_addAction
  | assertEqual => exact yields_of_tells tells_assertEqualTo
  | assertCondition expected => exact yields_of_tells (tells_assertBool expected)
  | assertSuccess => exact yields_of_tells tells_assertSucceeded
  | assertFailure => exact yields_of_tells tells_assertFailed
  | assertRevert => exact yields_of_tells tells_assertReverted
  | deployController kind =>
    refine yields_ask fun name named => ?_
    have target : (deployController kind).target? args = some (.controller, name) := by
      simp [target?, named, Except.toOption]
    simp only [registration?_of_target target]
    exact yields_deploy [] rfl (by simp)
  | deployRegistry =>
    have target : deployRegistry.target? args = some (.registry, "Registry") := rfl
    simp only [registration?_of_target target]
    exact yields_deploy [] rfl (by simp)
  | deployRateModel =>
    refine yields_ask fun name named => yields_ask fun rate _ => yields_ask fun encoded coded => ?_
    have target : deployRateModel.target? args = some (.rateModel, name) := by
      simp [target?, named, Except.toOption]
    simp only [registration?_of_target target]
    refine yields_deploy ["borrowRate"] rfl ?_
    simpa using Value.isData_of_encode coded
  | deployToken =>
    refine yields_ask fun symbol named => yields_ask fun name _ => yields_ask fun decimals _ =>
      yields_ask fun encoded coded => ?_
    have target : deployToken.target? args = some (.token, symbol) := by
      simp [target?, named, Except.toOption]
    simp only [registration?_of_target target]
    refine yields_deploy ["symbol", "fullName", "decimals"] rfl ?_
    simpa [ContractIndex.isData] using Value.isData_of_encode coded
  | deployMarket kind =>
    refine yields_ask fun symbol named => yields_ask fun name _ => yields_ask fun underlying _ =>
      yields_ask fun decimals _ => ?_
    iterate 5 refine yields_ask fun _ _ => ?_
    refine yields_ask fun encoded coded => ?_
    have target : (deployMarket kind).target? args = some (.market, symbol) := by
      simp [target?, named, Except.toOption]
    simp only [registration?_of_target target]
    refine yields_deploy ["symbol", "fullName", "underlying", "decimals"] rfl ?_
    simpa [ContractIndex.isData] using Value.isData_of_encode coded
  | bindExisting family nameArg =>
    refine yields_ask fun name named => yields_ask fun address given => ?_
    have target : (bindExisting family nameArg).target? args = some (family, name) := by
      simp [target?, named, Except.toOption]
    simp only [registration?_of_target target, bound?, given, Except.toOption, Option.map_some]
    exact yields_bindExisting
  | acceptAdmin => exact yields_ask fun _ _ => yields_send
  | supportMarket | setPendingAdmin => exact yields_ask fun _ _ => yields_ask fun _ _ => yields_send
  | setCloseFactor | mint | redeem =>
    exact yields_ask fun _ _ => yields_ask fun _ _ => yields_ask fun _ _ => yields_send
  | setCollateralFactor | tokenMessage =>
    exact yields_ask fun _ _ => yields_ask fun _ _ => yields_ask fun _ _ => yields_ask fun _ _ =>
      yields_send

end Command

namespace Task

/-- The settings after a task. -/
def settings (t : Task) (s : Settings) : Settings :=
  match t with
  | skip _ => s
  | command c args => c.settings args s

/-- The registration that a task has made, seen from the world after it. -/
def registration? (t : Task) (after : World) : Option Registration :=
  match t with
  | skip _ => none
  | command c args => c.registration? args after

theorem registration?_withDryRun (t : Task) (w : World) (on : Bool) :
    t.registration? (w.withDryRun on) = t.registration? w := by
  cases t <;> rfl

/-- A task changes the settings only by allowing failures or by naming an address. -/
theorem settings_cases (t : Task) (s : Settings) :
    t.settings s = s ∨ t.settings s = { s with allowFailures := true } ∨
    ∃ args name address, t = .command .nameAddress args ∧ args.string "name" = .ok name ∧
      args.address "address" = .ok address ∧ t.settings s = s.setAlias name address := by
  cases t with
  | skip e => exact .inl rfl
  | command c args =>
    cases c with
    | allowFailures => exact .inr (.inl rfl)
    | nameAddress =>
      cases named : args.string "name" with
      | error e => exact .inl (by simp [settings, Command.settings, named])
      | ok name =>
        cases given : args.address "address" with
        | error e => exact .inl (by simp [settings, Command.settings, named, given])
        | ok address =>
          refine .inr (.inr ⟨args, name, address, rfl, named, given, ?_⟩)
          simp [settings, Command.settings, named, given]
    | _ => exact .inl rfl

theorem settings_kept (t : Task) (s : Settings) :
    (t.settings s).network = s.network ∧ (t.settings s).defaultFrom = s.defaultFrom ∧
      ((t.settings s).allowFailures = s.allowFailures ∨ (t.settings s).allowFailures = true) := by
  rcases t.settings_cases s with same | same | ⟨_, _, _, -, -, -, same⟩
  · rw [same]
    exact ⟨rfl, rfl, .inl rfl⟩
  · rw [same]
    exact ⟨rfl, rfl, .inr rfl⟩
  · rw [same]
    exact ⟨rfl, rfl, .inl rfl⟩

theorem aliases_settings (t : Task) (s : Settings) :
    (t.settings s).aliases = s.aliases ∨
    ∃ args name address, t = .command .nameAddress args ∧ args.string "name" = .ok name ∧
      args.address "address" = .ok address ∧
      (t.settings s).aliases = s.aliases.insert (foldCase name) (name, address) := by
  rcases t.settings_cases s with same | same | ⟨args, name, address, task, named, given, same⟩
  · rw [same]
    exact .inl rfl
  · rw [same]
    exact .inl rfl
  · rw [same]
    exact .inr ⟨args, name, address, task, named, given, rfl⟩

theorem deploys_of_registration {t : Task} {after : World} {r : Registration}
    (registered : t.registration? after = some r) :
    ∃ c args, t = .command c args ∧ c.deploys = true ∧ c.registration? args after = some r := by
  cases t with
  | skip e => cases registered
  | command c args => exact ⟨c, args, rfl, Command.deploys_of_registration registered, registered⟩

end Task

theorem Deed.yields_act {d : Deed} (sound : d.task.Sound) :
    d.act.Yields fun w' =>
      d.world.Became (d.task.settings d.world.settings) (d.task.registration? w') w' := by
  obtain ⟨task, w, sender⟩ := d
  cases task with
  | skip e => exact World.yields_addAction
  | command c args =>
    show (c.perform (fun _ _ _ _ => Act.exhausted) w sender args).Yields fun w' =>
      w.Became (c.settings args w.settings) (c.registration? args w') w'
    exact Command.yields_perform c sound.2

namespace World

/-- What a command that succeeded has made of a world, told from the deed that it came to. -/
structure ActedOnce (w : World) (d : Deed) (w' : World) : Prop where
  /-- The log has one action more. -/
  action : ∃ a, w'.actions = w.actions ++ [a]
  runId : w'.runId = w.runId
  accounts : w'.accounts = w.accounts
  network : w'.settings.network = w.settings.network
  defaultFrom : w'.settings.defaultFrom = w.settings.defaultFrom
  dryRun : w'.settings.dryRun = w.settings.dryRun
  /-- Failures that were allowed stay allowed. -/
  allowFailures : w'.settings.allowFailures = w.settings.allowFailures ∨
    w'.settings.allowFailures = true
  /-- Only a command that names an address changes the aliases, and only the one that it names. -/
  aliases : w'.settings.aliases = w.settings.aliases ∨
    ∃ args name address, d.task = .command .nameAddress args ∧ args.string "name" = .ok name ∧
      args.address "address" = .ok address ∧
      w'.settings.aliases = w.settings.aliases.insert (foldCase name) (name, address)
  /-- Only a deployment that succeeded changes the contracts, and it registers the one that it
      binds. -/
  contracts : (w'.contracts = w.contracts ∧ w'.index = w.index) ∨
    ∃ c args r, d.task = .command c args ∧ c.deploys = true ∧ c.registration? args w' = some r ∧
      w.Entered (some r) w'

theorem Entered.withDryRun {w w' : World} {r : Option Registration} {on : Bool}
    (h : (w.withDryRun on).Entered r w') (on' : Bool) : w.Entered r (w'.withDryRun on') := by
  cases h with
  | nothing contracts index => exact .nothing contracts index
  | contract names plain contracts index => exact .contract names plain contracts index

/-- A command that succeeds comes to a deed, whatever it is wrapped in, and has acted once. -/
theorem command_acts_once {w w' : World} {sender : Address} {e : Event} {stage stage' : Stage}
    (done : w.command sender e stage = (.ok w', stage')) :
    ∃ d, (w.deed stage.chain e.depth sender .topLevel e).Ends (.ok d) ∧ w.ActedOnce d w' := by
  rcases command_cases done with ⟨_, impossible, -⟩ | ⟨d, r, found, ⟨sound, on, within⟩, acted, same⟩
  · cases impossible
  cases r with
  | error error => cases same
  | ok v =>
    cases same
    have became := Deed.yields_act sound _ _ _ acted
    rw [within] at became
    have settings : v.settings = d.task.settings (w.withDryRun on).settings := became.settings
    obtain ⟨network, defaultFrom, allowFailures⟩ :=
      d.task.settings_kept (w.withDryRun on).settings
    have aliases := d.task.aliases_settings (w.withDryRun on).settings
    rw [← settings] at network defaultFrom allowFailures aliases
    have entered := became.entered.withDryRun w.settings.dryRun
    rw [← Task.registration?_withDryRun _ _ w.settings.dryRun] at entered
    refine ⟨d, found, became.action, became.runId, became.accounts, network, defaultFrom, rfl,
      allowFailures, aliases, ?_⟩
    cases registered : d.task.registration? (v.withDryRun w.settings.dryRun) with
    | none =>
      rw [registered] at entered
      cases entered with
      | nothing contracts index => exact .inl ⟨contracts, index⟩
    | some r =>
      rw [registered] at entered
      obtain ⟨c, args, task, deploys, byCommand⟩ := Task.deploys_of_registration registered
      exact .inr ⟨c, args, r, task, deploys, byCommand, entered⟩

section Nested

/-- A world of two accounts. -/
def adminAndTorrey : World := { runId := "", accounts := [⟨"Admin", ⟨1⟩⟩, ⟨"Torrey", ⟨2⟩⟩] }

/-- The deployment of a token, in a dry run and as another account. -/
def deployForTorrey : Event :=
  .list [.word "From", .word "Torrey",
    .list [.word "DryRun",
      .list [.word "Erc20", .word "Deploy", .word "Standard", .word "ZRX", .word "Zero"]]]

/-- However deep it is wrapped, the deployment is one action, and the dry run is over after it. -/
theorem deployForTorrey_acts_once :
    ∃ w stage, adminAndTorrey.command ⟨1⟩ deployForTorrey { chain := {} } = (.ok w, stage) ∧
      w.actions.map (·.description) = ["Deployed ZRX (FaucetToken)"] ∧
      w.contracts.values = [⟨"ZRX", "FaucetToken", Chain.contractAddress ⟨2⟩ 0⟩] ∧
      ∃ d, adminAndTorrey.ActedOnce d w := by
  have evaluated : (adminAndTorrey.command ⟨1⟩ deployForTorrey { chain := {} }).1.toOption.map
      (fun w => (w.actions.map (·.description), w.contracts.values)) =
      some (["Deployed ZRX (FaucetToken)"],
        [⟨"ZRX", "FaucetToken", Chain.contractAddress ⟨2⟩ 0⟩]) := by
    decide +kernel
  cases done : adminAndTorrey.command ⟨1⟩ deployForTorrey { chain := {} } with
  | mk result stage =>
    rw [done] at evaluated
    cases result with
    | error e => cases evaluated
    | ok w =>
      obtain ⟨actions, contracts⟩ := Prod.mk.inj (Option.some.inj evaluated)
      obtain ⟨d, -, once⟩ := command_acts_once done
      exact ⟨w, stage, rfl, actions, contracts, d, once⟩

end Nested

end World

end MarketScript
