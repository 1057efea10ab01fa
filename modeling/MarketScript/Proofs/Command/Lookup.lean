import MarketScript.Proofs.Command.Change

/-!
# What deployments do to names

A contract is registered under its name, and the words that meant something else still mean it.  One
name is in the way of others: the contracts named `address` stand where the index keeps the address of
the contract that has the word for its name, so the first steps of the index's paths become names too.
-/

namespace MarketScript

namespace ContractIndex

variable {index : ContractIndex} {a b c d : String} {value : Value}

/-- Of the paths of two steps an insertion at one changes no other. -/
theorem get?_insert_pair :
    (index.insert [a, b] value).get? [c, d] =
      if sameWord a c = true ∧ sameWord b d = true then some value else index.get? [c, d] := by
  have same : foldPath [a, b] = foldPath [c, d] ↔ sameWord a c = true ∧ sameWord b d = true := by
    simp [foldPath, sameWord_iff]
  split
  · rename_i equal
    rw [get?_insert, if_pos (same.mpr equal)]
  · rename_i apart
    apply get?_insert_elsewhere
    · exact fun equal => apart (same.mp equal)
    · intro step equal
      have length := congrArg List.length equal
      simp [foldPath] at length

end ContractIndex

/-- The families of which one contract has the role without a name. -/
def Family.IsRole (family : Family) : Prop := family = .controller ∨ family = .registry

namespace World

variable {w : World} {h : Handle} {value : Value}

/-- Of the paths of two steps a registration changes the one of the contract's name, and the one of
    its name on the shelf of its family, and of those of a role the fields. -/
theorem get?_register_pair (family : Family) (word step : String)
    (apart : family.IsRole → sameWord family.keyword word = false) :
    (w.register h (family.paths h.name) value).index.get? [word, step] =
      if sameWord h.name step = true ∧ family ≠ .registry ∧ sameWord family.shelf word = true then
        some value
      else if sameWord h.name step = true ∧ sameWord "Contracts" word = true then
        some (.address h.address)
      else w.index.get? [word, step] := by
  have byName (index : ContractIndex) :
      (index.insert ["Contracts", h.name] (.address h.address)).get? [word, step] =
        if sameWord "Contracts" word = true ∧ sameWord h.name step = true then
          some (.address h.address)
        else index.get? [word, step] := ContractIndex.get?_insert_pair
  have byShelf (index : ContractIndex) :
      (index.insert [family.shelf, h.name] value).get? [word, step] =
        if sameWord family.shelf word = true ∧ sameWord h.name step = true then some value
        else index.get? [word, step] := ContractIndex.get?_insert_pair
  have byRole (isRole : family.IsRole) (index : ContractIndex) :
      (index.insert [family.keyword] value).get? [word, step] = index.get? [word, step] := by
    refine ContractIndex.get?_insert_of_head fun same => ?_
    have equal := sameWord_iff.mpr same
    rw [apart isRole] at equal
    cases equal
  cases family with
  | registry =>
    show (ContractIndex.insert _ [Family.registry.keyword] value).get? [word, step] = _
    rw [byRole (.inr rfl), byName]
    simp [and_comm]
  | controller =>
    show (ContractIndex.insert (ContractIndex.insert _ [Family.controller.keyword] value)
      [Family.controller.shelf, h.name] value).get? [word, step] = _
    rw [byShelf, byRole (.inl rfl), byName]
    simp [and_comm]
  | market | token | rateModel =>
    show (ContractIndex.insert _ [_, h.name] value).get? [word, step] = _
    rw [byShelf, byName]
    simp [and_comm]

/-- What a word names without a look at the data of the contracts: an account, an alias, or the
    contract of that name. -/
def named? (w : World) (word : String) : Option Value :=
  ((w.namedAddress? word).map .address).or (w.index.get? ["Contracts", word])

theorem lookupName?_eq (w : World) (word : String) :
    w.lookupName? word = (w.named? word).or (w.index.get? [word, "address"]) := by
  unfold lookupName? named? ContractIndex.firstMatch
  cases w.namedAddress? word with
  | some a => rfl
  | none =>
    rw [Option.map_none, Option.none_or, List.findSome?_cons, List.findSome?_cons,
      List.findSome?_nil]
    cases w.index.get? ["Contracts", word] with
    | some v => rfl
    | none => cases w.index.get? [word, "address"] <;> rfl

end World

namespace Registration

/-- The registration makes a word stand for the contract that is not its name: the first step of a
    path that the contract has in the index, the next step of which is the name `address`. -/
def Exposes (r : Registration) (word : String) : Prop :=
  sameWord r.name "address" = true ∧
    (sameWord "Contracts" word = true ∨ r.family ≠ .registry ∧ sameWord r.family.shelf word = true)

/-- The word is not the name of the contract, nor the role that it takes. -/
def Other (r : Registration) (word : String) : Prop :=
  sameWord r.name word = false ∧ (r.family.IsRole → sameWord r.family.keyword word = false)

/-- A contract named `address` is not named `Contracts`, and no role is. -/
theorem other_contracts {r : Registration} (name : sameWord r.name "address" = true) :
    r.Other "Contracts" := by
  constructor
  · rw [← Bool.not_eq_true]
    intro same
    rw [sameWord_comm] at same
    have impossible := sameWord_trans same name
    revert impossible
    decide
  · intro _
    cases r.family <;> decide

end Registration

namespace Task

/-- Whether a task binds a contract. -/
def deploys : Task → Bool
  | skip _ => false
  | command c _ => c.deploys

/-- A task that binds a contract leaves the settings alone. -/
theorem settings_of_deploys {t : Task} (deploys : t.deploys = true) (s : Settings) :
    t.settings s = s := by
  cases t with
  | skip e => rfl
  | command c args => cases c <;> first | rfl | cases deploys

end Task

namespace World

variable {w w' : World} {r : Registration} {word : String}

/-- The names of contracts other than the registered one stay. -/
theorem Entered.named? (entered : w.Entered (some r) w')
    (names : w'.namedAddress? word = w.namedAddress? word) (other : r.Other word) :
    w'.named? word = w.named? word := by
  have byName : w'.index.get? ["Contracts", word] = w.index.get? ["Contracts", word] := by
    cases entered with
    | contract _ _ _ index =>
      have apart : r.family.IsRole → sameWord r.family.keyword "Contracts" = false := by
        intro _
        cases r.family <;> decide
      rw [index, get?_register_pair r.family "Contracts" word apart]
      simp [other.1]
  rw [World.named?, World.named?, names, byName]

/-- Below a word stands the address that stood there before, or the contract itself, if the
    registration exposes the word. -/
theorem Entered.get?_address (entered : w.Entered (some r) w') (other : r.Other word) :
    (¬ r.Exposes word → w'.index.get? [word, "address"] = w.index.get? [word, "address"]) ∧
    (r.Exposes word → ∃ v, w'.index.get? [word, "address"] = some v ∧
      v.addressIn = .ok r.address) := by
  cases entered with
  | contract _ _ _ index =>
    rw [index, get?_register_pair r.family word "address" other.2]
    constructor
    · intro hidden
      rw [if_neg fun exposed => hidden ⟨exposed.1, .inr exposed.2⟩,
        if_neg fun exposed => hidden ⟨exposed.1, .inl exposed.2⟩]
    · rintro ⟨name, exposed⟩
      by_cases shelf : r.family ≠ .registry ∧ sameWord r.family.shelf word = true
      · rw [if_pos ⟨name, shelf⟩]
        exact ⟨_, rfl, Handle.addressIn_data⟩
      · rw [if_neg fun exposed => shelf exposed.2, if_pos ⟨name, exposed.resolve_right shelf⟩]
        exact ⟨_, rfl, rfl⟩

/-- What another word means stays, unless the registration exposes the word and it named nothing. -/
theorem Entered.lookupName? (entered : w.Entered (some r) w')
    (names : w'.namedAddress? word = w.namedAddress? word) (other : r.Other word) :
    (¬ (r.Exposes word ∧ w.named? word = none) → w'.lookupName? word = w.lookupName? word) ∧
    (r.Exposes word → w.named? word = none →
      ∃ v, w'.lookupName? word = some v ∧ v.addressIn = .ok r.address) := by
  obtain ⟨hidden, exposed⟩ := entered.get?_address other
  rw [lookupName?_eq, lookupName?_eq, entered.named? names other]
  constructor
  · intro apart
    cases named : w.named? word with
    | some v => rfl
    | none => rw [hidden fun exposes => apart ⟨exposes, named⟩]
  · intro exposes nothing
    rw [nothing, Option.none_or]
    exact exposed exposes

/-- Where `Contracts` meant nothing, all other words keep what they mean exactly if the contract is not
    named `address`. -/
theorem Entered.lookupName?_iff (entered : w.Entered (some r) w')
    (names : ∀ word, w'.namedAddress? word = w.namedAddress? word)
    (unused : w.lookupName? "Contracts" = none) :
    (∀ word, r.Other word → w'.lookupName? word = w.lookupName? word) ↔
      sameWord r.name "address" = false := by
  constructor
  · intro stay
    rw [← Bool.not_eq_true]
    intro name
    have other := Registration.other_contracts name
    have nothing : w.named? "Contracts" = none := by
      rw [lookupName?_eq, Option.or_eq_none_iff] at unused
      exact unused.1
    obtain ⟨v, given, -⟩ :=
      (entered.lookupName? (names _) other).2 ⟨name, .inl (sameWord_self _)⟩ nothing
    rw [stay "Contracts" other, unused] at given
    cases given
  · intro plain word other
    refine (entered.lookupName? (names word) other).1 ?_
    rintro ⟨⟨name, -⟩, -⟩
    rw [plain] at name
    cases name

/-- Accounts and aliases are all that names addresses. -/
theorem namedAddress?_of_same (accounts : w'.accounts = w.accounts)
    (aliases : w'.settings.aliases = w.settings.aliases) :
    w'.namedAddress? word = w.namedAddress? word := by
  rw [namedAddress?, namedAddress?, account?, account?, Settings.alias?, Settings.alias?, accounts,
    aliases]

/-- A deployment that succeeds comes to a deed, and registers what the deed binds. -/
theorem command_entered {sender : Address} {e : Event} {stage stage' : Stage}
    (done : w.command sender e stage = (.ok w', stage')) :
    ∃ d, (w.deed stage.chain e.depth sender .topLevel e).Ends (.ok d) ∧
      w.Entered (d.task.registration? w') w' ∧
      (d.task.deploys = true → ∀ word, w'.namedAddress? word = w.namedAddress? word) := by
  rcases command_cases done with ⟨_, impossible, -⟩ | ⟨d, r, found, ⟨sound, on, within⟩, acted, same⟩
  · cases impossible
  cases r with
  | error error => cases same
  | ok v =>
    cases same
    have became := Deed.yields_act sound _ _ _ acted
    rw [within] at became
    have entered := became.entered.withDryRun w.settings.dryRun
    rw [← Task.registration?_withDryRun _ _ w.settings.dryRun] at entered
    refine ⟨d, found, entered, fun deploys word => ?_⟩
    have settings := became.settings
    rw [Task.settings_of_deploys deploys] at settings
    apply namedAddress?_of_same became.accounts
    show v.settings.aliases = _
    rw [settings]

/-- A deployment that succeeds disturbs no other name, unless the contract is named `address`.  Then
    the word `Contracts` and, but for the registry, the word for the shelf of its family stand for the
    contract, if they named nothing before. -/
theorem deployment_disturbs_iff {sender : Address} {e : Event} {stage stage' : Stage}
    (done : w.command sender e stage = (.ok w', stage')) :
    ∃ d, (w.deed stage.chain e.depth sender .topLevel e).Ends (.ok d) ∧
      (d.task.deploys = true →
        (d.task.registration? w' = none → ∀ word, w'.lookupName? word = w.lookupName? word) ∧
        ∀ r, d.task.registration? w' = some r →
          (∀ word, r.Other word →
            (¬ (r.Exposes word ∧ w.named? word = none) →
              w'.lookupName? word = w.lookupName? word) ∧
            (r.Exposes word → w.named? word = none →
              ∃ v, w'.lookupName? word = some v ∧ v.addressIn = .ok r.address)) ∧
          (w.lookupName? "Contracts" = none →
            ((∀ word, r.Other word → w'.lookupName? word = w.lookupName? word) ↔
              sameWord r.name "address" = false))) := by
  obtain ⟨d, found, entered, named⟩ := command_entered done
  refine ⟨d, found, fun deploys => ⟨?_, ?_⟩⟩
  · intro nothing word
    rw [nothing] at entered
    cases entered with
    | nothing contracts index =>
      rw [World.lookupName?, World.lookupName?, named deploys word, index]
  · intro r registered
    rw [registered] at entered
    refine ⟨fun word other => ?_, ?_⟩
    · exact entered.lookupName? (named deploys word) other
    · exact entered.lookupName?_iff (named deploys)

section Deployments

/-- The deployment of a token under a name. -/
def deployToken (name : String) : Event :=
  .words ["Erc20", "Deploy", "Standard", name, "Foo", "6"]

/-- A token named `ZRX` leaves every other name alone. -/
theorem zrx_disturbs_nothing :
    ∃ w stage, adminAndTorrey.command ⟨1⟩ (deployToken "ZRX") { chain := {} } = (.ok w, stage) ∧
      ∀ word, sameWord "ZRX" word = false →
        w.lookupName? word = adminAndTorrey.lookupName? word := by
  have evaluated : (match adminAndTorrey.command ⟨1⟩ (deployToken "ZRX") { chain := {} } with
      | (.ok w, _) =>
        (adminAndTorrey.deed {} (deployToken "ZRX").depth ⟨1⟩ .topLevel (deployToken "ZRX")).run.map
          (·.toOption.map fun d => (d.task.deploys, d.task.registration? w))
      | (.error _, _) => none) =
      some (some (true, some ⟨⟨.token, "ZRX", Chain.contractAddress ⟨1⟩ 0⟩,
        ["symbol", "fullName", "decimals"]⟩)) := by
    decide +kernel
  cases done : adminAndTorrey.command ⟨1⟩ (deployToken "ZRX") { chain := {} } with
  | mk result stage =>
    rw [done] at evaluated
    cases result with
    | error e => cases evaluated
    | ok w =>
      refine ⟨w, stage, rfl, ?_⟩
      obtain ⟨d, found, disturbs⟩ := deployment_disturbs_iff done
      dsimp only at evaluated
      rw [found] at evaluated
      simp only [Option.map_some, Except.toOption, Option.some.injEq, Prod.mk.injEq] at evaluated
      intro word other
      obtain ⟨each, -⟩ := (disturbs evaluated.1).2 _ evaluated.2
      refine (each word ⟨other, ?_⟩).1 ?_
      · rintro (impossible | impossible) <;> cases impossible
      · rintro ⟨⟨name, -⟩, -⟩
        revert name
        decide

/-- After a token named `address` has been deployed, its address has another name that nobody gave it,
    the first step of the paths in the index. -/
theorem address_exposes_contracts :
    ∃ w stage, adminAndTorrey.command ⟨1⟩ (deployToken "address") { chain := {} } =
        (.ok w, stage) ∧
      sameWord "address" "Contracts" = false ∧
      adminAndTorrey.lookupName? "Contracts" = none ∧
      (w.lookupName? "Contracts").isSome = true := by
  have evaluated : (adminAndTorrey.command ⟨1⟩ (deployToken "address") { chain := {} }).1.toOption.map
      (fun w => (w.lookupName? "Contracts").isSome) = some true := by
    decide +kernel
  cases done : adminAndTorrey.command ⟨1⟩ (deployToken "address") { chain := {} } with
  | mk result stage =>
    rw [done] at evaluated
    cases result with
    | error e => cases evaluated
    | ok w => exact ⟨w, stage, rfl, by decide, rfl, Option.some.inj evaluated⟩

end Deployments

end World

end MarketScript
