import MarketScript.Proofs.Index.Addresses
import MarketScript.Proofs.Reading.Market
import MarketScript.Proofs.Run.Coherence

/-!
# World, index and chain

What a world knows of its contracts, what its index says of them, and what stands on the chain are
changed at different moments, and a statement that fails takes back what it did to the world but not
what it did to the chain.  They agree all the same, and so all readings of all markets succeed.
-/

namespace MarketScript

namespace Command

/-- Only the command that deploys a market makes one. -/
theorem market_of_makes {c : Command} {kind : String} (sound : c.Sound)
    (makes : c.kind? = some kind) (role : kind ∈ Family.market.kinds) :
    ∃ market, c = .deployMarket market := by
  cases c with
  | deployMarket market => exact ⟨market, rfl⟩
  | deployController other =>
    cases makes
    cases Family.eq_of_mem_kinds _ sound role
  | deployRegistry | deployRateModel | deployToken =>
    cases makes
    exact absurd role (by decide)
  | _ => cases makes

/-- The underlying token of a market is asked for as a token. -/
theorem underlying_of_mem {table : CommandTable} : ∀ d ∈ table.shapes, ∀ market,
    d.handler = .deployMarket market → ∀ a ∈ d.args, a.name = "underlying" →
      a = arg "underlying" .token := by
  cases table with
  | topLevel => simp [CommandTable.shapes, topLevelShapes, inFamily]
  | assertions => simp [CommandTable.shapes, assertionShapes]
  | family family | deploy family =>
    cases family <;>
      simp [CommandTable.shapes, controllerShapes, marketShapes, tokenShapes, registryShapes,
        rateModelShapes, deployShape, tokenShape, controllerDeployShapes, marketDeployShapes,
        marketDeployShape, marketArgs, existingShape, tokenDeployShapes, rateModelDeployShapes, arg]

end Command

namespace ContractIndex

variable {index : ContractIndex} {rs : List Registration} {name : String} {path : List String}
  {v : Value}

/-- The addresses under the names of contracts are those of registrations. -/
theorem Holds.contract (h : index.Holds rs) (found : index.get? ["Contracts", name] = some v) :
    ∃ r ∈ rs, v = .address r.address := by
  obtain ⟨fs, -, rfl, rfl⟩ := h
  obtain ⟨f, member, rfl⟩ := contract_of_ofFilings found
  exact ⟨f.registration, List.mem_map_of_mem member, rfl⟩

/-- What stands at a place of a family, or as an address below it, stands for a contract that was
    registered in the family. -/
theorem Holds.place (h : index.Holds rs) {family : Family} (member : path ∈ family.paths name)
    (found : index.get? path = some v ∨ index.get? (path ++ ["address"]) = some v) :
    ∃ r ∈ rs, r.family = family ∧ v.addressIn = .ok r.address := by
  obtain ⟨fs, proper, rfl, rfl⟩ := h
  obtain ⟨f, filed, ⟨p, there, same⟩, address⟩ :=
    place_of_ofFilings proper (isPlace_of_mem member) found
  exact ⟨f.registration, List.mem_map_of_mem filed, Family.eq_of_paths there member same, address⟩

end ContractIndex

namespace World

variable {w w' : World} {s : Statement} {stage stage' : Stage} {rs : List Registration}

/-- A deed makes markets for tokens only: the constructor does not look at what it is given, but the
    token has been found by its role before. -/
theorem founds_of_deed {chain : Chain} {depth : Nat} {sender : Address} {table : CommandTable}
    {e : Event} {d : Deed} {r : Request}
    (known : ∀ address h, w.contracts.get? address = some h → chain.kindAt address = some h.kind)
    (found : (w.deed chain depth sender table e).Ends (.ok d)) (asks : d.task.Asks d.sender r) :
    r.Founds chain := by
  refine deed_induction (P := fun w d => (∀ address h, w.contracts.get? address = some h →
    chain.kindAt address = some h.kind) → ∀ r, d.task.Asks d.sender r → r.Founds chain) ?_ ?_
    (fun w d inner => inner) depth w sender table e d found known r asks
  · exact fun w sender e _ r asks => absurd asks id
  · intro depth w sender table e d args selected leaf _ known r asks
    cases asks with
    | send => trivial
    | @deploy kind params makes underlying =>
      intro role
      have taken := select_ends_iff.mp selected
      obtain ⟨market, deploys⟩ :=
        Command.market_of_makes (Command.sound_of_mem taken.mem) makes role
      obtain ⟨token, given, first⟩ := underlying market deploys
      refine ⟨token, first, ?_⟩
      obtain ⟨v, told, isToken⟩ := except_bind_eq_ok.mp given
      obtain ⟨a, isArg, name, gets⟩ := gets_of_get taken.resolved.2 told
      obtain rfl := Command.underlying_of_mem d taken.mem market deploys a isArg name
      cases gets with
      | implicit source => cases source
      | fallback source none => cases none
      | several source mapped => cases mapped
      | token source within resolved =>
        cases source
        obtain ⟨address, h, rfl, here, isKind⟩ := Resolver.role_of_contractOf resolved
        cases isToken
        exact Chain.hasAt_of_kindAt (known _ h here) isKind

/-- What is true of a world and a chain after some registrations. -/
structure Grounded (w : World) (c : Chain) (rs : List Registration) : Prop where
  known : Known w.contracts w.index c (rs.map (·.toBinding))
  /-- The index holds nothing but what was registered. -/
  indexed : w.index.Holds rs
  founded : c.Founded

theorem founds_of_asks {r : Request} (grounded : w.Grounded stage.chain rs)
    (asks : w.Asks s stage r) : r.Founds stage.chain := by
  obtain ⟨d, found, asks⟩ := asks
  obtain ⟨sender, -, found⟩ := deedOf?_eq_some.mp found
  exact founds_of_deed (fun address h here => (grounded.known.handles here).2) found asks

/-- The chain makes no market but for a token, whatever comes of a statement. -/
theorem Grounded.founded_statement {result : Except ScenarioError World}
    (grounded : w.Grounded stage.chain rs) (seeded : stage.chain.Seeded)
    (distinct : stage'.chain.DistinctSeeds) (ended : w.runStatement s stage = (result, stage')) :
    stage'.chain.Founded := by
  rcases (runStatement_dealt ended).chain with same | ⟨r, asks, same⟩
  · rw [same]
    exact grounded.founded
  · rw [same] at distinct ⊢
    exact grounded.founded.after seeded distinct (founds_of_asks grounded asks)

/-- A registration is a binding. -/
theorem bindingOf?_eq (w : World) (s : Statement) (stage : Stage) (after : World) :
    w.bindingOf? s stage after = (w.registrationOf? s stage after).map (·.toBinding) := by
  unfold bindingOf? registrationOf?
  cases w.deedOf? s stage with
  | none => rfl
  | some d =>
    obtain ⟨task, _, _⟩ := d
    cases task with
    | skip => rfl
    | command c args =>
      show c.binding? args after = ((c.binding? args after).map _).map _
      cases c.binding? args after <;> rfl

theorem Grounded.statement (grounded : w.Grounded stage.chain rs) (seeded : stage.chain.Seeded)
    (distinct : stage'.chain.DistinctSeeds) (done : w.runStatement s stage = (.ok w', stage')) :
    w'.Grounded stage'.chain (rs ++ (w.registrationOf? s stage w').toList) where
  known := by
    have known := known_statement grounded.known seeded distinct done
    rw [bindingOf?_eq] at known
    rw [List.map_append]
    cases registered : w.registrationOf? s stage w' with
    | none => rwa [registered] at known
    | some r => rwa [registered] at known
  indexed := holds_statement grounded.indexed done
  founded := grounded.founded_statement seeded distinct done

/-- A statement that fails leaves the world as it was, and what it did to the chain does no harm. -/
theorem Grounded.failed {e : ScenarioError} (grounded : w.Grounded stage.chain rs)
    (seeded : stage.chain.Seeded) (distinct : stage'.chain.DistinctSeeds)
    (failed : w.runStatement s stage = (.error e, stage')) : w.Grounded stage'.chain rs where
  known := known_after_statement grounded.known seeded distinct failed
  indexed := grounded.indexed
  founded := grounded.founded_statement seeded distinct failed

/-- World, index and chain agree. -/
structure Agrees (w : World) (c : Chain) : Prop where
  /-- A contract that the world knows stands at its address and is of its kind. -/
  handles : ∀ address h, w.contracts.get? address = some h →
    h.address = address ∧ c.kindAt address = some h.kind
  /-- An address under the name of a contract is the one of a contract that the world knows. -/
  names : ∀ name v address, w.index.get? ["Contracts", name] = some v →
    v.addressIn = .ok address → ∃ h, w.contracts.get? address = some h
  /-- An address at a place of a family is the one of a contract that has the role of the family. -/
  places : ∀ family name, ∀ path ∈ Family.paths family name, ∀ v address,
    w.index.get? path = some v ∨ w.index.get? (path ++ ["address"]) = some v →
    v.addressIn = .ok address → ∃ h, w.contracts.get? address = some h ∧ h.kind ∈ family.kinds
  /-- A market that the world knows is over a token of the chain. -/
  markets : ∀ address h, w.contracts.get? address = some h → h.kind ∈ Family.market.kinds →
    ∃ m, c.contracts.get? address = some (.market m) ∧
      ∃ kind ∈ Family.token.kinds, c.kindAt m.underlying = some kind

theorem Grounded.agrees {c : Chain} (grounded : w.Grounded c rs) : w.Agrees c := by
  -- a contract that was registered is known, and it has the role that it was registered for
  have registered : ∀ r ∈ rs, ∃ h, w.contracts.get? r.address = some h ∧ h.kind ∈ r.family.kinds :=
    fun r member => grounded.known.roles r.toBinding (List.mem_map_of_mem member)
  refine ⟨fun address h here => grounded.known.handles here, ?_, ?_, ?_⟩
  · intro name v address found stands
    obtain ⟨r, member, rfl⟩ := grounded.indexed.contract found
    cases stands
    obtain ⟨h, here, -⟩ := registered r member
    exact ⟨h, here⟩
  · intro family name path member v address found stands
    obtain ⟨r, isRegistered, rfl, same⟩ := grounded.indexed.place member found
    rw [same] at stands
    cases stands
    exact registered r isRegistered
  · intro address h here role
    obtain ⟨m, there⟩ := (Chain.hasAt_of_kindAt (grounded.known.handles here).2 role).market
    obtain ⟨kind, stands, isToken⟩ := (grounded.founded address m there).kindAt
    exact ⟨m, there, kind, isToken, stands⟩

/-- Whatever expression stands for a market, the market is there to be read. -/
theorem Agrees.readable {c : Chain} (agrees : w.Agrees c) {e : Event} {v : Value}
    (resolves : Scene.resolve ⟨w, c⟩ .market e = .ok v) : Scene.Readable ⟨w, c⟩ e v := by
  have ended : (Scene.resolver ⟨w, c⟩ (2 * e.size + 1) .market e).Ends (.ok v) :=
    Scene.ends_resolver resolves (Nat.le_refl _)
  obtain ⟨address, h, rfl, here, role⟩ := Resolver.role_of_contractOf ended
  obtain ⟨m, there, kind, isToken, stands⟩ := agrees.markets address h here role
  obtain ⟨t, underlying⟩ := (Chain.hasAt_of_kindAt stands isToken).token
  have offers : Scene.Offers ⟨w, c⟩ address m t :=
    ⟨⟨h, contract_eq_ok.mpr here, (agrees.handles address h here).1⟩, there, underlying⟩
  exact offers.readable resolves

section TwoNames

end TwoNames

end World

end MarketScript
