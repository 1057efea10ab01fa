import MarketScript.Proofs.Run.Course

/-!
# What names stand for

A run gives names to contracts.  Whatever else it does, a name that was given in a family stands for
the contract that it was given to last, and this contract keeps the role of the family.
-/

namespace MarketScript

namespace Binding

/-- The last binding of a name in a family. -/
def latest (bs : List Binding) (family : Family) (name : String) : Option Binding :=
  (bs.filter fun b => b.family = family ∧ sameWord b.name name = true).getLast?

/-- The last binding in a family. -/
def latestOf (bs : List Binding) (family : Family) : Option Binding :=
  (bs.filter fun b => b.family = family).getLast?

variable {bs : List Binding} {b : Binding} {family : Family} {name : String}

theorem latest_concat :
    latest (bs ++ [b]) family name =
      if b.family = family ∧ sameWord b.name name = true then some b
      else latest bs family name := by
  unfold latest
  rw [List.filter_append]
  split
  · rename_i same
    simp [same]
  · rename_i other
    simp [other]

theorem latestOf_concat :
    latestOf (bs ++ [b]) family = if b.family = family then some b else latestOf bs family := by
  unfold latestOf
  rw [List.filter_append]
  split
  · rename_i same
    simp [same]
  · rename_i other
    simp [other]

theorem mem_of_latest (h : latest bs family name = some b) : b ∈ bs ∧ b.family = family := by
  have member := List.mem_filter.mp (List.mem_of_getLast? h)
  simp only [decide_eq_true_eq] at member
  exact ⟨member.1, member.2.1⟩

end Binding

/-- The contracts and the index of a world are those of a run on a chain that has made some
    bindings. -/
structure Known (contracts : Store Address Handle) (index : ContractIndex) (c : Chain)
    (bs : List Binding) : Prop where
  /-- The world knows of its contracts where they stand and what they are. -/
  handles : ∀ {address h}, contracts.get? address = some h →
    h.address = address ∧ c.kindAt address = some h.kind
  /-- A contract that was given a name in a family is known, and it has the role of the family. -/
  roles : ∀ b ∈ bs, ∃ h, contracts.get? b.address = some h ∧ h.kind ∈ b.family.kinds
  /-- Under a name on a shelf stands the address of the contract that was given the name last. -/
  shelves : ∀ family ≠ .registry, ∀ name, index.get? [family.shelf, name, "address"] =
    (Binding.latest bs family name).map (.address ·.address)
  /-- The controller and the registry are those that were bound last. -/
  singles : ∀ family, family = .controller ∨ family = .registry →
    (index.get? [family.keyword]).map Value.addressIn =
      (Binding.latestOf bs family).map (.ok ·.address)

namespace Known

variable {contracts : Store Address Handle} {index : ContractIndex} {c : Chain} {bs : List Binding}

/-- Before anything was bound nothing is known. -/
theorem nothing (c : Chain) : Known .empty {} c [] where
  handles found := by cases found
  roles b member := by cases member
  shelves family _ name := rfl
  singles family _ := rfl

/-- What is known stays true whatever the chain is asked for. -/
theorem after (h : Known contracts index c bs) (seeded : c.Seeded) {r : Request}
    (distinct : (c.after r).DistinctSeeds) : Known contracts index (c.after r) bs where
  handles {address handle} found := by
    obtain ⟨same, kind⟩ := h.handles found
    have stands : c.kindAt address ≠ none := by simp [kind]
    exact ⟨same, (seeded.kindAt_after distinct stands).trans kind⟩
  roles := h.roles
  shelves := h.shelves
  singles := h.singles

theorem afterAll (h : Known contracts index c bs) (seeded : c.Seeded) {rs : List Request}
    (distinct : (c.afterAll rs).DistinctSeeds) : Known contracts index (c.afterAll rs) bs := by
  induction rs generalizing c with
  | nil => exact h
  | cons r rs ih =>
    have next : (c.after r).DistinctSeeds := Chain.DistinctSeeds.of_afterAll distinct
    exact ih (h.after seeded next) (seeded.after r) distinct

/-- A contract that has a role can be registered for it. -/
theorem register {w : World} {family : Family} {name kind description : String} {address : Address}
    {fields : List (String × Value)} (h : Known w.contracts w.index c bs)
    (stands : c.kindAt address = some kind) (role : kind ∈ family.kinds)
    (plain : Handle.NoAddress fields) :
    let handle : Handle := ⟨name, kind, address⟩
    let w' := w.register handle (family.paths name) (handle.data description fields)
    Known w'.contracts w'.index c (bs ++ [⟨family, name, address⟩]) := by
  intro handle w'
  have known : w'.contracts = w.contracts.insert address handle := rfl
  constructor
  · intro other h' found
    rw [known, Store.get?_insert] at found
    split at found
    · rename_i same
      cases found
      exact ⟨same, same ▸ stands⟩
    · exact h.handles found
  · intro b member
    rcases List.mem_append.mp member with member | member
    · obtain ⟨old, found, oldRole⟩ := h.roles b member
      by_cases same : address = b.address
      -- registered again, the contract is still of the kind that it has on the chain
      · have kinds : kind = old.kind := by
          rw [same, (h.handles found).2] at stands
          exact (Option.some.inj stands).symm
        refine ⟨handle, ?_, ?_⟩
        · rw [known, same, Store.get?_insert_self]
        · show kind ∈ b.family.kinds
          rw [kinds]
          exact oldRole
      · refine ⟨old, ?_, oldRole⟩
        rw [known, Store.get?_insert, if_neg same, found]
    · rw [List.mem_singleton.mp member]
      exact ⟨handle, by rw [known, Store.get?_insert_self], role⟩
  · intro shelved isNamed other
    rw [World.get?_register_shelf plain family isNamed other, Binding.latest_concat,
      h.shelves shelved isNamed other]
    split
    · rfl
    · rfl
  · intro single isSingle
    rw [World.get?_register_role family isSingle, Binding.latestOf_concat]
    by_cases same : family = single
    · simp [same, handle]
    · simp only [same, if_false]
      exact h.singles single isSingle

/-- Every effect of a command is known. -/
theorem effect {w u : World} {sender : Address} {c' : Chain} {i : Option (Invokation Value)}
    {b : Option Binding} (h : Known w.contracts w.index c bs) (seeded : c.Seeded)
    (distinct : c'.DistinctSeeds) (effect : w.Effect sender c i b u c') :
    Known u.contracts u.index c' (bs ++ b.toList) := by
  cases effect with
  | told | aliased | tolerant =>
    rw [Option.toList_none, List.append_nil]
    exact h
  | invoked =>
    rw [Option.toList_none, List.append_nil]
    exact h.after seeded distinct
  | @deployed family name kind description args address i fields answer stands role plain =>
    have later : Known w.contracts w.index _ bs := h.after seeded distinct
    exact register (w := { w with lastInvokation := some i }) later stands role plain
  | bound stands role => exact h.register stands role (Handle.noAddress_of_names [] rfl (by simp))

end Known

namespace World

variable {w w' : World} {s : Statement} {stage stage' : Stage} {bs : List Binding}

/-- The binding that a statement has made, seen from the world after it. -/
def bindingOf? (w : World) (s : Statement) (stage : Stage) (after : World) : Option Binding :=
  (w.deedOf? s stage).bind (·.task.binding? after)

/-- The bindings that the statements of a run make, in their order. -/
def bindings (goOn : Bool) : List Statement → World → Stage → List Binding
  | [], _, _ => []
  | s :: rest, w, stage =>
    match w.runStatement s stage with
    | (.ok after, stage') => (w.bindingOf? s stage after).toList ++ bindings goOn rest after stage'
    | (.error error, stage') =>
      if goOn then bindings goOn rest w (complain s error stage') else []

section

variable {ss : List Statement} {goOn : Bool} {e : ScenarioError}

theorem bindings_done (done : w.runStatement s stage = (.ok w', stage')) :
    bindings goOn (s :: ss) w stage =
      (w.bindingOf? s stage w').toList ++ bindings goOn ss w' stage' := by
  simp only [bindings, done]

theorem bindings_failed_goOn (failed : w.runStatement s stage = (.error e, stage')) :
    bindings true (s :: ss) w stage = bindings true ss w (complain s e stage') := by
  simp only [bindings, failed, if_true]

theorem bindings_failed_stop (failed : w.runStatement s stage = (.error e, stage')) :
    bindings false (s :: ss) w stage = [] := by
  simp only [bindings, failed, Bool.false_eq_true, if_false]

end

theorem Effect.unbound {u : World} {sender : Address} {c c' : Chain}
    {i : Option (Invokation Value)} (effect : w.Effect sender c i none u c') :
    u.contracts = w.contracts ∧ u.index = w.index := by
  cases effect <;> exact ⟨rfl, rfl⟩

theorem known_statement (h : Known w.contracts w.index stage.chain bs) (seeded : stage.chain.Seeded)
    (distinct : stage'.chain.DistinctSeeds) (done : w.runStatement s stage = (.ok w', stage')) :
    Known w'.contracts w'.index stage'.chain (bs ++ (w.bindingOf? s stage w').toList) := by
  obtain ⟨d, i, u, v, found, ⟨-, on, same⟩, effect, ⟨description, rfl, -⟩, rfl⟩ :=
    runStatement_done done
  have before : Known d.world.contracts d.world.index stage.chain bs := by
    rw [same]
    exact h
  have after := before.effect seeded distinct effect
  rw [bindingOf?, found, Option.bind_some, Task.binding?_withDryRun]
  exact after

/-- Whatever a statement asks the chain for, what was known before stays true. -/
theorem known_after_statement {result : Except ScenarioError World}
    (h : Known w.contracts w.index stage.chain bs) (seeded : stage.chain.Seeded)
    (distinct : stage'.chain.DistinctSeeds) (ended : w.runStatement s stage = (result, stage')) :
    Known w.contracts w.index stage'.chain bs := by
  obtain ⟨rs, asked⟩ := chain_of_statement ended
  rw [asked] at distinct ⊢
  exact h.afterAll seeded distinct

/-- A statement that binds nothing leaves all names what they were. -/
theorem known_of_no_binding (done : w.runStatement s stage = (.ok w', stage'))
    (nothing : w.bindingOf? s stage w' = none) :
    w'.contracts = w.contracts ∧ w'.index = w.index := by
  obtain ⟨d, i, u, v, found, ⟨-, on, same⟩, effect, ⟨description, rfl, -⟩, rfl⟩ :=
    runStatement_done done
  rw [bindingOf?, found, Option.bind_some, Task.binding?_withDryRun] at nothing
  rw [nothing, same] at effect
  exact effect.unbound

/-- What is known after a run are the bindings of its statements. -/
theorem known_run (goOn : Bool) (ss : List Statement) :
    ∀ {w : World} {stage : Stage} {bs : List Binding}, Known w.contracts w.index stage.chain bs →
      stage.chain.Seeded → (run goOn ss w stage).2.chain.DistinctSeeds →
      Known (run goOn ss w stage).1.world.contracts (run goOn ss w stage).1.world.index
        (run goOn ss w stage).2.chain (bs ++ bindings goOn ss w stage) := by
  induction ss with
  | nil =>
    intro w stage bs h _ _
    rw [bindings, List.append_nil]
    exact h
  | cons s ss ih =>
    intro w stage bs h seeded distinct
    cases ended : w.runStatement s stage with
    | mk result middle =>
      have seeded' : middle.chain.Seeded := seeded_statement ended seeded
      cases result with
      | ok after =>
        rw [run_done ended] at distinct ⊢
        have next := ih (known_statement h seeded (distinctSeeds_of_run distinct) ended) seeded'
          distinct
        rw [bindings_done ended, ← List.append_assoc]
        exact next
      | error e =>
        -- the world stays, whatever the chain has been asked for
        cases goOn with
        | false =>
          rw [run_failed_stop ended] at distinct ⊢
          rw [bindings_failed_stop ended, List.append_nil]
          change Known w.contracts w.index middle.chain bs
          exact known_after_statement h seeded distinct ended
        | true =>
          rw [run_failed_goOn ended] at distinct ⊢
          rw [bindings_failed_goOn ended]
          have distinct' : (run true ss w (complain s e middle)).2.chain.DistinctSeeds := distinct
          have before : (complain s e middle).chain.DistinctSeeds := distinctSeeds_of_run distinct'
          have kept : Known w.contracts w.index (complain s e middle).chain bs := by
            change Known w.contracts w.index middle.chain bs
            exact known_after_statement h seeded before ended
          exact ih kept seeded' distinct'

/-- A word that is the name of a contract on the shelf of a family stands for this contract. -/
theorem resolve_name {c : Chain} {bs : List Binding} {b : Binding} {family : Family}
    {resolver : Resolver} {name : String} (h : Known w.contracts w.index c bs)
    (named : Binding.latest bs family name = some b)
    (resolves : (family, resolver) ∈
      [(Family.market, Resolver.market), (.token, .token), (.rateModel, .rateModel)]) :
    Scene.resolve ⟨w, c⟩ resolver (.word name) = .ok (.address b.address) := by
  have ofContract : family ≠ .registry → ∀ value,
      Resolver.contractOf value w family (.word name) = pure (.address b.address) := by
    intro isNamed value
    have stands := h.shelves family isNamed name
    rw [named] at stands
    obtain ⟨member, rfl⟩ := Binding.mem_of_latest named
    obtain ⟨handle, found, role⟩ := h.roles b member
    have known : w.contract b.address = .ok handle := by
      rw [contract, found]
    have playsRole : b.family.kinds.contains handle.kind = true := List.contains_iff_mem.mpr role
    have ended : (Resolver.contractOf value w b.family (.word name)).Ends
        (.ok (.address b.address)) := by
      unfold Resolver.contractOf
      simp only [Event.unwrapSingle_word, Event.asWord?, Option.bind_some, stands, Option.map_some]
      refine Eval.ends_bind.mpr (.inr ⟨b.address, rfl, ?_⟩)
      refine Eval.ends_bind.mpr (.inr ⟨handle, ?_, ?_⟩)
      · rw [known]
        rfl
      · rw [playsRole]
        rfl
    exact ended
  simp only [List.mem_cons, Prod.mk.injEq, List.not_mem_nil, or_false] at resolves
  rcases resolves with ⟨rfl, rfl⟩ | ⟨rfl, rfl⟩ | ⟨rfl, rfl⟩
  · rw [Scene.resolve, Resolver.run, ofContract (by decide)]
    rfl
  · rw [Scene.resolve, Resolver.run, ofContract (by decide)]
    rfl
  · rw [Scene.resolve, Resolver.run, ofContract (by decide)]
    rfl

/-- The controller and the registry are the addresses that were bound last. -/
theorem indexedAddress_of_latest {c : Chain} {bs : List Binding} {b : Binding} {family : Family}
    (h : Known w.contracts w.index c bs) (single : family = .controller ∨ family = .registry)
    (named : Binding.latestOf bs family = some b) :
    w.indexedAddress family.keyword [family.keyword] = .ok (.address b.address) := by
  have held := h.singles family single
  rw [named, Option.map_some, Option.map_eq_some_iff] at held
  obtain ⟨data, found, address⟩ := held
  unfold indexedAddress lookup ContractIndex.firstMatch
  simp [found, address]

/-- A world that no command has changed yet. -/
def Fresh (w : World) : Prop := w.contracts = .empty ∧ w.index = {}

theorem fresh_of_start {runId : String} {m : Manifest} {stage : Stage}
    (started : start runId m = .ok (w, stage)) :
    w.Fresh ∧ stage.chain = Chain.ofRun m.network [] := by
  simp only [start, ofManifest, except_bind_eq_ok, except_pure_eq_ok, Prod.mk.injEq] at started
  obtain ⟨_, ⟨accounts, -, settings, -, rfl⟩, rfl, rfl⟩ := started
  exact ⟨⟨rfl, rfl⟩, rfl⟩

/-- At the start all settings but the aliases are those of the manifest, and failures are errors. -/
theorem settings_of_start {runId : String} {m : Manifest} {stage : Stage}
    (started : start runId m = .ok (w, stage)) :
    w.settings = { network := m.network, dryRun := m.dryRun, defaultFrom := m.defaultFrom,
                   aliases := w.settings.aliases } := by
  simp only [start, ofManifest, except_bind_eq_ok, except_pure_eq_ok, Prod.mk.injEq] at started
  obtain ⟨_, ⟨accounts, -, settings, aliased, rfl⟩, rfl, -⟩ := started
  refine except_foldlM_induction (P := fun s : Settings =>
    s = { network := m.network, dryRun := m.dryRun, defaultFrom := m.defaultFrom,
          aliases := s.aliases }) ?_ rfl aliased
  rintro s ⟨name, text⟩ s' same put
  simp only [except_bind_eq_ok, except_pure_eq_ok] at put
  obtain ⟨address, -, rfl⟩ := put
  rw [same]
  rfl

/-- Whatever the statements of a run from a fresh world are, and whether or not the run goes on past
    failures, a name in a family means the contract that it was bound to last, and the controller and
    the registry are those that were bound last, as long as no two transactions draw the same
    address. -/
theorem names_mean_bindings {w : World} (fresh : w.Fresh) {stage : Stage} {network : String}
    {past : List Request} (reachable : stage.chain = Chain.ofRun network past) (goOn : Bool)
    (ss : List Statement) (distinct : (run goOn ss w stage).2.chain.DistinctSeeds) :
    (∀ family resolver name b,
      (family, resolver) ∈
        [(Family.market, Resolver.market), (.token, .token), (.rateModel, .rateModel)] →
      Binding.latest (bindings goOn ss w stage) family name = some b →
      Scene.resolve ⟨(run goOn ss w stage).1.world, (run goOn ss w stage).2.chain⟩ resolver
        (.word name) = .ok (.address b.address)) ∧
    (∀ b, Binding.latestOf (bindings goOn ss w stage) .controller = some b →
      (run goOn ss w stage).1.world.controller = .ok (.address b.address)) ∧
    ∀ b, Binding.latestOf (bindings goOn ss w stage) .registry = some b →
      (run goOn ss w stage).1.world.registry = .ok (.address b.address) := by
  have seeded : stage.chain.Seeded := reachable ▸ Chain.seeded_ofRun network past
  have before : Known w.contracts w.index stage.chain [] := by
    rw [fresh.1, fresh.2]
    exact Known.nothing _
  have after := known_run goOn ss before seeded distinct
  rw [List.nil_append] at after
  generalize run goOn ss w stage = ended at after ⊢
  refine ⟨?_, ?_, ?_⟩
  · intro family resolver name b resolves named
    exact resolve_name after named resolves
  · intro b bound
    have isSingle : Family.controller = .controller ∨ Family.controller = .registry := .inl rfl
    have held := indexedAddress_of_latest after isSingle bound
    exact held
  · intro b bound
    have isSingle : Family.registry = .controller ∨ Family.registry = .registry := .inr rfl
    have held := indexedAddress_of_latest after isSingle bound
    exact held

section Namings

/-- A world with one account. -/
def adminOnly : World := { runId := "", accounts := [⟨"Admin", ⟨1⟩⟩] }

/-- A script that gives a name that reads like a literal to a token, to another token in other
    letters, and in between to a rate model in a dry run, while failures are allowed. -/
def namings : List Statement :=
  [["AllowFailures"],
    ["Erc20", "Deploy", "Standard", "True", "Yes"],
    ["DryRun", "InterestRateModel", "Deploy", "Fixed", "True", "1"],
    ["PToken", "True", "Mint", "5"],
    ["Erc20", "Deploy", "Standard", "TRUE", "Yes"],
    ["Controller", "Deploy"]].map fun words => { event := .words words, span := default }

theorem namings_distinct :
    (run true namings adminOnly { chain := {} }).2.chain.DistinctSeeds := by
  refine @Chain.distinctSeeds_of_one _ ⟨1⟩ 4 ?_ ?_
  · decide +kernel
  · decide +kernel

theorem namings_bindings :
    Binding.latest (bindings true namings adminOnly { chain := {} }) .token "true" =
      some ⟨.token, "TRUE", Chain.contractAddress ⟨1⟩ 2⟩ ∧
    Binding.latest (bindings true namings adminOnly { chain := {} }) .rateModel "true" =
      some ⟨.rateModel, "True", Chain.contractAddress ⟨1⟩ 1⟩ ∧
    Binding.latestOf (bindings true namings adminOnly { chain := {} }) .controller =
      some ⟨.controller, "Controller", Chain.contractAddress ⟨1⟩ 3⟩ := by
  decide +kernel

/-- After the script `true` is the second token and the rate model, each in its family. -/
theorem namings_resolve :
    Scene.resolve ⟨(run true namings adminOnly { chain := {} }).1.world,
        (run true namings adminOnly { chain := {} }).2.chain⟩ .token (.word "true") =
      .ok (.address (Chain.contractAddress ⟨1⟩ 2)) ∧
    Scene.resolve ⟨(run true namings adminOnly { chain := {} }).1.world,
        (run true namings adminOnly { chain := {} }).2.chain⟩ .rateModel (.word "true") =
      .ok (.address (Chain.contractAddress ⟨1⟩ 1)) ∧
    (run true namings adminOnly { chain := {} }).1.world.controller =
      .ok (.address (Chain.contractAddress ⟨1⟩ 3)) := by
  have fresh : adminOnly.Fresh := ⟨rfl, rfl⟩
  have new : ({ chain := {} } : Stage).chain = Chain.ofRun "development" [] := rfl
  have mean := names_mean_bindings fresh new true namings namings_distinct
  obtain ⟨token, rateModel, controller⟩ := namings_bindings
  have asToken := mean.1 .token .token "true" _ (by decide) token
  have asRateModel := mean.1 .rateModel .rateModel "true" _ (by decide) rateModel
  have asController := mean.2.1 _ controller
  exact ⟨asToken, asRateModel, asController⟩

end Namings

end World

end MarketScript
