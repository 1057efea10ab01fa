import MarketScript.Proofs.Reading.Depth

/-!
# What an alias changes

An alias gives a meaning to the words that are its name in either case, and to no other.  So an event
that mentions none of them is resolved as before.  A word that is the name means the address, unless
it is a literal or the name of an account, which come first.  The contracts come after the aliases.
-/

namespace MarketScript

namespace Settings

/-- An insertion of an alias is seen by the words that are its name. -/
theorem alias?_setAlias (s : Settings) (name word : String) (address : Address) :
    (s.setAlias name address).alias? word =
      if sameWord name word = true then some address else s.alias? word := by
  unfold alias? setAlias
  rw [Store.get?_insert]
  by_cases same : foldCase name = foldCase word
  · rw [if_pos same, if_pos (sameWord_iff.mpr same)]
    rfl
  · rw [if_neg same, if_neg fun equal => same (sameWord_iff.mp equal)]

end Settings

namespace World

variable (w : World) (name : String) (address : Address)

/-- The name of an alias names its address, if it is not the name of an account. -/
theorem namedAddress?_withAlias_self {word : String} (same : sameWord name word = true)
    (noAccount : w.account? word = none) :
    (w.withAlias name address).namedAddress? word = some address := by
  have accounts : (w.withAlias name address).account? word = w.account? word := rfl
  have given : (w.withAlias name address).settings.alias? word = some address := by
    show (w.settings.setAlias name address).alias? word = some address
    rw [Settings.alias?_setAlias, if_pos same]
  rw [namedAddress?, accounts, noAccount, given]
  rfl

/-- An alias makes a difference to what its own name means only. -/
theorem alike_withAlias :
    w.Alike (fun word => sameWord name word = true) (w.withAlias name address) where
  words word other := by
    have given : (w.withAlias name address).settings.alias? word = w.settings.alias? word := by
      show (w.settings.setAlias name address).alias? word = _
      rw [Settings.alias?_setAlias, if_neg other]
    have names : (w.withAlias name address).namedAddress? word = w.namedAddress? word := by
      rw [namedAddress?, namedAddress?, given]
      rfl
    rw [resolveWord?, resolveWord?, lookupName?, lookupName?, names]
    rfl
  accounts := rfl
  contracts := rfl
  index := rfl
  network := rfl
  lastInvokation := rfl

end World

namespace Scene

variable {w w' : World} {e : Event}

/-- An event is resolved to the same in worlds that differ only in what other words mean. -/
theorem resolve_eq_of_alike {p : String → Prop} (alike : w.Alike p w') (c : Chain)
    (quiet : ¬ e.Mentions p) (r : Resolver) :
    Scene.resolve ⟨w', c⟩ r e = Scene.resolve ⟨w, c⟩ r e := by
  have agree := resolve_alike e alike c quiet r (rank_le_depth e)
  have before := agree.ends_answerOr (.unresolvedValue e.text)
  have after := ends_resolve ⟨w', c⟩ e w'.settings.dryRun r (rank_le_depth e)
  exact after.unique before

/-- A word that is not a literal but names an address is that address. -/
theorem resolve_address_of_named (s : Scene) {word : String} {a : Address}
    (isWord : e.unwrapSingle = .word word) (noLiteral : Value.ofLiteral? word = none)
    (named : s.world.namedAddress? word = some a) :
    s.resolve .address e = .ok (.address a) := by
  have notZero : word ≠ "Zero" := by
    rintro rfl
    cases noLiteral
  have means : s.world.resolveWord? word = some (.address a) := by
    rw [World.resolveWord?, noLiteral, World.lookupName?, named]
    rfl
  unfold resolve Resolver.run Resolver.addressOf
  rw [isWord]
  dsimp only
  rw [if_neg notZero, means]
  rfl

/-- An alias makes no difference to an event that does not mention it.  Its own name, in either case,
    is the address, if it is neither a literal nor the name of an account. -/
theorem alias_heard_where_mentioned (w : World) (c : Chain) (name : String) (address : Address) :
    (∀ (r : Resolver) (e : Event), ¬ e.Mentions (fun word => sameWord name word = true) →
      Scene.resolve ⟨w.withAlias name address, c⟩ r e = Scene.resolve ⟨w, c⟩ r e) ∧
    ∀ (e : Event) (word : String), e.unwrapSingle = .word word → sameWord name word = true →
      Value.ofLiteral? word = none → w.account? word = none →
      Scene.resolve ⟨w.withAlias name address, c⟩ .address e = .ok (.address address) := by
  constructor
  · intro r e quiet
    exact resolve_eq_of_alike (w.alike_withAlias name address) c quiet r
  · intro e word isWord same noLiteral noAccount
    apply resolve_address_of_named _ isWord noLiteral
    exact w.namedAddress?_withAlias_self name address same noAccount

end Scene

/-- A world with a contract named `Oracle`. -/
def World.withOracle : World :=
  World.register { runId := "", accounts := [⟨"Torrey", ⟨2⟩⟩] } ⟨"Oracle", "Erc20", ⟨7⟩⟩ [] .nothing

/-- An alias takes the name of a contract, and leaves Torrey's address alone. -/
theorem Scene.oracle_aliased :
    let w := World.withOracle
    Scene.resolve ⟨w, {}⟩ .address (.word "oracle") = .ok (.address ⟨7⟩) ∧
    Scene.resolve ⟨w.withAlias "Oracle" ⟨9⟩, {}⟩ .address (.word "oracle") =
      .ok (.address ⟨9⟩) ∧
    Scene.resolve ⟨w.withAlias "Oracle" ⟨9⟩, {}⟩ .value (.words ["Address", "Torrey"]) =
      Scene.resolve ⟨w, {}⟩ .value (.words ["Address", "Torrey"]) := by
  intro w
  have heard := Scene.alias_heard_where_mentioned w {} "Oracle" ⟨9⟩
  refine ⟨by rfl, ?_, ?_⟩
  · apply heard.2 _ "oracle" rfl
    · decide
    · decide +kernel
    · decide +kernel
  · apply heard.1
    rw [Event.words, Event.mentions_list]
    simp only [List.map_cons, List.map_nil, List.mem_cons, List.not_mem_nil, or_false,
      exists_eq_or_imp, exists_eq_left, Event.mentions_word]
    decide

end MarketScript
