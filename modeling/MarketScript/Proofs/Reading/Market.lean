import MarketScript.Proofs.Reading.Depth
import MarketScript.Proofs.Chain.Underlying

/-!
# Readings of markets

Where the world knows a market, and the chain has it and its underlying token, every reading of the
market succeeds, and the readings that are told together are those that are told one by one.
-/

namespace MarketScript

/-! ## Which contract is meant -/

/-- Whatever expression stands for a contract of a family, the world knows the contract, and it has
    the role of the family. -/
theorem Resolver.role_of_contractOf {value : Event → Eval Value} {w : World} {family : Family}
    {e : Event} {v : Value} (resolved : (contractOf value w family e).Ends (.ok v)) :
    ∃ address h, v = .address address ∧ w.contracts.get? address = some h ∧
      h.kind ∈ family.kinds := by
  rw [contractOf_eq] at resolved
  rcases Eval.ends_bind.mp resolved with ⟨_, -, impossible⟩ | ⟨address, -, checked⟩
  · cases impossible
  have role := Eval.ends_ofExcept.mp checked
  rw [World.roleAt, eq_comm, except_bind_eq_ok] at role
  obtain ⟨h, known, role⟩ := role
  refine ⟨address, h, ?_⟩
  split at role
  · rename_i isKind
    cases role
    exact ⟨rfl, World.contract_eq_ok.mp known, List.contains_iff_mem.mp isKind⟩
  · cases role

/-! ## Which reading is taken -/

namespace Reading

theorem unambiguous (table : FetchTable) : Unambiguous table.shapes where
  names := by
    cases table with
    | topLevel => decide +kernel
    | family family => cases family <;> decide +kernel
  place := by
    cases table with
    | topLevel => decide +kernel
    | family family => cases family <;> decide +kernel

theorem valid_of_mem (table : FetchTable) : ∀ d ∈ table.shapes, d.validate = .ok () := by
  have valid : ∀ d ∈ table.shapes, (Definition.misplaced? d.tokenArgs).isNone = true := by
    cases table with
    | topLevel => decide +kernel
    | family family => cases family <;> decide +kernel
  intro d member
  rw [Definition.validate, Option.isNone_iff_eq_none.mp (valid d member)]

end Reading

namespace Scene

variable {s : Scene} {depth : Nat}

/-- How tokens are resolved by a reading with some steps left. -/
def resolver (s : Scene) (depth : Nat) (r : Resolver) (e : Event) : Eval Value :=
  r.run (fun e => s.answer depth (.value e)) s.world e

theorem ends_resolver {r : Resolver} {e : Event} {v : Value} (resolves : s.resolve r e = .ok v)
    (enough : 2 * e.size + 1 ≤ depth) : (s.resolver depth r e).Ends (.ok v) := by
  rw [← resolves]
  exact s.ends_resolve e s.world.settings.dryRun r enough

/-- A reading is made with the arguments of the shape whose keyword its event bears. -/
theorem answer_fetch {table : FetchTable} {d : Reading.Shape} {e : Event} {tokens : List Event}
    {args : Args} (member : d ∈ table.shapes) (bears : d.Bears e) (taken : d.argTokens e = tokens)
    (resolved : (resolveArgs (s.resolver depth) s.world d tokens).Ends (.ok args)) :
    s.answer (depth + 1) (.fetch table e) =
      s.read (fun table e => s.answer depth (.fetch table e)) d.handler args := by
  subst taken
  have selected := (Reading.unambiguous table).selection member bears resolved
  exact dispatchFetch_of_selection selected

/-- At the top level the keyword of a family leads to the readings of the family. -/
theorem answer_inFamily {family : Family} {rest : List Event} (some : rest ≠ []) :
    s.answer (depth + 1) (.fetch .topLevel (.list (.word family.keyword :: rest))) =
      s.answer depth (.fetch (.family family) (Event.list rest).unwrapSingle) := by
  have shape : ∃ d ∈ FetchTable.topLevel.shapes, d.handler = .inFamily family "fetcher" ∧
      d.name = family.keyword ∧ d.keywordAt = 0 := by
    cases family <;> decide
  obtain ⟨d, member, handler, name, place⟩ := shape
  obtain ⟨takesRest, isNamed⟩ := Reading.args_of_inFamily d member family "fetcher" handler
  obtain ⟨bears, taken⟩ := Definition.bears_of_items (d := d)
    (e := .list (.word family.keyword :: rest)) [] rest isNamed place (name ▸ sameWord_self _) rfl
  have resolved : (resolveArgs (s.resolver depth) s.world d rest).Ends
      (.ok ⟨d.name, [("fetcher", .event (Event.list rest).unwrapSingle)]⟩) :=
    (resolveArgs_rest none takesRest).mpr ⟨_, by rw [if_neg some], rfl⟩
  rw [answer_fetch member bears taken resolved, handler]
  rfl

/-- The tokens of a reading of a market. -/
def marketEvent (market : Event) (keyword : String) (rest : List Event) : Event :=
  .list (.word Family.market.keyword :: market :: .word keyword :: rest)

/-- A reading of a market has its keyword in the second place, after the market. -/
theorem bears_market {market : Event} {keyword : String} {rest : List Event} {d : Reading.Shape}
    (member : d ∈ Reading.marketShapes) (named : sameWord keyword d.name = true) :
    d.Bears (.list (market :: .word keyword :: rest)) ∧
      d.argTokens (.list (market :: .word keyword :: rest)) = market :: rest := by
  have second : ∀ d ∈ Reading.marketShapes, d.catchall = false ∧ d.keywordAt = 1 := by decide
  obtain ⟨isNamed, place⟩ := second d member
  exact Definition.bears_of_items [market] rest isNamed place named rfl

/-- What is read of a market by a keyword is what the shape of this keyword gives. -/
theorem fetch_market {market : Event} {keyword : String} {rest : List Event} {d : Reading.Shape}
    {args : Args} {v : Value} (member : d ∈ Reading.marketShapes)
    (named : sameWord keyword d.name = true)
    (resolved : ∀ depth, 2 * Event.sizes (market :: rest) + 1 ≤ depth →
      (resolveArgs (s.resolver depth) s.world d (market :: rest)).Ends (.ok args))
    (gives : ∀ fetch, (s.read fetch d.handler args).Ends (.ok v)) :
    s.fetch (marketEvent market keyword rest) = .ok v := by
  obtain ⟨bears, taken⟩ := @bears_market market keyword rest d member named
  obtain ⟨depth, isDepth, enough⟩ : ∃ depth, (marketEvent market keyword rest).depth = depth + 2 ∧
      2 * Event.sizes (market :: rest) + 1 ≤ depth := by
    refine ⟨(marketEvent market keyword rest).depth - 2, by simp [Event.depth], ?_⟩
    simp [Event.depth, marketEvent]
    omega
  have here : (s.answer (depth + 2) (.fetch .topLevel (marketEvent market keyword rest))).Ends
      (s.fetch (marketEvent market keyword rest)) := by
    refine s.ends_fetch _ ?_
    rw [← isDepth]
    simp [Event.depth]
    omega
  have inner : (s.answer (depth + 2) (.fetch .topLevel (marketEvent market keyword rest))).Ends
      (.ok v) := by
    have read : s.answer (depth + 1) (.fetch (.family .market)
        (.list (market :: .word keyword :: rest))) =
        s.read (fun table e => s.answer depth (.fetch table e)) d.handler args :=
      answer_fetch member bears taken (resolved depth enough)
    rw [marketEvent, answer_inFamily (by simp)]
    refine Eq.trans read ?_
    exact gives _
  exact here.unique inner

end Scene

/-! ## What contracts answer -/

namespace Scene

variable {s : Scene} {address : Address} {m : Market} {t : Erc20}

/-- The world knows a market, and the chain has it and its underlying token. -/
structure Offers (s : Scene) (address : Address) (m : Market) (t : Erc20) : Prop where
  known : ∃ h, s.world.contract address = .ok h ∧ h.address = address
  here : s.chain.contracts.get? address = some (.market m)
  underlying : s.chain.contracts.get? m.underlying = some (.token t)

/-- The market answers from its own state, its cash apart. -/
theorem Offers.view (offers : s.Offers address m t) {method : String} (own : method ≠ "getCash")
    {args : List Abi} {answer : Abi} (answers : m.read ⟨method, args⟩ = .ok answer) :
    s.view address method args = .ok answer := by
  obtain ⟨h, known, same⟩ := offers.known
  simp [Scene.view, known, same, Chain.call, Ledger.view, Ledger.contractAt_eq_ok.mpr offers.here,
    own, answers]

/-- The cash of a market is what its token has for it. -/
theorem Offers.view_cash (offers : s.Offers address m t) :
    s.view address "getCash" [] = .ok (.number (t.balanceOf address)) := by
  obtain ⟨h, known, same⟩ := offers.known
  simp [Scene.view, known, same, Chain.call, Ledger.view, Ledger.contractAt_eq_ok.mpr offers.here,
    Ledger.readAt, Ledger.contractAt_eq_ok.mpr offers.underlying]
  rfl

/-- A plain reading of a market. -/
def marketReading (s : Scene) (r : Reading.Plain) (address : Address) : Except ScenarioError Value := do
  r.decoding.decode (← s.view address r.method [])

/-- What the plain readings of a market give. -/
theorem Offers.reading (offers : s.Offers address m t) :
    ∀ r ∈ Reading.marketReadings, ∃ v, s.marketReading r address = .ok v := by
  have own : ∀ {r : Reading.Plain} {answer : Abi} {v : Value}, r.method ≠ "getCash" →
      m.read ⟨r.method, []⟩ = .ok answer → r.decoding.decode answer = .ok v →
      ∃ v, s.marketReading r address = .ok v := by
    intro r answer v isOwn answers decoded
    exact ⟨v, by rw [marketReading, offers.view isOwn answers]; exact decoded⟩
  simp only [Reading.marketReadings, List.forall_mem_cons, List.not_mem_nil, false_implies,
    implies_true, and_true]
  refine ⟨own (by decide) rfl rfl, own (by decide) rfl rfl, own (by decide) rfl rfl,
    own (by decide) rfl rfl, own (by decide) rfl rfl, own (by decide) rfl rfl,
    own (by decide) rfl rfl, own (by decide) rfl rfl, own (by decide) rfl rfl, ?_⟩
  exact ⟨_, by rw [marketReading, offers.view_cash]; rfl⟩

theorem marketInfo_eq {value : Reading.Plain → Value}
    (gives : ∀ r ∈ Reading.marketReadings, s.marketReading r address = .ok (value r)) :
    s.marketInfo address = .ok (.map (Reading.marketReadings.map fun r => (r.keyword, value r))) := by
  have each : ∀ r ∈ Reading.marketReadings, (do
      return (r.keyword, ← s.marketReading r address) : Except ScenarioError (String × Value)) =
      .ok (r.keyword, value r) := by
    intro r member
    rw [gives r member]
    rfl
  have all := except_mapM_eq_ok each
  simp only [marketReading, bind_assoc] at all
  simp only [marketInfo, all]
  rfl

end Scene

/-- The table of the markets has a reading of a market by a keyword, with further arguments. -/
def Reading.OfMarket (keyword : String) (reading : Reading) (further : List Arg) : Prop :=
  ∃ d ∈ Reading.marketShapes, d.name = keyword ∧ d.handler = reading ∧
    d.args = Reading.marketArg :: further

theorem Reading.ofMarket_plain {r : Reading.Plain} (member : r ∈ Reading.marketReadings) :
    Reading.OfMarket r.keyword (.view "pToken" r.method [] r.decoding) [] := by
  let shape : Shape :=
    { name := r.keyword, description := r.description, args := [marketArg],
      handler := .view "pToken" r.method [] r.decoding, keywordAt := 1 }
  have isShape : shape ∈ marketShapes :=
    List.mem_append_left _ (List.mem_cons_of_mem _ (List.mem_map_of_mem member))
  exact ⟨shape, isShape, rfl, rfl, rfl⟩

namespace Scene

variable {s : Scene} {address : Address} {m : Market} {t : Erc20} {market : Event}

section Fetch

variable {keyword : String} {reading : Reading} {v : Value}
  (resolves : s.resolve .market market = .ok (.address address))

include resolves

/-- A reading of a market makes its own of the address and what its further arguments are. -/
theorem fetch_ofMarket {further : List Arg} {rest : List Event} {vs : List (String × Value)}
    (shape : Reading.OfMarket keyword reading further)
    (others : ∀ depth, 2 * Event.sizes rest + 1 ≤ depth →
      (resolveInOrder (s.resolver depth) s.world keyword further rest).Ends (.ok (vs, [])))
    (gives : ∀ fetch, (s.read fetch reading
      ⟨keyword, ("pToken", .address address) :: vs⟩).Ends (.ok v)) :
    s.fetch (marketEvent market keyword rest) = .ok v := by
  obtain ⟨d, member, rfl, rfl, takes⟩ := shape
  have valid : d.validate = .ok () := Reading.valid_of_mem (.family .market) d member
  refine fetch_market member (sameWord_self _) (fun depth enough => ?_) gives
  rw [Event.sizes_cons] at enough
  have resolved : (s.resolver depth .market market).Ends (.ok (.address address)) :=
    ends_resolver resolves (by omega)
  refine resolveArgs_ok.mpr ⟨valid, _, ?_, rfl⟩
  rw [takes]
  exact resolveInOrder_first rfl rfl resolved (others depth (by omega))

/-- What is read of a market alone. -/
theorem fetch_alone (shape : Reading.OfMarket keyword reading [])
    (gives : ∀ fetch, (s.read fetch reading ⟨keyword, [("pToken", .address address)]⟩).Ends
      (.ok v)) :
    s.fetch (marketEvent market keyword []) = .ok v :=
  fetch_ofMarket resolves shape (fun _ _ => resolveInOrder_nil.mpr ⟨rfl, rfl⟩) gives

end Fetch

/-- Every reading of a market succeeds on an expression for it, and the readings that are told together
    are those that are told one by one. -/
structure Readable (s : Scene) (market : Event) (v : Value) : Prop where
  address : s.fetch (marketEvent market "Address" []) = .ok v
  /-- What an account holds of the market. -/
  balance : ∀ owner a, s.resolve .address owner = .ok (.address a) →
    ∃ n, s.fetch (marketEvent market "TokenBalance" [owner]) = .ok (.number n)
  /-- The plain readings, one by one and together. -/
  info : ∃ value : Reading.Plain → Value,
    (∀ r ∈ Reading.marketReadings, s.fetch (marketEvent market r.keyword []) = .ok (value r)) ∧
    s.fetch (marketEvent market "Info" []) =
      .ok (.map (Reading.marketReadings.map fun r => (r.keyword, value r)))

/-- A market that the world knows and the chain has, with its token, can be read by any name. -/
theorem Offers.readable (offers : s.Offers address m t)
    (resolves : s.resolve .market market = .ok (.address address)) :
    s.Readable market (.address address) := by
  refine ⟨?_, ?_, ?_⟩
  · have shape : Reading.OfMarket "Address" (.argument "pToken") [] :=
      ⟨_, List.mem_cons_self, rfl, rfl, rfl⟩
    exact fetch_alone resolves shape fun _ => rfl
  · intro owner a owns
    have shape : Reading.OfMarket "TokenBalance" (.view "pToken" "balanceOf" ["owner"] .number)
        [Reading.addressArg "owner"] :=
      ⟨_, List.mem_append_right _ List.mem_cons_self, rfl, rfl, rfl⟩
    have answer : s.view address "balanceOf" [.address a] = .ok (.number (m.balanceOf a)) :=
      offers.view (by decide) rfl
    refine ⟨.ofInt (m.balanceOf a), ?_⟩
    refine @fetch_ofMarket s address market _ _ _ resolves _ [owner] [("owner", .address a)] shape
      (fun depth enough => ?_) fun fetch => Eval.ends_ofExcept.mpr ?_
    · have resolved : (s.resolver depth .address owner).Ends (.ok (.address a)) :=
        ends_resolver owns (by simpa using enough)
      exact resolveInOrder_first rfl rfl resolved (resolveInOrder_nil.mpr ⟨rfl, rfl⟩)
    · show _ = (do Decoding.number.decode (← s.view address "balanceOf" [.address a]))
      rw [answer]
      rfl
  · choose! value gives using offers.reading
    have info : Reading.OfMarket "Info" .marketInfo [] :=
      ⟨_, List.mem_append_right _ (List.mem_cons_of_mem _ List.mem_cons_self), rfl, rfl, rfl⟩
    refine ⟨value, fun r member => ?_, ?_⟩
    · exact fetch_alone resolves (Reading.ofMarket_plain member) fun _ =>
        Eval.ends_ofExcept.mpr (gives r member).symm
    · exact fetch_alone resolves info fun _ => Eval.ends_ofExcept.mpr (marketInfo_eq gives).symm

end Scene

end MarketScript
