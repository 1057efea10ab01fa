import MarketScript.Proofs.Ledger.Step

/-!
# Frames

A message comes across few contracts only: the one that it goes to, the neighbours of a market, and
the contract that a controller is asked to list.  It does the same whatever stands elsewhere, and
nothing elsewhere changes.
-/

namespace MarketScript

/-- The contracts that a contract turns to of its own accord. -/
def Contract.neighbours : Contract → List Address
  | .market m => [m.controller, m.underlying]
  | _ => []

/-- The contract that a message asks to list. -/
def Params.candidates (p : Params) : List Address :=
  if p.method = "_supportMarket" then (p.address 0).toOption.toList else []

theorem Params.mem_candidates {p : Params} {market : Address} (method : p.method = "_supportMarket")
    (hasMarket : p.address 0 = .ok market) : market ∈ p.candidates := by
  simp [candidates, method, hasMarket, Except.toOption]

/-- A controller asks only about the contract that it is to list. -/
theorem Controller.execute_congr {c : Controller} {f : Frame} {p : Params}
    {isMarket isMarket' : Address → Except ChainError Abi}
    (same : ∀ market ∈ p.candidates, isMarket market = isMarket' market) :
    c.execute f isMarket p = c.execute f isMarket' p := by
  unfold execute
  split
  case h_2 method =>
    congr 1
    cases hasMarket : p.address 0 with
    | error e => rfl
    | ok market =>
      have asked := same market (Params.mem_candidates method hasMarket)
      simp only [except_bind_ok, supportMarket, asked]
  all_goals rfl

namespace Ledger

/-- The contracts that a message can come across. -/
def footprint (l : Ledger) (target : Address) (p : Params) : List Address :=
  target :: (((l.get? target).map Contract.neighbours).getD [] ++ p.candidates)

section Elsewhere

variable (l : Ledger) {a : Address} (d : Contract)

theorem contractAt_insert {address : Address} (apart : a ≠ address) :
    contractAt (l.insert a d) address = l.contractAt address := by
  rw [contractAt, contractAt, Store.get?_insert, if_neg apart]

/-- The answer of a contract from its own state does not depend on other contracts. -/
theorem view_insert {address : Address} (apart : a ≠ address) {p : Params}
    (own : p.method ≠ "getCash") : view (l.insert a d) address p = l.view address p := by
  rw [view, view, contractAt_insert l d apart]
  refine bind_congr fun c => ?_
  cases c with
  | market m => simp only [if_neg own]
  | controller | token | registry | rateModel => rfl

theorem deliver_insert {target : Address} (apart : a ≠ target) (sender : Address) (p : Params) :
    deliver (l.insert a d) sender target p =
      Prod.map (·.insert a d) id <$> l.deliver sender target p := by
  rw [deliver, deliver, contractAt_insert l d apart, map_bind]
  refine bind_congr fun c => ?_
  cases c with
  | token t =>
    rw [map_bind]
    refine bind_congr fun o => ?_
    simp only [map_pure, Prod.map_apply, id_eq, Store.insert_erase]
    rw [Store.insert_comm l apart]
  | controller | market | registry | rateModel => rfl

end Elsewhere

section Market

variable {m : Market} (peers : Ledger) {a : Address} (d : Contract)

theorem controllerCode_insert (apart : a ≠ m.controller) (f : Frame) {method : String}
    (own : method ≠ "getCash") (amount : Int) :
    m.controllerCode (peers.insert a d) f method amount = m.controllerCode peers f method amount := by
  rw [Market.controllerCode, Market.controllerCode, view_insert peers d apart own]

theorem mint_insert (controller : a ≠ m.controller) (underlying : a ≠ m.underlying) (f : Frame)
    (amount : Int) :
    m.mint (peers.insert a d) f amount = Prod.map id (·.insert a d) <$> m.mint peers f amount := by
  rw [Market.mint, Market.mint, controllerCode_insert peers d controller f (by decide),
    deliver_insert peers d underlying, map_bind]
  refine bind_congr fun code => ?_
  split
  · simp only [map_bind, map_pure, Prod.map_apply, id_eq]
  · simp only [map_bind, bind_map_left, map_pure, Prod.map_apply, id_eq, Prod.map_fst, Prod.map_snd]

theorem redeem_insert (controller : a ≠ m.controller) (underlying : a ≠ m.underlying) (f : Frame)
    (tokens : Int) :
    m.redeem (peers.insert a d) f tokens =
      Prod.map id (·.insert a d) <$> m.redeem peers f tokens := by
  rw [Market.redeem, Market.redeem, controllerCode_insert peers d controller f (by decide),
    view_insert peers d underlying (by simp), map_bind]
  refine bind_congr fun code => ?_
  split
  · simp only [map_bind, map_pure, Prod.map_apply, id_eq]
  split
  · simp only [map_bind, map_pure, Prod.map_apply, id_eq]
  rw [map_bind]
  refine bind_congr fun cash => ?_
  split
  · simp only [map_bind, map_pure, Prod.map_apply, id_eq]
  · simp only [deliver_insert peers d underlying, map_bind, bind_map_left, map_pure, Prod.map_apply,
      id_eq, Prod.map_fst, Prod.map_snd]

end Market

/-- A contract does the same whatever stands where it does not turn to. -/
theorem execute_insert {c : Contract} (peers : Ledger) {a : Address} (d : Contract) (f : Frame)
    {p : Params} (apart : a ∉ c.neighbours ++ p.candidates) :
    c.execute (peers.insert a d) f p = Prod.map id (·.insert a d) <$> c.execute peers f p := by
  rw [List.mem_append, not_or] at apart
  cases c with
  | controller c =>
    -- the only question that a controller asks is put to a candidate
    have same : ∀ market ∈ p.candidates, view (peers.insert a d) market ⟨"isPToken", []⟩ =
        peers.view market ⟨"isPToken", []⟩ := by
      intro market asked
      apply view_insert peers d
      · rintro rfl
        exact apart.2 asked
      · simp
    simp only [Contract.execute, Controller.execute_congr same, map_bind, map_pure, Prod.map_apply,
      id_eq]
  | market m =>
    obtain ⟨controller, underlying⟩ : a ≠ m.controller ∧ a ≠ m.underlying := by
      simpa [Contract.neighbours] using apart.1
    have executed : m.execute (peers.insert a d) f p =
        Prod.map id (·.insert a d) <$> m.execute peers f p := by
      unfold Market.execute
      split
      · simp only [mint_insert peers d controller underlying, map_bind]
      · simp only [redeem_insert peers d controller underlying, map_bind]
      · rfl
    simp only [Contract.execute, executed, map_bind, bind_map_left, map_pure, Prod.map_apply, id_eq,
      Prod.map_fst, Prod.map_snd]
  | token t => simp only [Contract.execute, map_bind, map_pure, Prod.map_apply, id_eq]
  | registry | rateModel => rfl

section Send

variable (l : Ledger) {a : Address} (d : Contract) {target : Address} {p : Params}

theorem footprint_insert (apart : a ∉ l.footprint target p) :
    footprint (l.insert a d) target p = l.footprint target p := by
  have other : a ≠ target := by
    rintro rfl
    exact apart List.mem_cons_self
  rw [footprint, footprint, Store.get?_insert, if_neg other]

/-- A message does the same whatever stands where it does not come across. -/
theorem send_insert (sender : Address) (apart : a ∉ l.footprint target p) :
    send (l.insert a d) sender target p =
      Prod.map (·.insert a d) id <$> l.send sender target p := by
  rw [footprint, List.mem_cons, not_or] at apart
  obtain ⟨other, apart⟩ := apart
  rw [send, send, contractAt_insert l d other, Store.erase_insert l other]
  cases here : l.contractAt target with
  | error e => rfl
  | ok c =>
    rw [contractAt_eq_ok.mp here, Option.map_some, Option.getD_some] at apart
    simp only [except_bind_ok, execute_insert (l.erase target) d ⟨target, sender⟩ apart, map_bind,
      bind_map_left, map_pure, Prod.map_apply, id_eq, Prod.map_fst, Prod.map_snd]
    refine bind_congr fun done => ?_
    rw [Store.insert_comm _ other]

end Send

end Ledger

end MarketScript
