import MarketScript.Proofs.Chain.Addresses

/-!
# Tokens under markets

A market can be made for any address.  But as long as every market is made for a token, all markets
of a chain are over tokens: messages do not move a market to another token, and no contract takes the
place of another.
-/

namespace MarketScript

theorem Params.address_of_head? {method : String} {values : List Abi} {a : Address}
    (first : values.head? = some (.address a)) :
    Params.address ⟨method, values⟩ 0 = .ok a := by
  obtain ⟨rest, rfl⟩ := List.head?_eq_some_iff.mp first
  rfl

/-- The first thing that a market is made with is the address of its underlying token. -/
theorem Contract.underlying_of_create {kind : String} {deployer : Address} {p : Params} {m : Market}
    (made : Contract.create kind deployer p = .ok (.market m)) : p.address 0 = .ok m.underlying := by
  have ofParams : ∀ {scenario m}, Market.ofParams scenario deployer p = .ok m →
      p.address 0 = .ok m.underlying := by
    intro scenario m made
    obtain ⟨rate, -, made⟩ := except_bind_eq_ok.mp made
    split at made
    · simp at made
    · simp only [except_bind_eq_ok, except_pure_eq_ok] at made
      obtain ⟨underlying, given, _, -, _, -, _, -, _, -, _, -, _, -, _, -, rfl⟩ := made
      exact given
  unfold Contract.create at made
  split at made
  all_goals first
    | cases made
    | (obtain ⟨x, fromParams, made⟩ := except_bind_eq_ok.mp made
       cases made)
  · exact ofParams fromParams
  · exact ofParams fromParams

/-- A market after a message was there before it, and over the same token. -/
theorem Ledger.Step.market_before {l after : Ledger} {sender target : Address} {p : Params}
    {result : Abi} {logs : List Log} (step : l.Step sender target p after result logs)
    {address : Address} {m' : Market} (there : after.get? address = some (.market m')) :
    ∃ m, l.get? address = some (.market m) ∧ m'.underlying = m.underlying := by
  -- a market is put in its own place when a balance changes
  have credited : ∀ {l : Ledger} {m : Market} {owner : Address} {tokens : Int} {t : Erc20},
      l.get? target = some (.market m) →
      Store.get? ((l.insert m.underlying (.token t)).insert target
        (.market (m.credit owner tokens))) address = some (.market m') →
      ∃ m, l.get? address = some (.market m) ∧ m'.underlying = m.underlying := by
    intro l m owner tokens t here now
    rw [Store.get?_insert] at now
    split at now
    · rename_i same
      cases now
      exact ⟨m, same ▸ here, rfl⟩
    · exact ⟨m', get?_of_insert now (by simp [Contract.family]), rfl⟩
  cases step with
  | token here step => exact ⟨m', get?_of_insert there (by simp [Contract.family]), rfl⟩
  | controller here step => exact ⟨m', get?_of_insert there (by simp [Contract.family]), rfl⟩
  | mintRefused | redeemRefused | redeemTooMuch | redeemNoCash => exact ⟨m', there, rfl⟩
  | mint serves | redeem serves => exact credited serves.here there

namespace Chain

variable {c : Chain} {r : Request} {family : Family} {address : Address}

/-- At an address stands a contract with the role of a family. -/
def HasAt (c : Chain) (family : Family) (address : Address) : Prop :=
  ∃ contract, c.contracts.get? address = some contract ∧ contract.family = family

/-- The kind of a contract is enough to know its role. -/
theorem hasAt_of_kindAt {kind : String} (stands : c.kindAt address = some kind)
    (role : kind ∈ family.kinds) : c.HasAt family address := by
  obtain ⟨contract, here, rfl⟩ := Option.map_eq_some_iff.mp stands
  exact ⟨contract, here, Contract.kind_mem_kinds.mp role⟩

theorem HasAt.kindAt (h : c.HasAt family address) :
    ∃ kind, c.kindAt address = some kind ∧ kind ∈ family.kinds := by
  obtain ⟨contract, here, role⟩ := h
  exact ⟨contract.kind, by rw [Chain.kindAt, here]; rfl, Contract.kind_mem_kinds.mpr role⟩

theorem HasAt.controller (h : c.HasAt .controller address) :
    ∃ k, c.contracts.get? address = some (.controller k) := by
  obtain ⟨contract, here, role⟩ := h
  cases contract with
  | controller k => exact ⟨k, here⟩
  | _ => cases role

theorem HasAt.market (h : c.HasAt .market address) :
    ∃ m, c.contracts.get? address = some (.market m) := by
  obtain ⟨contract, here, role⟩ := h
  cases contract with
  | market m => exact ⟨m, here⟩
  | _ => cases role

theorem HasAt.token (h : c.HasAt .token address) :
    ∃ t, c.contracts.get? address = some (.token t) := by
  obtain ⟨contract, here, role⟩ := h
  cases contract with
  | token t => exact ⟨t, here⟩
  | _ => cases role

/-- A contract keeps its role, whatever is asked of the chain. -/
theorem HasAt.after (h : c.HasAt family address) (seeded : c.Seeded)
    (distinct : (c.after r).DistinctSeeds) : (c.after r).HasAt family address := by
  obtain ⟨kind, stands, role⟩ := h.kindAt
  have kept := seeded.kindAt_after distinct (by simp [stands] : c.kindAt address ≠ none)
  exact hasAt_of_kindAt (kept.trans stands) role

/-- Every market of the chain is over a token. -/
def Founded (c : Chain) : Prop :=
  ∀ address m, c.contracts.get? address = some (.market m) → c.HasAt .token m.underlying

end Chain

/-- If the request is to make a market, it is one for a token of the chain. -/
def Request.Founds (c : Chain) : Request → Prop
  | .deploy _ kind params => kind ∈ Family.market.kinds →
      ∃ token, params.head? = some (.address token) ∧ c.HasAt .token token
  | .send _ _ _ _ => True

/-- As long as every market is made for a token, every market is over one. -/
theorem Chain.Founded.after {c : Chain} {r : Request} (h : c.Founded) (seeded : c.Seeded)
    (distinct : (c.after r).DistinctSeeds) (founds : r.Founds c) : (c.after r).Founded := by
  intro address m there
  have change := change_after c r
  generalize (c.after r).contracts = l at change there
  cases change with
  | none => exact (h address m there).after seeded distinct
  | @deployed sender kind params made creation =>
    rw [Store.get?_insert] at there
    split at there
    · cases there
      have role : kind ∈ Family.market.kinds := by
        rw [← Contract.kind_of_create creation]
        exact Contract.kind_mem_kinds.mpr rfl
      obtain ⟨token, first, stands⟩ := founds role
      have given := Contract.underlying_of_create creation
      rw [Params.address_of_head? first] at given
      cases given
      exact stands.after seeded distinct
    · exact (h address m there).after seeded distinct
  | sent step =>
    obtain ⟨before, here, same⟩ := step.market_before there
    rw [same]
    exact (h address before here).after seeded distinct

end MarketScript
