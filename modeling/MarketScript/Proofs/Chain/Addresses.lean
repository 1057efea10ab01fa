import Mathlib.Data.List.Nodup
import MarketScript.Proofs.Chain.Run

/-!
# Addresses of contracts

Every contract stands at an address that was drawn from a transaction of the account that made it.
As long as no two transactions draw the same address, a new contract never takes the place of
another, and a contract stays what it is.
-/

namespace MarketScript

/-- A new contract is of the kind that was asked for. -/
theorem Contract.kind_of_create {kind : String} {deployer : Address} {p : Params} {c : Contract}
    (h : Contract.create kind deployer p = .ok c) : c.kind = kind := by
  have ofMarket : ∀ {scenario m}, Market.ofParams scenario deployer p = .ok m →
      m.scenario = scenario := by
    intro scenario m made
    obtain ⟨rate, -, made⟩ := except_bind_eq_ok.mp made
    split at made
    · simp at made
    · simp only [except_bind_eq_ok, except_pure_eq_ok] at made
      obtain ⟨_, -, _, -, _, -, _, -, _, -, _, -, _, -, _, -, _, -, rfl⟩ := made
      rfl
  have ofToken : ∀ {faucet t}, Erc20.ofParams faucet p = .ok t → t.faucet = faucet := by
    intro faucet t made
    simp only [Erc20.ofParams, except_bind_eq_ok, except_pure_eq_ok] at made
    obtain ⟨_, -, _, -, _, -, rfl⟩ := made
    rfl
  unfold Contract.create at h
  split at h
  · cases h; rfl
  · cases h; rfl
  · obtain ⟨m, made, h⟩ := except_bind_eq_ok.mp h
    cases h
    simp [Contract.kind, Market.kind, ofMarket made]
  · obtain ⟨m, made, h⟩ := except_bind_eq_ok.mp h
    cases h
    simp [Contract.kind, Market.kind, ofMarket made]
  · obtain ⟨t, made, h⟩ := except_bind_eq_ok.mp h
    cases h
    simp [Contract.kind, Erc20.kind, ofToken made]
  · obtain ⟨t, made, h⟩ := except_bind_eq_ok.mp h
    cases h
    simp [Contract.kind, Erc20.kind, ofToken made]
  · cases h; rfl
  · obtain ⟨rate, _, h⟩ := except_bind_eq_ok.mp h
    cases h
    rfl
  · cases h

namespace Chain

/-- No two transactions of the accounts of a chain draw the same address. -/
def DistinctSeeds (c : Chain) : Prop :=
  ∀ sender nonce sender' nonce', nonce < c.nonceOf sender → nonce' < c.nonceOf sender' →
    contractAddress sender nonce = contractAddress sender' nonce' →
    sender = sender' ∧ nonce = nonce'

/-- Where one account has sent all transactions, it is enough that its addresses are distinct. -/
theorem distinctSeeds_of_one {c : Chain} {account : Address} {count : Nat}
    (all : c.nonces.entries = [(account, count)])
    (distinct : ((List.range count).map (contractAddress account)).Nodup) : c.DistinctSeeds := by
  have only : ∀ {sender nonce}, nonce < c.nonceOf sender → sender = account ∧ nonce < count := by
    intro sender nonce used
    rw [nonceOf, Store.get?, all, Store.find, Store.find] at used
    split at used
    · rename_i same
      exact ⟨Std.LawfulEqCmp.eq_of_compare same, used⟩
    · exact absurd used (Nat.not_lt_zero _)
  intro sender nonce sender' nonce' used used' same
  obtain ⟨rfl, small⟩ := only used
  obtain ⟨rfl, small'⟩ := only used'
  exact ⟨rfl, List.inj_on_of_nodup_map distinct (List.mem_range.mpr small)
    (List.mem_range.mpr small') same⟩

/-- Every contract stands at an address drawn from a transaction. -/
def Seeded (c : Chain) : Prop :=
  ∀ address, c.kindAt address ≠ none →
    ∃ sender nonce, nonce < c.nonceOf sender ∧ address = contractAddress sender nonce

variable {c : Chain} {r : Request}

theorem DistinctSeeds.of_after (h : (c.after r).DistinctSeeds) : c.DistinctSeeds := by
  intro sender nonce sender' nonce' hn hn' same
  have more := nonceOf_le_after c r sender
  have more' := nonceOf_le_after c r sender'
  exact h sender nonce sender' nonce' (by omega) (by omega) same

theorem DistinctSeeds.of_afterAll {rs : List Request} (h : (c.afterAll rs).DistinctSeeds) :
    c.DistinctSeeds := by
  induction rs generalizing c with
  | nil => exact h
  | cons r rs ih => exact (ih h).of_after

theorem kindAt_send (c : Chain) (sender target address : Address) (method : String)
    (args : List Abi) :
    (c.send sender target method args).2.kindAt address = c.kindAt address := by
  unfold send
  cases sent : c.contracts.send sender target ⟨method, args⟩ with
  | error e => rfl
  | ok found => exact (Ledger.step_of_send sent).kind_at address

/-- A deployment is refused, or a contract of its kind is made. -/
theorem deploy_cases (c : Chain) (sender : Address) (kind : String) (args : List Abi) :
    (∃ e, c.deploy sender kind args = (.error e, c)) ∨
    ∃ receipt address, c.deploy sender kind args =
        (.ok receipt, c.after (.deploy sender kind args)) ∧
      receipt.contractAddress = some address ∧ receipt.log? "Failure" = none ∧
      (c.after (.deploy sender kind args)).kindAt address = some kind := by
  cases creation : Contract.create kind sender ⟨"constructor", args⟩ with
  | error e =>
    left
    exact ⟨e, by simp only [deploy, creation]⟩
  | ok made =>
    right
    refine ⟨_, _, deploy_of_create c creation, rfl, rfl, ?_⟩
    rw [after_deploy c creation]
    simp [kindAt, Contract.kind_of_create creation]

theorem Seeded.after (h : c.Seeded) (r : Request) : (c.after r).Seeded := by
  intro address found
  cases r with
  | send sender target method args =>
    rw [Chain.after, kindAt_send] at found
    obtain ⟨maker, nonce, used, drawn⟩ := h address found
    exact ⟨maker, nonce, used.trans_le (nonceOf_le_after c _ maker), drawn⟩
  | deploy sender kind args =>
    cases creation : Contract.create kind sender ⟨"constructor", args⟩ with
    | error e =>
      simp only [Chain.after, deploy, creation] at found ⊢
      exact h address found
    | ok made =>
      by_cases new : contractAddress sender (c.nonceOf sender) = address
      · refine ⟨sender, c.nonceOf sender, ?_, new.symm⟩
        rw [after_deploy c creation]
        exact Nat.lt_of_succ_le (nonceOf_useNonce_self c sender).ge
      · rw [after_deploy c creation, kindAt, Store.get?_insert, if_neg new] at found
        obtain ⟨maker, nonce, used, drawn⟩ := h address found
        exact ⟨maker, nonce, used.trans_le (nonceOf_le_after c _ maker), drawn⟩

theorem Seeded.afterAll (h : c.Seeded) (rs : List Request) : (c.afterAll rs).Seeded := by
  induction rs generalizing c with
  | nil => exact h
  | cons r rs ih => exact ih (h.after r)

theorem seeded_ofRun (network : String) (rs : List Request) : (ofRun network rs).Seeded := by
  induction rs using List.reverseRecOn with
  | nil => exact fun address found => absurd rfl found
  | append_singleton rs r ih =>
    rw [ofRun_concat]
    exact ih.after r

/-- A new contract stands where none stood. -/
theorem Seeded.free (h : c.Seeded) {sender : Address} {kind : String} {args : List Abi}
    {made : Contract} (creation : Contract.create kind sender ⟨"constructor", args⟩ = .ok made)
    (distinct : (c.after (.deploy sender kind args)).DistinctSeeds) :
    c.contracts.get? (contractAddress sender (c.nonceOf sender)) = none := by
  cases found : c.contracts.get? (contractAddress sender (c.nonceOf sender)) with
  | none => rfl
  | some old =>
    have stands : c.kindAt (contractAddress sender (c.nonceOf sender)) ≠ none := by
      simp [kindAt, found]
    obtain ⟨maker, nonce, used, drawn⟩ := h _ stands
    have more := nonceOf_le_after c (.deploy sender kind args) maker
    have last : (c.after (.deploy sender kind args)).nonceOf sender = c.nonceOf sender + 1 := by
      rw [after_deploy c creation]
      exact nonceOf_useNonce_self c sender
    obtain ⟨rfl, rfl⟩ := distinct _ _ _ _ (by omega) (used.trans_le more) drawn
    exact absurd used (Nat.lt_irrefl _)

/-- A contract keeps its kind, whatever is asked of the chain. -/
theorem Seeded.kindAt_after (h : c.Seeded) (distinct : (c.after r).DistinctSeeds)
    {address : Address} (stands : c.kindAt address ≠ none) :
    (c.after r).kindAt address = c.kindAt address := by
  cases r with
  | send sender target method args => exact kindAt_send c sender target address method args
  | deploy sender kind args =>
    cases creation : Contract.create kind sender ⟨"constructor", args⟩ with
    | error e => simp only [Chain.after, deploy, creation]
    | ok made =>
      have free := h.free creation distinct
      have apart : contractAddress sender (c.nonceOf sender) ≠ address := by
        rintro rfl
        simp [kindAt, free] at stands
      rw [after_deploy c creation]
      simp [kindAt, Store.get?_insert, apart]

/-- A contract keeps its kind all along a run. -/
theorem Seeded.kindAt_afterAll (h : c.Seeded) {rs : List Request}
    (distinct : (c.afterAll rs).DistinctSeeds) {address : Address}
    (stands : c.kindAt address ≠ none) : (c.afterAll rs).kindAt address = c.kindAt address := by
  induction rs generalizing c with
  | nil => rfl
  | cons r rs ih =>
    have next : (c.after r).DistinctSeeds := DistinctSeeds.of_afterAll distinct
    have kept := h.kindAt_after next stands
    rw [← kept] at stands
    exact (ih (h.after r) distinct stands).trans kept

/-- A market remains a market. -/
theorem Seeded.market_after (h : c.Seeded) (distinct : (c.after r).DistinctSeeds)
    {address : Address} {m : Market} (found : c.contracts.get? address = some (.market m)) :
    ∃ m', (c.after r).contracts.get? address = some (.market m') := by
  have stands : c.kindAt address ≠ none := by simp [kindAt, found]
  have kept := h.kindAt_after distinct stands
  simp only [kindAt, found, Option.map_some, Option.map_eq_some_iff] at kept
  obtain ⟨c', found', same⟩ := kept
  obtain ⟨m', rfl⟩ := Contract.market_of_kind same
  exact ⟨m', found'⟩

end Chain

end MarketScript
