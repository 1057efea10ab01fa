import Mathlib.Data.List.Nodup
import MarketScript.Proofs.Chain.Addresses
import MarketScript.Proofs.Chain.Holdings
import MarketScript.Proofs.Ledger.Solvency

/-!
# Solvency along runs

Along a run without negative amounts, in which no market sends a message of its own and no two
transactions draw the same address, every market can always pay out what its tokens are worth.
-/

namespace MarketScript

namespace Chain

variable {c : Chain} {r : Request}

/-- Nobody may spend from an account that has sent nothing. -/
theorem locked_ofRun (network : String) {rs : List Request} (plain : ∀ r ∈ rs, r.Plain)
    {account : Address} (silent : ∀ r ∈ rs, ¬ r.SentBy account) :
    (ofRun network rs).contracts.All (Contract.Locked account) := by
  induction rs using List.reverseRecOn with
  | nil => exact Ledger.all_empty
  | append_singleton rs r ih =>
    obtain ⟨plain, plain_r⟩ := List.forall_mem_append.mp plain
    obtain ⟨silent, silent_r⟩ := List.forall_mem_append.mp silent
    have before := ih plain silent
    replace plain_r := plain_r r List.mem_cons_self
    replace silent_r := silent_r r List.mem_cons_self
    rw [ofRun_concat]
    have change := (ofRun network rs).change_after r
    generalize ((ofRun network rs).after r).contracts = l at change ⊢
    cases change with
    | none => exact before
    | deployed creation =>
      exact (Ledger.all_insert_iff before).mpr ((Contract.fresh_of_create creation).locked _)
    | sent step => exact step.locked plain_r silent_r before

/-- One request of a run. -/
theorem solvent_after (seeded : c.Seeded) (distinct : (c.after r).DistinctSeeds)
    (balanced : c.contracts.All Contract.Balanced) (nonNeg : c.contracts.All Contract.NonNeg)
    (plain : r.Plain)
    (silent : ∀ address m, c.contracts.get? address = some (.market m) →
      ¬ r.SentBy address ∧ c.contracts.All (Contract.Locked address))
    (h : c.contracts.Solvent) : (c.after r).contracts.Solvent := by
  cases r with
  | send sender target method args =>
    have change := c.change_after (.send sender target method args)
    generalize (c.after (.send sender target method args)).contracts = l at change ⊢
    cases change with
    | none => exact h
    | sent step => exact step.solvent plain balanced silent h
  | deploy sender kind args =>
    cases creation : Contract.create kind sender ⟨"constructor", args⟩ with
    | error e => simpa only [after, deploy, creation] using h
    | ok made =>
      have free := seeded.free creation distinct
      rw [after_deploy c creation]
      exact h.insert_fresh free (Contract.fresh_of_create creation) nonNeg

/-- Every market is solvent after a run. -/
theorem solvent_ofRun (network : String) {rs : List Request} (plain : ∀ r ∈ rs, r.Plain)
    (distinct : (ofRun network rs).DistinctSeeds)
    (silent : ∀ address m, (ofRun network rs).contracts.get? address = some (.market m) →
      ∀ r ∈ rs, ¬ r.SentBy address) :
    (ofRun network rs).contracts.Solvent := by
  induction rs using List.reverseRecOn with
  | nil => exact Ledger.solvent_empty
  | append_singleton rs r ih =>
    rw [ofRun_concat] at distinct silent ⊢
    obtain ⟨plain, plain_r⟩ := List.forall_mem_append.mp plain
    have seeded := seeded_ofRun network rs
    -- a market of an earlier state is one to the end, so it has been silent all the time
    have silent' : ∀ address m, (ofRun network rs).contracts.get? address = some (.market m) →
        (∀ other ∈ rs, ¬ other.SentBy address) ∧ ¬ r.SentBy address := by
      intro address m found
      obtain ⟨m', found'⟩ := seeded.market_after distinct found
      obtain ⟨earlier, now⟩ := List.forall_mem_append.mp (silent address m' found')
      exact ⟨earlier, now r List.mem_cons_self⟩
    have before := ih plain distinct.of_after fun address m found => (silent' address m found).1
    refine solvent_after seeded distinct (balanced_ofRun network rs) (nonNeg_ofRun network plain)
      (plain_r r List.mem_cons_self) ?_ before
    intro address m found
    obtain ⟨earlier, now⟩ := silent' address m found
    exact ⟨now, locked_ofRun network plain earlier⟩

/-- After a run every market over a token holds at least what its tokens are worth, and nobody who
    gives back tokens that they hold is told that there is too little cash. -/
theorem markets_pay_out (network : String) {rs : List Request} (plain : ∀ r ∈ rs, r.Plain)
    (distinct : (ofRun network rs).DistinctSeeds)
    (silent : ∀ address m, (ofRun network rs).contracts.get? address = some (.market m) →
      ∀ r ∈ rs, ¬ r.SentBy address)
    {address : Address} {m : Market}
    (here : (ofRun network rs).contracts.get? address = some (.market m)) :
    (∀ t, (ofRun network rs).contracts.get? m.underlying = some (.token t) →
      m.totalSupply * m.exchangeRate ≤ t.balanceOf address * expUnit) ∧
    ∀ redeemer tokens rest receipt log, 0 ≤ tokens → tokens ≤ m.balanceOf redeemer →
      ((ofRun network rs).send redeemer address "redeem" (.number tokens :: rest)).1 =
        .ok receipt →
      receipt.log? "Failure" = some log →
      ∀ info detail, InvokationError.ofLog .market log ≠
        .failure "TOKEN_INSUFFICIENT_CASH" info detail := by
  have balanced := balanced_ofRun network rs
  have nonNeg := nonNeg_ofRun network plain
  have solvent := solvent_ofRun network plain distinct silent
  constructor
  · intro t underlying
    rw [← Ledger.cash_token underlying]
    exact solvent address m here
  · intro redeemer tokens rest receipt log positive held sent told info detail
    have failure : log.event = "Failure" := by simpa using List.find?_some told
    rcases send_cases _ redeemer address "redeem" (.number tokens :: rest) with
      ⟨e, undone, -⟩ | ⟨r, answer, step⟩
    · cases undone.symm.trans sent
    · cases answer.symm.trans sent
      obtain ⟨i, d, decoded⟩ := step.redeem_refused balanced nonNeg solvent here rfl rfl positive held
        (List.mem_of_find?_eq_some told) failure
      rw [decoded]
      simp

end Chain

/-- The market that a contract is, if it is one. -/
def Contract.asMarket? : Contract → Option Market
  | .market m => some m
  | _ => none

theorem Contract.asMarket?_eq_some {c : Contract} {m : Market} :
    c.asMarket? = some m ↔ c = .market m := by
  cases c <;> simp [asMarket?]

namespace Chain

section Lending

/-- An account that does everything in `lending`. -/
def lender : Address := ⟨1⟩

/-- The market that `lending` makes. -/
def lendingMarket : Address := contractAddress lender 2

/-- A run that makes a market over a token, lists it, and pays in so much that the market has to
    round. -/
def lending : List Request :=
  let token := contractAddress lender 0
  let controller := contractAddress lender 1
  [.deploy lender "FaucetToken" [.string "Zero", .string "ZRX", .number 18],
    .deploy lender "Controller" [],
    .deploy lender "PErc20" [.address token, .address .zero, .address controller, .address .zero,
      .number 300000000000000000, .number 0, .string "pZero", .string "pZRX", .number 8],
    .send lender controller "_supportMarket" [.address lendingMarket],
    .send lender token "allocateTo" [.address lender, .number 1000],
    .send lender token "approve" [.address lendingMarket, .number 1000],
    .send lender lendingMarket "mint" [.number 700]]

theorem lending_plain : ∀ r ∈ lending, r.Plain := by
  simp [lending, Request.Plain]

/-- The addresses that come up in the run. -/
theorem lending_addresses : (lender :: (List.range 7).map (contractAddress lender)).Nodup := by
  decide +kernel

theorem nonceOf_lending {account : Address} {nonce : Nat}
    (used : nonce < (ofRun "development" lending).nonceOf account) :
    account = lender ∧ nonce < 7 := by
  have few := nonceOf_ofRun_le "development" lending account
  have senders : lending.map Request.sender = List.replicate 7 lender := rfl
  rw [senders, List.count_replicate] at few
  split at few
  · rename_i same
    exact ⟨(eq_of_beq same).symm, by omega⟩
  · omega

theorem lending_distinct : (ofRun "development" lending).DistinctSeeds := by
  intro sender nonce sender' nonce' used used' same
  obtain ⟨rfl, small⟩ := nonceOf_lending used
  obtain ⟨rfl, small'⟩ := nonceOf_lending used'
  have nodup := (List.nodup_cons.mp lending_addresses).2
  exact ⟨rfl, List.inj_on_of_nodup_map nodup (List.mem_range.mpr small) (List.mem_range.mpr small')
    same⟩

theorem lending_silent {address : Address} {m : Market}
    (found : (ofRun "development" lending).contracts.get? address = some (.market m)) :
    ∀ r ∈ lending, ¬ r.SentBy address := by
  obtain ⟨sender, nonce, used, drawn⟩ := seeded_ofRun "development" lending address
    (by simp [kindAt, found])
  obtain ⟨rfl, small⟩ := nonceOf_lending used
  have apart : lender ≠ address := by
    rintro rfl
    exact (List.nodup_cons.mp lending_addresses).1
      (List.mem_map.mpr ⟨nonce, List.mem_range.mpr small, drawn.symm⟩)
  simp [lending, Request.SentBy, apart]

/-- What the run mints: 700 tokens at the rate 0.3. -/
theorem lending_market :
    ∃ m, (ofRun "development" lending).contracts.get? lendingMarket = some (.market m) ∧
      m.totalSupply = 2333 := by
  have supply : (((ofRun "development" lending).contracts.get? lendingMarket).bind
      Contract.asMarket?).map Market.totalSupply = some 2333 := by
    decide +kernel
  obtain ⟨m, isMarket, supply⟩ := Option.map_eq_some_iff.mp supply
  obtain ⟨c, found, isMarket⟩ := Option.bind_eq_some_iff.mp isMarket
  obtain rfl := Contract.asMarket?_eq_some.mp isMarket
  exact ⟨m, found, supply⟩

/-- The market of the run is worth its tokens. -/
theorem lending_pays_out :
    ∃ m, (ofRun "development" lending).contracts.get? lendingMarket = some (.market m) ∧
      m.totalSupply = 2333 ∧
      ∀ t, (ofRun "development" lending).contracts.get? m.underlying = some (.token t) →
        m.totalSupply * m.exchangeRate ≤ t.balanceOf lendingMarket * expUnit := by
  obtain ⟨m, found, supply⟩ := lending_market
  exact ⟨m, found, supply, (markets_pay_out "development" lending_plain lending_distinct
    (fun _ _ found => lending_silent found) found).1⟩

end Lending

end Chain

end MarketScript
