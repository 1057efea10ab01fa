import MarketScript.Proofs.Ledger.Step

/-!
# Supplies

The supply of a token or a market is at all times what its holders have together, whatever they
have sent: even messages with negative amounts keep it so.
-/

namespace MarketScript

/-- A contract as it is made: nobody holds or may spend anything yet. -/
def Contract.Fresh : Contract → Prop
  | .token t => t.totalSupply = 0 ∧ t.balances = .empty ∧ t.allowances = .empty
  | .market m => m.totalSupply = 0 ∧ m.balances = .empty ∧ 0 < m.exchangeRate
  | _ => True

/-- The supply is the sum of all balances. -/
def Contract.Balanced : Contract → Prop
  | .token t => t.Balanced
  | .market m => m.Balanced
  | _ => True

section Making

variable {scenario faucet : Bool} {admin : Address} {p : Params}

theorem Market.fresh_ofParams {m : Market} (h : Market.ofParams scenario admin p = .ok m) :
    (Contract.market m).Fresh := by
  unfold Market.ofParams at h
  obtain ⟨rate, _, h⟩ := except_bind_eq_ok.mp h
  split at h
  · simp at h
  · rename_i positive
    simp only [except_bind_eq_ok, except_pure_eq_ok] at h
    obtain ⟨_, -, _, -, _, -, _, -, _, -, _, -, _, -, _, -, _, -, rfl⟩ := h
    exact ⟨rfl, rfl, Int.not_le.mp positive⟩

theorem Erc20.fresh_ofParams {t : Erc20} (h : Erc20.ofParams faucet p = .ok t) :
    (Contract.token t).Fresh := by
  unfold Erc20.ofParams at h
  simp only [except_bind_eq_ok, except_pure_eq_ok] at h
  obtain ⟨_, -, _, -, _, -, rfl⟩ := h
  exact ⟨rfl, rfl, rfl⟩

theorem Contract.fresh_of_create {kind : String} {deployer : Address} {c : Contract}
    (h : Contract.create kind deployer p = .ok c) : c.Fresh := by
  unfold Contract.create at h
  split at h
  · cases h; trivial
  · cases h; trivial
  · obtain ⟨m, made, h⟩ := except_bind_eq_ok.mp h
    cases h
    exact Market.fresh_ofParams made
  · obtain ⟨m, made, h⟩ := except_bind_eq_ok.mp h
    cases h
    exact Market.fresh_ofParams made
  · obtain ⟨t, made, h⟩ := except_bind_eq_ok.mp h
    cases h
    exact Erc20.fresh_ofParams made
  · obtain ⟨t, made, h⟩ := except_bind_eq_ok.mp h
    cases h
    exact Erc20.fresh_ofParams made
  · cases h; trivial
  · obtain ⟨rate, _, h⟩ := except_bind_eq_ok.mp h
    cases h
    trivial
  · cases h

/-- A new controller belongs to the account that made it; nothing is set or listed yet. -/
theorem Contract.controller_of_create {kind : String} {deployer : Address} {c : Controller}
    (h : Contract.create kind deployer p = .ok (.controller c)) :
    ∃ scenario, c = { scenario, admin := deployer } := by
  unfold Contract.create at h
  split at h
  · cases h
    exact ⟨false, rfl⟩
  · cases h
    exact ⟨true, rfl⟩
  all_goals simp at h

theorem Contract.Fresh.balanced {c : Contract} (h : c.Fresh) : c.Balanced := by
  cases c with
  | token t =>
    obtain ⟨supply, balances, -⟩ := h
    simp [Balanced, Erc20.Balanced, supply, balances]
  | market m =>
    obtain ⟨supply, balances, rate⟩ := h
    exact ⟨by simp [supply, balances], rate⟩
  | controller | registry | rateModel => trivial

end Making

namespace Ledger

/-- A property that every contract of a ledger has. -/
def All (P : Contract → Prop) (l : Ledger) : Prop := ∀ address c, l.get? address = some c → P c

section All

variable {P : Contract → Prop} {l : Ledger}

theorem all_empty : All P .empty := by
  intro _ _ found
  cases found

theorem all_insert_iff (h : l.All P) {address : Address} {c : Contract} :
    All P (l.insert address c) ↔ P c := by
  constructor
  · intro all
    exact all address c (Store.get?_insert_self ..)
  · intro new other d found
    rw [Store.get?_insert] at found
    split at found
    · cases found
      exact new
    · exact h other d found

theorem all_insert_insert_iff (h : l.All P) {a b : Address} (apart : a ≠ b) {c d : Contract} :
    All P ((l.insert a c).insert b d) ↔ P c ∧ P d := by
  constructor
  · intro all
    refine ⟨all a c ?_, all b d (Store.get?_insert_self ..)⟩
    rw [Store.get?_insert, if_neg apart.symm, Store.get?_insert_self]
  · rintro ⟨hc, hd⟩
    exact (all_insert_iff ((all_insert_iff h).mpr hc)).mpr hd

end All

variable {l after : Ledger} {sender target : Address} {p : Params} {result : Abi}
  {logs : List Log}

theorem Step.balanced (step : l.Step sender target p after result logs)
    (h : l.All Contract.Balanced) : after.All Contract.Balanced := by
  cases step with
  | token here step => exact (all_insert_iff h).mpr (step.balanced (h _ _ here))
  | controller => exact (all_insert_iff h).mpr trivial
  | mintRefused | redeemRefused | redeemTooMuch | redeemNoCash => exact h
  | @mint m amount t o serves _ _ paid =>
    have token := (Erc20.step_of_transferFrom paid).balanced (h _ _ serves.underlying)
    have market : m.Balanced := h _ _ serves.here
    exact (all_insert_insert_iff h serves.apart.symm).mpr ⟨token, market.credit _ _⟩
  | @redeem m tokens t o serves _ _ _ paid =>
    have token := (Erc20.step_of_transfer paid).balanced (h _ _ serves.underlying)
    have market : m.Balanced := h _ _ serves.here
    exact (all_insert_insert_iff h serves.apart.symm).mpr ⟨token, market.credit _ _⟩

end Ledger

end MarketScript
