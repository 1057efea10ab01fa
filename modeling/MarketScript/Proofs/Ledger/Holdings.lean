import MarketScript.Proofs.Erc20.Holdings
import MarketScript.Proofs.Ledger.Supply

/-!
# Negative amounts in messages to a market

A market that mints or redeems a negative amount moves tokens the other way.  Which messages then
make something negative, in the market or in the token it is over.
-/

namespace MarketScript

namespace Market

/-- No balance of a market and no supply is negative. -/
structure NonNeg (m : Market) : Prop where
  supply : 0 ≤ m.totalSupply
  balance : ∀ owner, 0 ≤ m.balanceOf owner

/-- A message to a market over a token that adds a negative amount in either where there is too
    little for it. -/
def Overdraws (m : Market) (t : Erc20) (f : Frame) (p : Params) : Prop :=
  match p.method with
  | "mint" => ∃ amount, p.number 0 = .ok amount ∧
      (f.sender ≠ f.this ∧ t.balanceOf f.this + amount < 0 ∨
        m.balanceOf f.sender + m.tokensFor amount < 0)
  | "redeem" => ∃ tokens, p.number 0 = .ok tokens ∧
      f.sender ≠ f.this ∧ t.balanceOf f.sender + m.amountFor tokens < 0
  | _ => False

variable {m : Market}

theorem overdraws_mint {t : Erc20} {f : Frame} {p : Params} {amount : Int}
    (method : p.method = "mint") (hasAmount : p.number 0 = .ok amount) :
    m.Overdraws t f p ↔ f.sender ≠ f.this ∧ t.balanceOf f.this + amount < 0 ∨
      m.balanceOf f.sender + m.tokensFor amount < 0 := by
  simp [Overdraws, method, hasAmount]

theorem overdraws_redeem {t : Erc20} {f : Frame} {p : Params} {tokens : Int}
    (method : p.method = "redeem") (hasTokens : p.number 0 = .ok tokens) :
    m.Overdraws t f p ↔ f.sender ≠ f.this ∧ t.balanceOf f.sender + m.amountFor tokens < 0 := by
  simp [Overdraws, method, hasTokens]

theorem nonNeg_iff (balanced : m.Balanced) : m.NonNeg ↔ ∀ owner, 0 ≤ m.balanceOf owner := by
  constructor
  · exact NonNeg.balance
  · intro balance
    refine ⟨?_, balance⟩
    rw [balanced.supply]
    exact Store.total_nonneg balance

theorem nonNeg_credit_iff (balanced : m.Balanced) (h : m.NonNeg) (owner : Address) (tokens : Int) :
    (m.credit owner tokens).NonNeg ↔ ¬ m.balanceOf owner + tokens < 0 := by
  rw [nonNeg_iff (balanced.credit owner tokens)]
  exact Store.nonneg_add_iff h.balance owner tokens

end Market

/-- Nothing that a contract keeps account of is negative. -/
def Contract.NonNeg : Contract → Prop
  | .token t => t.NonNeg
  | .market m => m.NonNeg
  | _ => True

theorem Contract.Fresh.nonNeg {c : Contract} (h : c.Fresh) : c.NonNeg := by
  cases c with
  | token t =>
    obtain ⟨supply, balances, allowances⟩ := h
    refine ⟨by simp [supply], fun owner => ?_, fun owner spender => ?_⟩
    · simp [Erc20.balanceOf, balances]
    · simp [Erc20.allowance, allowances]
  | market m =>
    obtain ⟨supply, balances, -⟩ := h
    refine ⟨by simp [supply], fun owner => ?_⟩
    simp [Market.balanceOf, balances]
  | controller | registry | rateModel => trivial

namespace Ledger

/-- A message to a token, or to a listed market over a token, that overdraws. -/
def Overdraws (l : Ledger) (sender target : Address) (p : Params) : Prop :=
  (∃ t, l.get? target = some (.token t) ∧ t.Overdraws sender p) ∨
    ∃ m t, l.Serves target m t ∧ m.Overdraws t ⟨target, sender⟩ p

variable {l after : Ledger} {sender target : Address} {p : Params} {result : Abi}
  {logs : List Log}

theorem overdraws_token {t : Erc20} (here : l.get? target = some (.token t)) :
    l.Overdraws sender target p ↔ t.Overdraws sender p := by
  constructor
  · rintro (⟨t', here', overdraws⟩ | ⟨m, _, serves, -⟩)
    · cases here.symm.trans here'
      exact overdraws
    · cases here.symm.trans serves.here
  · intro overdraws
    exact .inl ⟨t, here, overdraws⟩

theorem overdraws_market {m : Market} (here : l.get? target = some (.market m)) :
    l.Overdraws sender target p ↔ ∃ t, l.Serves target m t ∧ m.Overdraws t ⟨target, sender⟩ p := by
  constructor
  · rintro (⟨_, here', -⟩ | ⟨m', t, serves, overdraws⟩)
    · cases here.symm.trans here'
    · cases here.symm.trans serves.here
      exact ⟨t, serves, overdraws⟩
  · rintro ⟨t, serves, overdraws⟩
    exact .inr ⟨m, t, serves, overdraws⟩

theorem overdraws_serves {m : Market} {t : Erc20} (serves : l.Serves target m t) :
    l.Overdraws sender target p ↔ m.Overdraws t ⟨target, sender⟩ p := by
  rw [overdraws_market serves.here]
  constructor
  · rintro ⟨t', serves', overdraws⟩
    cases serves.underlying.symm.trans serves'.underlying
    exact overdraws
  · intro overdraws
    exact ⟨t, serves, overdraws⟩

/-- Without negative amounts nothing is overdrawn. -/
theorem not_overdraws (balanced : l.All Contract.Balanced) (h : l.All Contract.NonNeg)
    (amounts : ∀ n, .number n ∈ p.values → 0 ≤ n) : ¬ l.Overdraws sender target p := by
  rintro (⟨t, here, overdraws⟩ | ⟨m, t, serves, overdraws⟩)
  · have token : t.NonNeg := h _ _ here
    exact t.not_overdraws token amounts overdraws
  · have token : t.NonNeg := h _ _ serves.underlying
    have market : m.NonNeg := h _ _ serves.here
    have rate := Market.Balanced.rate (balanced _ _ serves.here)
    unfold Market.Overdraws at overdraws
    split at overdraws
    · obtain ⟨amount, hasAmount, short⟩ := overdraws
      have hamount := amounts amount (Params.mem_of_number hasAmount)
      have := Market.tokensFor_nonneg rate hamount
      have := token.balance target
      have := market.balance sender
      simp only at short
      omega
    · obtain ⟨tokens, hasTokens, -, short⟩ := overdraws
      have htokens := amounts tokens (Params.mem_of_number hasTokens)
      have := Market.amountFor_nonneg rate htokens
      have := token.balance sender
      simp only at short
      omega
    · exact overdraws

/-- Of the messages that are not undone, exactly those that overdraw make something negative. -/
theorem Step.nonNeg_iff (step : l.Step sender target p after result logs)
    (balanced : l.All Contract.Balanced) (h : l.All Contract.NonNeg) :
    after.All Contract.NonNeg ↔ ¬ l.Overdraws sender target p := by
  cases step with
  | token here step =>
    rw [all_insert_iff h, overdraws_token here]
    exact step.nonNeg_iff (balanced _ _ here) (h _ _ here)
  | controller here step =>
    refine iff_of_true ((all_insert_iff h).mpr trivial) ?_
    rintro (⟨_, here', -⟩ | ⟨_, _, serves, -⟩)
    · cases here.symm.trans here'
    · cases here.symm.trans serves.here
  | mintRefused here method hasAmount asked unlisted refusal =>
    refine iff_of_true h ?_
    rw [overdraws_market here]
    rintro ⟨t, serves, -⟩
    rw [(controllerCode_eq_zero (.inl rfl)).mpr serves.listed_erase] at asked
    cases asked
    exact unlisted rfl
  | redeemRefused here method hasTokens asked unlisted refusal =>
    refine iff_of_true h ?_
    rw [overdraws_market here]
    rintro ⟨t, serves, -⟩
    rw [(controllerCode_eq_zero (.inr rfl)).mpr serves.listed_erase] at asked
    cases asked
    exact unlisted rfl
  | @redeemTooMuch m tokens _ here method hasTokens short refusal =>
    refine iff_of_true h ?_
    rw [overdraws_market here]
    rintro ⟨t, serves, overdraws⟩
    obtain ⟨-, taken⟩ := (Market.overdraws_redeem method hasTokens).mp overdraws
    have token : t.NonNeg := h _ _ serves.underlying
    have market : m.NonNeg := h _ _ here
    have hcash := token.balance sender
    have hheld := market.balance sender
    have hamount := Market.amountFor_nonneg (Market.Balanced.rate (balanced _ _ here))
      (hheld.trans short.le)
    simp only at taken
    omega
  | redeemNoCash here method hasTokens held asked short refusal =>
    refine iff_of_true h ?_
    rw [overdraws_market here]
    rintro ⟨t, serves, overdraws⟩
    obtain ⟨-, taken⟩ := (Market.overdraws_redeem method hasTokens).mp overdraws
    rw [serves.view_cash] at asked
    cases asked
    have token : t.NonNeg := h _ _ serves.underlying
    have hcash := token.balance target
    have hsender := token.balance sender
    simp only [Abi.asNumber?, Option.getD_some] at short taken
    omega
  | @mint m amount t o serves method hasAmount paid =>
    have token : t.NonNeg := h _ _ serves.underlying
    have market : m.NonNeg := h _ _ serves.here
    have step := Erc20.step_of_transferFrom paid
    rw [all_insert_insert_iff h serves.apart.symm, overdraws_serves serves,
      Market.overdraws_mint method hasAmount]
    have htoken := step.nonNeg_iff (balanced _ _ serves.underlying) token
    have hmarket := Market.nonNeg_credit_iff (balanced _ _ serves.here) market sender
      (m.tokensFor amount)
    simp only [Contract.NonNeg]
    rw [htoken, hmarket, Erc20.overdraws_transferFrom, not_or]
  | @redeem m tokens t o serves method hasTokens held paid =>
    have token : t.NonNeg := h _ _ serves.underlying
    have market : m.NonNeg := h _ _ serves.here
    have step := Erc20.step_of_transfer paid
    rw [all_insert_insert_iff h serves.apart.symm, overdraws_serves serves,
      Market.overdraws_redeem method hasTokens]
    have htoken := step.nonNeg_iff (balanced _ _ serves.underlying) token
    have hmarket := Market.nonNeg_credit_iff (balanced _ _ serves.here) market sender (-tokens)
    simp only [Contract.NonNeg]
    rw [htoken, hmarket, Erc20.overdraws_transfer]
    simp only [ne_comm]
    constructor
    · exact And.left
    · intro fits
      exact ⟨fits, by omega⟩

/-- A message that overdraws is carried out: no test stands in its way. -/
theorem send_of_overdraws (balanced : l.All Contract.Balanced) (h : l.All Contract.NonNeg)
    (overdraws : l.Overdraws sender target p) :
    ∃ after result logs, l.send sender target p = .ok (after, result, logs) := by
  rcases overdraws with ⟨t, here, overdraws⟩ | ⟨m, t, serves, overdraws⟩
  · obtain ⟨o, step⟩ := Erc20.step_of_overdraws (f := ⟨target, sender⟩) (h _ _ here) overdraws
    exact ⟨_, _, _, send_token here step⟩
  have token : t.NonNeg := h _ _ serves.underlying
  have market : m.NonNeg := h _ _ serves.here
  have rate := Market.Balanced.rate (balanced _ _ serves.here)
  unfold Market.Overdraws at overdraws
  split at overdraws
  · rename_i method
    obtain ⟨amount, hasAmount, short⟩ := overdraws
    -- either way the amount is negative, so that balance and allowance cover it
    have hamount : amount < 0 := by
      by_contra hle
      have := Market.tokensFor_nonneg rate (Int.not_lt.mp hle)
      have := token.balance target
      have := market.balance sender
      simp only at short
      omega
    have hallowance := token.allowance sender target
    have hbalance := token.balance sender
    have paid : t.transferFrom ⟨m.underlying, target⟩ sender target amount = .ok _ :=
      Erc20.transferFrom_eq_ok.mpr ⟨by simp only; omega, by omega, rfl⟩
    exact ⟨_, _, _, send_mint serves method hasAmount paid⟩
  · rename_i method
    obtain ⟨tokens, hasTokens, -, short⟩ := overdraws
    have hsender := token.balance sender
    have hcash := token.balance target
    have hheld := market.balance sender
    have htokens : tokens < 0 := by
      by_contra hle
      have := Market.amountFor_nonneg rate (Int.not_lt.mp hle)
      simp only at short
      omega
    have paid : t.transfer ⟨m.underlying, target⟩ sender (m.amountFor tokens) = .ok _ :=
      Erc20.transfer_eq_ok.mpr ⟨by simp only at short ⊢; omega, rfl⟩
    exact ⟨_, _, _, send_redeem serves method hasTokens (by omega) paid⟩
  · exact overdraws.elim

end Ledger

end MarketScript
