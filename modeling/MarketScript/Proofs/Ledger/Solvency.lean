import MarketScript.Proofs.Ledger.Holdings

/-!
# Solvency of markets

What all tokens of a market are worth is covered by what the market holds of its underlying token.
Rounding favours the market, so minting and redeeming keep it so.  Nothing else takes from a market
that sends nothing itself and lets nobody spend.
-/

namespace MarketScript

namespace Erc20

/-- No one may spend from an account. -/
def Locked (t : Erc20) (owner : Address) : Prop := ∀ spender, t.allowance owner spender = 0

variable {t : Erc20} {f : Frame} {p : Params} {o : Outcome Erc20} {source target owner : Address}
  {amount : Int}

/-- A move takes from its source only. -/
theorem balanceOf_move_ge (positive : 0 ≤ amount) (safe : owner ≠ source ∨ amount = 0) :
    t.balanceOf owner ≤ ((t.credit source (-amount)).credit target amount).balanceOf owner := by
  simp only [balanceOf_credit]
  rcases safe with apart | rfl
  · simp only [Ne.symm apart, if_false]
    split <;> omega
  · simp

/-- Spending within an allowance takes nothing from a locked account and leaves it locked. -/
theorem transferFrom_locked (paid : t.transferFrom f source target amount = .ok o)
    (positive : 0 ≤ amount) (locked : t.Locked owner) :
    o.state.Locked owner ∧ t.balanceOf owner ≤ o.state.balanceOf owner := by
  obtain ⟨allowed, -, rfl⟩ := transferFrom_eq_ok.mp paid
  have safe : owner ≠ source ∨ amount = 0 := by
    by_cases same : owner = source
    · subst same
      have := locked f.sender
      omega
    · exact .inl same
  refine ⟨?_, balanceOf_move_ge positive safe⟩
  intro spender
  rw [allowance_allow]
  split
  · rename_i same
    obtain ⟨rfl, rfl⟩ := same
    have := locked f.sender
    omega
  · exact locked spender

/-- What others send neither unlocks an account nor takes from it. -/
theorem Step.locked (step : t.Step f p o) (plain : ∀ n, .number n ∈ p.values → 0 ≤ n)
    (locked : t.Locked owner) (other : f.sender ≠ owner) :
    o.state.Locked owner ∧ t.balanceOf owner ≤ o.state.balanceOf owner := by
  cases step with
  | transfer method hasTarget hasAmount covered =>
    have positive := plain _ (Params.mem_of_number hasAmount)
    exact ⟨locked, balanceOf_move_ge positive (.inl other.symm)⟩
  | transferFrom method hasSource hasTarget hasAmount allowed covered =>
    have positive := plain _ (Params.mem_of_number hasAmount)
    exact transferFrom_locked (transferFrom_eq_ok.mpr ⟨allowed, covered, rfl⟩) positive locked
  | approve method hasSpender hasAmount =>
    refine ⟨?_, le_rfl⟩
    intro spender
    simp only [Erc20.approve, Outcome.done]
    rw [allowance_allow, if_neg fun same => other same.1]
    exact locked spender
  | @allocateTo target amount method faucet hasOwner hasAmount =>
    refine ⟨locked, ?_⟩
    have positive := plain amount (Params.mem_of_number hasAmount)
    show t.balanceOf owner ≤ (t.credit target amount).balanceOf owner
    rw [balanceOf_credit]
    split <;> omega

end Erc20

/-- No one may spend from an account, as far as a contract knows. -/
def Contract.Locked (owner : Address) : Contract → Prop
  | .token t => t.Locked owner
  | _ => True

theorem Contract.Fresh.locked {c : Contract} (h : c.Fresh) (owner : Address) : c.Locked owner := by
  cases c with
  | token t =>
    obtain ⟨-, -, allowances⟩ := h
    intro spender
    simp [Erc20.allowance, allowances]
  | market | controller | registry | rateModel => trivial

namespace Ledger

/-- What an owner holds of the token at an address, if one is there. -/
def cash (l : Ledger) (token owner : Address) : Int :=
  match l.get? token with
  | some (.token t) => t.balanceOf owner
  | _ => 0

/-- Every market holds what its tokens are worth. -/
def Solvent (l : Ledger) : Prop :=
  ∀ address m, l.get? address = some (.market m) →
    m.totalSupply * m.exchangeRate ≤ l.cash m.underlying address * expUnit

section Cash

variable {l : Ledger} {address : Address}

theorem cash_token {t : Erc20} (here : l.get? address = some (.token t)) (owner : Address) :
    l.cash address owner = t.balanceOf owner := by
  simp [cash, here]

theorem cash_nonneg (h : l.All Contract.NonNeg) (token owner : Address) : 0 ≤ l.cash token owner := by
  unfold cash
  split
  · rename_i t found
    exact Erc20.NonNeg.balance (h _ _ found) owner
  · exact le_rfl

/-- Only tokens make cash. -/
theorem cash_insert_other {c c' : Contract} (here : l.get? address = some c)
    (before : ∀ t, c ≠ .token t) (after : ∀ t, c' ≠ .token t) (token owner : Address) :
    cash (l.insert address c') token owner = l.cash token owner := by
  unfold cash
  rw [Store.get?_insert]
  by_cases same : address = token
  · subst same
    cases c <;> cases c' <;> simp_all
  · simp [same]

theorem cash_insert_token {t t' : Erc20} {owner : Address}
    (here : l.get? address = some (.token t)) (more : t.balanceOf owner ≤ t'.balanceOf owner)
    (token : Address) : l.cash token owner ≤ cash (l.insert address (.token t')) token owner := by
  unfold cash
  rw [Store.get?_insert]
  by_cases same : address = token
  · subst same
    simpa [here] using more
  · simp [same]

theorem cash_insert_fresh {c : Contract} (free : l.get? address = none) (fresh : c.Fresh)
    (token owner : Address) : cash (l.insert address c) token owner = l.cash token owner := by
  unfold cash
  rw [Store.get?_insert]
  by_cases same : address = token
  · subst same
    cases c with
    | token t =>
      obtain ⟨-, balances, -⟩ := fresh
      simp [free, Erc20.balanceOf, balances]
    | market | controller | registry | rateModel => simp [free]
  · simp [same]

end Cash

section Solvent

variable {l : Ledger} {address : Address}

theorem solvent_empty : Solvent .empty := by
  intro _ _ found
  cases found

theorem Solvent.insert_fresh (h : l.Solvent) {c : Contract} (free : l.get? address = none)
    (fresh : c.Fresh) (nonNeg : l.All Contract.NonNeg) : Solvent (l.insert address c) := by
  intro other m found
  rw [cash_insert_fresh free fresh]
  rw [Store.get?_insert] at found
  split at found
  · cases found
    obtain ⟨supply, -, -⟩ := fresh
    rw [supply, Int.zero_mul]
    exact Int.mul_nonneg (cash_nonneg nonNeg _ _) expUnit_pos.le
  · exact h other m found

/-- No market minds a change of a token that takes from none of them. -/
theorem Solvent.insert_token (h : l.Solvent) {t t' : Erc20}
    (here : l.get? address = some (.token t))
    (more : ∀ other m, l.get? other = some (.market m) → t.balanceOf other ≤ t'.balanceOf other) :
    Solvent (l.insert address (.token t')) := by
  intro other m found
  rw [Store.get?_insert] at found
  split at found
  · cases found
  · have covered := h other m found
    have hcash := cash_insert_token here (more other m found) m.underlying
    have := Int.mul_le_mul_of_nonneg_right hcash expUnit_pos.le
    omega

theorem Solvent.insert_controller (h : l.Solvent) {c c' : Controller}
    (here : l.get? address = some (.controller c)) :
    Solvent (l.insert address (.controller c')) := by
  intro other m found
  rw [cash_insert_other here (by simp) (by simp)]
  rw [Store.get?_insert] at found
  split at found
  · cases found
  · exact h other m found

/-- A market may deal with its token as long as it is covered itself and no other market loses. -/
theorem Solvent.deal (h : l.Solvent) {m m' : Market} {t t' : Erc20}
    (serves : l.Serves address m t) (same : m'.underlying = m.underlying)
    (covered : m'.totalSupply * m'.exchangeRate ≤ t'.balanceOf address * expUnit)
    (others : ∀ other m, other ≠ address → l.get? other = some (.market m) →
      t.balanceOf other ≤ t'.balanceOf other) :
    Solvent ((l.insert m.underlying (.token t')).insert address (.market m')) := by
  intro other m₂ found
  rw [cash_insert_other (serves.here_insert _) (by simp) (by simp)]
  rw [Store.get?_insert] at found
  split at found
  · rename_i this
    subst this
    cases found
    rw [same, cash_token (Store.get?_insert_self ..)]
    exact covered
  · rename_i apart
    rw [Store.get?_insert] at found
    split at found
    · cases found
    · have before := h other m₂ found
      have hcash := cash_insert_token serves.underlying (others other m₂ (Ne.symm apart) found)
        m₂.underlying
      have := Int.mul_le_mul_of_nonneg_right hcash expUnit_pos.le
      omega

end Solvent

variable {l after : Ledger} {sender target : Address} {p : Params} {result : Abi}
  {logs : List Log}

/-- What others send does not unlock an account. -/
theorem Step.locked (step : l.Step sender target p after result logs)
    (plain : ∀ n, .number n ∈ p.values → 0 ≤ n) {owner : Address} (other : sender ≠ owner)
    (locked : l.All (Contract.Locked owner)) : after.All (Contract.Locked owner) := by
  cases step with
  | token here step => exact (all_insert_iff locked).mpr (step.locked plain (locked _ _ here) other).1
  | controller => exact (all_insert_iff locked).mpr trivial
  | mintRefused | redeemRefused | redeemTooMuch | redeemNoCash => exact locked
  | mint serves method hasAmount paid =>
    have token := locked _ _ serves.underlying
    have positive := plain _ (Params.mem_of_number hasAmount)
    exact (all_insert_insert_iff locked serves.apart.symm).mpr
      ⟨(Erc20.transferFrom_locked paid positive token).1, trivial⟩
  | redeem serves method hasTokens held paid =>
    have token := locked _ _ serves.underlying
    obtain ⟨-, rfl⟩ := Erc20.transfer_eq_ok.mp paid
    exact (all_insert_insert_iff locked serves.apart.symm).mpr ⟨token, trivial⟩

/-- What others send to markets that let nobody spend keeps the markets solvent. -/
theorem Step.solvent (step : l.Step sender target p after result logs)
    (plain : ∀ n, .number n ∈ p.values → 0 ≤ n) (balanced : l.All Contract.Balanced)
    (silent : ∀ address m, l.get? address = some (.market m) →
      sender ≠ address ∧ l.All (Contract.Locked address))
    (h : l.Solvent) : after.Solvent := by
  cases step with
  | token here step =>
    refine h.insert_token here ?_
    intro address m found
    obtain ⟨other, locked⟩ := silent address m found
    exact (step.locked plain (locked _ _ here) other).2
  | controller here => exact h.insert_controller here
  | mintRefused | redeemRefused | redeemTooMuch | redeemNoCash => exact h
  | @mint m amount t o serves method hasAmount paid =>
    have positive := plain _ (Params.mem_of_number hasAmount)
    have rate : 0 < m.exchangeRate := Market.Balanced.rate (balanced _ _ serves.here)
    have apart := (silent target m serves.here).1
    refine h.deal serves rfl ?_ ?_
    · -- the market gains what is paid in, and the tokens for it are worth no more
      obtain ⟨-, -, rfl⟩ := Erc20.transferFrom_eq_ok.mp paid
      have before := h target m serves.here
      have gained := Market.tokensFor_mul_le rate positive
      rw [cash_token serves.underlying] at before
      simp [Erc20.balanceOf_credit, apart, Int.add_mul]
      omega
    · intro other m₂ _ found
      have locked := (silent other m₂ found).2 _ _ serves.underlying
      exact (Erc20.transferFrom_locked paid positive locked).2
  | @redeem m tokens t o serves method hasTokens held paid =>
    have positive := plain _ (Params.mem_of_number hasTokens)
    have rate : 0 < m.exchangeRate := Market.Balanced.rate (balanced _ _ serves.here)
    have apart := (silent target m serves.here).1
    obtain ⟨-, rfl⟩ := Erc20.transfer_eq_ok.mp paid
    refine h.deal serves rfl ?_ ?_
    · -- the market pays out no more than the tokens that it takes back are worth
      have before := h target m serves.here
      have lost := Market.amountFor_mul_le rate positive
      rw [cash_token serves.underlying] at before
      simp [Erc20.balanceOf_credit, apart, Int.add_mul]
      omega
    · intro other m₂ differs _
      exact Erc20.balanceOf_move_ge (Market.amountFor_nonneg rate positive) (.inl differs)

section Redeem

variable {m : Market} {tokens : Int}

/-- What an owner holds of market tokens is worth no more than what the market holds. -/
theorem Solvent.amountFor_le_cash (h : l.Solvent) (balanced : l.All Contract.Balanced)
    (nonNeg : l.All Contract.NonNeg) (here : l.get? target = some (.market m)) {owner : Address}
    (positive : 0 ≤ tokens) (held : tokens ≤ m.balanceOf owner) :
    m.amountFor tokens ≤ l.cash m.underlying target := by
  have rate : 0 < m.exchangeRate := Market.Balanced.rate (balanced _ _ here)
  have supply : m.totalSupply = m.balances.total := Market.Balanced.supply (balanced _ _ here)
  have all : ∀ other, 0 ≤ m.balanceOf other := Market.NonNeg.balance (nonNeg _ _ here)
  have share : m.balanceOf owner ≤ m.balances.total := Store.getD_le_total all owner
  have worth : m.amountFor tokens * expUnit ≤ l.cash m.underlying target * expUnit := calc
    _ ≤ tokens * m.exchangeRate := Market.amountFor_mul_le rate positive
    _ ≤ m.totalSupply * m.exchangeRate := Int.mul_le_mul_of_nonneg_right (by omega) rate.le
    _ ≤ l.cash m.underlying target * expUnit := h target m here
  exact Int.le_of_mul_le_mul_right worth expUnit_pos

/-- A contract that tells a balance tells no less than what it holds of a token. -/
theorem cash_le_view (nonNeg : l.All Contract.NonNeg) {token owner : Address} {answer : Abi}
    (asked : view (l.erase target) token ⟨"balanceOf", [.address owner]⟩ = .ok answer) :
    l.cash token owner ≤ answer.asNumber?.getD 0 := by
  unfold view at asked
  obtain ⟨c, found, asked⟩ := except_bind_eq_ok.mp asked
  have here := (get?_erase_eq_some.mp (contractAt_eq_ok.mp found)).2
  unfold cash
  rw [here]
  cases c with
  | token t =>
    cases asked
    exact le_rfl
  | market m =>
    cases asked
    exact Market.NonNeg.balance (nonNeg _ _ here) owner
  | controller | registry | rateModel => cases asked

/-- Where all markets are solvent, only the controller can refuse a redemption of what the sender
    holds. -/
theorem Step.redeem_refused (step : l.Step sender target p after result logs)
    (balanced : l.All Contract.Balanced) (nonNeg : l.All Contract.NonNeg) (h : l.Solvent)
    (here : l.get? target = some (.market m)) (method : p.method = "redeem")
    (hasTokens : p.number 0 = .ok tokens) (positive : 0 ≤ tokens)
    (held : tokens ≤ m.balanceOf sender) {log : Log} (told : log ∈ logs)
    (failure : log.event = "Failure") :
    ∃ info detail, InvokationError.ofLog .market log =
      .failure "CONTROLLER_REJECTION" info detail := by
  cases step with
  | token here' => cases here.symm.trans here'
  | controller here' => cases here.symm.trans here'
  | mintRefused _ other => simp [method] at other
  | mint _ other => simp [method] at other
  | redeemRefused _ _ _ _ _ refusal => exact Outcome.ofLog_refused refusal told
  | redeemTooMuch here' _ hasTokens' short refusal =>
    cases here.symm.trans here'
    cases hasTokens.symm.trans hasTokens'
    omega
  | redeemNoCash here' _ hasTokens' held' asked short refusal =>
    cases here.symm.trans here'
    cases hasTokens.symm.trans hasTokens'
    have covered := h.amountFor_le_cash balanced nonNeg here positive held
    have seen := cash_le_view nonNeg asked
    omega
  | redeem _ _ _ _ paid =>
    have completed := (Erc20.step_of_transfer paid).completed
    rcases List.mem_append.mp told with told | told
    · exact absurd failure (completed.1 log told)
    · cases List.mem_singleton.mp told
      simp at failure

end Redeem

end Ledger

end MarketScript
