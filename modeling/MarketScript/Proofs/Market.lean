import MarketScript.Chain.Market
import MarketScript.Proofs.Store

/-!
# Accounts and exchange of a market

What a credit does to balances and supply, and how the amounts that a market exchanges compare:
both ways the market rounds in its own favour.
-/

namespace MarketScript

theorem expUnit_pos : 0 < expUnit := by decide

namespace Market

variable (m : Market) (owner : Address)

theorem balanceOf_credit (other : Address) (tokens : Int) :
    (m.credit owner tokens).balanceOf other =
      m.balanceOf other + if owner = other then tokens else 0 := by
  unfold credit balanceOf
  rw [Store.get?_insert]
  split <;> simp_all

@[simp] theorem totalSupply_credit (tokens : Int) :
    (m.credit owner tokens).totalSupply = m.totalSupply + tokens := rfl

theorem total_credit (tokens : Int) :
    (m.credit owner tokens).balances.total = m.balances.total + tokens := by
  simp only [credit, Store.total_insert, balanceOf]
  omega

@[simp] theorem exchangeRate_credit (tokens : Int) :
    (m.credit owner tokens).exchangeRate = m.exchangeRate := rfl

/-- The supply is the sum of all balances, and a market token is worth something. -/
structure Balanced : Prop where
  supply : m.totalSupply = m.balances.total
  rate : 0 < m.exchangeRate

variable {m}

theorem Balanced.credit (h : m.Balanced) (tokens : Int) : (m.credit owner tokens).Balanced := by
  refine ⟨?_, h.rate⟩
  rw [total_credit, totalSupply_credit, h.supply]

theorem tokensFor_nonneg (rate : 0 < m.exchangeRate) {amount : Int} (h : 0 ≤ amount) :
    0 ≤ m.tokensFor amount :=
  Int.tdiv_nonneg (Int.mul_nonneg h expUnit_pos.le) rate.le

theorem amountFor_nonneg (rate : 0 < m.exchangeRate) {tokens : Int} (h : 0 ≤ tokens) :
    0 ≤ m.amountFor tokens :=
  Int.tdiv_nonneg (Int.mul_nonneg h rate.le) expUnit_pos.le

/-- Market tokens are worth no more than what was paid for them. -/
theorem tokensFor_mul_le (rate : 0 < m.exchangeRate) {amount : Int} (h : 0 ≤ amount) :
    m.tokensFor amount * m.exchangeRate ≤ amount * expUnit := by
  unfold tokensFor
  rw [Int.tdiv_eq_ediv_of_nonneg (Int.mul_nonneg h expUnit_pos.le)]
  exact Int.ediv_mul_le _ rate.ne'

/-- Market tokens are paid out with no more than what they are worth. -/
theorem amountFor_mul_le (rate : 0 < m.exchangeRate) {tokens : Int} (h : 0 ≤ tokens) :
    m.amountFor tokens * expUnit ≤ tokens * m.exchangeRate := by
  unfold amountFor
  rw [Int.tdiv_eq_ediv_of_nonneg (Int.mul_nonneg h rate.le)]
  exact Int.ediv_mul_le _ expUnit_pos.ne'

/-- One market token more would be worth more than what was paid. -/
theorem lt_tokensFor_mul (rate : 0 < m.exchangeRate) {amount : Int} (h : 0 ≤ amount) :
    amount * expUnit < (m.tokensFor amount + 1) * m.exchangeRate := by
  unfold tokensFor
  rw [Int.tdiv_eq_ediv_of_nonneg (Int.mul_nonneg h expUnit_pos.le)]
  exact Int.lt_ediv_add_one_mul_self _ rate

/-- One unit more would be more than what the market tokens are worth. -/
theorem lt_amountFor_mul (rate : 0 < m.exchangeRate) {tokens : Int} (h : 0 ≤ tokens) :
    tokens * m.exchangeRate < (m.amountFor tokens + 1) * expUnit := by
  unfold amountFor
  rw [Int.tdiv_eq_ediv_of_nonneg (Int.mul_nonneg h rate.le)]
  exact Int.lt_ediv_add_one_mul_self _ expUnit_pos

section RoundTrip

variable (rate : 0 < m.exchangeRate) {amount : Int} (h : 0 ≤ amount)

include rate h

/-- What is paid in and taken out again has not become more. -/
theorem amountFor_tokensFor_le : m.amountFor (m.tokensFor amount) ≤ amount := by
  have paidOut := amountFor_mul_le rate (tokensFor_nonneg rate h)
  have paidIn := tokensFor_mul_le rate h
  exact Int.le_of_mul_le_mul_right (paidOut.trans paidIn) expUnit_pos

/-- It has lost less than one unit and the worth of one market token. -/
theorem sub_amountFor_tokensFor_lt :
    (amount - m.amountFor (m.tokensFor amount)) * expUnit < m.exchangeRate + expUnit := by
  have paidOut := lt_amountFor_mul rate (tokensFor_nonneg rate h)
  have paidIn := lt_tokensFor_mul rate h
  rw [Int.add_mul, Int.one_mul] at paidOut paidIn
  rw [Int.sub_mul]
  omega

end RoundTrip

end Market

end MarketScript
