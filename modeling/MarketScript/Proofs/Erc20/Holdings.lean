import MarketScript.Proofs.Erc20.Step

/-!
# Negative amounts in messages to a token

A token compares an amount with what there is to take it from, and with nothing else.  A negative
amount passes this test and takes from the other side, where there may be too little.
-/

namespace MarketScript

/-- A number that a message gives is one of its values. -/
theorem Params.mem_of_number {p : Params} {i : Nat} {n : Int} (h : p.number i = .ok n) :
    .number n ∈ p.values := by
  unfold Params.number Params.get at h
  obtain ⟨value, found, h⟩ := except_bind_eq_ok.mp h
  split at found
  · rename_i hvalue
    cases found
    cases value with
    | number m =>
      cases h
      exact List.mem_of_getElem? hvalue
    | string | bool | address | array | unit => cases h
  · cases found

namespace Erc20

/-- Nothing that a token keeps account of is negative. -/
structure NonNeg (t : Erc20) : Prop where
  supply : 0 ≤ t.totalSupply
  balance : ∀ owner, 0 ≤ t.balanceOf owner
  allowance : ∀ owner spender, 0 ≤ t.allowance owner spender

/-- A message that adds a negative amount where there is too little for it. -/
def Overdraws (t : Erc20) (sender : Address) (p : Params) : Prop :=
  match p.method with
  | "transfer" => ∃ target amount, p.address 0 = .ok target ∧ p.number 1 = .ok amount ∧
      sender ≠ target ∧ t.balanceOf target + amount < 0
  | "transferFrom" => ∃ source target amount, p.address 0 = .ok source ∧
      p.address 1 = .ok target ∧ p.number 2 = .ok amount ∧
      source ≠ target ∧ t.balanceOf target + amount < 0
  | "approve" => ∃ spender amount, p.address 0 = .ok spender ∧ p.number 1 = .ok amount ∧ amount < 0
  | "allocateTo" => t.faucet = true ∧ ∃ owner amount, p.address 0 = .ok owner ∧
      p.number 1 = .ok amount ∧ t.balanceOf owner + amount < 0
  | _ => False

variable {t : Erc20} {f : Frame} {p : Params} {o : Outcome Erc20} {source target : Address}
  {amount : Int}

theorem balances_credit_iff (h : ∀ owner, 0 ≤ t.balanceOf owner) (owner : Address)
    (amount : Int) :
    (∀ other, 0 ≤ (t.credit owner amount).balanceOf other) ↔ ¬ t.balanceOf owner + amount < 0 :=
  Store.nonneg_add_iff h owner amount

/-- A move keeps all balances from being negative, unless it is too much for the one it adds to. -/
theorem balances_move_iff (h : ∀ owner, 0 ≤ t.balanceOf owner)
    (covered : amount ≤ t.balanceOf source) :
    (∀ owner, 0 ≤ ((t.credit source (-amount)).credit target amount).balanceOf owner) ↔
      ¬ (source ≠ target ∧ t.balanceOf target + amount < 0) := by
  simp only [balanceOf_credit]
  constructor
  · rintro all ⟨apart, short⟩
    have := all target
    simp [apart] at this
    omega
  · intro fits owner
    have hsource := h source
    have howner := h owner
    by_cases hs : source = owner <;> by_cases ht : target = owner
    · subst hs ht
      simp
      omega
    · subst hs
      simp [ht]
      omega
    · subst ht
      simp [hs] at fits ⊢
      omega
    · simp [hs, ht]
      omega

theorem overdraws_transfer {sender : Address} :
    t.Overdraws sender ⟨"transfer", [.address target, .number amount]⟩ ↔
      sender ≠ target ∧ t.balanceOf target + amount < 0 := by
  simp [Overdraws, Params.address, Params.number, Params.get, Abi.asAddress?, Abi.asNumber?]

theorem overdraws_transferFrom {sender : Address} :
    t.Overdraws sender ⟨"transferFrom", [.address source, .address target, .number amount]⟩ ↔
      source ≠ target ∧ t.balanceOf target + amount < 0 := by
  simp [Overdraws, Params.address, Params.number, Params.get, Abi.asAddress?, Abi.asNumber?]

/-- Where the supply is the sum of the balances, it need not be looked at. -/
theorem nonNeg_iff (balanced : t.Balanced) :
    t.NonNeg ↔
      (∀ owner, 0 ≤ t.balanceOf owner) ∧ ∀ owner spender, 0 ≤ t.allowance owner spender := by
  constructor
  · intro h
    exact ⟨h.balance, h.allowance⟩
  · rintro ⟨balance, allowance⟩
    refine ⟨?_, balance, allowance⟩
    rw [balanced]
    exact Store.total_nonneg balance

theorem nonNeg_allow_iff (h : ∀ owner spender, 0 ≤ t.allowance owner spender)
    (owner spender : Address) (amount : Int) :
    (∀ other third, 0 ≤ (t.allow owner spender amount).allowance other third) ↔ 0 ≤ amount := by
  constructor
  · intro all
    simpa [allowance_allow] using all owner spender
  · intro hamount other third
    rw [allowance_allow]
    split
    · exact hamount
    · exact h other third

/-- Of the messages that a token carries out, exactly those that overdraw make something
    negative. -/
theorem Step.nonNeg_iff (step : t.Step f p o) (balanced : t.Balanced) (h : t.NonNeg) :
    o.state.NonNeg ↔ ¬ t.Overdraws f.sender p := by
  rw [Erc20.nonNeg_iff (step.balanced balanced)]
  cases step with
  | transfer method hasTarget hasAmount covered =>
    rw [balances_move_iff h.balance covered]
    simp [Overdraws, method, hasTarget, hasAmount, h.allowance]
  | @transferFrom source target amount method hasSource hasTarget hasAmount allowed covered =>
    have hallow := nonNeg_allow_iff (t := (t.credit source (-amount)).credit target amount)
      h.allowance source f.sender (t.allowance source f.sender - amount)
    simp only [balanceOf_allow]
    rw [balances_move_iff h.balance covered, hallow]
    simp [Overdraws, method, hasSource, hasTarget, hasAmount]
    omega
  | approve method hasSpender hasAmount =>
    simp only [Erc20.approve, Outcome.done, balanceOf_allow]
    rw [nonNeg_allow_iff h.allowance]
    simp [Overdraws, method, hasSpender, hasAmount, h.balance]
  | @allocateTo owner amount method faucet hasOwner hasAmount =>
    have hcredit := balances_credit_iff h.balance owner amount
    simp only [Overdraws, method, faucet, hasOwner, hasAmount]
    constructor
    · rintro ⟨all, -⟩ ⟨-, _, _, same, same', short⟩
      cases same
      cases same'
      exact hcredit.mp all short
    · intro fits
      exact ⟨hcredit.mpr fun short => fits ⟨trivial, owner, amount, rfl, rfl, short⟩, h.allowance⟩

/-- A message that overdraws is carried out: no test stands in its way. -/
theorem step_of_overdraws (h : t.NonNeg) (overdraws : t.Overdraws f.sender p) :
    ∃ o, t.Step f p o := by
  unfold Overdraws at overdraws
  split at overdraws
  · rename_i method
    obtain ⟨target, amount, hasTarget, hasAmount, -, short⟩ := overdraws
    have := h.balance target
    have := h.balance f.sender
    exact ⟨_, .transfer method hasTarget hasAmount (by omega)⟩
  · rename_i method
    obtain ⟨source, target, amount, hasSource, hasTarget, hasAmount, -, short⟩ := overdraws
    have := h.balance target
    have := h.balance source
    have := h.allowance source f.sender
    exact ⟨_, .transferFrom method hasSource hasTarget hasAmount (by omega) (by omega)⟩
  · rename_i method
    obtain ⟨spender, amount, hasSpender, hasAmount, -⟩ := overdraws
    exact ⟨_, .approve method hasSpender hasAmount⟩
  · rename_i method
    obtain ⟨faucet, owner, amount, hasOwner, hasAmount, -⟩ := overdraws
    exact ⟨_, .allocateTo method faucet hasOwner hasAmount⟩
  · exact overdraws.elim

/-- Without negative amounts nothing is overdrawn. -/
theorem not_overdraws (h : t.NonNeg) {sender : Address}
    (amounts : ∀ n, .number n ∈ p.values → 0 ≤ n) : ¬ t.Overdraws sender p := by
  intro overdraws
  unfold Overdraws at overdraws
  split at overdraws
  · obtain ⟨target, amount, -, hasAmount, -, short⟩ := overdraws
    have := amounts amount (Params.mem_of_number hasAmount)
    have := h.balance target
    omega
  · obtain ⟨source, target, amount, -, -, hasAmount, -, short⟩ := overdraws
    have := amounts amount (Params.mem_of_number hasAmount)
    have := h.balance target
    omega
  · obtain ⟨spender, amount, -, hasAmount, short⟩ := overdraws
    have := amounts amount (Params.mem_of_number hasAmount)
    omega
  · obtain ⟨-, owner, amount, -, hasAmount, short⟩ := overdraws
    have := amounts amount (Params.mem_of_number hasAmount)
    have := h.balance owner
    omega
  · exact overdraws

end Erc20

end MarketScript
