import MarketScript.Chain.Erc20
import MarketScript.Proofs.Outcome
import MarketScript.Proofs.Store

/-!
# Steps of a token

The four messages that a token carries out, under which conditions it does, and what each does to
balances, allowances and the supply.
-/

namespace MarketScript

namespace Erc20

section Accounts

variable (t : Erc20) (owner spender : Address) (amount : Int)

theorem balanceOf_credit (other : Address) :
    (t.credit owner amount).balanceOf other =
      t.balanceOf other + if owner = other then amount else 0 := by
  unfold credit balanceOf
  rw [Store.get?_insert]
  split <;> simp_all

@[simp] theorem allowance_credit (other : Address) :
    (t.credit owner amount).allowance other spender = t.allowance other spender := rfl

@[simp] theorem totalSupply_credit : (t.credit owner amount).totalSupply = t.totalSupply := rfl

theorem total_credit : (t.credit owner amount).balances.total = t.balances.total + amount := by
  simp only [credit, Store.total_insert, balanceOf]
  omega

@[simp] theorem balanceOf_allow (other : Address) :
    (t.allow owner spender amount).balanceOf other = t.balanceOf other := rfl

theorem allowance_allow (other third : Address) :
    (t.allow owner spender amount).allowance other third =
      if owner = other ∧ spender = third then amount else t.allowance other third := by
  unfold allow allowance
  rw [Store.get?_insert]
  simp only [Grant.mk.injEq]
  split <;> rfl

@[simp] theorem totalSupply_allow :
    (t.allow owner spender amount).totalSupply = t.totalSupply := rfl

@[simp] theorem balances_allow : (t.allow owner spender amount).balances = t.balances := rfl

end Accounts

/-- The supply is the sum of all balances. -/
def Balanced (t : Erc20) : Prop := t.totalSupply = t.balances.total

/-- What a token can do with a message that it carries out. -/
inductive Step (t : Erc20) (f : Frame) (p : Params) : Outcome Erc20 → Prop
  | transfer {target : Address} {amount : Int} (method : p.method = "transfer")
      (hasTarget : p.address 0 = .ok target) (hasAmount : p.number 1 = .ok amount)
      (covered : amount ≤ t.balanceOf f.sender) :
      Step t f p
        { state := (t.credit f.sender (-amount)).credit target amount, result := .bool true,
          logs := [transferLog f f.sender target amount] }
  | transferFrom {source target : Address} {amount : Int} (method : p.method = "transferFrom")
      (hasSource : p.address 0 = .ok source) (hasTarget : p.address 1 = .ok target)
      (hasAmount : p.number 2 = .ok amount) (allowed : amount ≤ t.allowance source f.sender)
      (covered : amount ≤ t.balanceOf source) :
      Step t f p
        { state := ((t.credit source (-amount)).credit target amount).allow source f.sender
            (t.allowance source f.sender - amount),
          result := .bool true, logs := [transferLog f source target amount] }
  | approve {spender : Address} {amount : Int} (method : p.method = "approve")
      (hasSpender : p.address 0 = .ok spender) (hasAmount : p.number 1 = .ok amount) :
      Step t f p (t.approve f spender amount)
  | allocateTo {owner : Address} {amount : Int} (method : p.method = "allocateTo")
      (faucet : t.faucet = true) (hasOwner : p.address 0 = .ok owner)
      (hasAmount : p.number 1 = .ok amount) : Step t f p (t.allocateTo f owner amount)

variable {t : Erc20} {f : Frame} {o : Outcome Erc20} {source target : Address} {amount : Int}

theorem move_eq_ok {t' : Erc20} :
    t.move source target amount = .ok t' ↔
      amount ≤ t.balanceOf source ∧ (t.credit source (-amount)).credit target amount = t' := by
  unfold move
  split
  · simp; omega
  · simp; omega

theorem transfer_eq_ok :
    t.transfer f target amount = .ok o ↔
      amount ≤ t.balanceOf f.sender ∧
        { state := (t.credit f.sender (-amount)).credit target amount, result := .bool true,
          logs := [transferLog f f.sender target amount] } = o := by
  simp [transfer, move_eq_ok, and_assoc]

theorem transferFrom_eq_ok :
    t.transferFrom f source target amount = .ok o ↔
      amount ≤ t.allowance source f.sender ∧ amount ≤ t.balanceOf source ∧
        { state := ((t.credit source (-amount)).credit target amount).allow source f.sender
            (t.allowance source f.sender - amount),
          result := .bool true, logs := [transferLog f source target amount] } = o := by
  by_cases allowed : t.allowance source f.sender < amount
  · simp [transferFrom, allowed, Int.not_le.mpr allowed]
  · simp [transferFrom, allowed, Int.not_lt.mp allowed, move_eq_ok, and_assoc]

/-- The steps of a token are the messages that it carries out. -/
theorem execute_eq_ok {p : Params} : t.execute f p = .ok o ↔ t.Step f p o := by
  constructor
  · intro h
    unfold execute at h
    split at h
    · rename_i method
      obtain ⟨target, hasTarget, h⟩ := except_bind_eq_ok.mp h
      obtain ⟨amount, hasAmount, h⟩ := except_bind_eq_ok.mp h
      obtain ⟨covered, rfl⟩ := transfer_eq_ok.mp h
      exact .transfer method hasTarget hasAmount covered
    · rename_i method
      obtain ⟨source, hasSource, h⟩ := except_bind_eq_ok.mp h
      obtain ⟨target, hasTarget, h⟩ := except_bind_eq_ok.mp h
      obtain ⟨amount, hasAmount, h⟩ := except_bind_eq_ok.mp h
      obtain ⟨allowed, covered, rfl⟩ := transferFrom_eq_ok.mp h
      exact .transferFrom method hasSource hasTarget hasAmount allowed covered
    · rename_i method
      obtain ⟨spender, hasSpender, h⟩ := except_bind_eq_ok.mp h
      obtain ⟨amount, hasAmount, h⟩ := except_bind_eq_ok.mp h
      cases h
      exact .approve method hasSpender hasAmount
    · rename_i method
      split at h
      · rename_i faucet
        obtain ⟨owner, hasOwner, h⟩ := except_bind_eq_ok.mp h
        obtain ⟨amount, hasAmount, h⟩ := except_bind_eq_ok.mp h
        cases h
        exact .allocateTo method faucet hasOwner hasAmount
      · cases h
    · cases h
  · intro h
    cases h with
    | transfer method hasTarget hasAmount covered =>
      simp [execute, method, hasTarget, hasAmount, transfer_eq_ok, covered]
    | transferFrom method hasSource hasTarget hasAmount allowed covered =>
      simp [execute, method, hasSource, hasTarget, hasAmount, transferFrom_eq_ok, allowed, covered]
    | approve method hasSpender hasAmount => simp [execute, method, hasSpender, hasAmount]
    | allocateTo method faucet hasOwner hasAmount =>
      simp [execute, method, faucet, hasOwner, hasAmount]

/-- What a market asks of its token, it asks as a message. -/
theorem step_of_transfer (h : t.transfer f target amount = .ok o) :
    t.Step f ⟨"transfer", [.address target, .number amount]⟩ o :=
  execute_eq_ok.mp h

theorem step_of_transferFrom (h : t.transferFrom f source target amount = .ok o) :
    t.Step f ⟨"transferFrom", [.address source, .address target, .number amount]⟩ o :=
  execute_eq_ok.mp h

theorem Step.kind {p : Params} (h : t.Step f p o) : o.state.kind = t.kind := by
  cases h <;> rfl

/-- A token never refuses with codes. -/
theorem Step.completed {p : Params} (h : t.Step f p o) : Completed o.result o.logs := by
  cases h with
  | transfer | transferFrom => exact ⟨by simp [transferLog], .inr (.inl rfl)⟩
  | approve => exact ⟨by simp [Erc20.approve, Outcome.done], .inr (.inl rfl)⟩
  | allocateTo => exact ⟨by simp [Erc20.allocateTo, transferLog], .inr (.inr rfl)⟩

/-- A token moves amounts between balances or adds the same to a balance and to the supply. -/
theorem Step.balanced {p : Params} (h : t.Step f p o) (balanced : t.Balanced) :
    o.state.Balanced := by
  unfold Balanced at balanced ⊢
  cases h with
  | transfer | transferFrom =>
    simp [total_credit]
    omega
  | approve => exact balanced
  | allocateTo =>
    simp [Erc20.allocateTo, total_credit]
    omega

end Erc20

end MarketScript
