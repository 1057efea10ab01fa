import MarketScript.Proofs.Ledger.Holdings

/-!
# Taking with consent

A token hears of a message that is sent to it, or that a market over it passes on.  Without negative
amounts what it does then takes from the sender, from an owner that has allowed it, or from a market
that pays out, and from nobody else.
-/

namespace MarketScript

namespace Erc20

variable {t : Erc20} {f : Frame} {p : Params} {o : Outcome Erc20}
  {source target owner spender : Address} {amount : Int}

/-- A move takes its amount, and takes it from its source. -/
theorem debit_of_move (positive : 0 ≤ amount)
    (less : ((t.credit source (-amount)).credit target amount).balanceOf owner < t.balanceOf owner) :
    owner = source ∧
      t.balanceOf owner - ((t.credit source (-amount)).credit target amount).balanceOf owner =
        amount := by
  simp only [balanceOf_credit] at less ⊢
  by_cases hs : source = owner
  · by_cases ht : target = owner
    · simp [hs, ht] at less
    · refine ⟨hs.symm, ?_⟩
      simp [hs, ht]
  · by_cases ht : target = owner
    · simp [hs, ht] at less
      omega
    · simp [hs, ht] at less

/-- A message to a token takes from its sender, or from an owner that has allowed the sender as
    much. -/
theorem Step.debit (step : t.Step f p o) (plain : ∀ n, .number n ∈ p.values → 0 ≤ n)
    (less : o.state.balanceOf owner < t.balanceOf owner) :
    p.method = "transfer" ∧ owner = f.sender ∨
    p.method = "transferFrom" ∧ p.address 0 = .ok owner ∧
      o.state.allowance owner f.sender =
        t.allowance owner f.sender - (t.balanceOf owner - o.state.balanceOf owner) := by
  cases step with
  | transfer method hasTarget hasAmount covered =>
    have positive := plain _ (Params.mem_of_number hasAmount)
    exact .inl ⟨method, (debit_of_move positive less).1⟩
  | @transferFrom source target amount method hasSource hasTarget hasAmount allowed covered =>
    have positive := plain _ (Params.mem_of_number hasAmount)
    simp only [balanceOf_allow] at less ⊢
    obtain ⟨rfl, taken⟩ := debit_of_move positive less
    refine .inr ⟨method, hasSource, ?_⟩
    rw [allowance_allow, if_pos ⟨rfl, rfl⟩, taken]
  | approve => exact absurd less (lt_irrefl _)
  | @allocateTo receiver amount method faucet hasOwner hasAmount =>
    have positive := plain amount (Params.mem_of_number hasAmount)
    replace less : (t.credit receiver amount).balanceOf owner < t.balanceOf owner := less
    rw [balanceOf_credit] at less
    split at less <;> omega

/-- A message to a token changes an allowance if its owner sends it and sets it, or if the spender
    sends it and uses it up. -/
theorem Step.regrant (step : t.Step f p o) (plain : ∀ n, .number n ∈ p.values → 0 ≤ n)
    (changed : o.state.allowance owner spender ≠ t.allowance owner spender) :
    p.method = "approve" ∧ owner = f.sender ∧ p.address 0 = .ok spender ∧
      p.number 1 = .ok (o.state.allowance owner spender) ∨
    p.method = "transferFrom" ∧ p.address 0 = .ok owner ∧ spender = f.sender ∧
      o.state.allowance owner spender < t.allowance owner spender := by
  cases step with
  | transfer | allocateTo => exact absurd rfl changed
  | @transferFrom source target amount method hasSource hasTarget hasAmount allowed covered =>
    have positive := plain amount (Params.mem_of_number hasAmount)
    simp only [allowance_allow] at changed ⊢
    split at changed
    · rename_i same
      obtain ⟨rfl, rfl⟩ := same
      refine .inr ⟨method, hasSource, rfl, ?_⟩
      rw [if_pos ⟨rfl, rfl⟩]
      omega
    · exact absurd rfl changed
  | @approve receiver amount method hasSpender hasAmount =>
    simp only [Erc20.approve, Outcome.done, allowance_allow] at changed ⊢
    split at changed
    · rename_i same
      obtain ⟨rfl, rfl⟩ := same
      refine .inl ⟨method, rfl, hasSpender, ?_⟩
      rw [if_pos ⟨rfl, rfl⟩]
      exact hasAmount
    · exact absurd rfl changed

end Erc20

/-- The token that a contract is, if it is one. -/
def Contract.asToken? : Contract → Option Erc20
  | .token t => some t
  | _ => none

theorem Contract.asToken?_eq_some {c : Contract} {t : Erc20} :
    c.asToken? = some t ↔ c = .token t := by
  cases c <;> simp [asToken?]

namespace Ledger

variable {l after : Ledger} {sender target address owner spender : Address} {p : Params}
  {result : Abi} {logs : List Log} {t t' : Erc20}

/-- The market at an address is over the token at another. -/
def IsOver (l : Ledger) (market token : Address) : Prop :=
  ∃ m, l.get? market = some (.market m) ∧ m.underlying = token

/-- What the token at an address hears of a message: the message itself, or what a market over the
    token makes of it. -/
inductive Reaches (l : Ledger) (sender target : Address) (p : Params) (address : Address) :
    Frame → Params → Prop
  | sent (direct : target = address) : Reaches l sender target p address ⟨address, sender⟩ p
  | mint {amount : Int} (market : l.IsOver target address) (method : p.method = "mint")
      (hasAmount : p.number 0 = .ok amount) :
      Reaches l sender target p address ⟨address, target⟩
        ⟨"transferFrom", [.address sender, .address target, .number amount]⟩
  | redeem {m : Market} {tokens : Int} (here : l.get? target = some (.market m))
      (underlies : m.underlying = address) (method : p.method = "redeem")
      (hasTokens : p.number 0 = .ok tokens) :
      Reaches l sender target p address ⟨address, target⟩
        ⟨"transfer", [.address sender, .number (m.amountFor tokens)]⟩

/-- A token is still there after a message, and it has changed only by what it has heard. -/
theorem Step.token_at (step : l.Step sender target p after result logs)
    (here : l.get? address = some (.token t)) :
    ∃ t', after.get? address = some (.token t') ∧
      (t' = t ∨ ∃ f heard o, l.Reaches sender target p address f heard ∧ t.Step f heard o ∧
        t' = o.state) := by
  cases step with
  | @token _ o there step =>
    by_cases same : target = address
    · subst same
      cases there.symm.trans here
      exact ⟨o.state, Store.get?_insert_self .., .inr ⟨_, p, o, .sent rfl, step, rfl⟩⟩
    · exact ⟨t, by rw [Store.get?_insert, if_neg same, here], .inl rfl⟩
  | controller there step =>
    have apart : target ≠ address := ne_of_get? there here (by simp)
    exact ⟨t, by rw [Store.get?_insert, if_neg apart, here], .inl rfl⟩
  | mintRefused | redeemRefused | redeemTooMuch | redeemNoCash => exact ⟨t, here, .inl rfl⟩
  | @mint m amount _ o serves method hasAmount paid =>
    have apart : target ≠ address := ne_of_get? serves.here here (by simp)
    rw [Store.get?_insert, if_neg apart, Store.get?_insert]
    by_cases same : m.underlying = address
    · subst same
      cases serves.underlying.symm.trans here
      refine ⟨o.state, by rw [if_pos rfl], .inr ⟨_, _, o, ?_, Erc20.step_of_transferFrom paid, rfl⟩⟩
      exact .mint ⟨m, serves.here, rfl⟩ method hasAmount
    · exact ⟨t, by rw [if_neg same, here], .inl rfl⟩
  | @redeem m tokens _ o serves method hasTokens held paid =>
    have apart : target ≠ address := ne_of_get? serves.here here (by simp)
    rw [Store.get?_insert, if_neg apart, Store.get?_insert]
    by_cases same : m.underlying = address
    · subst same
      cases serves.underlying.symm.trans here
      refine ⟨o.state, by rw [if_pos rfl], .inr ⟨_, _, o, ?_, Erc20.step_of_transfer paid, rfl⟩⟩
      exact .redeem serves.here rfl method hasTokens
    · exact ⟨t, by rw [if_neg same, here], .inl rfl⟩

/-- A market makes no negative amount of amounts that are not negative. -/
theorem Reaches.plain {f : Frame} {heard : Params}
    (reaches : l.Reaches sender target p address f heard) (balanced : l.All Contract.Balanced)
    (plain : ∀ n, .number n ∈ p.values → 0 ≤ n) : ∀ n, .number n ∈ heard.values → 0 ≤ n := by
  cases reaches with
  | sent => exact plain
  | mint _ _ hasAmount =>
    have positive := plain _ (Params.mem_of_number hasAmount)
    simpa using positive
  | redeem here _ _ hasTokens =>
    have rate := Market.Balanced.rate (balanced _ _ here)
    have positive := Market.amountFor_nonneg rate (plain _ (Params.mem_of_number hasTokens))
    simpa using positive

/-- What entitles a message to take from what an owner has of a token. -/
inductive Debit (l : Ledger) (sender target : Address) (p : Params) (address owner : Address)
    (t t' : Erc20) : Prop
  /-- The owner sends its tokens to another. -/
  | transfer (own : owner = sender) (direct : target = address) (method : p.method = "transfer")
  /-- The owner pays into a market over the token. -/
  | mint (own : owner = sender) (market : l.IsOver target address) (method : p.method = "mint")
  /-- The sender spends from an allowance, which loses as much as the balance does. -/
  | transferFrom (direct : target = address) (method : p.method = "transferFrom")
      (hasSource : p.address 0 = .ok owner)
      (spent : t'.allowance owner sender =
        t.allowance owner sender - (t.balanceOf owner - t'.balanceOf owner))
  /-- The owner is a market over the token and pays out. -/
  | redeem (own : owner = target) (market : l.IsOver target address) (method : p.method = "redeem")

/-- How a message changes what a spender may take from what an owner has of a token. -/
inductive Regrant (l : Ledger) (sender target : Address) (p : Params)
    (address owner spender : Address) (t t' : Erc20) : Prop
  /-- The owner sets the allowance. -/
  | approve (own : owner = sender) (direct : target = address) (method : p.method = "approve")
      (hasSpender : p.address 0 = .ok spender)
      (hasAmount : p.number 1 = .ok (t'.allowance owner spender))
  /-- The spender moves tokens of the owner. -/
  | transferFrom (uses : spender = sender) (direct : target = address)
      (method : p.method = "transferFrom") (hasSource : p.address 0 = .ok owner)
      (less : t'.allowance owner spender < t.allowance owner spender)
  /-- The owner pays into a market, which is the spender. -/
  | mint (own : owner = sender) (uses : spender = target) (market : l.IsOver target address)
      (method : p.method = "mint") (less : t'.allowance owner spender < t.allowance owner spender)

variable {f : Frame} {heard : Params} {o : Outcome Erc20}

theorem Reaches.debit (reaches : l.Reaches sender target p address f heard)
    (step : t.Step f heard o) (plain : ∀ n, .number n ∈ heard.values → 0 ≤ n)
    (less : o.state.balanceOf owner < t.balanceOf owner) :
    l.Debit sender target p address owner t o.state := by
  have taken := step.debit plain less
  cases reaches with
  | sent direct =>
    rcases taken with ⟨method, own⟩ | ⟨method, hasSource, spent⟩
    · exact .transfer own direct method
    · exact .transferFrom direct method hasSource spent
  | mint market method =>
    rcases taken with ⟨impossible, -⟩ | ⟨-, own, -⟩
    · simp at impossible
    · obtain rfl : sender = owner := by simpa [Params.address, Params.get, Abi.asAddress?] using own
      exact .mint rfl market method
  | redeem here underlies method =>
    rcases taken with ⟨-, own⟩ | ⟨impossible, -⟩
    · exact .redeem own ⟨_, here, underlies⟩ method
    · simp at impossible

theorem Reaches.regrant (reaches : l.Reaches sender target p address f heard)
    (step : t.Step f heard o) (plain : ∀ n, .number n ∈ heard.values → 0 ≤ n)
    (changed : o.state.allowance owner spender ≠ t.allowance owner spender) :
    l.Regrant sender target p address owner spender t o.state := by
  have granted := step.regrant plain changed
  cases reaches with
  | sent direct =>
    rcases granted with ⟨method, own, hasSpender, hasAmount⟩ | ⟨method, hasSource, uses, less⟩
    · exact .approve own direct method hasSpender hasAmount
    · exact .transferFrom uses direct method hasSource less
  | mint market method =>
    rcases granted with ⟨impossible, -⟩ | ⟨-, own, uses, less⟩
    · simp at impossible
    · obtain rfl : sender = owner := by simpa [Params.address, Params.get, Abi.asAddress?] using own
      exact .mint rfl uses market method less
  | redeem =>
    rcases granted with ⟨impossible, -⟩ | ⟨impossible, -⟩
    · simp at impossible
    · simp at impossible

end Ledger

end MarketScript
