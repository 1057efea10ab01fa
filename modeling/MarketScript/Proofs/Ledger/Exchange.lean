import MarketScript.Proofs.Ledger.Step

/-!
# Minting and redeeming

What comes of a message to a market whose token and controller are there, in each case that there
is: refused by the controller, undone by the token, refused by the market, or carried out.
-/

namespace MarketScript

/-! ## What changes -/

namespace Erc20

/-- An amount has moved from one balance to another. -/
structure Moved (t t' : Erc20) (source target : Address) (amount : Int) : Prop where
  same : { t' with balances := t.balances, allowances := t.allowances } = t
  balance : ∀ owner, t'.balanceOf owner =
    t.balanceOf owner - (if owner = source then amount else 0) + if owner = target then amount else 0

variable (t : Erc20) (source target spender : Address) (amount : Int)

theorem moved_credit : t.Moved ((t.credit source (-amount)).credit target amount) source target amount where
  same := rfl
  balance owner := by
    simp only [balanceOf_credit, eq_comm (a := owner)]
    split <;> split <;> omega

/-- The spender has taken an amount from its allowance on the way. -/
theorem moved_allow (rest : Int) :
    t.Moved (((t.credit source (-amount)).credit target amount).allow source spender rest)
      source target amount :=
  ⟨rfl, (t.moved_credit source target amount).balance⟩

/-- Spending looks at the allowance before the balance. -/
theorem transferFrom_not_allowed {t : Erc20} {f : Frame} {source target : Address} {amount : Int}
    (short : t.allowance source f.sender < amount) :
    t.transferFrom f source target amount = .error (.revert "Insufficient allowance") := by
  unfold transferFrom
  rw [if_pos short]
  rfl

theorem transferFrom_not_covered {t : Erc20} {f : Frame} {source target : Address} {amount : Int}
    (allowed : amount ≤ t.allowance source f.sender) (short : t.balanceOf source < amount) :
    t.transferFrom f source target amount = .error (.revert "Insufficient balance") := by
  unfold transferFrom move
  rw [if_neg (Int.not_lt.mpr allowed), if_pos short]
  rfl

end Erc20

namespace Market

/-- There is more in one balance, and as much more in the supply. -/
structure Credited (m m' : Market) (owner : Address) (tokens : Int) : Prop where
  same : { m' with balances := m.balances, totalSupply := m.totalSupply } = m
  supply : m'.totalSupply = m.totalSupply + tokens
  balance : ∀ other, m'.balanceOf other = m.balanceOf other + if other = owner then tokens else 0

theorem credited_credit (m : Market) (owner : Address) (tokens : Int) :
    m.Credited (m.credit owner tokens) owner tokens where
  same := rfl
  supply := rfl
  balance other := by
    rw [balanceOf_credit]
    simp only [eq_comm (a := owner)]

section Credited

variable {m m' : Market} {owner : Address} {tokens : Int} (h : m.Credited m' owner tokens)

include h

theorem Credited.underlying : m'.underlying = m.underlying := by
  have same := congrArg Market.underlying h.same
  exact same

theorem Credited.controller : m'.controller = m.controller := by
  have same := congrArg Market.controller h.same
  exact same

theorem Credited.exchangeRate : m'.exchangeRate = m.exchangeRate := by
  have same := congrArg Market.exchangeRate h.same
  exact same

end Credited

end Market

namespace Ledger

/-- The log of a refusal. -/
def failureLog (source : Address) (error info detail : Nat) : Log :=
  ⟨source, "Failure", [("error", .number error), ("info", .number info), ("detail", .number detail)]⟩

/-- The codes of a refusal are read back from its log. -/
theorem ofLog_failureLog {family : FailureFamily} {source : Address} {error info detail : Nat}
    (small : max error (max info detail) ≤ InvokationError.maxCode) :
    InvokationError.ofLog family (failureLog source error info detail) =
      .ofCodes family error info detail := by
  obtain ⟨hError, hInfo, hDetail⟩ : error ≤ InvokationError.maxCode ∧
      info ≤ InvokationError.maxCode ∧ detail ≤ InvokationError.maxCode := by omega
  simp [InvokationError.ofLog, InvokationError.codeIn, Log.field?, failureLog, Abi.asNumber?, hError,
    hInfo, hDetail]

section Refusals

variable {l : Ledger} {sender target : Address} {m : Market} {k : Controller} {p : Params}
  {n : Int}

/-- A controller answers a market with its code for the market. -/
theorem controllerCode_eq {f : Frame} {method : String}
    (controls : l.get? m.controller = some (.controller k))
    (asks : method = "mintAllowed" ∨ method = "redeemAllowed") (amount : Int) :
    m.controllerCode l f method amount = .ok (k.listingCode f.this) := by
  unfold Market.controllerCode view
  rw [contractAt_eq_ok.mpr controls]
  rcases asks with rfl | rfl <;> rfl

theorem listingCode_of_not_listed {market : Address} (unlisted : k.isListed market = false) :
    k.listingCode market = 9 := by
  have code : FailureFamily.controller.errorCode? "MARKET_NOT_LISTED" = some 9 := by decide
  simp [Controller.listingCode, unlisted, code]

variable (here : l.get? target = some (.market m))

include here

theorem controls_erase (controls : l.get? m.controller = some (.controller k)) :
    (l.erase target).get? m.controller = some (.controller k) :=
  get?_erase_eq_some.mpr ⟨ne_of_get? here controls (by simp), controls⟩

section Unlisted

variable (controls : l.get? m.controller = some (.controller k))
  (unlisted : k.isListed target = false) (hasNumber : p.number 0 = .ok n)

include controls unlisted hasNumber

theorem send_mint_unlisted (method : p.method = "mint") :
    l.send sender target p = .ok (l, .number 3, [failureLog target 3 1 9]) := by
  have asked := controllerCode_eq (f := ⟨target, sender⟩) (controls_erase here controls)
    (.inl rfl) n
  rw [listingCode_of_not_listed unlisted] at asked
  have refusal : m.refuse ⟨target, sender⟩ "CONTROLLER_REJECTION" "MINT_CONTROLLER_REJECTION" 9 =
      .ok ⟨m, .number 3, [failureLog target 3 1 9]⟩ := rfl
  simp [send, contractAt_eq_ok.mpr here, Contract.execute, Market.execute, method, hasNumber,
    Market.mint, asked, refusal, Store.insert_erase_of_get? here]

theorem send_redeem_unlisted (method : p.method = "redeem") :
    l.send sender target p = .ok (l, .number 3, [failureLog target 3 8 9]) := by
  have asked := controllerCode_eq (f := ⟨target, sender⟩) (controls_erase here controls)
    (.inr rfl) n
  rw [listingCode_of_not_listed unlisted] at asked
  have refusal : m.refuse ⟨target, sender⟩ "CONTROLLER_REJECTION" "REDEEM_CONTROLLER_REJECTION" 9 =
      .ok ⟨m, .number 3, [failureLog target 3 8 9]⟩ := rfl
  simp [send, contractAt_eq_ok.mpr here, Contract.execute, Market.execute, method, hasNumber,
    Market.redeem, asked, refusal, Store.insert_erase_of_get? here]

end Unlisted

end Refusals

section Listed

variable {l : Ledger} {sender target : Address} {m : Market} {t : Erc20} {p : Params} {n : Int}
  (serves : l.Serves target m t) (hasNumber : p.number 0 = .ok n)

include serves hasNumber

/-- A payment that the token does not make undoes the message. -/
theorem send_mint_undone (method : p.method = "mint") {e : ChainError}
    (undone : t.transferFrom ⟨m.underlying, target⟩ sender target n = .error e) :
    l.send sender target p = .error e := by
  have asked : m.controllerCode (l.erase target) ⟨target, sender⟩ "mintAllowed" n = .ok 0 :=
    (controllerCode_eq_zero (.inl rfl)).mpr serves.listed_erase
  have executed : t.execute ⟨m.underlying, target⟩
      ⟨"transferFrom", [.address sender, .address target, .number n]⟩ = .error e := undone
  have delivered : deliver (l.erase target) target m.underlying
      ⟨"transferFrom", [.address sender, .address target, .number n]⟩ = .error e := by
    simp [deliver, contractAt_eq_ok.mpr serves.underlying_erase, executed]
  simp [send, contractAt_eq_ok.mpr serves.here, Contract.execute, Market.execute, method, hasNumber,
    Market.mint, asked, delivered]

theorem send_redeem_too_much (method : p.method = "redeem") (short : m.balanceOf sender < n) :
    l.send sender target p = .ok (l, .number 9, [failureLog target 9 10 0]) := by
  have asked : m.controllerCode (l.erase target) ⟨target, sender⟩ "redeemAllowed" n = .ok 0 :=
    (controllerCode_eq_zero (.inr rfl)).mpr serves.listed_erase
  have refusal : m.refuse ⟨target, sender⟩ "MATH_ERROR"
      "REDEEM_NEW_ACCOUNT_BALANCE_CALCULATION_FAILED" =
      .ok ⟨m, .number 9, [failureLog target 9 10 0]⟩ := rfl
  simp [send, contractAt_eq_ok.mpr serves.here, Contract.execute, Market.execute, method, hasNumber,
    Market.redeem, asked, short, refusal, Store.insert_erase_of_get? serves.here]

theorem send_redeem_no_cash (method : p.method = "redeem") (held : n ≤ m.balanceOf sender)
    (short : t.balanceOf target < m.amountFor n) :
    l.send sender target p = .ok (l, .number 14, [failureLog target 14 12 0]) := by
  have asked : m.controllerCode (l.erase target) ⟨target, sender⟩ "redeemAllowed" n = .ok 0 :=
    (controllerCode_eq_zero (.inr rfl)).mpr serves.listed_erase
  have refusal : m.refuse ⟨target, sender⟩ "TOKEN_INSUFFICIENT_CASH"
      "REDEEM_TRANSFER_OUT_NOT_POSSIBLE" = .ok ⟨m, .number 14, [failureLog target 14 12 0]⟩ := rfl
  simp [send, contractAt_eq_ok.mpr serves.here, Contract.execute, Market.execute, method, hasNumber,
    Market.redeem, asked, serves.view_cash, Abi.asNumber?, Int.not_lt.mpr held, short, refusal,
    Store.insert_erase_of_get? serves.here]

end Listed

end Ledger

end MarketScript
