import MarketScript.Proofs.Chain.Solvency
import MarketScript.Proofs.Ledger.Consent
import MarketScript.Proofs.Ledger.Exchange

/-!
# Dealing with a market

A message that mints or redeems has one of a few outcomes, told by the listing of the market, the
allowance and the balances, in this order.  Nothing changes beyond what the outcome says.  An amount
that is paid in and taken out again comes back, but for what is lost by rounding.
-/

namespace MarketScript

namespace Chain

section Outcomes

variable (c : Chain) (sender target : Address) (m : Market) (t : Erc20) (k : Controller) (n : Int)

/-- The market has refused a message with the codes of these names.  The sender has used up a
    number, and nothing else has changed. -/
def RefusedWith (error info detail : String) (answer : Except ChainError Receipt × Chain) : Prop :=
  ∃ receipt log code, answer = (.ok receipt, c.useNonce sender) ∧ receipt.logs = [log] ∧
    log.source = target ∧ log.event = "Failure" ∧
    InvokationError.ofLog .market log = .failure error info detail ∧
    FailureFamily.market.errorCode? error = some code ∧ receipt.returnValue = .number code

/-- The market and its token have changed, the sender has used up a number, and nothing else has
    changed. -/
structure Dealt (c' : Chain) (m' : Market) (t' : Erc20) : Prop where
  market : c'.contracts.get? target = some (.market m')
  token : c'.contracts.get? m.underlying = some (.token t')
  others : ∀ a, a ≠ target → a ≠ m.underlying → c'.contracts.get? a = c.contracts.get? a
  nonces : ∀ a, c'.nonceOf a = c.nonceOf a + if a = sender then 1 else 0
  network : c'.network = c.network

/-- What paying in an amount comes to. -/
inductive Mints : Except ChainError Receipt × Chain → Prop
  | unlisted {answer : Except ChainError Receipt × Chain} (unlisted : k.isListed target = false)
      (refused : c.RefusedWith sender target "CONTROLLER_REJECTION" "MINT_CONTROLLER_REJECTION"
        "MARKET_NOT_LISTED" answer) : Mints answer
  | notAllowed (listed : k.isListed target = true) (short : t.allowance sender target < n) :
      Mints (.error (.revert "Insufficient allowance"), c.useNonce sender)
  | notCovered (listed : k.isListed target = true) (allowed : n ≤ t.allowance sender target)
      (short : t.balanceOf sender < n) :
      Mints (.error (.revert "Insufficient balance"), c.useNonce sender)
  | minted {receipt : Receipt} {c' : Chain} {m' : Market} {t' : Erc20} {tokens : Int}
      (listed : k.isListed target = true) (allowed : n ≤ t.allowance sender target)
      (covered : n ≤ t.balanceOf sender) (worth : tokens = (n * 10 ^ 18).tdiv m.exchangeRate)
      (result : receipt.returnValue = .number 0)
      (logs : receipt.logs =
        [⟨m.underlying, "Transfer",
          [("from", .address sender), ("to", .address target), ("amount", .number n)]⟩,
        ⟨target, "Mint", [("minter", .address sender), ("mintAmount", .number n),
          ("mintTokens", .number tokens)]⟩])
      (dealt : c.Dealt sender target m c' m' t') (moved : t.Moved t' sender target n)
      (spent : ∀ owner spender, t'.allowance owner spender =
        t.allowance owner spender - if owner = sender ∧ spender = target then n else 0)
      (credited : m.Credited m' sender tokens) : Mints (.ok receipt, c')

/-- What taking out market tokens comes to. -/
inductive Redeems : Except ChainError Receipt × Chain → Prop
  | unlisted {answer : Except ChainError Receipt × Chain} (unlisted : k.isListed target = false)
      (refused : c.RefusedWith sender target "CONTROLLER_REJECTION" "REDEEM_CONTROLLER_REJECTION"
        "MARKET_NOT_LISTED" answer) : Redeems answer
  | tooMuch {answer : Except ChainError Receipt × Chain} (listed : k.isListed target = true)
      (short : m.balanceOf sender < n)
      (refused : c.RefusedWith sender target "MATH_ERROR"
        "REDEEM_NEW_ACCOUNT_BALANCE_CALCULATION_FAILED" "0" answer) : Redeems answer
  | noCash {answer : Except ChainError Receipt × Chain} (listed : k.isListed target = true)
      (held : n ≤ m.balanceOf sender)
      (short : t.balanceOf target < (n * m.exchangeRate).tdiv (10 ^ 18))
      (refused : c.RefusedWith sender target "TOKEN_INSUFFICIENT_CASH"
        "REDEEM_TRANSFER_OUT_NOT_POSSIBLE" "0" answer) : Redeems answer
  | redeemed {receipt : Receipt} {c' : Chain} {m' : Market} {t' : Erc20} {amount : Int}
      (listed : k.isListed target = true) (held : n ≤ m.balanceOf sender)
      (worth : amount = (n * m.exchangeRate).tdiv (10 ^ 18))
      (covered : amount ≤ t.balanceOf target) (result : receipt.returnValue = .number 0)
      (logs : receipt.logs =
        [⟨m.underlying, "Transfer",
          [("from", .address target), ("to", .address sender), ("amount", .number amount)]⟩,
        ⟨target, "Redeem", [("redeemer", .address sender), ("redeemAmount", .number amount),
          ("redeemTokens", .number n)]⟩])
      (dealt : c.Dealt sender target m c' m' t') (moved : t.Moved t' target sender amount)
      (kept : ∀ owner spender, t'.allowance owner spender = t.allowance owner spender)
      (credited : m.Credited m' sender (-n)) : Redeems (.ok receipt, c')

end Outcomes

/-! ## One message -/

variable {c : Chain} {sender target : Address} {m : Market} {t : Erc20} {k : Controller} {n : Int}
  {method : String} {args : List Abi}

theorem send_of_error {e : ChainError}
    (failed : c.contracts.send sender target ⟨method, args⟩ = .error e) :
    c.send sender target method args = (.error e, c.useNonce sender) := by
  unfold send
  rw [failed]

theorem send_of_ok {l : Ledger} {result : Abi} {logs : List Log}
    (sent : c.contracts.send sender target ⟨method, args⟩ = .ok (l, result, logs)) :
    c.send sender target method args =
      (.ok { txHash := txHash sender (c.nonceOf sender), sender, target := some target,
             contractAddress := none, returnValue := result, logs },
        { c.useNonce sender with contracts := l }) := by
  unfold send
  rw [sent]

theorem refusedWith_of_send {error info detail : String} {e i d : Nat}
    (code : FailureFamily.market.errorCode? error = some e)
    (small : max e (max i d) ≤ InvokationError.maxCode)
    (decoded : InvokationError.ofCodes .market e i d = .failure error info detail)
    (sent : c.contracts.send sender target ⟨method, args⟩ =
      .ok (c.contracts, .number e, [Ledger.failureLog target e i d])) :
    c.RefusedWith sender target error info detail (c.send sender target method args) := by
  refine ⟨_, _, e, send_of_ok sent, rfl, rfl, rfl, ?_, code, rfl⟩
  rw [Ledger.ofLog_failureLog small, decoded]

theorem dealt_insert (serves : c.contracts.Serves target m t) (m' : Market) (t' : Erc20) :
    c.Dealt sender target m
      { c.useNonce sender with
        contracts := (c.contracts.insert m.underlying (.token t')).insert target (.market m') }
      m' t' where
  market := Store.get?_insert_self ..
  token := by
    show Store.get? ((c.contracts.insert m.underlying _).insert target _) m.underlying = _
    rw [Store.get?_insert, if_neg serves.apart, Store.get?_insert_self]
  others a notMarket notToken := by
    show Store.get? ((c.contracts.insert m.underlying _).insert target _) a = _
    rw [Store.get?_insert, if_neg notMarket.symm, Store.get?_insert, if_neg notToken.symm]
  nonces := nonceOf_useNonce c sender
  network := rfl

section Message

variable (here : c.contracts.get? target = some (.market m))
  (underlying : c.contracts.get? m.underlying = some (.token t))
  (controls : c.contracts.get? m.controller = some (.controller k)) (rest : List Abi)

include here underlying controls

theorem mints_send :
    c.Mints sender target m t k n (c.send sender target "mint" (.number n :: rest)) := by
  cases listed : k.isListed target with
  | false =>
    exact .unlisted listed (refusedWith_of_send (by decide) (by decide) (by decide +kernel)
      (Ledger.send_mint_unlisted here controls listed rfl rfl))
  | true =>
    have serves : c.contracts.Serves target m t := ⟨here, ⟨k, controls, listed⟩, underlying⟩
    by_cases allowed : n ≤ t.allowance sender target
    · by_cases covered : n ≤ t.balanceOf sender
      · have paid : t.transferFrom ⟨m.underlying, target⟩ sender target n = .ok _ :=
          Erc20.transferFrom_eq_ok.mpr ⟨allowed, covered, rfl⟩
        rw [send_of_ok (Ledger.send_mint serves rfl rfl paid)]
        refine .minted listed allowed covered rfl rfl rfl (dealt_insert serves _ _)
          (t.moved_allow ..) (fun owner spender => ?_) (m.credited_credit ..)
        rw [Erc20.allowance_allow]
        by_cases same : owner = sender ∧ spender = target
        · obtain ⟨rfl, rfl⟩ := same
          rw [if_pos ⟨rfl, rfl⟩, if_pos ⟨rfl, rfl⟩]
        · rw [if_neg same, if_neg fun swapped => same ⟨swapped.1.symm, swapped.2.symm⟩, Int.sub_zero]
          rfl
      · have undone : t.transferFrom ⟨m.underlying, target⟩ sender target n = .error _ :=
          Erc20.transferFrom_not_covered allowed (Int.not_le.mp covered)
        rw [send_of_error (Ledger.send_mint_undone serves rfl rfl undone)]
        exact .notCovered listed allowed (Int.not_le.mp covered)
    · have undone : t.transferFrom ⟨m.underlying, target⟩ sender target n = .error _ :=
        Erc20.transferFrom_not_allowed (Int.not_le.mp allowed)
      rw [send_of_error (Ledger.send_mint_undone serves rfl rfl undone)]
      exact .notAllowed listed (Int.not_le.mp allowed)

theorem redeems_send :
    c.Redeems sender target m t k n (c.send sender target "redeem" (.number n :: rest)) := by
  cases listed : k.isListed target with
  | false =>
    exact .unlisted listed (refusedWith_of_send (by decide) (by decide) (by decide +kernel)
      (Ledger.send_redeem_unlisted here controls listed rfl rfl))
  | true =>
    have serves : c.contracts.Serves target m t := ⟨here, ⟨k, controls, listed⟩, underlying⟩
    by_cases held : n ≤ m.balanceOf sender
    · by_cases covered : m.amountFor n ≤ t.balanceOf target
      · have paid : t.transfer ⟨m.underlying, target⟩ sender (m.amountFor n) = .ok _ :=
          Erc20.transfer_eq_ok.mpr ⟨covered, rfl⟩
        rw [send_of_ok (Ledger.send_redeem serves rfl rfl held paid)]
        exact .redeemed listed held rfl covered rfl rfl (dealt_insert serves _ _)
          (t.moved_credit ..) (fun _ _ => rfl) (m.credited_credit ..)
      · exact .noCash listed held (Int.not_le.mp covered) (refusedWith_of_send (by decide) (by decide) (by decide +kernel)
          (Ledger.send_redeem_no_cash serves rfl rfl held (Int.not_le.mp covered)))
    · exact .tooMuch listed (Int.not_le.mp held) (refusedWith_of_send (by decide) (by decide) (by decide +kernel)
        (Ledger.send_redeem_too_much serves rfl rfl (Int.not_le.mp held)))

end Message

/-- Every message that mints or redeems at a market over a token has the outcome that the listing, the
    allowance and the balances tell, whatever amount it gives. -/
theorem market_outcomes (network : String) (rs : List Request) {sender target : Address} {m : Market}
    {t : Erc20} {k : Controller}
    (here : (ofRun network rs).contracts.get? target = some (.market m))
    (underlying : (ofRun network rs).contracts.get? m.underlying = some (.token t))
    (controls : (ofRun network rs).contracts.get? m.controller = some (.controller k)) (n : Int)
    (rest : List Abi) :
    0 < m.exchangeRate ∧
      (ofRun network rs).Mints sender target m t k n
        ((ofRun network rs).send sender target "mint" (.number n :: rest)) ∧
      (ofRun network rs).Redeems sender target m t k n
        ((ofRun network rs).send sender target "redeem" (.number n :: rest)) :=
  ⟨Market.Balanced.rate (balanced_ofRun network rs _ _ here),
    mints_send here underlying controls rest, redeems_send here underlying controls rest⟩

/-- What stands at the market of `lending` and around it. -/
theorem lending_parts :
    ∃ m t k, (ofRun "development" lending).contracts.get? lendingMarket = some (.market m) ∧
      (ofRun "development" lending).contracts.get? m.underlying = some (.token t) ∧
      (ofRun "development" lending).contracts.get? m.controller = some (.controller k) ∧
      k.isListed lendingMarket = true ∧ t.allowance lender lendingMarket = 300 ∧
      t.balanceOf lendingMarket = 700 ∧ m.balanceOf lender = 2333 := by
  let l := (ofRun "development" lending).contracts
  have parts : (((l.get? lendingMarket).bind Contract.asMarket?).bind fun m =>
      ((l.get? m.underlying).bind Contract.asToken?).bind fun t =>
        ((l.get? m.controller).bind Contract.asController?).map fun k =>
          (k.isListed lendingMarket, t.allowance lender lendingMarket, t.balanceOf lendingMarket,
            m.balanceOf lender)) = some (true, 300, 700, 2333) := by
    decide +kernel
  obtain ⟨m, isMarket, parts⟩ := Option.bind_eq_some_iff.mp parts
  obtain ⟨t, isToken, parts⟩ := Option.bind_eq_some_iff.mp parts
  obtain ⟨k, isController, parts⟩ := Option.map_eq_some_iff.mp parts
  obtain ⟨_, here, isMarket⟩ := Option.bind_eq_some_iff.mp isMarket
  obtain ⟨_, underlying, isToken⟩ := Option.bind_eq_some_iff.mp isToken
  obtain ⟨_, controls, isController⟩ := Option.bind_eq_some_iff.mp isController
  obtain rfl := Contract.asMarket?_eq_some.mp isMarket
  obtain rfl := Contract.asToken?_eq_some.mp isToken
  obtain rfl := Contract.asController?_eq_some.mp isController
  simp only [Prod.mk.injEq] at parts
  exact ⟨m, t, k, here, underlying, controls, parts⟩

/-- At the market of `lending` the lender has 300 left to pay in, and 2333 to take out. -/
theorem lending_outcomes :
    ∃ m t k, (ofRun "development" lending).contracts.get? lendingMarket = some (.market m) ∧
      (ofRun "development" lending).contracts.get? m.underlying = some (.token t) ∧
      (ofRun "development" lending).contracts.get? m.controller = some (.controller k) ∧
      (ofRun "development" lending).Mints lender lendingMarket m t k 301
        ((ofRun "development" lending).send lender lendingMarket "mint" [.number 301]) ∧
      t.allowance lender lendingMarket < 301 ∧
      (ofRun "development" lending).Redeems lender lendingMarket m t k 2333
        ((ofRun "development" lending).send lender lendingMarket "redeem" [.number 2333]) ∧
      2333 ≤ m.balanceOf lender := by
  obtain ⟨m, t, k, here, underlying, controls, -, allowed, -, held⟩ := lending_parts
  have outcomes := fun n =>
    @market_outcomes "development" lending lender lendingMarket m t k here underlying controls n []
  exact ⟨m, t, k, here, underlying, controls, (outcomes 301).2.1, by omega, (outcomes 2333).2.2,
    by omega⟩

/-! ## In and out again -/

/-- A market that has minted is listed, and over a token. -/
theorem serves_of_minted (here : c.contracts.get? target = some (.market m)) {receipt : Receipt}
    (minted : (c.send sender target "mint" args).1 = .ok receipt)
    (success : receipt.log? "Failure" = none) : ∃ t, c.contracts.Serves target m t := by
  rcases send_cases c sender target "mint" args with ⟨e, failed, -⟩ | ⟨r, done, step⟩
  · cases failed.symm.trans minted
  cases done.symm.trans minted
  generalize (c.send sender target "mint" args).2.contracts = after at step
  generalize receipt.returnValue = value at step
  generalize logs : receipt.logs = told at step
  cases step with
  | token here' | controller here' => cases here.symm.trans here'
  | mint serves =>
    cases here.symm.trans serves.here
    exact ⟨_, serves⟩
  | redeem _ other | redeemRefused _ other | redeemTooMuch _ other | redeemNoCash _ other =>
    simp at other
  | mintRefused _ _ _ _ _ refusal =>
    obtain ⟨log, _, only, event, -⟩ := (Outcome.refused_spec refusal (by decide)).2
    simp [Receipt.log?, logs, only, event] at success

/-- The token under a market is still there when the two have dealt. -/
theorem Dealt.serves {c' : Chain} {m' : Market} {t' : Erc20} {tokens : Int}
    (dealt : c.Dealt sender target m c' m' t') (serves : c.contracts.Serves target m t)
    (credited : m.Credited m' sender tokens) :
    m'.underlying = m.underlying ∧ m'.exchangeRate = m.exchangeRate ∧
      c'.contracts.Serves target m' t' := by
  refine ⟨credited.underlying, credited.exchangeRate, dealt.market, ?_, ?_⟩
  · obtain ⟨k, controls, listed⟩ := serves.listed
    refine ⟨k, ?_, listed⟩
    rw [credited.controller, dealt.others m.controller, controls]
    · exact Ledger.ne_of_get? controls serves.here (by simp)
    · exact Ledger.ne_of_get? controls serves.underlying (by simp)
  · rw [credited.underlying]
    exact dealt.token

/-- A redemption that both the market and its holder can afford is carried out. -/
theorem redeemed_of_afforded (serves : c.contracts.Serves target m t) (held : n ≤ m.balanceOf sender)
    (covered : m.amountFor n ≤ t.balanceOf target) (rest : List Abi) :
    ∃ receipt c', c.send sender target "redeem" (.number n :: rest) = (.ok receipt, c') ∧
      receipt.log? "Failure" = none ∧
      (receipt.log? "Redeem").bind (·.field? "redeemAmount") = some (.number (m.amountFor n)) ∧
      ∃ m' t', c.Dealt sender target m c' m' t' ∧ t.Moved t' target sender (m.amountFor n) := by
  obtain ⟨k, controls, listed⟩ := serves.listed
  have redeems : c.Redeems sender target m t k n _ :=
    redeems_send serves.here serves.underlying controls rest
  generalize c.send sender target "redeem" (.number n :: rest) = answer at redeems
  cases redeems with
  | unlisted unlisted => simp [listed] at unlisted
  | tooMuch _ short => exact absurd held (Int.not_le.mpr short)
  | noCash _ _ short => exact absurd covered (Int.not_le.mpr short)
  | redeemed _ _ worth _ _ logs dealt moved =>
    subst worth
    refine ⟨_, _, rfl, ?_, ?_, _, _, dealt, moved⟩
    · simp [Receipt.log?, logs]
    · simp [Receipt.log?, logs, Log.field?]
      rfl

/-- Who pays in an amount and takes out the market tokens for it gets back no more, and loses less than
    one unit and the worth of one market token.  No test stands in the way. -/
theorem mint_redeem_returns (network : String) (rs : List Request) {sender target : Address}
    {m : Market} (here : (ofRun network rs).contracts.get? target = some (.market m))
    (apart : sender ≠ target) (cash : 0 ≤ (ofRun network rs).contracts.cash m.underlying target)
    (held : 0 ≤ m.balanceOf sender) {amount : Int} (positive : 0 ≤ amount) (rest rest' : List Abi)
    {receipt : Receipt}
    (minted : ((ofRun network rs).send sender target "mint" (.number amount :: rest)).1 =
      .ok receipt)
    (success : receipt.log? "Failure" = none) :
    let c := ofRun network rs
    let c' := (c.send sender target "mint" (.number amount :: rest)).2
    ∃ tokens back receipt' c'',
      (receipt.log? "Mint").bind (·.field? "mintTokens") = some (.number tokens) ∧
      c'.send sender target "redeem" (.number tokens :: rest') = (.ok receipt', c'') ∧
      receipt'.log? "Failure" = none ∧
      (receipt'.log? "Redeem").bind (·.field? "redeemAmount") = some (.number back) ∧
      c''.contracts.cash m.underlying sender =
        c.contracts.cash m.underlying sender - amount + back ∧
      0 ≤ back ∧ back ≤ amount ∧ (amount - back) * 10 ^ 18 < m.exchangeRate + 10 ^ 18 := by
  intro c c'
  have rate : 0 < m.exchangeRate := Market.Balanced.rate (balanced_ofRun network rs _ _ here)
  obtain ⟨t, serves⟩ := serves_of_minted here minted success
  obtain ⟨k, controls, listed⟩ := serves.listed
  rw [Ledger.cash_token serves.underlying] at cash
  have mints : c.Mints sender target m t k amount _ :=
    mints_send here serves.underlying controls rest
  generalize answer : c.send sender target "mint" (.number amount :: rest) = result at mints
  have after : c' = result.2 := congrArg Prod.snd answer
  replace minted : result.1 = .ok receipt := answer ▸ minted
  cases mints with
  | unlisted unlisted => simp [listed] at unlisted
  | notAllowed => cases minted
  | notCovered => cases minted
  | @minted _ c₁ m₁ t₁ tokens _ _ _ worth _ logs dealt moved _ credited =>
    cases minted
    obtain ⟨underlying, sameRate, serves₁⟩ := dealt.serves serves credited
    have paid : tokens = m.tokensFor amount := worth
    have amounts : m₁.amountFor tokens = m.amountFor (m.tokensFor amount) := by
      rw [paid, Market.amountFor, sameRate]
      rfl
    have back := Market.amountFor_tokensFor_le rate positive
    have held₁ : tokens ≤ m₁.balanceOf sender := by
      rw [credited.balance, if_pos rfl]
      omega
    have covered₁ : m₁.amountFor tokens ≤ t₁.balanceOf target := by
      rw [moved.balance, if_neg apart.symm, if_pos rfl, amounts]
      omega
    obtain ⟨receipt', c₂, sent, success', told, m₂, t₂, dealt₂, moved₂⟩ :=
      redeemed_of_afforded serves₁ held₁ covered₁ rest'
    refine ⟨tokens, m₁.amountFor tokens, receipt', c₂, ?_, after ▸ sent, success', told, ?_, ?_, ?_, ?_⟩
    · simp [Receipt.log?, logs, Log.field?]
    · rw [Ledger.cash_token (underlying ▸ dealt₂.token), Ledger.cash_token serves.underlying,
        moved₂.balance, moved.balance]
      simp [apart]
    · rw [amounts]
      exact Market.amountFor_nonneg rate (Market.tokensFor_nonneg rate positive)
    · rw [amounts]
      exact back
    · rw [amounts]
      exact Market.sub_amountFor_tokensFor_lt rate positive

/-- The lender of `lending` pays in another 200, which are worth 666 market tokens and a part, and gets
    back all but what the part was worth. -/
theorem lending_returns :
    ∃ m receipt, (ofRun "development" lending).contracts.get? lendingMarket = some (.market m) ∧
      lender ≠ lendingMarket ∧ 0 ≤ (ofRun "development" lending).contracts.cash m.underlying lendingMarket ∧
      0 ≤ m.balanceOf lender ∧
      ((ofRun "development" lending).send lender lendingMarket "mint" [.number 200]).1 =
        .ok receipt ∧
      receipt.log? "Failure" = none ∧
      ∃ tokens back,
        (receipt.log? "Mint").bind (·.field? "mintTokens") = some (.number tokens) ∧
        0 ≤ back ∧ back ≤ 200 ∧ (200 - back) * 10 ^ 18 < m.exchangeRate + 10 ^ 18 := by
  obtain ⟨m, t, k, here, underlying, -, -, -, cash, held⟩ := lending_parts
  have apart : lender ≠ lendingMarket := by decide +kernel
  have answer : ((ofRun "development" lending).send lender lendingMarket "mint"
      [.number 200]).1.toOption.map (fun r => (r.log? "Failure").isNone) = some true := by
    decide +kernel
  obtain ⟨receipt, minted, success⟩ : ∃ receipt, ((ofRun "development" lending).send lender
      lendingMarket "mint" [.number 200]).1 = .ok receipt ∧ receipt.log? "Failure" = none := by
    cases sent : ((ofRun "development" lending).send lender lendingMarket "mint" [.number 200]).1 with
    | error e => simp [sent, Except.toOption] at answer
    | ok receipt => exact ⟨receipt, rfl, by simpa [sent, Except.toOption] using answer⟩
  have hcash : 0 ≤ (ofRun "development" lending).contracts.cash m.underlying lendingMarket := by
    rw [Ledger.cash_token underlying]
    omega
  have hheld : 0 ≤ m.balanceOf lender := by omega
  obtain ⟨tokens, back, _, _, told, -, -, -, -, bounds⟩ :=
    mint_redeem_returns "development" lending here apart hcash hheld (by decide : (0 : Int) ≤ 200) [] []
      minted success
  exact ⟨m, receipt, here, apart, hcash, hheld, minted, success, tokens, back, told, bounds⟩

end Chain

end MarketScript
