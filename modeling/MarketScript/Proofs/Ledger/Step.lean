import MarketScript.Chain.Ledger
import MarketScript.Proofs.Contract
import MarketScript.Proofs.Controller.Step
import MarketScript.Proofs.Erc20.Step
import MarketScript.Proofs.Market

/-!
# Steps of a ledger

What a message to a ledger can come to when it is not undone: which contracts change, how, and what
is told.  Every theorem about what a chain keeps goes through these cases.
-/

namespace MarketScript

/-- The controller that a contract is, if it is one. -/
def Contract.asController? : Contract → Option Controller
  | .controller c => some c
  | _ => none

theorem Contract.asController?_eq_some {c : Contract} {k : Controller} :
    c.asController? = some k ↔ c = .controller k := by
  cases c <;> simp [asController?]

namespace Ledger

/-- A controller at an address lists a market. -/
def Lists (l : Ledger) (controller market : Address) : Prop :=
  ∃ c, l.get? controller = some (.controller c) ∧ c.isListed market = true

/-- A market that its controller lists, and the token that it is over. -/
structure Serves (l : Ledger) (target : Address) (m : Market) (t : Erc20) : Prop where
  here : l.get? target = some (.market m)
  listed : l.Lists m.controller target
  underlying : l.get? m.underlying = some (.token t)

/-- What a message can come to. -/
inductive Step (l : Ledger) (sender target : Address) (p : Params) :
    Ledger → Abi → List Log → Prop
  | token {t : Erc20} {o : Outcome Erc20} (here : l.get? target = some (.token t))
      (step : t.Step ⟨target, sender⟩ p o) :
      Step l sender target p (l.insert target (.token o.state)) o.result o.logs
  | controller {c : Controller} {o : Outcome Controller}
      (here : l.get? target = some (.controller c))
      (step : c.Step ⟨target, sender⟩ (fun a => view (l.erase target) a ⟨"isPToken", []⟩) p o) :
      Step l sender target p (l.insert target (.controller o.state)) o.result o.logs
  | mintRefused {m : Market} {amount code : Int} {o : Outcome Market}
      (here : l.get? target = some (.market m)) (method : p.method = "mint")
      (hasAmount : p.number 0 = .ok amount)
      (asked : m.controllerCode (l.erase target) ⟨target, sender⟩ "mintAllowed" amount = .ok code)
      (unlisted : code ≠ 0)
      (refusal : m.refuse ⟨target, sender⟩ "CONTROLLER_REJECTION" "MINT_CONTROLLER_REJECTION" code =
        .ok o) :
      Step l sender target p l o.result o.logs
  | mint {m : Market} {amount : Int} {t : Erc20} {o : Outcome Erc20} (serves : l.Serves target m t)
      (method : p.method = "mint") (hasAmount : p.number 0 = .ok amount)
      (paid : t.transferFrom ⟨m.underlying, target⟩ sender target amount = .ok o) :
      Step l sender target p
        ((l.insert m.underlying (.token o.state)).insert target
          (.market (m.credit sender (m.tokensFor amount))))
        (.number 0)
        (o.logs ++ [⟨target, "Mint", [("minter", .address sender), ("mintAmount", .number amount),
          ("mintTokens", .number (m.tokensFor amount))]⟩])
  | redeemRefused {m : Market} {tokens code : Int} {o : Outcome Market}
      (here : l.get? target = some (.market m)) (method : p.method = "redeem")
      (hasTokens : p.number 0 = .ok tokens)
      (asked : m.controllerCode (l.erase target) ⟨target, sender⟩ "redeemAllowed" tokens = .ok code)
      (unlisted : code ≠ 0)
      (refusal : m.refuse ⟨target, sender⟩ "CONTROLLER_REJECTION" "REDEEM_CONTROLLER_REJECTION"
        code = .ok o) :
      Step l sender target p l o.result o.logs
  | redeemTooMuch {m : Market} {tokens : Int} {o : Outcome Market}
      (here : l.get? target = some (.market m)) (method : p.method = "redeem")
      (hasTokens : p.number 0 = .ok tokens) (short : m.balanceOf sender < tokens)
      (refusal : m.refuse ⟨target, sender⟩ "MATH_ERROR"
        "REDEEM_NEW_ACCOUNT_BALANCE_CALCULATION_FAILED" = .ok o) :
      Step l sender target p l o.result o.logs
  | redeemNoCash {m : Market} {tokens : Int} {cash : Abi} {o : Outcome Market}
      (here : l.get? target = some (.market m)) (method : p.method = "redeem")
      (hasTokens : p.number 0 = .ok tokens) (held : tokens ≤ m.balanceOf sender)
      (asked : view (l.erase target) m.underlying ⟨"balanceOf", [.address target]⟩ = .ok cash)
      (short : cash.asNumber?.getD 0 < m.amountFor tokens)
      (refusal : m.refuse ⟨target, sender⟩ "TOKEN_INSUFFICIENT_CASH"
        "REDEEM_TRANSFER_OUT_NOT_POSSIBLE" = .ok o) :
      Step l sender target p l o.result o.logs
  | redeem {m : Market} {tokens : Int} {t : Erc20} {o : Outcome Erc20}
      (serves : l.Serves target m t) (method : p.method = "redeem")
      (hasTokens : p.number 0 = .ok tokens) (held : tokens ≤ m.balanceOf sender)
      (paid : t.transfer ⟨m.underlying, target⟩ sender (m.amountFor tokens) = .ok o) :
      Step l sender target p
        ((l.insert m.underlying (.token o.state)).insert target (.market (m.credit sender (-tokens))))
        (.number 0)
        (o.logs ++ [⟨target, "Redeem", [("redeemer", .address sender),
          ("redeemAmount", .number (m.amountFor tokens)), ("redeemTokens", .number tokens)]⟩])

section Reading

variable {l : Ledger} {address target : Address} {c : Contract}

theorem contractAt_eq_ok : l.contractAt address = .ok c ↔ l.get? address = some c := by
  unfold contractAt
  split <;> simp_all

/-- Different contracts stand at different addresses. -/
theorem ne_of_get? {other : Address} {d : Contract} (h : l.get? address = some c)
    (ho : l.get? other = some d) (differ : c ≠ d) : address ≠ other := by
  rintro rfl
  rw [h] at ho
  exact differ (Option.some.inj ho)

theorem get?_erase_eq_some :
    (l.erase target).get? address = some c ↔ target ≠ address ∧ l.get? address = some c := by
  rw [Store.get?_erase]
  split <;> simp_all

/-- A contract was there before another one was put in some place, if this has another role. -/
theorem get?_of_insert {other : Address} {d : Contract}
    (there : Store.get? (l.insert other d) address = some c) (differ : d.family ≠ c.family) :
    l.get? address = some c := by
  rw [Store.get?_insert] at there
  split at there
  · cases there
    exact absurd rfl differ
  · exact there

theorem view_token {t : Erc20} (h : l.get? address = some (.token t)) (p : Params) :
    l.view address p = t.read p := by
  simp [view, contractAt_eq_ok.mpr h]
  rfl

end Reading

section Market

variable {l peers : Ledger} {m : Market} {f : Frame} {p : Params}

theorem listingCode_eq_zero {c : Controller} {market : Address} :
    c.listingCode market = 0 ↔ c.isListed market = true := by
  have code : FailureFamily.controller.errorCode? "MARKET_NOT_LISTED" = some 9 := by decide
  unfold Controller.listingCode
  split <;> simp_all

/-- A controller lets a market be used exactly if it lists the market. -/
theorem controllerCode_eq_zero {method : String} {amount : Int}
    (asks : method = "mintAllowed" ∨ method = "redeemAllowed") :
    m.controllerCode l f method amount = .ok 0 ↔ l.Lists m.controller f.this := by
  unfold Market.controllerCode Lists view contractAt
  cases found : Store.get? l m.controller with
  | none => simp
  | some c =>
    cases c with
    | controller c =>
      rcases asks with rfl | rfl <;>
        simp [Contract.read, Controller.read, Params.address, Params.get, Abi.asAddress?,
          Abi.asNumber?, listingCode_eq_zero]
    | market m' => rcases asks with rfl | rfl <;> simp [Market.read]
    | token t => rcases asks with rfl | rfl <;> simp [Contract.read, Erc20.read]
    | registry r => rcases asks with rfl | rfl <;> simp [Contract.read, Registry.read]
    | rateModel r => rcases asks with rfl | rfl <;> simp [Contract.read, RateModel.read]

/-- Only a token carries out what a market asks of its underlying contract. -/
theorem deliver_eq_ok {sender target : Address} {after : Ledger × List Log} :
    l.deliver sender target p = .ok after ↔
      ∃ t o, l.get? target = some (.token t) ∧ t.execute ⟨target, sender⟩ p = .ok o ∧
        (l.insert target (.token o.state), o.logs) = after := by
  unfold deliver contractAt
  cases Store.get? l target with
  | none => simp
  | some c => cases c <;> simp [Contract.unknownMethod]

theorem mint_cases {amount : Int} {o : Outcome Market} {after : Ledger}
    (h : m.mint peers f amount = .ok (o, after)) :
    (∃ code, m.controllerCode peers f "mintAllowed" amount = .ok code ∧ code ≠ 0 ∧
      m.refuse f "CONTROLLER_REJECTION" "MINT_CONTROLLER_REJECTION" code = .ok o ∧ after = peers) ∨
    ∃ t paid, m.controllerCode peers f "mintAllowed" amount = .ok 0 ∧
      peers.get? m.underlying = some (.token t) ∧
      t.transferFrom ⟨m.underlying, f.this⟩ f.sender f.this amount = .ok paid ∧
      after = peers.insert m.underlying (.token paid.state) ∧
      o = { state := m.credit f.sender (m.tokensFor amount), result := .number 0,
            logs := paid.logs ++ [⟨f.this, "Mint", [("minter", .address f.sender),
              ("mintAmount", .number amount), ("mintTokens", .number (m.tokensFor amount))]⟩] } := by
  unfold Market.mint at h
  obtain ⟨code, asked, h⟩ := except_bind_eq_ok.mp h
  split at h
  · rename_i unlisted
    obtain ⟨refused, refusal, h⟩ := except_bind_eq_ok.mp h
    cases h
    exact .inl ⟨code, asked, unlisted, refusal, rfl⟩
  · rename_i listed
    cases not_not.mp listed
    obtain ⟨⟨_, _⟩, delivered, h⟩ := except_bind_eq_ok.mp h
    obtain ⟨t, paid, underlying, carriedOut, hafter⟩ := deliver_eq_ok.mp delivered
    cases hafter
    cases h
    exact .inr ⟨t, paid, asked, underlying, carriedOut, rfl, rfl⟩

theorem redeem_cases {tokens : Int} {o : Outcome Market} {after : Ledger}
    (h : m.redeem peers f tokens = .ok (o, after)) :
    (∃ code, m.controllerCode peers f "redeemAllowed" tokens = .ok code ∧ code ≠ 0 ∧
      m.refuse f "CONTROLLER_REJECTION" "REDEEM_CONTROLLER_REJECTION" code = .ok o ∧
      after = peers) ∨
    (m.balanceOf f.sender < tokens ∧
      m.refuse f "MATH_ERROR" "REDEEM_NEW_ACCOUNT_BALANCE_CALCULATION_FAILED" = .ok o ∧
      after = peers) ∨
    (∃ cash, tokens ≤ m.balanceOf f.sender ∧
      peers.view m.underlying ⟨"balanceOf", [.address f.this]⟩ = .ok cash ∧
      cash.asNumber?.getD 0 < m.amountFor tokens ∧
      m.refuse f "TOKEN_INSUFFICIENT_CASH" "REDEEM_TRANSFER_OUT_NOT_POSSIBLE" = .ok o ∧
      after = peers) ∨
    ∃ t paid, m.controllerCode peers f "redeemAllowed" tokens = .ok 0 ∧
      tokens ≤ m.balanceOf f.sender ∧ peers.get? m.underlying = some (.token t) ∧
      t.transfer ⟨m.underlying, f.this⟩ f.sender (m.amountFor tokens) = .ok paid ∧
      after = peers.insert m.underlying (.token paid.state) ∧
      o = { state := m.credit f.sender (-tokens), result := .number 0,
            logs := paid.logs ++ [⟨f.this, "Redeem", [("redeemer", .address f.sender),
              ("redeemAmount", .number (m.amountFor tokens)),
              ("redeemTokens", .number tokens)]⟩] } := by
  unfold Market.redeem at h
  obtain ⟨code, asked, h⟩ := except_bind_eq_ok.mp h
  split at h
  · rename_i unlisted
    obtain ⟨refused, refusal, h⟩ := except_bind_eq_ok.mp h
    cases h
    exact .inl ⟨code, asked, unlisted, refusal, rfl⟩
  rename_i listed
  cases not_not.mp listed
  split at h
  · rename_i short
    obtain ⟨refused, refusal, h⟩ := except_bind_eq_ok.mp h
    cases h
    exact .inr (.inl ⟨short, refusal, rfl⟩)
  rename_i held
  obtain ⟨cash, seen, h⟩ := except_bind_eq_ok.mp h
  split at h
  · rename_i short
    obtain ⟨refused, refusal, h⟩ := except_bind_eq_ok.mp h
    cases h
    exact .inr (.inr (.inl ⟨cash, Int.not_lt.mp held, seen, short, refusal, rfl⟩))
  · obtain ⟨⟨_, _⟩, delivered, h⟩ := except_bind_eq_ok.mp h
    obtain ⟨t, paid, underlying, carriedOut, hafter⟩ := deliver_eq_ok.mp delivered
    cases hafter
    cases h
    exact .inr (.inr (.inr ⟨t, paid, asked, Int.not_lt.mp held, underlying, carriedOut, rfl, rfl⟩))

end Market

section Send

variable {l after : Ledger} {sender target : Address} {p : Params} {result : Abi}
  {logs : List Log}

theorem Lists.of_erase {controller market : Address}
    (h : Lists (l.erase target) controller market) : l.Lists controller market := by
  obtain ⟨c, found, listed⟩ := h
  exact ⟨c, (get?_erase_eq_some.mp found).2, listed⟩

theorem step_of_market {m : Market} {peers : Ledger} {o : Outcome Market}
    (here : l.get? target = some (.market m))
    (carriedOut : m.execute (l.erase target) ⟨target, sender⟩ p = .ok (o, peers)) :
    l.Step sender target p (peers.insert target (.market o.state)) o.result o.logs := by
  unfold Market.execute at carriedOut
  split at carriedOut
  · rename_i method
    obtain ⟨amount, hasAmount, carriedOut⟩ := except_bind_eq_ok.mp carriedOut
    rcases mint_cases carriedOut with ⟨code, asked, unlisted, refusal, rfl⟩ |
      ⟨t, paid, asked, underlying, pays, rfl, rfl⟩
    · rw [(Outcome.refused_spec refusal (by decide)).1, Store.insert_erase_of_get? here]
      exact .mintRefused here method hasAmount asked unlisted refusal
    · rw [Store.erase_insert_insert]
      have listed := ((controllerCode_eq_zero (.inl rfl)).mp asked).of_erase
      exact .mint ⟨here, listed, (get?_erase_eq_some.mp underlying).2⟩ method hasAmount pays
  · rename_i method
    obtain ⟨tokens, hasTokens, carriedOut⟩ := except_bind_eq_ok.mp carriedOut
    rcases redeem_cases carriedOut with ⟨code, asked, unlisted, refusal, rfl⟩ |
      ⟨short, refusal, rfl⟩ | ⟨cash, held, asked, short, refusal, rfl⟩ |
      ⟨t, paid, asked, held, underlying, pays, rfl, rfl⟩
    · rw [(Outcome.refused_spec refusal (by decide)).1, Store.insert_erase_of_get? here]
      exact .redeemRefused here method hasTokens asked unlisted refusal
    · rw [(Outcome.refused_spec refusal (by decide)).1, Store.insert_erase_of_get? here]
      exact .redeemTooMuch here method hasTokens short refusal
    · rw [(Outcome.refused_spec refusal (by decide)).1, Store.insert_erase_of_get? here]
      exact .redeemNoCash here method hasTokens held asked short refusal
    · rw [Store.erase_insert_insert]
      have listed := ((controllerCode_eq_zero (.inr rfl)).mp asked).of_erase
      exact .redeem ⟨here, listed, (get?_erase_eq_some.mp underlying).2⟩ method hasTokens held pays
  · cases carriedOut

/-- Every message that is not undone is one of the steps. -/
theorem step_of_send (h : l.send sender target p = .ok (after, result, logs)) :
    l.Step sender target p after result logs := by
  unfold send at h
  obtain ⟨c, here, h⟩ := except_bind_eq_ok.mp h
  replace here := contractAt_eq_ok.mp here
  obtain ⟨⟨o, peers⟩, carriedOut, h⟩ := except_bind_eq_ok.mp h
  cases h
  cases c with
  | controller c =>
    obtain ⟨o, executed, h⟩ := except_bind_eq_ok.mp carriedOut
    cases h
    rw [Store.insert_erase]
    exact .controller here (Controller.step_of_execute executed)
  | token t =>
    obtain ⟨o, executed, h⟩ := except_bind_eq_ok.mp carriedOut
    cases h
    rw [Store.insert_erase]
    exact .token here (Erc20.execute_eq_ok.mp executed)
  | registry | rateModel => cases carriedOut
  | market m =>
    obtain ⟨⟨o, peers⟩, executed, h⟩ := except_bind_eq_ok.mp carriedOut
    cases h
    exact step_of_market here executed

/-- A message is refused and the ledger stays as it is, or it is carried out. -/
theorem Step.refused_or_completed (h : l.Step sender target p after result logs) :
    after = l ∧ Refused result logs ∨ Completed result logs := by
  cases h with
  | token here step => exact .inr step.completed
  | controller here step =>
    rcases step.refused_or_completed with ⟨same, refused⟩ | completed
    · rw [same, Store.insert_of_get? here]
      exact .inl ⟨rfl, refused⟩
    · exact .inr completed
  | mintRefused here method hasAmount asked unlisted refusal =>
    exact .inl ⟨rfl, (Outcome.refused_spec refusal (by decide)).2⟩
  | redeemRefused here method hasTokens asked unlisted refusal =>
    exact .inl ⟨rfl, (Outcome.refused_spec refusal (by decide)).2⟩
  | redeemTooMuch here method hasTokens short refusal =>
    exact .inl ⟨rfl, (Outcome.refused_spec refusal (by decide)).2⟩
  | redeemNoCash here method hasTokens held asked short refusal =>
    exact .inl ⟨rfl, (Outcome.refused_spec refusal (by decide)).2⟩
  | mint serves method hasAmount paid =>
    have completed := (Erc20.step_of_transferFrom paid).completed
    exact .inr (completed_append completed (by simp) (.inl rfl))
  | redeem serves method hasTokens held paid =>
    have completed := (Erc20.step_of_transfer paid).completed
    exact .inr (completed_append completed (by simp) (.inl rfl))

theorem Serves.apart {m : Market} {t : Erc20} (s : l.Serves target m t) : target ≠ m.underlying :=
  ne_of_get? s.here s.underlying (by simp)

/-- The market is still there while its token changes. -/
theorem Serves.here_insert {m : Market} {t : Erc20} (s : l.Serves target m t) (c : Contract) :
    Store.get? (l.insert m.underlying c) target = some (.market m) := by
  rw [Store.get?_insert, if_neg s.apart.symm, s.here]

/-- Putting a contract in the place of another of its kind. -/
theorem kind_insert {c c' : Contract} (here : l.get? target = some c) (same : c'.kind = c.kind)
    (address : Address) :
    (Store.get? (l.insert target c') address).map Contract.kind =
      (l.get? address).map Contract.kind := by
  rw [Store.get?_insert]
  split
  · rename_i this
    subst this
    simp [here, same]
  · rfl

/-- No message makes a contract, removes one, or changes the kind of one. -/
theorem Step.kind_at (h : l.Step sender target p after result logs) (address : Address) :
    (after.get? address).map Contract.kind = (l.get? address).map Contract.kind := by
  cases h with
  | token here step =>
    rw [kind_insert here]
    exact step.kind
  | controller here step =>
    rw [kind_insert here]
    exact step.kind
  | mintRefused | redeemRefused | redeemTooMuch | redeemNoCash => rfl
  | mint serves _ _ paid =>
    rw [kind_insert (serves.here_insert _), kind_insert serves.underlying]
    · exact (Erc20.step_of_transferFrom paid).kind
    · rfl
  | redeem serves _ _ _ paid =>
    rw [kind_insert (serves.here_insert _), kind_insert serves.underlying]
    · exact (Erc20.step_of_transfer paid).kind
    · rfl

/-- No message makes a controller of anything else. -/
theorem Step.controller_before (h : l.Step sender target p after result logs) {address : Address}
    {c' : Controller} (there : after.get? address = some (.controller c')) :
    ∃ c, l.get? address = some (.controller c) := by
  have same := h.kind_at address
  rw [there, Option.map_some, eq_comm, Option.map_eq_some_iff] at same
  obtain ⟨c, found, same⟩ := same
  obtain ⟨c, rfl⟩ := Contract.controller_of_kind same
  exact ⟨c, found⟩

/-- A message changes a controller only by being a message to it. -/
theorem Step.controller_at (h : l.Step sender target p after result logs) {address : Address}
    {c : Controller} (here : l.get? address = some (.controller c)) :
    ∃ c', after.get? address = some (.controller c') ∧ (c' = c ∨ address = target ∧
      ∃ isMarket o, c.Step ⟨target, sender⟩ isMarket p o ∧ c' = o.state) := by
  cases h with
  | token there step =>
    have apart : target ≠ address := ne_of_get? there here (by simp)
    exact ⟨c, by rw [Store.get?_insert, if_neg apart, here], .inl rfl⟩
  | @controller c' o there step =>
    by_cases same : target = address
    · subst same
      cases there.symm.trans here
      exact ⟨o.state, Store.get?_insert_self .., .inr ⟨rfl, _, o, step, rfl⟩⟩
    · exact ⟨c, by rw [Store.get?_insert, if_neg same, here], .inl rfl⟩
  | mintRefused | redeemRefused | redeemTooMuch | redeemNoCash => exact ⟨c, here, .inl rfl⟩
  | mint serves | redeem serves =>
    have apart : target ≠ address := ne_of_get? serves.here here (by simp)
    have apart' : _ ≠ address := ne_of_get? serves.underlying here (by simp)
    refine ⟨c, ?_, .inl rfl⟩
    rw [Store.get?_insert, if_neg apart, Store.get?_insert, if_neg apart', here]

theorem send_token {t : Erc20} {o : Outcome Erc20} (here : l.get? target = some (.token t))
    (step : t.Step ⟨target, sender⟩ p o) :
    l.send sender target p = .ok (l.insert target (.token o.state), o.result, o.logs) := by
  have executed := Erc20.execute_eq_ok.mpr step
  simp [send, contractAt_eq_ok.mpr here, Contract.execute, executed]

theorem Serves.underlying_erase {m : Market} {t : Erc20} (s : l.Serves target m t) :
    (l.erase target).get? m.underlying = some (.token t) :=
  get?_erase_eq_some.mpr ⟨s.apart, s.underlying⟩

theorem Serves.listed_erase {m : Market} {t : Erc20} (s : l.Serves target m t) :
    Lists (l.erase target) m.controller target := by
  obtain ⟨c, found, listed⟩ := s.listed
  exact ⟨c, get?_erase_eq_some.mpr ⟨ne_of_get? s.here found (by simp), found⟩, listed⟩

/-- What the market sees of its cash. -/
theorem Serves.view_cash {m : Market} {t : Erc20} (s : l.Serves target m t) (owner : Address) :
    view (l.erase target) m.underlying ⟨"balanceOf", [.address owner]⟩ =
      .ok (.number (t.balanceOf owner)) := by
  rw [view_token s.underlying_erase]
  rfl

theorem send_mint {m : Market} {t : Erc20} {amount : Int} {o : Outcome Erc20}
    (s : l.Serves target m t) (method : p.method = "mint") (hasAmount : p.number 0 = .ok amount)
    (paid : t.transferFrom ⟨m.underlying, target⟩ sender target amount = .ok o) :
    l.send sender target p =
      .ok ((l.insert m.underlying (.token o.state)).insert target
          (.market (m.credit sender (m.tokensFor amount))),
        .number 0,
        o.logs ++ [⟨target, "Mint", [("minter", .address sender), ("mintAmount", .number amount),
          ("mintTokens", .number (m.tokensFor amount))]⟩]) := by
  have asked : m.controllerCode (l.erase target) ⟨target, sender⟩ "mintAllowed" amount = .ok 0 :=
    (controllerCode_eq_zero (.inl rfl)).mpr s.listed_erase
  have delivered : deliver (l.erase target) target m.underlying
      ⟨"transferFrom", [.address sender, .address target, .number amount]⟩ = .ok (_, o.logs) :=
    deliver_eq_ok.mpr ⟨t, o, s.underlying_erase, paid, rfl⟩
  simp [send, contractAt_eq_ok.mpr s.here, Contract.execute, Market.execute, method, hasAmount,
    Market.mint, asked, delivered, Store.erase_insert_insert]

theorem send_redeem {m : Market} {t : Erc20} {tokens : Int} {o : Outcome Erc20}
    (s : l.Serves target m t) (method : p.method = "redeem") (hasTokens : p.number 0 = .ok tokens)
    (held : tokens ≤ m.balanceOf sender)
    (paid : t.transfer ⟨m.underlying, target⟩ sender (m.amountFor tokens) = .ok o) :
    l.send sender target p =
      .ok ((l.insert m.underlying (.token o.state)).insert target
          (.market (m.credit sender (-tokens))),
        .number 0,
        o.logs ++ [⟨target, "Redeem", [("redeemer", .address sender),
          ("redeemAmount", .number (m.amountFor tokens)), ("redeemTokens", .number tokens)]⟩]) := by
  have asked : m.controllerCode (l.erase target) ⟨target, sender⟩ "redeemAllowed" tokens = .ok 0 :=
    (controllerCode_eq_zero (.inr rfl)).mpr s.listed_erase
  have covered : m.amountFor tokens ≤ t.balanceOf target := (Erc20.transfer_eq_ok.mp paid).1
  have delivered : deliver (l.erase target) target m.underlying
      ⟨"transfer", [.address sender, .number (m.amountFor tokens)]⟩ = .ok (_, o.logs) :=
    deliver_eq_ok.mpr ⟨t, o, s.underlying_erase, paid, rfl⟩
  simp [send, contractAt_eq_ok.mpr s.here, Contract.execute, Market.execute, method, hasTokens,
    Market.redeem, asked, s.view_cash, Abi.asNumber?, Int.not_lt.mpr held, Int.not_lt.mpr covered, delivered,
    Store.erase_insert_insert]

end Send

end Ledger

end MarketScript
