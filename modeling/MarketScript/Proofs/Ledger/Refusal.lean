import MarketScript.Proofs.Ledger.Exchange

/-!
# Refusals by name

A contract that refuses a message does so under two names of its family, and with a detail that is
zero unless the error says that a controller has refused before.  The contract and the message
determine the names, and who reads the log of the refusal with the tables of the family finds them
again.
-/

namespace MarketScript

namespace Family

/-- The methods of the messages that contracts of a family carry out. -/
def methods : Family → List String
  | controller =>
    ["_setCloseFactor", "_supportMarket", "_setCollateralFactor", "_setPendingAdmin", "_acceptAdmin"]
  | market => ["mint", "redeem"]
  | token => ["transfer", "transferFrom", "approve", "allocateTo"]
  | registry | rateModel => []

/-- No message is known to two families. -/
theorem eq_of_mem_methods {f g : Family} : ∀ method ∈ f.methods, method ∈ g.methods → f = g := by
  cases f <;> cases g <;> decide

end Family

/-- A refusal is still one when the contract is seen as one of many. -/
theorem Outcome.refused_map {σ τ : Type} {state : σ} {f : Frame} {family : FailureFamily}
    {error info : String} {detail : Int} {o : Outcome σ} (g : σ → τ)
    (h : refused state f family error info detail = .ok o) :
    refused (g state) f family error info detail = .ok { o with state := g o.state } := by
  obtain ⟨e, i, code, infoCode, rfl⟩ := refused_eq_ok.mp h
  exact refused_eq_ok.mpr ⟨e, i, code, infoCode, rfl⟩

/-- What the detail of a refusal stands for: the error of a controller if the error of the refusal
    says so, and nothing otherwise. -/
inductive Detail (error : String) : (detail : Nat) → (shown : String) → Prop
  | forwarded {code : Nat} {shown : String} (rejection : error = "CONTROLLER_REJECTION")
      (named : FailureFamily.controller.errorCode? shown = some code) : Detail error code shown
  | plain (other : error ≠ "CONTROLLER_REJECTION") : Detail error 0 "0"

/-- Only markets refuse because a controller has refused. -/
theorem FailureFamily.eq_market {family : FailureFamily} {e : Nat}
    (code : family.errorCode? "CONTROLLER_REJECTION" = some e) : family = .market := by
  cases family with
  | silent => cases code
  | controller =>
    have unknown : FailureFamily.controller.errorCode? "CONTROLLER_REJECTION" = none := by decide
    cases unknown.symm.trans code
  | market => rfl

/-- In the family whose contracts refuse with the error, the detail is shown by its name. -/
theorem Detail.detailName {family : FailureFamily} {error shown : String} {e detail : Nat}
    (h : Detail error detail shown) (code : family.errorCode? error = some e) :
    detail ≤ InvokationError.maxCode ∧ family.detailName error detail = shown := by
  cases h with
  | forwarded rejection named =>
    subst rejection
    cases FailureFamily.eq_market code
    exact ⟨FailureFamily.errorCode?_le_maxCode named, FailureFamily.errorName_of_errorCode? named⟩
  | plain other =>
    refine ⟨Nat.zero_le _, ?_⟩
    have last : family.forward? error = none := by
      unfold FailureFamily.forward?
      split
      · exact absurd rfl other
      · rfl
    rw [FailureFamily.detailName, last]
    rfl

/-! ## Refusals of markets -/

namespace Market

variable {m : Market} {peers after : Ledger} {f : Frame} {p : Params} {o : Outcome Market}
  {method : String} {amount code : Int}

theorem controllerCode_eq_ok (asks : method = "mintAllowed" ∨ method = "redeemAllowed") :
    m.controllerCode peers f method amount = .ok code ↔
      ∃ k, peers.get? m.controller = some (.controller k) ∧ k.listingCode f.this = code := by
  constructor
  · intro asked
    obtain ⟨answer, viewed, -⟩ := except_bind_eq_ok.mp asked
    obtain ⟨c, here, told⟩ := except_bind_eq_ok.mp viewed
    replace here := Ledger.contractAt_eq_ok.mp here
    cases c with
    | controller k =>
      rw [Ledger.controllerCode_eq here asks] at asked
      exact ⟨k, here, Except.ok.inj asked⟩
    | market m => rcases asks with rfl | rfl <;> simp [Market.read] at told
    | token t => rcases asks with rfl | rfl <;> simp [Contract.read, Erc20.read] at told
    | registry r => rcases asks with rfl | rfl <;> simp [Contract.read, Registry.read] at told
    | rateModel r => rcases asks with rfl | rfl <;> simp [Contract.read, RateModel.read] at told
  · rintro ⟨k, here, rfl⟩
    exact Ledger.controllerCode_eq here asks amount

/-- What a controller has against a market is that it does not list it. -/
theorem detail_of_controllerCode (asks : method = "mintAllowed" ∨ method = "redeemAllowed")
    (asked : m.controllerCode peers f method amount = .ok code) (unlisted : code ≠ 0) :
    code = (9 : Nat) ∧ Detail "CONTROLLER_REJECTION" 9 "MARKET_NOT_LISTED" := by
  obtain ⟨k, -, rfl⟩ := (controllerCode_eq_ok asks).mp asked
  rw [Ne, Ledger.listingCode_eq_zero, Bool.not_eq_true] at unlisted
  exact ⟨Ledger.listingCode_of_not_listed unlisted, .forwarded rfl (by decide)⟩

/-- A market refuses with a name, or carries out. -/
theorem refusal_or_completed (executed : m.execute peers f p = .ok (o, after)) :
    (∃ error info detail shown, m.refuse f error info (detail : Nat) = .ok o ∧
      Detail error detail shown ∧ after = peers) ∨ Completed o.result o.logs := by
  unfold execute at executed
  split at executed
  · obtain ⟨amount, -, executed⟩ := except_bind_eq_ok.mp executed
    rcases Ledger.mint_cases executed with ⟨code, asked, unlisted, refusal, same⟩ |
      ⟨t, paid, -, -, pays, -, rfl⟩
    · obtain ⟨rfl, detail⟩ := detail_of_controllerCode (.inl rfl) asked unlisted
      exact .inl ⟨_, _, _, _, refusal, detail, same⟩
    · have completed := (Erc20.step_of_transferFrom pays).completed
      exact .inr (completed_append completed (by simp) (.inl rfl))
  · obtain ⟨tokens, -, executed⟩ := except_bind_eq_ok.mp executed
    rcases Ledger.redeem_cases executed with ⟨code, asked, unlisted, refusal, same⟩ |
      ⟨-, refusal, same⟩ | ⟨cash, -, -, -, refusal, same⟩ | ⟨t, paid, -, -, -, pays, -, rfl⟩
    · obtain ⟨rfl, detail⟩ := detail_of_controllerCode (.inr rfl) asked unlisted
      exact .inl ⟨_, _, _, _, refusal, detail, same⟩
    · exact .inl ⟨_, _, 0, _, refusal, .plain (by decide), same⟩
    · exact .inl ⟨_, _, 0, _, refusal, .plain (by decide), same⟩
    · have completed := (Erc20.step_of_transfer pays).completed
      exact .inr (completed_append completed (by simp) (.inl rfl))
  · cases executed

end Market

/-! ## Refusals of contracts -/

namespace Contract

/-- Carrying out a message, the contract refuses it under two names of its family, with a detail. -/
def RefusesWith (c : Contract) (peers : Ledger) (f : Frame) (p : Params) (error info : String)
    (detail : Int) : Prop :=
  ∃ o, Outcome.refused c f c.family.failures error info detail = .ok o ∧
    c.execute peers f p = .ok (o, peers)

variable {c : Contract} {peers after : Ledger} {f : Frame} {p : Params} {o : Outcome Contract}
  {error info : String}

/-- The names and the detail of a refusal follow from the message. -/
theorem RefusesWith.unique {detail detail' : Int} {error' info' : String}
    (h : c.RefusesWith peers f p error info detail)
    (h' : c.RefusesWith peers f p error' info' detail') :
    error' = error ∧ info' = info ∧ detail' = detail := by
  obtain ⟨o, refused, executed⟩ := h
  obtain ⟨o', refused', executed'⟩ := h'
  cases executed.symm.trans executed'
  obtain ⟨e, i, code, infoCode, rfl⟩ := Outcome.refused_eq_ok.mp refused
  obtain ⟨e', i', code', infoCode', same⟩ := Outcome.refused_eq_ok.mp refused'
  simp only [Outcome.done, Outcome.mk.injEq, Abi.number.injEq, List.cons.injEq, Log.mk.injEq,
    Prod.mk.injEq, true_and, and_true, Int.natCast_inj] at same
  obtain ⟨rfl, -, rfl, rfl⟩ := same
  refine ⟨?_, ?_, rfl⟩
  · rw [← FailureFamily.errorName_of_errorCode? code', FailureFamily.errorName_of_errorCode? code]
  · rw [← FailureFamily.infoName_of_infoCode? infoCode',
      FailureFamily.infoName_of_infoCode? infoCode]

theorem RefusesWith.mem {detail : Int} (h : c.RefusesWith peers f p error info detail) :
    error ∈ c.family.failures.errors ∧ info ∈ c.family.failures.infos := by
  obtain ⟨_, refused, -⟩ := h
  obtain ⟨_, _, code, infoCode, -⟩ := Outcome.refused_eq_ok.mp refused
  exact ⟨FailureFamily.mem_of_errorCode? code, FailureFamily.mem_of_infoCode? infoCode⟩

/-- A contract that tells a failure has refused the message under names. -/
theorem refusesWith_of_execute (executed : c.execute peers f p = .ok (o, after)) {log : Log}
    (told : log ∈ o.logs) (event : log.event = "Failure") :
    ∃ error info detail shown, c.RefusesWith peers f p error info (detail : Nat) ∧
      Detail error detail shown := by
  have failed : ¬ Completed o.result o.logs := fun completed => completed.1 log told event
  cases c with
  | controller k =>
    obtain ⟨_, carriedOut, same⟩ := except_bind_eq_ok.mp executed
    cases same
    rcases (Controller.step_of_execute carriedOut).refusal_or_completed with
      ⟨error, info, -, refusal⟩ | completed
    · refine ⟨error, info, 0, "0", ⟨_, Outcome.refused_map Contract.controller refusal, executed⟩,
        .plain ?_⟩
      rintro rfl
      obtain ⟨_, _, code, -⟩ := Outcome.refused_eq_ok.mp refusal
      cases FailureFamily.eq_market code
    · exact absurd completed failed
  | market m =>
    obtain ⟨_, carriedOut, same⟩ := except_bind_eq_ok.mp executed
    cases same
    rcases Market.refusal_or_completed carriedOut with
      ⟨error, info, detail, shown, refusal, isDetail, rfl⟩ | completed
    · exact ⟨error, info, detail, shown, ⟨_, Outcome.refused_map Contract.market refusal, executed⟩,
        isDetail⟩
    · exact absurd completed failed
  | token t =>
    obtain ⟨_, carriedOut, same⟩ := except_bind_eq_ok.mp executed
    cases same
    exact absurd (Erc20.execute_eq_ok.mp carriedOut).completed failed
  | registry | rateModel => cases executed

/-- The log of a refusal is read back as the names that the contract has refused under. -/
theorem RefusesWith.ofLog {detail : Nat} {shown : String}
    (h : c.RefusesWith peers f p error info detail) (isDetail : Detail error detail shown)
    (executed : c.execute peers f p = .ok (o, after)) {log : Log} (told : log ∈ o.logs) :
    InvokationError.ofLog c.family.failures log = .failure error info shown := by
  obtain ⟨_, refused, executed'⟩ := h
  cases executed.symm.trans executed'
  obtain ⟨e, i, code, infoCode, rfl⟩ := Outcome.refused_eq_ok.mp refused
  obtain rfl := List.mem_singleton.mp told
  obtain ⟨small, named⟩ := isDetail.detailName code
  have codes : max e (max i detail) ≤ InvokationError.maxCode := by
    have := FailureFamily.errorCode?_le_maxCode code
    have := FailureFamily.infoCode?_le_maxCode infoCode
    omega
  refine (Ledger.ofLog_failureLog codes).trans ?_
  simp only [InvokationError.ofCodes, FailureFamily.errorName_of_errorCode? code,
    FailureFamily.infoName_of_infoCode? infoCode, named]

/-- A contract carries out messages of its family only. -/
theorem method_mem_of_execute (executed : c.execute peers f p = .ok (o, after)) :
    p.method ∈ c.family.methods := by
  cases c with
  | controller k =>
    show p.method ∈ Family.controller.methods
    obtain ⟨_, carriedOut, -⟩ := except_bind_eq_ok.mp executed
    unfold Controller.execute at carriedOut
    split at carriedOut
    case h_6 => cases carriedOut
    all_goals
      rename_i method
      rw [method]
      decide
  | market m =>
    show p.method ∈ Family.market.methods
    obtain ⟨_, carriedOut, -⟩ := except_bind_eq_ok.mp executed
    unfold Market.execute at carriedOut
    split at carriedOut
    case h_3 => cases carriedOut
    all_goals
      rename_i method
      rw [method]
      decide
  | token t =>
    show p.method ∈ Family.token.methods
    obtain ⟨_, carriedOut, -⟩ := except_bind_eq_ok.mp executed
    unfold Erc20.execute at carriedOut
    split at carriedOut
    case h_5 => cases carriedOut
    all_goals
      rename_i method
      rw [method]
      decide
  | registry | rateModel => cases executed

end Contract

/-- A message of which a failure is told was refused by the contract that it was sent to, under names
    that are read back from the log. -/
theorem Ledger.refusesWith_of_send {l after : Ledger} {sender target : Address} {p : Params}
    {result : Abi} {logs : List Log} (sent : l.send sender target p = .ok (after, result, logs))
    {log : Log} (told : log ∈ logs) (event : log.event = "Failure") :
    ∃ c error info detail shown, l.get? target = some c ∧ p.method ∈ c.family.methods ∧
      c.RefusesWith (l.erase target) ⟨target, sender⟩ p error info (detail : Nat) ∧
      Detail error detail shown ∧
      InvokationError.ofLog c.family.failures log = .failure error info shown := by
  obtain ⟨c, here, sent⟩ := except_bind_eq_ok.mp sent
  obtain ⟨⟨o, peers⟩, executed, same⟩ := except_bind_eq_ok.mp sent
  cases same
  obtain ⟨error, info, detail, shown, refuses, isDetail⟩ :=
    Contract.refusesWith_of_execute executed told event
  exact ⟨c, error, info, detail, shown, contractAt_eq_ok.mp here,
    Contract.method_mem_of_execute executed, refuses, isDetail, refuses.ofLog isDetail executed told⟩

end MarketScript
