import MarketScript.Proofs.Ledger.Step

/-!
# Errors of contracts

What fails on a chain fails because of the request: there is no such contract, it knows no such
message, the arguments are wrong, or the message is undone.  It never fails on the way to the
contract, which is also what a refusal under an unknown name would come to.
-/

namespace MarketScript

/-- If the computation fails, then not on the way to the contract. -/
def Delivered {α : Type} (x : Except ChainError α) : Prop :=
  ∀ message, x ≠ .error (.transport message)

section Rules

variable {α β : Type}

theorem delivered_ok (a : α) : Delivered (.ok a) := nofun

theorem delivered_error {e : ChainError} (other : ∀ message, e ≠ .transport message) :
    Delivered (.error e : Except _ α) := by
  rintro message ⟨⟩
  exact other message rfl

theorem Delivered.bind {x : Except ChainError α} {f : α → Except ChainError β} (hx : Delivered x)
    (hf : ∀ a, Delivered (f a)) : Delivered (x >>= f) := by
  cases x with
  | error e =>
    rintro message ⟨⟩
    exact hx message rfl
  | ok a => exact hf a

theorem Delivered.map {x : Except ChainError α} (hx : Delivered x) (f : α → β) :
    Delivered (f <$> x) := by
  cases x with
  | error e =>
    rintro message ⟨⟩
    exact hx message rfl
  | ok a => exact delivered_ok _

end Rules

/-! ## Arguments and answers -/

namespace Params

variable (p : Params) (i : Nat)

theorem delivered_get : Delivered (p.get i) := by
  unfold get bad
  split
  · exact delivered_ok _
  · exact delivered_error (by simp)

theorem delivered_number : Delivered (p.number i) := by
  refine (p.delivered_get i).bind fun value => ?_
  split
  · exact delivered_ok _
  · exact delivered_error (by simp)

theorem delivered_address : Delivered (p.address i) := by
  refine (p.delivered_get i).bind fun value => ?_
  split
  · exact delivered_ok _
  · exact delivered_error (by simp)

theorem delivered_string : Delivered (p.string i) := by
  refine (p.delivered_get i).bind fun value => ?_
  split
  · exact delivered_ok _
  · exact delivered_error (by simp)

end Params

/-- A refusal under names that the tables have is told. -/
theorem Outcome.delivered_refused {σ : Type} {state : σ} {f : Frame} {family : FailureFamily}
    {error info : String} {detail : Int} (hasError : (family.errorCode? error).isSome = true)
    (hasInfo : (family.infoCode? info).isSome = true) :
    Delivered (refused state f family error info detail) := by
  obtain ⟨e, code⟩ := Option.isSome_iff_exists.mp hasError
  obtain ⟨i, infoCode⟩ := Option.isSome_iff_exists.mp hasInfo
  rw [refused_eq_ok.mpr ⟨e, i, code, infoCode, rfl⟩]
  exact delivered_ok _

/-! ## Questions -/

section Questions

variable (p : Params)

theorem delivered_read (c : Contract) : Delivered (c.read p) := by
  cases c with
  | controller k =>
    show Delivered (k.read p)
    unfold Controller.read
    split <;> first
      | exact delivered_ok _
      | exact (p.delivered_address 0).bind fun _ => delivered_ok _
      | exact delivered_error (by simp)
  | market m =>
    show Delivered (m.read p)
    unfold Market.read
    split <;> first
      | exact delivered_ok _
      | exact (p.delivered_address 0).bind fun _ => delivered_ok _
      | exact delivered_error (by simp)
  | token t =>
    show Delivered (t.read p)
    unfold Erc20.read
    split <;> first
      | exact delivered_ok _
      | exact (p.delivered_address 0).bind fun _ => delivered_ok _
      | exact (p.delivered_address 0).bind fun _ => (p.delivered_address 1).bind fun _ =>
          delivered_ok _
      | exact delivered_error (by simp)
  | registry r =>
    show Delivered (r.read p)
    unfold Registry.read
    split <;> first | exact delivered_ok _ | exact delivered_error (by simp)
  | rateModel r =>
    show Delivered (r.read p)
    unfold RateModel.read
    split <;> first | exact delivered_ok _ | exact delivered_error (by simp)

variable (l : Ledger) (address : Address)

theorem delivered_contractAt : Delivered (l.contractAt address) := by
  unfold Ledger.contractAt
  split
  · exact delivered_ok _
  · exact delivered_error (by simp)

theorem delivered_view : Delivered (l.view address p) := by
  refine (delivered_contractAt l address).bind fun c => ?_
  split
  · rename_i m
    split
    · exact (delivered_contractAt l m.underlying).bind fun c => delivered_read _ c
    · exact delivered_read p (.market m)
  · exact delivered_read p _

end Questions

/-! ## Messages -/

section Messages

variable (f : Frame) (p : Params)

theorem Controller.delivered_guarded (c : Controller) {info : String}
    {act : Except ChainError (Outcome Controller)}
    (hasInfo : (FailureFamily.controller.infoCode? info).isSome = true) (hact : Delivered act) :
    Delivered (c.guarded f info act) := by
  unfold guarded
  split
  · exact Outcome.delivered_refused (by decide) hasInfo
  · exact hact

theorem Controller.delivered_execute (c : Controller) {isMarket : Address → Except ChainError Abi}
    (asks : ∀ a, Delivered (isMarket a)) : Delivered (c.execute f isMarket p) := by
  unfold execute
  split
  · refine c.delivered_guarded f (by decide) ((p.delivered_number 0).bind fun factor => ?_)
    unfold setCloseFactor
    split
    · exact Outcome.delivered_refused (by decide) (by decide)
    · exact delivered_ok _
  · refine c.delivered_guarded f (by decide) ((p.delivered_address 0).bind fun market => ?_)
    unfold supportMarket
    split
    · exact Outcome.delivered_refused (by decide) (by decide)
    · refine (asks market).bind fun answer => ?_
      split
      · exact delivered_error (by simp)
      · exact delivered_ok _
  · refine c.delivered_guarded f (by decide) ((p.delivered_address 0).bind fun market =>
      (p.delivered_number 1).bind fun factor => ?_)
    unfold setCollateralFactor
    split
    · exact Outcome.delivered_refused (by decide) (by decide)
    · split
      · exact Outcome.delivered_refused (by decide) (by decide)
      · exact delivered_ok _
  · exact c.delivered_guarded f (by decide) ((p.delivered_address 0).bind fun _ => delivered_ok _)
  · unfold acceptAdmin
    split
    · exact Outcome.delivered_refused (by decide) (by decide)
    · exact delivered_ok _
  · exact delivered_error (by simp)

namespace Erc20

variable (t : Erc20)

theorem delivered_move (source target : Address) (amount : Int) :
    Delivered (t.move source target amount) := by
  unfold move
  split
  · exact delivered_error (by simp)
  · exact delivered_ok _

theorem delivered_execute : Delivered (t.execute f p) := by
  unfold execute
  split
  · exact (p.delivered_address 0).bind fun target => (p.delivered_number 1).bind fun amount =>
      (t.delivered_move f.sender target amount).bind fun _ => delivered_ok _
  · refine (p.delivered_address 0).bind fun source => (p.delivered_address 1).bind fun target =>
      (p.delivered_number 2).bind fun amount => ?_
    unfold transferFrom
    dsimp only
    split
    · exact delivered_error (by simp)
    · exact (t.delivered_move source target amount).bind fun _ => delivered_ok _
  · exact (p.delivered_address 0).bind fun _ => (p.delivered_number 1).bind fun _ =>
      delivered_ok _
  · split
    · exact (p.delivered_address 0).bind fun _ => (p.delivered_number 1).bind fun _ =>
        delivered_ok _
    · exact delivered_error (by simp)
  · exact delivered_error (by simp)

end Erc20

theorem delivered_deliver (l : Ledger) (sender target : Address) :
    Delivered (l.deliver sender target p) := by
  refine (delivered_contractAt l target).bind fun c => ?_
  split
  · rename_i t
    exact (t.delivered_execute _ p).bind fun _ => delivered_ok _
  · exact delivered_error (by simp)

namespace Market

variable (m : Market) (peers : Ledger)

theorem delivered_controllerCode (method : String) (amount : Int) :
    Delivered (m.controllerCode peers f method amount) := by
  refine (delivered_view _ peers m.controller).bind fun answer => ?_
  split
  · exact delivered_ok _
  · exact delivered_error (by simp)

theorem delivered_mint (amount : Int) : Delivered (m.mint peers f amount) := by
  refine (m.delivered_controllerCode f peers _ amount).bind fun code => ?_
  split
  · exact (Outcome.delivered_refused (by decide) (by decide)).bind fun _ => delivered_ok _
  · exact (delivered_deliver _ peers f.this m.underlying).bind fun _ => delivered_ok _

theorem delivered_redeem (tokens : Int) : Delivered (m.redeem peers f tokens) := by
  refine (m.delivered_controllerCode f peers _ tokens).bind fun code => ?_
  split
  · exact (Outcome.delivered_refused (by decide) (by decide)).bind fun _ => delivered_ok _
  split
  · exact (Outcome.delivered_refused (by decide) (by decide)).bind fun _ => delivered_ok _
  refine (delivered_view _ peers m.underlying).bind fun cash => ?_
  split
  · exact (Outcome.delivered_refused (by decide) (by decide)).bind fun _ => delivered_ok _
  · exact (delivered_deliver _ peers f.this m.underlying).bind fun _ => delivered_ok _

theorem delivered_execute : Delivered (m.execute peers f p) := by
  unfold execute
  split
  · exact (p.delivered_number 0).bind fun amount => m.delivered_mint f peers amount
  · exact (p.delivered_number 0).bind fun tokens => m.delivered_redeem f peers tokens
  · exact delivered_error (by simp)

end Market

theorem Contract.delivered_execute (c : Contract) (peers : Ledger) :
    Delivered (c.execute peers f p) := by
  cases c with
  | controller k =>
    exact (k.delivered_execute f p fun a => delivered_view _ peers a).bind fun _ => delivered_ok _
  | market m => exact (m.delivered_execute f p peers).bind fun _ => delivered_ok _
  | token t => exact (t.delivered_execute f p).bind fun _ => delivered_ok _
  | registry | rateModel => exact delivered_error (by simp)

theorem Ledger.delivered_send (l : Ledger) (sender target : Address) :
    Delivered (l.send sender target p) :=
  (delivered_contractAt l target).bind fun c => (c.delivered_execute _ p _).bind fun _ =>
    delivered_ok _

end Messages

/-! ## Deployments -/

section Deployments

variable (p : Params)

theorem Market.delivered_ofParams (scenario : Bool) (admin : Address) :
    Delivered (ofParams scenario admin p) := by
  refine (p.delivered_number 4).bind fun rate => ?_
  split
  · exact delivered_error (by simp)
  · exact (p.delivered_address 0).bind fun _ => (p.delivered_address 1).bind fun _ =>
      (p.delivered_address 2).bind fun _ => (p.delivered_address 3).bind fun _ =>
        (p.delivered_number 5).bind fun _ => (p.delivered_string 6).bind fun _ =>
          (p.delivered_string 7).bind fun _ => (p.delivered_number 8).bind fun _ => delivered_ok _

theorem Erc20.delivered_ofParams (faucet : Bool) : Delivered (ofParams faucet p) :=
  (p.delivered_string 0).bind fun _ => (p.delivered_string 1).bind fun _ =>
    (p.delivered_number 2).bind fun _ => delivered_ok _

theorem Contract.delivered_create (kind : String) (deployer : Address) :
    Delivered (create kind deployer p) := by
  unfold create
  split <;> first
    | exact delivered_ok _
    | exact (Market.delivered_ofParams p _ deployer).bind fun _ => delivered_ok _
    | exact (Erc20.delivered_ofParams p _).bind fun _ => delivered_ok _
    | exact (p.delivered_number 0).bind fun _ => delivered_ok _
    | exact delivered_error (by simp)

end Deployments

end MarketScript
