import MarketScript.Proofs.Chain.Addresses

/-!
# Who governs a controller

Only the admin of a controller changes what it lists and its factors, and only an account that the
admin has named becomes the next admin, by accepting.  So along a run the admins of a controller are
a chain that begins with the account that made it.
-/

namespace MarketScript

theorem Params.address_zero_eq_ok {p : Params} {address : Address} :
    p.address 0 = .ok address ↔ ∃ rest, p.values = .address address :: rest := by
  obtain ⟨method, values⟩ := p
  cases values with
  | nil => simp [Params.address, Params.get, Params.bad]
  | cons value rest => cases value <;> simp [Params.address, Params.get, Params.bad, Abi.asAddress?]

namespace Controller

/-- What a request has changed in the controller at an address, it was entitled to change. -/
structure Governed (c : Controller) (r : Request) (address : Address) (after : Controller) :
    Prop where
  /-- What is listed and how it is weighed is up to the admin. -/
  factors : after.closeFactor ≠ c.closeFactor ∨ after.markets ≠ c.markets →
    ∃ method args, r = .send c.admin address method args
  /-- The admin names the next one, and who accepts is no longer pending. -/
  nomination : after.pendingAdmin ≠ c.pendingAdmin →
    (∃ rest, r = .send c.admin address "_setPendingAdmin"
      (.address after.pendingAdmin :: rest)) ∨
    after.pendingAdmin = .zero ∧ ∃ args, r = .send c.pendingAdmin address "_acceptAdmin" args
  /-- Who has been named accepts. -/
  handover : after.admin ≠ c.admin →
    after.admin = c.pendingAdmin ∧ c.pendingAdmin ≠ .zero ∧ after.pendingAdmin = .zero ∧
      ∃ args, r = .send c.pendingAdmin address "_acceptAdmin" args

variable {c : Controller} {r : Request} {address : Address}

theorem Governed.same : c.Governed r address c :=
  ⟨fun changed => (not_or_intro (fun ne => ne rfl) (fun ne => ne rfl) changed).elim,
    fun changed => (changed rfl).elim, fun changed => (changed rfl).elim⟩

theorem Step.governed {sender : Address} {isMarket : Address → Except ChainError Abi}
    {method : String} {args : List Abi} {o : Outcome Controller}
    (step : c.Step ⟨address, sender⟩ isMarket ⟨method, args⟩ o) :
    c.Governed (.send sender address method args) address o.state := by
  cases step with
  | refused named refusal =>
    rw [(Outcome.refused_spec refusal named).1]
    exact .same
  | closeFactor _ admin | support _ admin | collateralFactor _ admin =>
    have byAdmin : sender = c.admin := admin
    subst byAdmin
    refine ⟨fun _ => ⟨method, args, rfl⟩, ?_, ?_⟩
    · intro changed
      exact (changed rfl).elim
    · intro changed
      exact (changed rfl).elim
  | pendingAdmin named admin hasPending =>
    have byAdmin : sender = c.admin := admin
    subst byAdmin
    obtain rfl : method = "_setPendingAdmin" := named
    obtain ⟨rest, rfl⟩ : ∃ rest, args = .address _ :: rest := Params.address_zero_eq_ok.mp hasPending
    refine ⟨fun _ => ⟨_, _, rfl⟩, fun _ => .inl ⟨rest, rfl⟩, ?_⟩
    intro changed
    exact (changed rfl).elim
  | acceptAdmin named pending nonzero =>
    have byPending : sender = c.pendingAdmin := pending
    subst byPending
    obtain rfl : method = "_acceptAdmin" := named
    have nonzero : c.pendingAdmin ≠ .zero := by simpa [Address.isZero] using nonzero
    refine ⟨?_, fun _ => .inr ⟨rfl, args, rfl⟩, fun _ => ⟨rfl, nonzero, rfl, args, rfl⟩⟩
    rintro (changed | changed)
    · exact (changed rfl).elim
    · exact (changed rfl).elim

end Controller

namespace Chain

/-- The controller at an address. -/
def controllerAt (c : Chain) (address : Address) : Option Controller :=
  (c.contracts.get? address).bind Contract.asController?

/-- The request makes a new contract at an address. -/
def Makes (c : Chain) (r : Request) (address : Address) : Prop :=
  ∃ sender kind args made, r = .deploy sender kind args ∧
    Contract.create kind sender ⟨"constructor", args⟩ = .ok made ∧
    contractAddress sender (c.nonceOf sender) = address

variable {c : Chain} {r : Request} {address : Address} {k : Controller}

theorem controllerAt_eq_some :
    c.controllerAt address = some k ↔ c.contracts.get? address = some (.controller k) := by
  unfold controllerAt
  rw [Option.bind_eq_some_iff]
  constructor
  · rintro ⟨contract, found, isController⟩
    rw [found, Contract.asController?_eq_some.mp isController]
  · intro found
    exact ⟨_, found, rfl⟩

/-- A new controller belongs to the account that made it; nothing is set or listed yet. -/
theorem Makes.unset (h : c.Makes r address) (there : (c.after r).controllerAt address = some k) :
    ∃ kind args scenario, r = .deploy k.admin kind args ∧ k = { scenario, admin := k.admin } := by
  obtain ⟨sender, kind, args, made, rfl, creation, drawn⟩ := h
  rw [controllerAt_eq_some, after_deploy c creation, drawn, Store.get?_insert_self] at there
  cases there
  obtain ⟨scenario, rfl⟩ := Contract.controller_of_create creation
  exact ⟨kind, args, scenario, rfl, rfl⟩

/-- A request leaves a controller to those who govern it, or puts a new contract in its place. -/
theorem governed_after (r : Request) (here : c.controllerAt address = some k) :
    c.Makes r address ∨
      ∃ k', (c.after r).controllerAt address = some k' ∧ k.Governed r address k' := by
  rw [controllerAt_eq_some] at here
  simp only [controllerAt_eq_some]
  have change := c.change_after r
  generalize (c.after r).contracts = l at change ⊢
  cases change with
  | none => exact .inr ⟨k, here, .same⟩
  | @deployed sender kind args made creation =>
    by_cases new : contractAddress sender (c.nonceOf sender) = address
    · exact .inl ⟨sender, kind, args, made, rfl, creation, new⟩
    · exact .inr ⟨k, by rw [Store.get?_insert, if_neg new, here], .same⟩
  | sent step =>
    obtain ⟨k', found, rfl | ⟨rfl, _, o, carriedOut, rfl⟩⟩ := step.controller_at here
    · exact .inr ⟨k', found, .same⟩
    · exact .inr ⟨o.state, found, carriedOut.governed⟩

/-- A controller is new or was there before. -/
theorem makes_or_controllerAt (there : (c.after r).controllerAt address = some k) :
    c.Makes r address ∨ ∃ before, c.controllerAt address = some before := by
  rw [controllerAt_eq_some] at there
  simp only [controllerAt_eq_some]
  have change := c.change_after r
  generalize (c.after r).contracts = l at change there
  cases change with
  | none => exact .inr ⟨k, there⟩
  | @deployed sender kind args made creation =>
    by_cases new : contractAddress sender (c.nonceOf sender) = address
    · exact .inl ⟨sender, kind, args, made, rfl, creation, new⟩
    · rw [Store.get?_insert, if_neg new] at there
      exact .inr ⟨k, there⟩
  | sent step => exact .inr (step.controller_before there)

section History

variable (network : String) (rs : List Request) (address admin : Address)

/-- All through a part of a run an account is the admin of the controller at an address. -/
def Reigns (past during : List Request) : Prop :=
  ∀ part, part <+: during →
    ((ofRun network (past ++ part)).controllerAt address).map Controller.admin = some admin

/-- An admin has named an account and is the admin ever since. -/
def Nominated (nominee : Address) : Prop :=
  ∃ past rest future,
    rs = past ++ .send admin address "_setPendingAdmin" (.address nominee :: rest) :: future ∧
    Reigns network address admin past
      (.send admin address "_setPendingAdmin" (.address nominee :: rest) :: future)

/-- How an account has become the admin that it still is: it made the controller, or the admin
    before it named it and it accepted. -/
inductive Installed : Prop
  | made {past future : List Request} {kind : String} {args : List Abi}
      (run : rs = past ++ .deploy admin kind args :: future)
      (makes : (ofRun network past).Makes (.deploy admin kind args) address)
      (reigns : Reigns network address admin (past ++ [.deploy admin kind args]) future)
  | accepted {past future : List Request} {args : List Abi} {predecessor : Address}
      (run : rs = past ++ .send admin address "_acceptAdmin" args :: future)
      (nominated : Nominated network past address predecessor admin) (nonzero : admin ≠ .zero)
      (reigns : Reigns network address admin
        (past ++ [.send admin address "_acceptAdmin" args]) future)

variable {network rs address admin}

theorem Reigns.nil {past : List Request} {c : Controller}
    (here : (ofRun network past).controllerAt address = some c) :
    Reigns network address c.admin past [] := by
  intro part along
  rw [List.prefix_nil.mp along, List.append_nil, here]
  rfl

theorem Reigns.concat {past during : List Request} {r : Request} {c : Controller}
    (h : Reigns network address c.admin past during)
    (here : (ofRun network (past ++ during ++ [r])).controllerAt address = some c) :
    Reigns network address c.admin past (during ++ [r]) := by
  intro part along
  rcases List.prefix_concat_iff.mp along with rfl | along
  · rw [← List.append_assoc, here]
    rfl
  · exact h part along

theorem Nominated.concat {nominee : Address} {r : Request} {c : Controller}
    (h : Nominated network rs address c.admin nominee)
    (here : (ofRun network (rs ++ [r])).controllerAt address = some c) :
    Nominated network (rs ++ [r]) address c.admin nominee := by
  obtain ⟨past, rest, future, rfl, reigns⟩ := h
  exact ⟨past, rest, future ++ [r], by simp, reigns.concat here⟩

theorem Installed.concat {r : Request} {c : Controller}
    (h : Installed network rs address c.admin)
    (here : (ofRun network (rs ++ [r])).controllerAt address = some c) :
    Installed network (rs ++ [r]) address c.admin := by
  cases h with
  | @made past future kind args run makes reigns =>
    subst run
    have later : past ++ .deploy c.admin kind args :: future ++ [r] =
        past ++ .deploy c.admin kind args :: (future ++ [r]) := by simp
    refine .made later makes (reigns.concat ?_)
    simpa using here
  | @accepted past future args predecessor run nominated nonzero reigns =>
    subst run
    have later : past ++ .send c.admin address "_acceptAdmin" args :: future ++ [r] =
        past ++ .send c.admin address "_acceptAdmin" args :: (future ++ [r]) := by simp
    refine .accepted later nominated nonzero (reigns.concat ?_)
    simpa using here

/-- The admin of a controller is installed, and has named whoever is pending. -/
theorem installed_ofRun {c : Controller}
    (here : (ofRun network rs).controllerAt address = some c) :
    Installed network rs address c.admin ∧
      (c.pendingAdmin ≠ .zero → Nominated network rs address c.admin c.pendingAdmin) := by
  induction rs using List.reverseRecOn generalizing c with
  | nil => cases here
  | append_singleton rs r ih =>
    have there := here
    rw [ofRun_concat] at there
    have fresh : (ofRun network rs).Makes r address →
        Installed network (rs ++ [r]) address c.admin ∧
          (c.pendingAdmin ≠ .zero → Nominated network (rs ++ [r]) address c.admin c.pendingAdmin) := by
      intro makes
      obtain ⟨kind, args, scenario, rfl, unset⟩ := makes.unset there
      refine ⟨.made rfl makes (.nil here), fun pending => ?_⟩
      rw [unset] at pending
      exact absurd rfl pending
    rcases makes_or_controllerAt there with makes | ⟨k, before⟩
    · exact fresh makes
    rcases governed_after r before with makes | ⟨c', there', governed⟩
    · exact fresh makes
    cases there.symm.trans there'
    obtain ⟨installed, nominated⟩ := ih before
    by_cases handed : c.admin = k.admin
    · rw [← handed] at installed nominated
      refine ⟨installed.concat here, fun pending => ?_⟩
      by_cases named : c.pendingAdmin = k.pendingAdmin
      · rw [← named] at nominated
        exact (nominated pending).concat here
      · rcases governed.nomination named with ⟨rest, rfl⟩ | ⟨reset, -⟩
        · rw [← handed]
          refine ⟨rs, rest, [], rfl, ?_⟩
          have reigns : Reigns network address c.admin rs [] := by
            rw [handed]
            exact .nil before
          rw [← handed] at here
          exact reigns.concat (by simpa using here)
        · exact absurd reset pending
    · obtain ⟨accepted, nonzero, reset, args, rfl⟩ := governed.handover handed
      refine ⟨?_, fun pending => absurd reset pending⟩
      rw [accepted]
      refine .accepted rfl (nominated nonzero) nonzero ?_
      rw [← accepted] at here ⊢
      exact .nil here

end History

/-- A new contract in the place of another is one more that its address was drawn for. -/
theorem Makes.not_distinct {c : Chain} {r : Request} {address : Address} {k : Controller}
    (h : c.Makes r address) (seeded : c.Seeded) (here : c.controllerAt address = some k) :
    ¬ (c.after r).DistinctSeeds := by
  obtain ⟨sender, kind, args, made, rfl, creation, drawn⟩ := h
  intro distinct
  have free := seeded.free creation distinct
  rw [drawn, controllerAt_eq_some.mp here] at free
  cases free

/-- In every run the admin of a controller made it, or was named by the admin before and accepted.
    Whatever is asked next, the close factor and what is listed change only if the admin sends it,
    the pending admin if the admin names another or the pending one accepts, and the admin if the
    pending one accepts; unless a second transaction draws the controller's address, which makes
    another controller that belongs to its sender. -/
theorem controller_authority (network : String) (rs : List Request) {address : Address}
    {k : Controller} (here : (ofRun network rs).controllerAt address = some k) :
    Installed network rs address k.admin ∧
    ∀ r,
      (∃ k', (ofRun network (rs ++ [r])).controllerAt address = some k' ∧
        k.Governed r address k') ∨
      (ofRun network rs).Makes r address ∧ ¬ (ofRun network (rs ++ [r])).DistinctSeeds ∧
        ∀ k', (ofRun network (rs ++ [r])).controllerAt address = some k' →
          ∃ kind args scenario, r = .deploy k'.admin kind args ∧
            k' = { scenario, admin := k'.admin } := by
  refine ⟨(installed_ofRun here).1, fun r => ?_⟩
  rw [ofRun_concat]
  rcases governed_after r here with makes | governed
  · exact .inr ⟨makes, makes.not_distinct (seeded_ofRun network rs) here, fun _ => makes.unset⟩
  · exact .inl governed

section Handover

/-- A run in which the admin of a controller names another account, which accepts. -/
def handover : List Request :=
  let controller := contractAddress ⟨1⟩ 0
  [.deploy ⟨1⟩ "Controller" [],
    .send ⟨1⟩ controller "_setPendingAdmin" [.address ⟨2⟩],
    .send ⟨1⟩ controller "_setCloseFactor" [.number 500000000000000000],
    .send ⟨2⟩ controller "_acceptAdmin" []]

/-- The controller that the run makes has the second account as its admin, which was named by the
    first. -/
theorem handover_authority :
    ∃ k, (ofRun "development" handover).controllerAt (contractAddress ⟨1⟩ 0) = some k ∧
      k.admin = ⟨2⟩ ∧ Installed "development" handover (contractAddress ⟨1⟩ 0) ⟨2⟩ := by
  have admin : ((ofRun "development" handover).controllerAt (contractAddress ⟨1⟩ 0)).map
      Controller.admin = some ⟨2⟩ := by
    decide +kernel
  obtain ⟨k, here, admin⟩ := Option.map_eq_some_iff.mp admin
  have installed := (controller_authority "development" handover here).1
  rw [admin] at installed
  exact ⟨k, here, admin, installed⟩

end Handover

end Chain

end MarketScript
