import MarketScript.Command

/-!
# Errors of readings

A failed invokation is an error of what commands do and never of what they read: no conversion, no
lookup and no answer of a contract fails with one.
-/

namespace MarketScript

/-- No failed invokation is behind the error. -/
def ScenarioError.Plain (e : ScenarioError) : Prop := e.invokation? = none

/-- If the computation fails, no failed invokation is behind it. -/
def Plain {α : Type} (x : Except ScenarioError α) : Prop := ∀ e, x = .error e → e.Plain

section Rules

variable {α β : Type}

theorem plain_ok (a : α) : Plain (.ok a) := by
  intro e failed
  cases failed

theorem plain_error {e : ScenarioError} (h : e.Plain) : Plain (.error e : Except _ α) := by
  intro e' failed
  cases failed
  exact h

theorem Plain.bind {x : Except ScenarioError α} {f : α → Except ScenarioError β} (hx : Plain x)
    (hf : ∀ a, Plain (f a)) : Plain (x >>= f) := by
  intro e failed
  cases x with
  | error e' =>
    cases failed
    exact hx _ rfl
  | ok a => exact hf a e failed

theorem plain_mapM {f : α → Except ScenarioError β} (hf : ∀ a, Plain (f a)) (as : List α) :
    Plain (as.mapM f) := by
  induction as with
  | nil => exact plain_ok _
  | cons a as ih =>
    rw [List.mapM_cons]
    exact (hf a).bind fun _ => ih.bind fun _ => plain_ok _

end Rules

/-! ## Values -/

namespace Value

theorem plain_asNumber (v : Value) : Plain v.asNumber := by
  cases v <;> first | exact plain_ok _ | exact plain_error rfl

theorem plain_asAddress (v : Value) : Plain v.asAddress := by
  cases v <;> first | exact plain_ok _ | exact plain_error rfl

theorem plain_asString (v : Value) : Plain v.asString := by
  cases v <;> first | exact plain_ok _ | exact plain_error rfl

theorem plain_asBool (v : Value) : Plain v.asBool := by
  cases v <;> first | exact plain_ok _ | exact plain_error rfl

theorem plain_asEvent (v : Value) : Plain v.asEvent := by
  cases v <;> first | exact plain_ok _ | exact plain_error rfl

theorem plain_addressIn (v : Value) : Plain v.addressIn := by
  unfold addressIn
  split
  · split
    · exact plain_asAddress _
    · exact plain_error rfl
  · exact plain_asAddress _

mutual

theorem plain_encode : (v : Value) → Plain v.encode
  | number n => by
    rw [encode]
    split
    · exact plain_ok _
    · exact plain_error rfl
  | string _ | bool _ | address _ => plain_ok _
  | map _ | event _ | nothing => plain_error rfl
  | list vs => by
    rw [encode]
    exact (plain_encodes vs).bind fun _ => plain_ok _

theorem plain_encodes : (vs : List Value) → Plain (encodes vs)
  | [] => plain_ok _
  | v :: vs => by
    rw [encodes]
    exact (plain_encode v).bind fun _ => (plain_encodes vs).bind fun _ => plain_ok _

end

end Value

/-! ## Arguments -/

namespace Args

variable (args : Args) (name : String)

theorem plain_get : Plain (args.get name) := by
  unfold get
  split
  · exact plain_ok _
  · exact plain_error rfl

theorem plain_number : Plain (args.number name) :=
  (plain_get args name).bind Value.plain_asNumber

theorem plain_address : Plain (args.address name) :=
  (plain_get args name).bind Value.plain_asAddress

theorem plain_string : Plain (args.string name) :=
  (plain_get args name).bind Value.plain_asString

theorem plain_bool : Plain (args.bool name) := (plain_get args name).bind Value.plain_asBool

theorem plain_event : Plain (args.event name) := (plain_get args name).bind Value.plain_asEvent

end Args

theorem Arg.plain_fallback (a : Arg) (command : String) : Plain (a.fallback command) := by
  unfold fallback
  split
  · exact plain_ok _
  · split
    · exact plain_ok _
    · exact plain_error rfl

theorem Definition.plain_validate {η : Type} (d : Definition η) : Plain d.validate := by
  unfold validate
  split
  · exact plain_ok _
  · exact plain_error rfl

/-! ## Worlds and scenes -/

namespace World

variable (w : World)

theorem plain_contract (address : Address) : Plain (w.contract address) := by
  unfold contract
  split
  · exact plain_ok _
  · exact plain_error rfl

theorem plain_indexedAddress (name : String) (path : List String) :
    Plain (w.indexedAddress name path) := by
  have found : Plain (w.lookup name [path]) := by
    unfold lookup
    split
    · exact plain_ok _
    · exact plain_error rfl
  exact found.bind fun v => (Value.plain_addressIn v).bind fun _ => plain_ok _

theorem plain_registryOrZero : Plain w.registryOrZero := by
  unfold registryOrZero
  split <;> exact plain_ok _

theorem plain_defaultFrom : Plain w.defaultFrom := by
  unfold defaultFrom
  dsimp only
  split
  · exact plain_ok _
  · exact plain_error rfl

theorem plain_lastError : Plain w.lastError := by
  unfold lastError
  split
  · exact plain_ok _
  · exact plain_error rfl

end World

theorem Decoding.plain_decode (d : Decoding) (answer : Abi) : Plain (d.decode answer) := by
  cases d <;> cases answer <;> first | exact plain_ok _ | exact plain_error rfl

theorem Resolver.plain_literalOf (w : World) (e : Event) : Plain (literalOf w e) := by
  unfold literalOf
  split
  · exact plain_ok _
  · split
    · exact plain_ok _
    · exact plain_error rfl
  · exact plain_error rfl

namespace Scene

variable (s : Scene)

theorem plain_view (address : Address) (method : String) (args : List Abi) :
    Plain (s.view address method args) := by
  refine (s.world.plain_contract address).bind fun h => ?_
  split
  · exact plain_ok _
  · exact plain_error rfl

theorem plain_accountAddress (args : Args) : Plain (s.accountAddress args) := by
  refine (args.plain_string "name").bind fun name => ?_
  split
  · exact plain_ok _
  · exact plain_error rfl

theorem plain_marketOf (args : Args) : Plain (s.marketOf args) := by
  refine (args.plain_address _).bind fun controller => (args.plain_address _).bind fun market =>
    (s.plain_view _ _ _).bind fun answer => ?_
  split
  · exact plain_ok _
  · exact plain_error rfl

theorem plain_marketInfo (market : Address) : Plain (s.marketInfo market) := by
  refine (plain_mapM (fun r => ?_) _).bind fun _ => plain_ok _
  exact (s.plain_view _ _ _).bind fun answer =>
    (r.decoding.plain_decode answer).bind fun _ => plain_ok _

theorem plain_viewArgs (args : Args) (contract method : String) (about : List String)
    (decoding : Decoding) : Plain (s.viewArgs args contract method about decoding) := by
  refine (plain_mapM (fun name => ?_) _).bind fun about => ?_
  · exact (args.plain_address name).bind fun _ => plain_ok _
  · exact (args.plain_address contract).bind fun _ =>
      (s.plain_view _ _ _).bind fun answer => decoding.plain_decode answer

end Scene

end MarketScript
