import MarketScript.Proofs.Dispatch.Positions
import MarketScript.Proofs.Reading.Market

/-!
# Readings are well defined

The shapes of readings are in order: their arguments are in their places, and no reading asks for an
argument that its shape has not.  So whatever a reading fails with, it is not the definition of a
shape.
-/

namespace MarketScript

/-- If the computation fails, it is not for the definition of a shape. -/
def Defined {α : Type} (x : Except ScenarioError α) : Prop :=
  ∀ command reason, x ≠ .error (.invalidDefinition command reason)

section Rules

variable {α β : Type}

@[simp] theorem defined_ok (a : α) : Defined (.ok a) := fun _ _ => nofun

@[simp] theorem defined_error {e : ScenarioError} :
    Defined (.error e : Except _ α) ↔ ∀ command reason, e ≠ .invalidDefinition command reason := by
  simp [Defined]

theorem Defined.bind {x : Except ScenarioError α} {f : α → Except ScenarioError β} (hx : Defined x)
    (hf : ∀ a, Defined (f a)) : Defined (x >>= f) := by
  cases x with
  | error e => simpa using hx
  | ok a => exact hf a

theorem defined_mapM {f : α → Except ScenarioError β} {as : List α} (hf : ∀ a ∈ as, Defined (f a)) :
    Defined (as.mapM f) := by
  induction as with
  | nil => exact defined_ok _
  | cons a as ih =>
    obtain ⟨first, others⟩ := List.forall_mem_cons.mp hf
    rw [List.mapM_cons]
    exact first.bind fun _ => (ih others).bind fun _ => defined_ok _

end Rules

namespace Value

variable (v : Value)

theorem defined_asNumber : Defined v.asNumber := by cases v <;> simp [asNumber, mismatch]

theorem defined_asAddress : Defined v.asAddress := by cases v <;> simp [asAddress, mismatch]

theorem defined_asString : Defined v.asString := by cases v <;> simp [asString, mismatch]

theorem defined_asBool : Defined v.asBool := by cases v <;> simp [asBool, mismatch]

theorem defined_asEvent : Defined v.asEvent := by cases v <;> simp [asEvent, mismatch]

theorem defined_addressIn : Defined v.addressIn := by
  unfold addressIn
  split
  · split
    · exact defined_asAddress _
    · simp
  · exact defined_asAddress _

end Value

theorem Decoding.defined_decode (d : Decoding) (answer : Abi) : Defined (d.decode answer) := by
  cases d <;> cases answer <;> simp [decode]

theorem Resolver.defined_literalOf (w : World) (e : Event) : Defined (literalOf w e) := by
  unfold literalOf
  split
  · simp
  · split <;> simp
  · simp

namespace World

variable (w : World)

theorem defined_contract (address : Address) : Defined (w.contract address) := by
  unfold contract
  split <;> simp

theorem defined_roleAt (family : Family) (address : Address) : Defined (w.roleAt family address) := by
  refine (w.defined_contract address).bind fun h => ?_
  split
  · exact defined_ok _
  · exact defined_error.mpr (by simp)

theorem defined_indexedAddress (name : String) (path : List String) :
    Defined (w.indexedAddress name path) := by
  have found : Defined (w.lookup name [path]) := by
    unfold lookup
    split <;> simp
  exact found.bind fun v => v.defined_addressIn.bind fun _ => defined_ok _

end World

theorem Arg.Usual.defined {a : Arg} (h : a.Usual) {get : World → Except ScenarioError Value}
    (source : a.source = .implicit get) (w : World) : Defined (get w) := by
  unfold Usual at h
  simp only [source] at h
  rcases h with rfl | rfl | rfl
  · exact w.defined_indexedAddress _ _
  · exact w.defined_indexedAddress _ _
  · unfold World.registryOrZero
    split <;> simp

/-! ## The arguments that readings ask for -/

/-- There is an argument of the name. -/
def Args.Has (args : Args) (name : String) : Prop := name ∈ args.values.map (·.1)

theorem Args.Has.get {args : Args} {name : String} (h : args.Has name) :
    ∃ v, args.get name = .ok v := by
  obtain ⟨named, member, rfl⟩ := List.mem_map.mp h
  cases found : args.values.find? (·.1 == named.1) with
  | none => simpa using List.find?_eq_none.mp found named member
  | some other => exact ⟨other.2, by simp [Args.get, found]⟩

section

variable {α : Type} {args : Args} {name : String}

/-- What is made of an argument that there is. -/
theorem Args.Has.defined (h : args.Has name) {f : Value → Except ScenarioError α}
    (hf : ∀ v, Defined (f v)) : Defined (args.get name >>= f) := by
  obtain ⟨v, given⟩ := h.get
  rw [given]
  exact hf v

theorem Args.Has.address (h : args.Has name) : Defined (args.address name) :=
  h.defined Value.defined_asAddress

end

/-- The arguments that a reading asks for. -/
def Reading.names : Reading → List String
  | argument name => [name]
  | account => ["name"]
  | network | lastInvokation => []
  | inFamily _ arg => [arg]
  | view contract _ about _ => contract :: about
  | isListed | collateralFactor => ["controller", "pToken"]
  | marketInfo => ["pToken"]

/-- No reading asks for an argument that its shape has not. -/
theorem Reading.names_subset (table : FetchTable) :
    ∀ d ∈ table.shapes, ∀ name ∈ d.handler.names, name ∈ d.args.map (·.name) := by
  cases table with
  | topLevel => decide +kernel
  | family family => cases family <;> decide +kernel

namespace Scene

variable (s : Scene)

theorem defined_view (address : Address) (method : String) (args : List Abi) :
    Defined (s.view address method args) := by
  refine (s.world.defined_contract address).bind fun h => ?_
  split
  · exact defined_ok _
  · exact defined_error.mpr (by simp)

variable {args : Args}

theorem defined_accountAddress (h : args.Has "name") : Defined (s.accountAddress args) := by
  have named : Defined (args.string "name") := h.defined Value.defined_asString
  refine named.bind fun name => ?_
  split
  · exact defined_ok _
  · exact defined_error.mpr (by simp)

theorem defined_marketOf (controller : args.Has "controller") (market : args.Has "pToken") :
    Defined (s.marketOf args) := by
  refine controller.address.bind fun _ => market.address.bind fun _ =>
    (s.defined_view _ _ _).bind fun answer => ?_
  split
  · exact defined_ok _
  · exact defined_error.mpr (by simp)

theorem defined_marketInfo (market : Address) : Defined (s.marketInfo market) := by
  refine (defined_mapM fun r _ => ?_).bind fun _ => defined_ok _
  exact (s.defined_view _ _ _).bind fun answer =>
    (r.decoding.defined_decode answer).bind fun _ => defined_ok _

theorem defined_viewArgs {contract : String} {about : List String}
    (h : ∀ name ∈ contract :: about, args.Has name) (method : String) (decoding : Decoding) :
    Defined (s.viewArgs args contract method about decoding) := by
  obtain ⟨first, others⟩ := List.forall_mem_cons.mp h
  refine (defined_mapM fun name member => ?_).bind fun about => ?_
  · exact (others name member).address.bind fun _ => defined_ok _
  · exact first.address.bind fun _ =>
      (s.defined_view _ _ _).bind fun answer => decoding.defined_decode answer

end Scene

/-! ## Readings within each other -/

namespace Eval

variable {α β : Type}

/-- If the reading fails, it is not for the definition of a shape. -/
def Defined (x : Eval α) : Prop := ∀ result, x.Ends result → MarketScript.Defined result

theorem defined_pure (a : α) : Defined (pure a) := by
  intro result ended
  rw [ends_pure.mp ended]
  exact defined_ok a

theorem defined_throw {e : ScenarioError} (h : ∀ command reason, e ≠ .invalidDefinition command reason) :
    Defined (throw e : Eval α) := by
  intro result ended
  rw [ends_throw.mp ended]
  exact defined_error.mpr h

theorem defined_ofExcept {r : Except ScenarioError α} (h : MarketScript.Defined r) :
    Defined (ofExcept r) := by
  intro result ended
  rwa [ends_ofExcept.mp ended]

theorem Defined.bind {x : Eval α} {f : α → Eval β} (hx : x.Defined)
    (hf : ∀ a, x.Ends (.ok a) → (f a).Defined) : (x >>= f).Defined := by
  intro result ended
  rcases ends_bind.mp ended with ⟨e, failed, rfl⟩ | ⟨a, first, rest⟩
  · exact defined_error.mpr (defined_error.mp (hx _ failed))
  · exact hf a first result rest

end Eval

section Resolving

variable {resolve : Resolver → Event → Eval Value} {world : World} {command : String}
  {tokens : List Event}

theorem Arg.FallsBack.defined {a : Arg} {result : Except ScenarioError Value}
    (given : a.FallsBack command result) : Defined result := by
  cases given <;> simp

variable (resolves : ∀ r e, (resolve r e).Defined)

include resolves

theorem EachComes.defined {r : Resolver} {result : Except ScenarioError (List Value)}
    (comes : EachComes resolve r tokens result) : Defined result := by
  cases comes with
  | all => exact defined_ok _
  | first _ failed => exact defined_error.mpr (defined_error.mp (resolves _ _ _ failed))

theorem Arg.Maps.defined {a : Arg} {r : Resolver} {result : Except ScenarioError Value}
    (maps : a.Maps resolve command r tokens result) : Defined result := by
  cases maps with
  | single | elements | empty => exact defined_ok _
  | neither _ failed => exact defined_error.mpr (defined_error.mp (resolves _ _ _ failed))
  | fallback _ _ given => exact given.defined
  | several _ _ resolved =>
    have each := resolved.defined resolves
    exact each.bind fun _ => defined_ok _

theorem Arg.Comes.defined {a : Arg} {place : Nat} {result : Except ScenarioError Value}
    (comes : a.Comes resolve world command tokens place result)
    (given : ∀ get, a.source = .implicit get → Defined (get world)) : Defined result := by
  cases comes with
  | implicit source => exact given _ source
  | token _ _ _ resolved | rest _ _ _ resolved => exact resolves _ _ _ resolved
  | noToken _ _ _ given | noRest _ _ _ given => exact given.defined
  | mapped _ _ _ maps => exact maps.defined resolves

variable {η : Type} {d : Definition η}
  (given : ∀ a ∈ d.args, ∀ get, a.source = .implicit get → Defined (get world))

include given

/-- The arguments of a shape fail for its definition if and only if one is out of its place. -/
theorem Positional.defined_iff {result : Except ScenarioError Args}
    (positional : Positional resolve world d tokens result) :
    Defined result ↔ WellPlaced d.args := by
  cases positional with
  | misplaced misplaced => simp [misplaced.not_wellPlaced]
  | failed placed fails =>
    obtain ⟨-, a, here, comes⟩ := fails
    have fine := comes.defined resolves (given a (List.mem_of_getElem? here))
    exact iff_of_true (defined_error.mpr (defined_error.mp fine)) placed
  | tooMany placed => exact iff_of_true (by simp) placed
  | resolved placed => exact iff_of_true (defined_ok _) placed

theorem resolveArgs_defined (placed : WellPlaced d.args) :
    (resolveArgs resolve world d tokens).Defined := fun _ ended =>
  ((resolveArgs_ends_iff.mp ended).defined_iff resolves given).mpr placed

omit given

/-- Taking a shape does not fail for a definition if the shapes are in order. -/
theorem Selection.defined {definitions : List (Definition η)} {e : Event}
    (placed : ∀ d ∈ definitions, WellPlaced d.args)
    (given : ∀ d ∈ definitions, ∀ a ∈ d.args, ∀ get, a.source = .implicit get → Defined (get world))
    {result : Except ScenarioError (Definition η × Args)}
    (selected : Selection resolve world definitions e result) : Defined result := by
  cases selected with
  | fits => exact defined_ok _
  | @lone d error only failed =>
    have candidate : d ∈ candidates definitions e := by simp [only]
    have member := (mem_candidates.mp candidate).1
    have fine := resolveArgs_defined resolves (given d member) (placed d member) _ failed
    exact defined_error.mpr (defined_error.mp fine)
  | several => simp [noMatch]
  | catchall _ first resolved =>
    have member := List.mem_of_find?_eq_some first
    have fine := resolveArgs_defined resolves (given _ member) (placed _ member) _ resolved
    exact fine.bind fun _ => defined_ok _
  | unknown => simp [noMatch]

end Resolving

namespace Resolver

variable {value : Event → Eval Value} {w : World} {e : Event}

theorem addressOf_defined (h : ∀ e, (value e).Defined) : (addressOf value w e).Defined := by
  unfold addressOf
  split
  · split
    · exact Eval.defined_pure _
    · split
      · exact Eval.defined_ofExcept (Value.defined_addressIn _)
      · exact (h _).bind fun v _ => Eval.defined_ofExcept v.defined_addressIn
  · exact (h _).bind fun v _ => Eval.defined_ofExcept v.defined_addressIn

theorem contractOf_defined (h : ∀ e, (value e).Defined) (family : Family) :
    (contractOf value w family e).Defined := by
  rw [contractOf_eq]
  refine Eval.Defined.bind ?_ fun a _ => Eval.defined_ofExcept (w.defined_roleAt family a)
  unfold addressFor
  split
  · exact Eval.defined_ofExcept (Value.defined_addressIn _)
  · exact addressOf_defined h

/-- A token is not resolved to an error of a definition if no expression denotes one. -/
theorem run_defined (h : ∀ e, (value e).Defined) (r : Resolver) : (r.run value w e).Defined := by
  have number : (numberOf value e).Defined :=
    (h e).bind fun v _ => (Eval.defined_ofExcept v.defined_asNumber).bind fun _ _ =>
      Eval.defined_pure _
  cases r with
  | value => exact h e
  | literal => exact Eval.defined_ofExcept (defined_literalOf w e)
  | event => exact Eval.defined_pure _
  | number => exact number
  | exp | percent =>
    unfold run
    dsimp only
    split
    · exact Eval.defined_pure _
    · exact number
  | string =>
    show (stringOf value e).Defined
    unfold stringOf
    split
    · exact Eval.defined_pure _
    · exact Eval.defined_pure _
    · exact (h _).bind fun v _ => (Eval.defined_ofExcept v.defined_asString).bind fun _ _ =>
        Eval.defined_pure _
  | bool =>
    exact (h e).bind fun v _ => (Eval.defined_ofExcept v.defined_asBool).bind fun _ _ =>
      Eval.defined_pure _
  | address => exact (addressOf_defined h).bind fun _ _ => Eval.defined_pure _
  | market => exact contractOf_defined h .market
  | token => exact contractOf_defined h .token
  | rateModel => exact contractOf_defined h .rateModel

end Resolver

/-- A reading that has the arguments that it asks for does not fail for a definition. -/
theorem Scene.read_defined {s : Scene} {fetch : FetchTable → Event → Eval Value} {r : Reading}
    {args : Args} (h : ∀ table e, (fetch table e).Defined) (has : ∀ name ∈ r.names, args.Has name) :
    (s.read fetch r args).Defined := by
  cases r with
  | argument name =>
    obtain ⟨v, given⟩ := (has name (by simp [Reading.names])).get
    unfold Scene.read
    dsimp only
    rw [given]
    exact Eval.defined_ofExcept (defined_ok v)
  | account => exact Eval.defined_ofExcept (s.defined_accountAddress (has _ (by simp [Reading.names])))
  | network | lastInvokation => exact Eval.defined_pure _
  | inFamily family arg =>
    have event : MarketScript.Defined (args.event arg) :=
      (has arg (by simp [Reading.names])).defined Value.defined_asEvent
    exact (Eval.defined_ofExcept event).bind fun e _ => h _ e
  | view contract method about decoding =>
    exact Eval.defined_ofExcept (s.defined_viewArgs has method decoding)
  | isListed | collateralFactor =>
    have found := s.defined_marketOf (has "controller" (by simp [Reading.names]))
      (has "pToken" (by simp [Reading.names]))
    first
      | exact Eval.defined_ofExcept (found.bind fun v => (Value.defined_asBool _).bind fun _ =>
          defined_ok _)
      | exact Eval.defined_ofExcept (found.bind fun v => (Value.defined_asNumber _).bind fun _ =>
          defined_ok _)
  | marketInfo =>
    exact Eval.defined_ofExcept ((has "pToken" (by simp [Reading.names])).address.bind fun market =>
      s.defined_marketInfo market)

/-- What a shape is resolved to has a value for each of its arguments. -/
theorem has_of_resolveArgs {η : Type} {resolve : Resolver → Event → Eval Value} {world : World}
    {d : Definition η} {tokens : List Event} {args : Args} {name : String}
    (resolved : (resolveArgs resolve world d tokens).Ends (.ok args))
    (member : name ∈ d.args.map (·.name)) : args.Has name := by
  have positional := resolveArgs_ends_iff.mp resolved
  cases positional with
  | resolved _ gives =>
    unfold Args.Has
    rwa [gives.1]

theorem Reading.wellPlaced_of_mem (table : FetchTable) : ∀ d ∈ table.shapes, WellPlaced d.args := by
  intro d member
  rcases d.validate_cases with ⟨placed, -⟩ | ⟨_, -, invalid⟩
  · exact placed
  · rw [valid_of_mem table d member] at invalid
    cases invalid

/-- A query does not fail for a definition if the queries do not that it asks. -/
theorem Query.step_defined {ask : Query → Eval Value} (h : ∀ q, (ask q).Defined) (s : Scene)
    (q : Query) : (q.step ask s).Defined := by
  cases q with
  | value e =>
    unfold step Scene.valueOf
    dsimp only
    split
    · exact Eval.defined_pure _
    · split
      · exact Eval.defined_pure _
      · intro result ended
        obtain ⟨answer, asked, ended⟩ := Eval.ends_attempt_bind.mp ended
        have fine := h _ _ asked
        split at ended
        · exact Eval.defined_pure _ _ ended
        · exact Eval.defined_throw (by simp) _ ended
        · exact Eval.defined_throw (defined_error.mp fine) _ ended
    · exact Eval.defined_pure _
    · exact h _
  | fetch table e =>
    have resolves : ∀ r e, (Resolver.run (fun e => ask (value e)) s.world r e).Defined := fun r e =>
      Resolver.run_defined (fun e => h _) r
    have given : ∀ d ∈ table.shapes, ∀ a ∈ d.args, ∀ get, a.source = .implicit get →
        Defined (get s.world) := fun d member a isArg get source =>
      (Reading.usual_of_mem d member a isArg).defined source s.world
    refine Eval.Defined.bind (fun result selected => ?_) fun taken selected => ?_
    · exact (select_ends_iff.mp selected).defined resolves (Reading.wellPlaced_of_mem table) given
    · obtain ⟨d, args⟩ := taken
      have selected := select_ends_iff.mp selected
      refine Scene.read_defined (fun table e => h _) fun name asked => ?_
      exact has_of_resolveArgs selected.resolved.2
        (Reading.names_subset table d selected.mem name asked)

/-- No query fails for the definition of a shape. -/
theorem Scene.answer_defined (s : Scene) (depth : Nat) (q : Query) : (s.answer depth q).Defined := by
  induction depth generalizing q with
  | zero =>
    intro result ended
    cases ended
  | succ depth ih => exact Query.step_defined ih s q

theorem Scene.resolver_defined (s : Scene) (depth : Nat) (r : Resolver) (e : Event) :
    (s.resolver depth r e).Defined :=
  Resolver.run_defined (fun e => s.answer_defined depth (.value e)) r

/-! ## The arguments of a shape -/

/-- The arguments of a shape come to something if tokens do. -/
theorem resolveArgs_total {η : Type} {resolve : Resolver → Event → Eval Value} (world : World)
    (total : ∀ r e, (resolve r e).Total) (d : Definition η) (tokens : List Event) :
    (resolveArgs resolve world d tokens).Total := by
  have agree : (resolveArgs resolve world d tokens).Agree (fun _ => True)
      (resolveArgs resolve world d tokens) := by
    refine resolveArgs_agree (fun _ _ => trivial) fun a _ => ?_
    unfold Arg.Agrees
    split
    · exact ⟨rfl, fun _ _ => trivial⟩
    · exact fun e _ => (total _ e).agree
  exact agree.total

/-- Resolving the arguments of a shape comes to what their places say, and to something if tokens do.
    In a scene it fails for the definition of the shape if and only if an argument that takes all
    remaining tokens is not the last that takes any. -/
theorem arguments_by_place {η : Type} (d : Definition η) (tokens : List Event) :
    (∀ (resolve : Resolver → Event → Eval Value) (world : World),
      (∀ result, (resolveArgs resolve world d tokens).Ends result ↔
        Positional resolve world d tokens result) ∧
      ((∀ r e, (resolve r e).Total) → ∃ result, Positional resolve world d tokens result)) ∧
    ∀ (s : Scene) (depth : Nat),
      (∀ a ∈ d.args, ∀ get, a.source = .implicit get → Defined (get s.world)) →
      ((∃ command reason, (resolveArgs (s.resolver depth) s.world d tokens).Ends
        (.error (.invalidDefinition command reason))) ↔ ¬ WellPlaced d.args) := by
  refine ⟨fun resolve world => ⟨fun result => resolveArgs_ends_iff, fun total => ?_⟩, ?_⟩
  · obtain ⟨result, ended⟩ := resolveArgs_total world total d tokens
    exact ⟨result, resolveArgs_ends_iff.mp ended⟩
  · intro s depth given
    constructor
    · rintro ⟨command, reason, ended⟩ placed
      exact resolveArgs_defined (s.resolver_defined depth) given placed _ ended command reason rfl
    · intro displaced
      rcases d.validate_cases with ⟨placed, -⟩ | ⟨a, misplaced, -⟩
      · exact absurd placed displaced
      · exact ⟨_, _, resolveArgs_ends_iff.mpr (.misplaced misplaced)⟩

/-- A lone group that is no literal is two numbers.  In the other order the first of the arguments
    would take all tokens. -/
theorem group_by_place :
    let world : World := { runId := "", accounts := [] }
    let resolve : Resolver → Event → Eval Value := fun _ e =>
      Eval.ofExcept (Resolver.literalOf world e)
    let amounts : Arg := { name := "amounts", source := .token .value, mapped := true }
    let registry : Arg := { name := "registry", source := .implicit World.registryOrZero }
    let shape (args : List Arg) : Definition Unit := ⟨"Sum", "", args, (), false, 0, false⟩
    let tokens : List Event := [.word "Zero", .words ["Zero", "True"]]
    Positional resolve world (shape [registry, Command.arg "first" .value, amounts]) tokens
        (.ok ⟨"Sum", [("registry", .address .zero), ("first", .number .zero),
          ("amounts", .list [.number .zero, .bool true])]⟩) ∧
      (∃ result, Positional resolve world (shape [amounts]) [] result) ∧
      (∃ command reason, (resolveArgs (Scene.resolver ⟨world, {}⟩ 3) world
        (shape [amounts, registry, Command.arg "first" .value]) tokens).Ends
          (.error (.invalidDefinition command reason))) := by
  intro world resolve amounts registry shape tokens
  refine ⟨?_, ?_, ?_⟩
  · exact ((arguments_by_place (shape [registry, Command.arg "first" .value, amounts]) tokens).1
      resolve world).1 _ |>.mp rfl
  · exact ((arguments_by_place (shape [amounts]) []).1 resolve world).2
      fun _ _ => Eval.total_ofExcept _
  · have usual : ∀ a ∈ [amounts, registry, Command.arg "first" .value], a.Usual := by
      simp [Arg.Usual, amounts, registry, Command.arg]
    refine ((arguments_by_place (shape [amounts, registry, Command.arg "first" .value]) tokens).2
      ⟨world, {}⟩ 3 fun a member get source => (usual a member).defined source world).mpr ?_
    intro placed
    have none := placed [] amounts [Command.arg "first" .value] rfl rfl
    cases none

end MarketScript
