import MarketScript.Proofs.Reading.Depth

/-!
# How deep commands go

A command carries out only smaller ones, so its size bounds how many are carried out within each
other.  With as many steps as that its deed is found, and more steps find the same.
-/

namespace MarketScript

namespace Command

/-- The table and the argument of the command that a command carries out, if it does. -/
def inner? : Command → Option (CommandTable × String)
  | fromAccount | dryRun => some (.topLevel, "command")
  | inTable table arg => some (table, arg)
  | _ => none

theorem usual_of_mem {table : CommandTable} : ∀ d ∈ table.shapes, ∀ a ∈ d.args, a.Usual := by
  cases table with
  | topLevel =>
    simp [CommandTable.shapes, topLevelShapes, inFamily, rest, arg, Reading.restEvent, Arg.Usual]
  | assertions => simp [CommandTable.shapes, assertionShapes, arg, Arg.Usual]
  | family family | deploy family =>
    cases family <;>
      simp [CommandTable.shapes, controllerShapes, marketShapes, tokenShapes, registryShapes,
        rateModelShapes, deployShape, tokenShape, rest, arg, Reading.restEvent,
        Reading.controllerArg, Reading.marketArg, Reading.tokenArg, controllerDeployShapes,
        controllerName, marketDeployShapes, marketDeployShape, marketArgs, existingShape,
        tokenDeployShapes, rateModelDeployShapes, Arg.Usual]

/-- Only among the ways to bind a contract there is a catchall. -/
theorem deploy_of_catchall {table : CommandTable} :
    ∀ d ∈ table.shapes, d.catchall = true → ∃ family, table = .deploy family := by
  cases table with
  | topLevel => simp [CommandTable.shapes, topLevelShapes, inFamily]
  | assertions => simp [CommandTable.shapes, assertionShapes]
  | family family =>
    cases family <;>
      simp [CommandTable.shapes, controllerShapes, marketShapes, tokenShapes, registryShapes,
        rateModelShapes, deployShape, tokenShape]
  | deploy family => exact fun _ _ _ => ⟨family, rfl⟩

/-- What a command carries out is an event that it takes from its tokens.  Only the controller's
    deployment can do without, and then binds a contract in the usual way. -/
theorem takesEvent_of_mem {table : CommandTable} :
    ∀ d ∈ table.shapes, ∀ inner name, d.handler.inner? = some (inner, name) →
      d.catchall = false ∧ ∀ a ∈ d.args, a.name = name → a.source = .token .event ∧
        a.mapped = false ∧ a.nullable = false ∧
        (a.default = none ∨ a.default = some (.event (.list [])) ∧ table = .family .controller ∧
          inner = .deploy .controller) := by
  cases table with
  | topLevel =>
    simp [CommandTable.shapes, topLevelShapes, inFamily, rest, arg, Reading.restEvent, inner?]
  | assertions => simp [CommandTable.shapes, assertionShapes, inner?]
  | family family | deploy family =>
    cases family <;>
      simp [CommandTable.shapes, controllerShapes, marketShapes, tokenShapes, registryShapes,
        rateModelShapes, deployShape, tokenShape, rest, arg, Reading.restEvent,
        controllerDeployShapes, controllerName, marketDeployShapes, marketDeployShape,
        existingShape, tokenDeployShapes, rateModelDeployShapes, inner?]

end Command

/-- How many steps within each other a command of a table can need. -/
def CommandTable.rank (table : CommandTable) (e : Event) : Nat :=
  match table with
  | .deploy _ => 2 * e.size + 4
  | _ => 2 * e.size + 5

namespace CommandTable

theorem le_rank (table : CommandTable) (e : Event) : 2 * e.size + 4 ≤ table.rank e := by
  cases table <;> simp [rank]

theorem rank_le (table : CommandTable) (e : Event) : table.rank e ≤ 2 * e.size + 5 := by
  cases table <;> simp [rank]

theorem rank_le_depth (table : CommandTable) (e : Event) : table.rank e ≤ e.depth := by
  have upper := table.rank_le e
  have size := e.size_pos
  unfold Event.depth
  omega

end CommandTable

section Taken

variable {value : Event → Eval Value} {w : World} {table : CommandTable} {e : Event}
  {d : Command.Shape} {args : Args}

/-- What a command carries out needs fewer steps than the command. -/
theorem rank_inner_lt
    (taken : (select (Resolver.run value w) w table.shapes e).Ends (.ok (d, args)))
    {inner : CommandTable} {name : String} (carries : d.handler.inner? = some (inner, name))
    {event : Event} (told : args.event name = .ok event) : inner.rank event < table.rank e := by
  have selected := select_ends_iff.mp taken
  obtain ⟨isNamed, takes⟩ := Command.takesEvent_of_mem d selected.mem inner name carries
  obtain ⟨suits, resolved⟩ := selected.resolved
  rcases suits with isCatchall | bears
  · simp [isNamed] at isCatchall
  rw [bears.argTokens] at resolved
  obtain ⟨v, given, asEvent⟩ := except_bind_eq_ok.mp told
  have same : v = .event event := by
    cases v <;> cases asEvent
    rfl
  subst same
  obtain ⟨a, isArg, named, gets⟩ := gets_of_get resolved given
  obtain ⟨source, single, needed, default⟩ := takes a isArg named
  have upper := inner.rank_le event
  have lower := table.le_rank e
  cases gets with
  | implicit source' => simp [source] at source'
  | fallback _ given =>
    rcases default with none | ⟨some, rfl, rfl⟩
    · simp [Arg.fallback, none, needed] at given
    · simp only [Arg.fallback, some, Except.ok.injEq, Value.event.injEq] at given
      subst given
      have size := e.size_pos
      simp [CommandTable.rank]
      omega
  | @token r token _ source' within resolved =>
    rw [source] at source'
    cases source'
    cases Eval.ends_pure.mp resolved
    obtain ⟨-, w, here, -⟩ := bears
    have below : Query.Below (.value token.unwrapSingle) e :=
      ⟨_, w, here, within.unwrapSingle⟩
    have smaller : token.unwrapSingle.size < e.size := below.size_lt
    omega

/-- Which shape is taken depends only on what smaller expressions denote. -/
theorem select_below_agree {value value' : Event → Eval Value}
    (h : ∀ d : Event, 2 * d.size + 1 < table.rank e →
      (value d).Agree ScenarioError.Plain (value' d)) :
    (select (Resolver.run value w) w table.shapes e).Agree ScenarioError.Plain
      (select (Resolver.run value' w) w table.shapes e) := by
  refine select_agree (fun _ plain => plain) fun d member suits a isArg => ?_
  unfold Arg.Agrees
  split
  · rename_i get source
    obtain ⟨-, plain⟩ := (Command.usual_of_mem d member a isArg).same source w w rfl
    exact ⟨rfl, plain⟩
  · rename_i r source
    intro token given
    have within := given.within
    refine Resolver.run_agree (fun smaller le => h smaller ?_) r
    rcases suits with isCatchall | bears
    -- the catchall is given the whole event
    · obtain ⟨family, rfl⟩ := Command.deploy_of_catchall d member isCatchall
      have whole : token.size ≤ e.size + 1 := by
        have items := within.2
        rw [Definition.argTokens, if_pos isCatchall] at items
        cases e <;> simp [Event.items] at items ⊢ <;> omega
      simp only [CommandTable.rank]
      omega
    · obtain ⟨-, w, here, -⟩ := id bears
      rw [bears.argTokens] at within
      have below : Query.Below (.value token) e := ⟨_, w, here, within⟩
      have small : token.size < e.size := below.size_lt
      have lower := table.le_rank e
      omega

/-- Taking a shape with as many steps as its rank comes to something, and more steps make no
    difference. -/
theorem select_depth_agree {chain : Chain} {depth depth' : Nat} (enough : table.rank e ≤ depth + 1)
    (enough' : table.rank e ≤ depth' + 1) :
    (select (Resolver.run (fun e => Scene.answer ⟨w, chain⟩ depth (.value e)) w) w table.shapes
      e).Agree ScenarioError.Plain
    (select (Resolver.run (fun e => Scene.answer ⟨w, chain⟩ depth' (.value e)) w) w table.shapes
      e) := by
  refine select_below_agree fun d small => ?_
  refine Scene.answer_agree ⟨w, chain⟩ w.settings.dryRun (.value d) ?_ ?_ <;>
  · simp only [Query.rank]
    omega

end Taken

/-- The deed of a command is found in the same way if the deeds of the commands within it are. -/
theorem Command.deed_agree {find find' : World → Address → CommandTable → Event → Eval Deed}
    {c : Command} {w : World} {sender : Address} {args : Args}
    (h : ∀ inner name, c.inner? = some (inner, name) → ∀ e, args.event name = .ok e →
      ∀ w sender, (find w sender inner e).Agree ScenarioError.Plain (find' w sender inner e)) :
    (c.deed find w sender args).Agree ScenarioError.Plain (c.deed find' w sender args) := by
  have told : ∀ inner name, c.inner? = some (inner, name) → ∀ w sender,
      (do find w sender inner (← Eval.ofExcept (args.event name)) : Eval Deed).Agree
        ScenarioError.Plain (do find' w sender inner (← Eval.ofExcept (args.event name))) := by
    intro inner name carries w sender
    refine (Eval.agree_ofExcept (args.plain_event name)).bind fun e given => ?_
    exact h inner name carries e (Eval.ends_ofExcept.mp given).symm w sender
  cases c with
  | fromAccount =>
    exact (Eval.agree_ofExcept (args.plain_address _)).bind fun account _ =>
      told _ _ rfl w account
  | dryRun => exact told _ _ rfl _ sender
  | inTable table arg => exact told _ _ rfl w sender
  | _ => exact Eval.agree_pure _

/-- With as many steps as its rank the deed of a command is found, and more steps find the same. -/
theorem World.deed_agree (chain : Chain) {depth depth' : Nat} (w : World) (sender : Address)
    (table : CommandTable) (e : Event) (enough : table.rank e ≤ depth)
    (enough' : table.rank e ≤ depth') :
    (w.deed chain depth sender table e).Agree ScenarioError.Plain
      (w.deed chain depth' sender table e) := by
  have positive : 0 < table.rank e := Nat.lt_of_lt_of_le (Nat.succ_pos _) (table.le_rank e)
  induction depth generalizing depth' w sender table e with
  | zero => exact absurd enough (Nat.not_le.mpr positive)
  | succ depth ih =>
    obtain ⟨depth', rfl⟩ : ∃ n, depth' = n + 1 := ⟨depth' - 1, by omega⟩
    refine Eval.Agree.bind (select_depth_agree enough enough') fun taken selected => ?_
    obtain ⟨d, args⟩ := taken
    dsimp only
    split
    · exact Eval.agree_pure _
    · refine Command.deed_agree fun inner name carries event told w sender => ?_
      have smaller := rank_inner_lt selected carries told
      exact ih w sender inner event (by omega) (by omega)
        (Nat.lt_of_lt_of_le (Nat.succ_pos _) (inner.le_rank event))

end MarketScript
