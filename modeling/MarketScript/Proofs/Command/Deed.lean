import MarketScript.Proofs.Command.Effect
import MarketScript.Proofs.Dispatch

/-!
# Deeds

Whatever a command is wrapped in, senders, dry runs and the keywords of families, it comes to one
deed: a command that carries out no other, with the world and the sender it is carried out for.  The
deed is found without doing anything, and doing it is all that the whole command does.
-/

namespace MarketScript

/-- What there is to do in the end. -/
inductive Task where
  /-- In a dry run some commands are only logged. -/
  | skip (e : Event)
  | command (command : Command) (args : Args)

/-- A task, and the world and the sender that it is done for. -/
structure Deed where
  task : Task
  world : World
  sender : Address

/-- A world with dry runs on or off. -/
def World.withDryRun (w : World) (on : Bool) : World := w.withSettings ({ · with dryRun := on })

/-- The deed of a command of which the arguments are known; `find` finds those of the commands within
    it. -/
def Command.deed (find : World → Address → CommandTable → Event → Eval Deed) (c : Command)
    (w : World) (sender : Address) (args : Args) : Eval Deed :=
  match c with
  | fromAccount => do
    let account ← Eval.ofExcept (args.address "account")
    find w account .topLevel (← Eval.ofExcept (args.event "command"))
  | dryRun => do
    find (w.withDryRun true) sender .topLevel (← Eval.ofExcept (args.event "command"))
  | inTable table arg => do find w sender table (← Eval.ofExcept (args.event arg))
  | c => return { task := .command c args, world := w, sender }

/-- The deed of an event that is carried out as a command of a table, with at most the given number
    of commands and queries within each other. -/
def World.deed (chain : Chain) : (depth : Nat) → World → Address → CommandTable → Event → Eval Deed
  | 0, _, _, _, _ => Eval.exhausted
  | depth + 1, w, sender, table, e => do
    let scene : Scene := { world := w, chain }
    let (d, args) ←
      select (Resolver.run (fun e => scene.answer depth (.value e)) w) w table.shapes e
    if d.skipOnDryRun && w.settings.dryRun then
      return { task := .skip e, world := w, sender }
    else d.handler.deed (World.deed chain depth) w sender args

namespace Task

/-- A task is to skip a command, or it is a sound command that carries out no other. -/
def Sound : Task → Prop
  | skip _ => True
  | command c _ => c.Sound ∧ c.delegates = false

/-- What is said before the action of a task is announced. -/
def preface (t : Task) (w : World) : List Line :=
  match t with
  | skip _ => []
  | command c _ => c.preface w

/-- The binding that a task has made, seen from the world after it. -/
def binding? (t : Task) (after : World) : Option Binding :=
  match t with
  | skip _ => none
  | command c args => c.binding? args after

theorem binding?_withDryRun (t : Task) (w : World) (on : Bool) :
    t.binding? (w.withDryRun on) = t.binding? w := by
  cases t <;> rfl

end Task

namespace Deed

/-- To do the deed. -/
def act (d : Deed) : Act World :=
  match d.task with
  | .skip e => d.world.addAction s!"Dry run: skipped {e.text}"
  | .command c args => c.perform (fun _ _ _ _ => Act.exhausted) d.world d.sender args

theorem does_act {d : Deed} (sound : d.task.Sound) :
    d.act.Does d.world d.sender (d.task.preface d.world) d.task.binding? := by
  obtain ⟨task, w, sender⟩ := d
  cases task with
  | skip e => exact World.does_addAction (fun _ => rfl) fun _ => .told
  | command c args =>
    show (c.perform (fun _ _ _ _ => Act.exhausted) w sender args).Does w sender (c.preface w)
      (c.binding? args)
    exact Command.does_perform c sound.1 sound.2

/-- The deed is sound, and its world is the given one, with dry runs on or off. -/
def Within (w : World) (d : Deed) : Prop :=
  d.task.Sound ∧ ∃ on, d.world = w.withDryRun on

theorem Within.of_withDryRun {w : World} {d : Deed} {on : Bool} (h : d.Within (w.withDryRun on)) :
    d.Within w := by
  obtain ⟨sound, on', same⟩ := h
  exact ⟨sound, on', same⟩

end Deed

namespace World

theorem Effect.dryRun {w u : World} {sender : Address} {c c' : Chain}
    {i : Option (Invokation Value)} {b : Option Binding} (effect : w.Effect sender c i b u c') :
    u.settings.dryRun = w.settings.dryRun := by
  cases effect <;> rfl

/-- The log is no part of an effect. -/
theorem Effect.actions {w u : World} {sender : Address} {c c' : Chain}
    {i : Option (Invokation Value)} {b : Option Binding} (effect : w.Effect sender c i b u c') :
    u.actions = w.actions := by
  cases effect <;> rfl

end World

section Enacts

/-- What comes of doing the deed that a reading finds; dry runs are on afterwards as they are said to
    be. -/
def Enacted (y : Eval Deed) (on : Bool) (before : Stage) (result : Except ScenarioError World)
    (after : Stage) : Prop :=
  (∃ e, y.Ends (.error e) ∧ result = .error e ∧ after = before) ∨
  ∃ d r, y.Ends (.ok d) ∧ d.act.Ends before r after ∧ result = r.map (·.withDryRun on)

/-- An act comes to what comes of doing the deed that a reading finds. -/
def Enacts (x : Act World) (y : Eval Deed) (on : Bool) (before : Stage) : Prop :=
  ∀ result after, x.Ends before result after ↔ Enacted y on before result after

variable {α : Type} {before : Stage} {on : Bool} {w : World} {sender : Address} {args : Args}

theorem enacts_read {y : Eval α} {g : α → Act World} {g' : α → Eval Deed}
    (rest : ∀ a, y.Ends (.ok a) → Enacts (g a) (g' a) on before) :
    Enacts (do g (← Act.ofEval y)) (do g' (← y)) on before := by
  intro result after
  cases y with
  | none =>
    constructor
    · intro impossible
      cases impossible
    · rintro (⟨_, impossible, -⟩ | ⟨_, _, impossible, -⟩) <;> cases impossible
  | some answer =>
    cases answer with
    | error e =>
      show (throw e : Act World).Ends before result after ↔ Enacted (throw e) on before result after
      rw [Act.ends_throw]
      simp [Enacted]
    | ok a => exact rest a rfl result after

theorem enacts_ask {y : Except ScenarioError α} {g : α → Act World} {g' : α → Eval Deed}
    (rest : ∀ a, Enacts (g a) (g' a) on before) :
    Enacts (do g (← Act.ofExcept y)) (do g' (← Eval.ofExcept y)) on before := by
  have asked : Enacts (do g (← Act.ofEval (Eval.ofExcept y))) (do g' (← Eval.ofExcept y)) on before :=
    enacts_read fun a _ => rest a
  exact asked

theorem enacts_get {g : Stage → Act World} {y : Eval Deed}
    (rest : Enacts (g before) y on before) : Enacts (do g (← get)) y on before :=
  rest

/-- A deed that leaves dry runs on or off as they were is done as it stands. -/
theorem enacts_deed {d : Deed} (sound : d.task.Sound) :
    Enacts d.act (pure d) d.world.settings.dryRun before := by
  -- no effect switches dry runs, so setting them back changes nothing
  have kept : ∀ r after, d.act.Ends before r after →
      r.map (·.withDryRun d.world.settings.dryRun) = r := by
    intro r after ends
    rcases Deed.does_act sound before r after ends with ⟨e, rfl, -⟩ | ⟨w', i, u, rfl, effect, logged⟩
    · rfl
    · obtain ⟨description, rfl, -⟩ := logged
      rw [← effect.dryRun]
      rfl
  intro result after
  constructor
  · intro ends
    exact .inr ⟨d, result, Eval.ends_pure.mpr rfl, ends, (kept _ _ ends).symm⟩
  · rintro (⟨e, impossible, -⟩ | ⟨d', r, found, ends, rfl⟩)
    · cases Eval.ends_pure.mp impossible
    · cases Eval.ends_pure.mp found
      rw [kept _ _ ends]
      exact ends

/-- Within a dry run the deed is the same, and dry runs are set back after it. -/
theorem enacts_within {x : Act World} {y : Eval Deed} {on' : Bool} (h : Enacts x y on' before) :
    Enacts (do return (← x).withDryRun on) y on before := by
  have twice : ∀ r : Except ScenarioError World,
      (r.map (·.withDryRun on')).map (·.withDryRun on) = r.map (·.withDryRun on) := by
    intro r
    cases r <;> rfl
  intro result after
  rw [Act.ends_bind_pure]
  constructor
  · rintro ⟨_, ended, rfl⟩
    rcases (h _ _).mp ended with ⟨e, found, rfl, rfl⟩ | ⟨d, r, found, done, rfl⟩
    · exact .inl ⟨e, found, rfl, rfl⟩
    · exact .inr ⟨d, r, found, done, twice r⟩
  · rintro (⟨e, found, rfl, rfl⟩ | ⟨d, r, found, done, rfl⟩)
    · exact ⟨.error e, (h _ _).mpr (.inl ⟨e, found, rfl, rfl⟩), rfl⟩
    · exact ⟨_, (h _ _).mpr (.inr ⟨d, r, found, done, rfl⟩), (twice r).symm⟩

/-- A command does the deed that is found for it if the commands within it do. -/
theorem enacts_perform {run : World → Address → CommandTable → Event → Act World}
    {find : World → Address → CommandTable → Event → Eval Deed}
    (within : ∀ w sender table e,
      Enacts (run w sender table e) (find w sender table e) w.settings.dryRun before)
    (c : Command) (sound : c.Sound) :
    Enacts (c.perform run w sender args) (c.deed find w sender args) w.settings.dryRun before := by
  cases leaf : c.delegates with
  | true =>
    cases c with
    | fromAccount => exact enacts_ask fun account => enacts_ask fun e => within _ _ _ _
    | dryRun =>
      exact enacts_ask fun e => enacts_within (within _ _ _ _)
    | inTable table arg => exact enacts_ask fun e => within _ _ _ _
    | _ => cases leaf
  | false =>
    have asItIs := @enacts_deed before ⟨.command c args, w, sender⟩ ⟨sound, leaf⟩
    cases c <;> first | exact asItIs | cases leaf

end Enacts

/-- The deed of a command is the deed of one within it, in the same world or in a dry run, or the
    command itself if it carries out no other. -/
theorem Command.deed_cases {find : World → Address → CommandTable → Event → Eval Deed} {c : Command}
    {w : World} {sender : Address} {args : Args} {d : Deed}
    (found : (c.deed find w sender args).Ends (.ok d)) :
    (∃ u sender' table e, (u = w ∨ u = w.withDryRun true) ∧
      (find u sender' table e).Ends (.ok d)) ∨
    c.delegates = false ∧ d = ⟨.command c args, w, sender⟩ := by
  cases leaf : c.delegates with
  | true =>
    left
    cases c with
    | fromAccount =>
      obtain ⟨account, -, found⟩ := Eval.of_ask found
      obtain ⟨e, -, found⟩ := Eval.of_ask found
      exact ⟨_, _, _, _, .inl rfl, found⟩
    | dryRun =>
      obtain ⟨e, -, found⟩ := Eval.of_ask found
      exact ⟨_, _, _, _, .inr rfl, found⟩
    | inTable table arg =>
      obtain ⟨e, -, found⟩ := Eval.of_ask found
      exact ⟨_, _, _, _, .inl rfl, found⟩
    | _ => cases leaf
  | false =>
    have asItIs : (pure ⟨.command c args, w, sender⟩ : Eval Deed).Ends (.ok d) := by
      cases c <;> first | exact found | cases leaf
    exact .inr ⟨rfl, (Except.ok.inj (Eval.ends_pure.mp asItIs))⟩

namespace World

/-- A command that is taken from a table is sound. -/
theorem sound_of_select {resolve : Resolver → Event → Eval Value} {w : World} {table : CommandTable}
    {e : Event} {d : Command.Shape} {args : Args}
    (taken : (select resolve w table.shapes e).Ends (.ok (d, args))) : d.handler.Sound :=
  Command.sound_of_mem (select_ends_iff.mp taken).mem

/-- Carrying out a command is doing its deed. -/
theorem enacts_carryOut (before : Stage) (depth : Nat) :
    ∀ (w : World) (sender : Address) (table : CommandTable) (e : Event),
      Enacts (w.carryOut depth sender table e) (w.deed before.chain depth sender table e)
        w.settings.dryRun before := by
  induction depth with
  | zero =>
    intro w sender table e result after
    constructor
    · intro impossible
      cases impossible
    · rintro (⟨_, impossible, -⟩ | ⟨_, _, impossible, -⟩) <;> cases impossible
  | succ depth ih =>
    intro w sender table e
    rw [carryOut, deed]
    unfold dispatchCommand
    refine enacts_get (enacts_read fun taken selected => ?_)
    obtain ⟨d, args⟩ := taken
    by_cases skipped : (d.skipOnDryRun && w.settings.dryRun) = true
    · simp only [skipped, if_true]
      exact @enacts_deed before ⟨.skip e, w, sender⟩ trivial
    · simp only [skipped]
      exact enacts_perform ih d.handler (sound_of_select selected)

/-- What is true of commands that are skipped and of those that carry out no other, as they are taken
    from their tables, and does not get lost outside of a dry run, is true of all deeds. -/
theorem deed_induction {chain : Chain} {P : World → Deed → Prop}
    (skipped : ∀ w sender e, P w ⟨.skip e, w, sender⟩)
    (taken : ∀ depth w sender (table : CommandTable) e d args,
      (select (Resolver.run (fun e => Scene.answer ⟨w, chain⟩ depth (.value e)) w) w table.shapes
        e).Ends (.ok (d, args)) → d.handler.delegates = false →
      (d.skipOnDryRun && w.settings.dryRun) = false → P w ⟨.command d.handler args, w, sender⟩)
    (around : ∀ w d, P (w.withDryRun true) d → P w d) (depth : Nat) :
    ∀ (w : World) (sender : Address) (table : CommandTable) (e : Event) (d : Deed),
      (w.deed chain depth sender table e).Ends (.ok d) → P w d := by
  induction depth with
  | zero =>
    intro w sender table e d found
    cases found
  | succ depth ih =>
    intro w sender table e d found
    rw [deed] at found
    rcases Eval.ends_bind.mp found with ⟨_, -, impossible⟩ | ⟨⟨shape, args⟩, selected, rest⟩
    · cases impossible
    cases skips : shape.skipOnDryRun && w.settings.dryRun with
    | true =>
      simp only [skips, if_true] at rest
      cases Eval.ends_pure.mp rest
      exact skipped w sender e
    | false =>
      simp only [skips, Bool.false_eq_true, if_false] at rest
      rcases Command.deed_cases rest with ⟨u, _, _, _, rfl | rfl, inner⟩ | ⟨leaf, rfl⟩
      · exact ih _ _ _ _ _ inner
      · exact around w d (ih _ _ _ _ _ inner)
      · exact taken depth w sender table e shape args selected leaf skips

/-- The deed of a command is sound, and it is done in the world of the command, dry runs apart. -/
theorem deed_within {chain : Chain} {depth : Nat} {w : World} {sender : Address}
    {table : CommandTable} {e : Event} {d : Deed}
    (found : (w.deed chain depth sender table e).Ends (.ok d)) : d.Within w := by
  refine deed_induction ?_ ?_ (fun w d h => h.of_withDryRun) depth w sender table e d found
  · exact fun w sender e => ⟨trivial, w.settings.dryRun, rfl⟩
  · exact fun depth w sender table e d args selected leaf _ =>
      ⟨⟨sound_of_select selected, leaf⟩, w.settings.dryRun, rfl⟩

/-- A command fails before there is anything to do, or it does its deed. -/
theorem command_cases {w : World} {sender : Address} {e : Event} {stage stage' : Stage}
    {result : Except ScenarioError World} (ended : w.command sender e stage = (result, stage')) :
    (∃ error, result = .error error ∧ stage' = stage ∧ (error = .unresolvedValue e.text ∨
      (w.deed stage.chain e.depth sender .topLevel e).Ends (.error error))) ∨
    ∃ d r, (w.deed stage.chain e.depth sender .topLevel e).Ends (.ok d) ∧ d.Within w ∧
      d.act.Ends stage r stage' ∧ result = r.map (·.withDryRun w.settings.dryRun) := by
  unfold command at ended
  cases carried : (w.carryOut e.depth sender .topLevel e).run.run stage with
  | none =>
    simp only [carried] at ended
    cases ended
    exact .inl ⟨_, rfl, rfl, .inl rfl⟩
  | some answer =>
    rw [carried] at ended
    have ends : (w.carryOut e.depth sender .topLevel e).Ends stage result stage' :=
      carried.trans (congrArg some ended)
    rcases (enacts_carryOut stage _ w sender .topLevel e _ _).mp ends with
      ⟨error, failed, rfl, rfl⟩ | ⟨d, r, found, acted, rfl⟩
    · exact .inl ⟨error, rfl, rfl, .inr failed⟩
    · exact .inr ⟨d, r, found, deed_within found, acted, rfl⟩

/-- A command comes to what its deed does. -/
theorem command_of_deed {w : World} {sender : Address} {e : Event} {stage stage' : Stage} {d : Deed}
    {r : Except ScenarioError World}
    (found : (w.deed stage.chain e.depth sender .topLevel e).Ends (.ok d))
    (acted : d.act.Ends stage r stage') :
    w.command sender e stage = (r.map (·.withDryRun w.settings.dryRun), stage') := by
  have ends : (w.carryOut e.depth sender .topLevel e).Ends stage
      (r.map (·.withDryRun w.settings.dryRun)) stage' :=
    (enacts_carryOut stage _ w sender .topLevel e _ _).mpr (.inr ⟨d, r, found, acted, rfl⟩)
  have carried : (w.carryOut e.depth sender .topLevel e).run.run stage =
      some (r.map (·.withDryRun w.settings.dryRun), stage') := ends
  rw [command, carried]
  rfl

/-- A command succeeds exactly if its deed is found and done. -/
theorem command_eq_ok_iff {w w' : World} {sender : Address} {e : Event} {stage stage' : Stage} :
    w.command sender e stage = (.ok w', stage') ↔
      ∃ d v, (w.deed stage.chain e.depth sender .topLevel e).Ends (.ok d) ∧
        d.act.Ends stage (.ok v) stage' ∧ w' = v.withDryRun w.settings.dryRun := by
  constructor
  · intro done
    rcases command_cases done with ⟨_, impossible, -⟩ | ⟨d, r, found, -, acted, same⟩
    · cases impossible
    cases r with
    | error error => cases same
    | ok v =>
      cases same
      exact ⟨d, v, found, acted, rfl⟩
  · rintro ⟨d, v, found, acted, rfl⟩
    exact command_of_deed found acted

end World

end MarketScript
