import MarketScript.Proofs.Dispatch
import MarketScript.Proofs.Except

/-!
# What arguments get

Where the arguments of a shape can be resolved, each of them has got a value from its own source, and
what a handler is told under a name comes from an argument of this name.
-/

namespace MarketScript

section

variable (resolve : Resolver → Event → Eval Value) (world : World)

/-- What an argument can get out of tokens. -/
inductive Arg.Gets (a : Arg) (tokens : List Event) : Value → Prop
  /-- It is taken from the world. -/
  | implicit {get : World → Except ScenarioError Value} {v : Value}
      (source : a.source = .implicit get) (given : get world = .ok v) : Gets a tokens v
  /-- There was no token left. -/
  | fallback {r : Resolver} {command : String} {v : Value} (source : a.source = .token r)
      (given : a.fallback command = .ok v) : Gets a tokens v
  /-- It is what a token stands for, or all of them together. -/
  | token {r : Resolver} {e : Event} {v : Value} (source : a.source = .token r)
      (within : e.Within tokens) (resolved : (resolve r e).Ends (.ok v)) : Gets a tokens v
  /-- It is made of what tokens stand for one by one. -/
  | several {r : Resolver} {vs : List Value} (source : a.source = .token r)
      (mapped : a.mapped = true) : Gets a tokens (.list vs)

end

variable {resolve : Resolver → Event → Eval Value} {world : World} {tokens rest : List Event}
  {command : String}

theorem Arg.Gets.of_suffix {a : Arg} {v : Value} (h : a.Gets resolve world rest v)
    (suffix : rest <:+ tokens) : a.Gets resolve world tokens v := by
  cases h with
  | implicit source given => exact .implicit source given
  | fallback source given => exact .fallback source given
  | token source within resolved => exact .token source (within.of_suffix suffix) resolved
  | several source mapped => exact .several source mapped

/-- What is made of tokens one by one is a list, unless there are none. -/
theorem resolveMapped_ok {a : Arg} {r : Resolver} {v : Value}
    (ended : (resolveMapped resolve a command r tokens).Ends (.ok v)) :
    (∃ vs, v = .list vs) ∨ a.fallback command = .ok v := by
  have fallback : (if a.isOptional then Eval.ofExcept (a.fallback command)
      else pure (.list [])).Ends (.ok v) → (∃ vs, v = .list vs) ∨ a.fallback command = .ok v := by
    intro ended
    split at ended
    · exact .inr (Eval.ends_ofExcept.mp ended).symm
    · cases Eval.ends_pure.mp ended
      exact .inl ⟨[], rfl⟩
  unfold resolveMapped at ended
  split at ended
  · obtain ⟨single, -, ended⟩ := Eval.ends_attempt_bind.mp ended
    cases single with
    | ok v' =>
      cases Eval.ends_pure.mp ended
      exact .inl ⟨_, rfl⟩
    | error error =>
      obtain ⟨each, -, ended⟩ := Eval.ends_attempt_bind.mp ended
      cases each with
      | ok vs =>
        cases Eval.ends_pure.mp ended
        exact .inl ⟨_, rfl⟩
      | error _ => cases Eval.ends_throw.mp ended
  · exact fallback ended
  · exact fallback ended
  · rcases Eval.ends_bind.mp ended with ⟨_, -, impossible⟩ | ⟨vs, -, ended⟩
    · cases impossible
    · cases Eval.ends_pure.mp ended
      exact .inl ⟨_, rfl⟩

/-- A computation that is paired with something ends well if it does. -/
theorem ends_paired {α β : Type} {x : Eval α} {b b' : β} {a : α} :
    (do return (← x, b) : Eval (α × β)).Ends (.ok (a, b')) ↔ x.Ends (.ok a) ∧ b' = b := by
  rw [Eval.ends_bind_pure]
  constructor
  · rintro ⟨r, ended, same⟩
    cases r with
    | error e => cases same
    | ok a' =>
      cases same
      exact ⟨ended, rfl⟩
  · rintro ⟨ended, rfl⟩
    exact ⟨_, ended, rfl⟩

section Sources

variable {a : Arg} {r : Resolver} {v : Value}

theorem resolveArg_implicit {get : World → Except ScenarioError Value}
    (source : a.source = .implicit get) :
    (resolveArg resolve world command a tokens).Ends (.ok (v, rest)) ↔
      get world = .ok v ∧ rest = tokens := by
  simp only [resolveArg, source]
  rw [ends_paired, Eval.ends_ofExcept, eq_comm]

/-- An argument that takes all remaining tokens takes them as one list. -/
theorem resolveArg_variadic (source : a.source = .token r) (variadic : a.variadic = true) :
    (resolveArg resolve world command a tokens).Ends (.ok (v, rest)) ↔
      (if tokens = [] then a.fallback command = .ok v
        else (resolve r (.list tokens)).Ends (.ok v)) ∧ rest = [] := by
  simp only [resolveArg, source, variadic, if_true, List.isEmpty_iff]
  split
  · rw [ends_paired, Eval.ends_ofExcept, eq_comm]
  · rw [ends_paired]

theorem resolveArg_mapped (source : a.source = .token r) (variadic : a.variadic = false)
    (mapped : a.mapped = true) :
    (resolveArg resolve world command a tokens).Ends (.ok (v, rest)) ↔
      (resolveMapped resolve a command r tokens).Ends (.ok v) ∧ rest = [] := by
  simp only [resolveArg, source, variadic, mapped, if_true, Bool.false_eq_true, if_false]
  rw [ends_paired]

/-- Any other argument takes the first token. -/
theorem resolveArg_first (source : a.source = .token r) (one : a.takesRest = false) :
    (resolveArg resolve world command a tokens).Ends (.ok (v, rest)) ↔
      (tokens = [] ∧ a.fallback command = .ok v ∧ rest = []) ∨
      ∃ token, tokens = token :: rest ∧ (resolve r token).Ends (.ok v) := by
  obtain ⟨variadic, mapped⟩ := Bool.or_eq_false_iff.mp one
  simp only [resolveArg, source, variadic, mapped, Bool.false_eq_true, if_false]
  cases tokens with
  | nil =>
    dsimp only
    rw [ends_paired, Eval.ends_ofExcept, eq_comm (a := Except.ok v)]
    simp
  | cons token tokens =>
    dsimp only
    rw [ends_paired]
    constructor
    · rintro ⟨resolved, rfl⟩
      exact .inr ⟨token, rfl, resolved⟩
    · rintro (⟨impossible, -⟩ | ⟨_, same, resolved⟩)
      · cases impossible
      · cases same
        exact ⟨resolved, rfl⟩

end Sources

theorem resolveArg_gets {a : Arg} {v : Value}
    (ended : (resolveArg resolve world command a tokens).Ends (.ok (v, rest))) :
    a.Gets resolve world tokens v := by
  cases source : a.source with
  | implicit get => exact .implicit source ((resolveArg_implicit source).mp ended).1
  | token r =>
    cases variadic : a.variadic with
    | true =>
      obtain ⟨given, -⟩ := (resolveArg_variadic source variadic).mp ended
      split at given
      · exact .fallback source given
      · rename_i some
        exact .token source ⟨some, Nat.le_refl _⟩ given
    | false =>
      cases mapped : a.mapped with
      | true =>
        obtain ⟨made, -⟩ := (resolveArg_mapped source variadic mapped).mp ended
        rcases resolveMapped_ok made with ⟨vs, rfl⟩ | given
        · exact .several source mapped
        · exact .fallback source given
      | false =>
        have one : a.takesRest = false := Bool.or_eq_false_iff.mpr ⟨variadic, mapped⟩
        rcases (resolveArg_first source one).mp ended with ⟨-, given, -⟩ | ⟨token, rfl, resolved⟩
        · exact .fallback source given
        · exact .token source (Event.within_of_mem List.mem_cons_self) resolved

theorem resolveInOrder_nil {vs : List (String × Value)} :
    (resolveInOrder resolve world command [] tokens).Ends (.ok (vs, rest)) ↔
      vs = [] ∧ rest = tokens := by
  rw [resolveInOrder, Eval.ends_pure]
  simp

/-- The first argument takes its tokens, and the others are resolved with those that are left. -/
theorem resolveInOrder_cons {a : Arg} {args : List Arg} {vs : List (String × Value)} :
    (resolveInOrder resolve world command (a :: args) tokens).Ends (.ok (vs, rest)) ↔
      ∃ v left vs', (resolveArg resolve world command a tokens).Ends (.ok (v, left)) ∧
        (resolveInOrder resolve world command args left).Ends (.ok (vs', rest)) ∧
        vs = (a.name, v) :: vs' := by
  rw [resolveInOrder]
  constructor
  · intro ended
    rcases Eval.ends_bind.mp ended with ⟨_, -, impossible⟩ | ⟨⟨v, left⟩, first, ended⟩
    · cases impossible
    rcases Eval.ends_bind.mp ended with ⟨_, -, impossible⟩ | ⟨⟨vs', rest'⟩, others, ended⟩
    · cases impossible
    cases Eval.ends_pure.mp ended
    exact ⟨v, left, vs', first, others, rfl⟩
  · rintro ⟨v, left, vs', first, others, rfl⟩
    exact Eval.ends_bind.mpr (.inr ⟨_, first, Eval.ends_bind.mpr (.inr ⟨_, others,
      Eval.ends_pure.mpr rfl⟩)⟩)

/-- Where the first token can be resolved for the first argument, the others are resolved with the
    others. -/
theorem resolveInOrder_first {a : Arg} {args : List Arg} {r : Resolver} {token : Event}
    {vs : List (String × Value)} {v : Value} (source : a.source = .token r)
    (one : a.takesRest = false) (resolved : (resolve r token).Ends (.ok v))
    (others : (resolveInOrder resolve world command args tokens).Ends (.ok (vs, rest))) :
    (resolveInOrder resolve world command (a :: args) (token :: tokens)).Ends
      (.ok ((a.name, v) :: vs, rest)) := by
  refine resolveInOrder_cons.mpr ⟨v, tokens, vs, ?_, others, rfl⟩
  exact (resolveArg_first source one).mpr (.inr ⟨token, rfl, resolved⟩)

/-- Every value has been got by an argument, and stands under its name. -/
theorem resolveInOrder_gets {args : List Arg} {vs : List (String × Value)}
    (ended : (resolveInOrder resolve world command args tokens).Ends (.ok (vs, rest))) :
    ∀ named ∈ vs, ∃ a ∈ args, a.name = named.1 ∧ a.Gets resolve world tokens named.2 := by
  induction args generalizing tokens vs with
  | nil =>
    obtain ⟨rfl, -⟩ := resolveInOrder_nil.mp ended
    simp
  | cons a args ih =>
    obtain ⟨v, left, vs', first, others, rfl⟩ := resolveInOrder_cons.mp ended
    refine List.forall_mem_cons.mpr ⟨⟨a, by simp, rfl, resolveArg_gets first⟩, ?_⟩
    intro named member
    obtain ⟨b, isOther, same, gets⟩ := ih others named member
    exact ⟨b, List.mem_cons_of_mem _ isOther, same, gets.of_suffix (resolveArg_suffix first)⟩

/-- The arguments of a shape are resolved if no token is left over. -/
theorem resolveArgs_ok {η : Type} {d : Definition η} {args : Args} :
    (resolveArgs resolve world d tokens).Ends (.ok args) ↔
      d.validate = .ok () ∧ ∃ vs, (resolveInOrder resolve world d.name d.args tokens).Ends
        (.ok (vs, [])) ∧ args = { keyword := d.name, values := vs } := by
  constructor
  · intro ended
    obtain ⟨⟨⟩, valid, ended⟩ := Eval.of_ask ended
    rcases Eval.ends_bind.mp ended with ⟨_, -, impossible⟩ | ⟨⟨vs, rest⟩, resolved, ended⟩
    · cases impossible
    dsimp only at ended
    split at ended
    · cases Eval.ends_pure.mp ended
      exact ⟨valid, vs, resolved, rfl⟩
    · cases Eval.ends_throw.mp ended
  · rintro ⟨valid, vs, resolved, rfl⟩
    refine Eval.ends_bind.mpr (.inr ⟨(), Eval.ends_ofExcept.mpr valid.symm, ?_⟩)
    exact Eval.ends_bind.mpr (.inr ⟨_, resolved, Eval.ends_pure.mpr rfl⟩)

/-- What a handler is told under a name has come from an argument of this name. -/
theorem gets_of_get {η : Type} {d : Definition η} {args : Args} {name : String} {v : Value}
    (resolved : (resolveArgs resolve world d tokens).Ends (.ok args))
    (told : args.get name = .ok v) :
    ∃ a ∈ d.args, a.name = name ∧ a.Gets resolve world tokens v := by
  obtain ⟨-, vs, inOrder, rfl⟩ := resolveArgs_ok.mp resolved
  unfold Args.get at told
  split at told
  · rename_i found
    cases told
    have isNamed := List.find?_some found
    simp only [beq_iff_eq] at isNamed
    subst isNamed
    exact resolveInOrder_gets inOrder _ (List.mem_of_find?_eq_some found)
  · cases told

section Rest

variable {value : Event → Eval Value} {w : World} {name : String} (default : Option Value)

/-- An argument that takes everything after the keyword gets it as one event, or its default if there
    is nothing. -/
theorem resolveInOrder_rest {vs : List (String × Value)} :
    (resolveInOrder (Resolver.run value w) w command [{ Reading.restEvent name with default }]
      tokens).Ends (.ok (vs, rest)) ↔
      ∃ v, (if tokens = [] then default = some v
        else v = .event (Event.list tokens).unwrapSingle) ∧ vs = [(name, v)] ∧ rest = [] := by
  have given : ∀ v, ({ Reading.restEvent name with default } : Arg).fallback command = .ok v ↔
      default = some v := by
    intro v
    cases default <;> simp [Arg.fallback, Reading.restEvent]
  have event : ∀ v, (Resolver.run value w .event (.list tokens)).Ends (.ok v) ↔
      v = .event (Event.list tokens).unwrapSingle := by
    intro v
    rw [Resolver.run, Eval.ends_pure, Except.ok.injEq]
  simp only [resolveInOrder_cons, resolveInOrder_nil,
    resolveArg_variadic (a := { Reading.restEvent name with default }) rfl rfl, given, event]
  constructor
  · rintro ⟨v, left, _, ⟨taken, rfl⟩, ⟨rfl, rfl⟩, rfl⟩
    exact ⟨v, taken, rfl, rfl⟩
  · rintro ⟨v, taken, rfl, rfl⟩
    exact ⟨v, [], [], ⟨taken, rfl⟩, ⟨rfl, rfl⟩, rfl⟩

theorem resolveArgs_rest {η : Type} {d : Definition η} {args : Args}
    (shape : d.args = [{ Reading.restEvent name with default }]) :
    (resolveArgs (Resolver.run value w) w d tokens).Ends (.ok args) ↔
      ∃ v, (if tokens = [] then default = some v
        else v = .event (Event.list tokens).unwrapSingle) ∧ args = ⟨d.name, [(name, v)]⟩ := by
  have valid : d.validate = .ok () := by
    simp [Definition.validate, Definition.tokenArgs, shape, Reading.restEvent, Arg.isImplicit,
      Definition.misplaced?]
  rw [resolveArgs_ok, shape]
  simp only [valid, resolveInOrder_rest, true_and]
  constructor
  · rintro ⟨_, ⟨v, taken, rfl, -⟩, rfl⟩
    exact ⟨v, taken, rfl⟩
  · rintro ⟨v, taken, rfl⟩
    exact ⟨_, ⟨v, taken, rfl, trivial⟩, rfl⟩

end Rest

end MarketScript
