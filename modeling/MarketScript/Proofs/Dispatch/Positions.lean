import MarketScript.Proofs.Dispatch.Arguments

/-!
# The places of arguments

What resolving the arguments of a shape comes to, said by their places and without a running
position: an argument that takes one token takes the token whose place is the number of arguments
before it that take any.
-/

namespace MarketScript

/-! ## What an argument comes to -/

/-- What an argument comes to for which no token is left. -/
inductive Arg.FallsBack (a : Arg) (command : String) : Except ScenarioError Value → Prop
  | default {v : Value} (given : a.default = some v) : FallsBack a command (.ok v)
  | nothing (none : a.default = none) (nullable : a.nullable = true) :
      FallsBack a command (.ok .nothing)
  | missing (none : a.default = none) (required : a.nullable = false) :
      FallsBack a command (.error (.missingArgument command a.name))

section

variable (resolve : Resolver → Event → Eval Value) (world : World)

/-- What tokens come to one by one: all their values, or the first error. -/
inductive EachComes (r : Resolver) : List Event → Except ScenarioError (List Value) → Prop
  | all {es : List Event} {vs : List Value}
      (resolved : List.Forall₂ (fun e v => (resolve r e).Ends (.ok v)) es vs) :
      EachComes r es (.ok vs)
  | first {before after : List Event} {e : Event} {error : ScenarioError}
      (others : ∀ b ∈ before, ∃ v, (resolve r b).Ends (.ok v))
      (failed : (resolve r e).Ends (.error error)) :
      EachComes r (before ++ e :: after) (.error error)

/-- What an argument that takes its tokens one by one comes to. -/
inductive Arg.Maps (a : Arg) (command : String) (r : Resolver) :
    List Event → Except ScenarioError Value → Prop
  /-- A lone group is one token, if it is not empty and can be resolved as one. -/
  | single {es : List Event} {v : Value} (some : es ≠ [])
      (resolved : (resolve r (.list es)).Ends (.ok v)) : Maps a command r [.list es] (.ok (.list [v]))
  /-- A lone group that cannot is several tokens, if these can all be resolved. -/
  | elements {es : List Event} {vs : List Value} {error : ScenarioError} (some : es ≠ [])
      (failed : (resolve r (.list es)).Ends (.error error))
      (resolved : EachComes resolve r es (.ok vs)) : Maps a command r [.list es] (.ok (.list vs))
  /-- Otherwise its failure as one token is told. -/
  | neither {es : List Event} {error other : ScenarioError} (some : es ≠ [])
      (failed : (resolve r (.list es)).Ends (.error error))
      (failed' : EachComes resolve r es (.error other)) : Maps a command r [.list es] (.error error)
  /-- An empty group is no token. -/
  | fallback {tokens : List Event} {result : Except ScenarioError Value}
      (none : tokens = [] ∨ tokens = [.list []]) (optional : a.isOptional = true)
      (given : a.FallsBack command result) : Maps a command r tokens result
  | empty {tokens : List Event} (none : tokens = [] ∨ tokens = [.list []])
      (required : a.isOptional = false) : Maps a command r tokens (.ok (.list []))
  | several {tokens : List Event} {result : Except ScenarioError (List Value)}
      (some : tokens ≠ []) (noGroup : ∀ es, tokens ≠ [.list es])
      (resolved : EachComes resolve r tokens result) :
      Maps a command r tokens (result.map Value.list)

/-- What an argument comes to whose place among those that take tokens is given. -/
inductive Arg.Comes (a : Arg) (command : String) (tokens : List Event) (place : Nat) :
    Except ScenarioError Value → Prop
  /-- The world has it, and it takes no token. -/
  | implicit {get : World → Except ScenarioError Value} (source : a.source = .implicit get) :
      Comes a command tokens place (get world)
  | token {r : Resolver} {e : Event} {result : Except ScenarioError Value}
      (source : a.source = .token r) (one : a.takesRest = false) (here : tokens[place]? = some e)
      (resolved : (resolve r e).Ends result) : Comes a command tokens place result
  | noToken {r : Resolver} {result : Except ScenarioError Value} (source : a.source = .token r)
      (one : a.takesRest = false) (none : tokens[place]? = none)
      (given : a.FallsBack command result) : Comes a command tokens place result
  /-- All tokens from its place on are one list. -/
  | rest {r : Resolver} {result : Except ScenarioError Value} (source : a.source = .token r)
      (variadic : a.variadic = true) (some : tokens.drop place ≠ [])
      (resolved : (resolve r (.list (tokens.drop place))).Ends result) :
      Comes a command tokens place result
  | noRest {r : Resolver} {result : Except ScenarioError Value} (source : a.source = .token r)
      (variadic : a.variadic = true) (none : tokens.drop place = [])
      (given : a.FallsBack command result) : Comes a command tokens place result
  | mapped {r : Resolver} {result : Except ScenarioError Value} (source : a.source = .token r)
      (single : a.variadic = false) (mapped : a.mapped = true)
      (maps : a.Maps resolve command r (tokens.drop place) result) :
      Comes a command tokens place result

/-- The place of an argument among those that take tokens. -/
def placeOf (args : List Arg) (k : Nat) : Nat := ((args.take k).filter (! ·.isImplicit)).length

/-- What the argument at a position comes to, at its own place. -/
def ComesAt (command : String) (tokens : List Event) (args : List Arg) (k : Nat)
    (result : Except ScenarioError Value) : Prop :=
  ∃ a, args[k]? = some a ∧ a.Comes resolve world command tokens (placeOf args k) result

/-- Each argument has come to the value that stands under its name. -/
def Gives (command : String) (tokens : List Event) (args : List Arg)
    (values : List (String × Value)) : Prop :=
  values.map (·.1) = args.map (·.name) ∧
    ∀ k named, values[k]? = some named → ComesAt resolve world command tokens args k (.ok named.2)

/-- The argument at a position is the first that fails. -/
def FailsAt (command : String) (tokens : List Event) (args : List Arg) (k : Nat)
    (error : ScenarioError) : Prop :=
  (∀ j < k, ∃ v, ComesAt resolve world command tokens args j (.ok v)) ∧
    ComesAt resolve world command tokens args k (.error error)

/-- Of the arguments that take tokens, this is the first that takes all that are left although others
    follow it. -/
def Misplaced (args : List Arg) (a : Arg) : Prop :=
  ∃ before after, args.filter (! ·.isImplicit) = before ++ a :: after ∧ a.takesRest = true ∧
    after ≠ [] ∧ ∀ b ∈ before, b.takesRest = false

/-- Of the arguments that take tokens, only the last takes all that are left, if any does. -/
def WellPlaced (args : List Arg) : Prop :=
  ∀ before a after, args.filter (! ·.isImplicit) = before ++ a :: after → a.takesRest = true →
    after = []

/-- What resolving the arguments of a shape comes to. -/
inductive Positional {η : Type} (d : Definition η) (tokens : List Event) :
    Except ScenarioError Args → Prop
  | misplaced {a : Arg} (misplaced : Misplaced d.args a) :
      Positional d tokens (.error (.invalidDefinition d.name
        s!"argument '{a.name}' consumes the rest and must be last"))
  | failed {k : Nat} {error : ScenarioError} (placed : WellPlaced d.args)
      (fails : FailsAt resolve world d.name tokens d.args k error) :
      Positional d tokens (.error error)
  /-- A token is left over if no argument takes the rest and there is one more than arguments that
      take one. -/
  | tooMany {values : List (String × Value)} {extra : Event} (placed : WellPlaced d.args)
      (gives : Gives resolve world d.name tokens d.args values)
      (one : ∀ a ∈ d.tokenArgs, a.takesRest = false)
      (surplus : tokens[d.tokenArgs.length]? = some extra) :
      Positional d tokens (.error (.tooManyArguments d.name extra.text))
  | resolved {values : List (String × Value)} (placed : WellPlaced d.args)
      (gives : Gives resolve world d.name tokens d.args values)
      (used : tokens.length ≤ d.tokenArgs.length ∨ ∃ a ∈ d.tokenArgs, a.takesRest = true) :
      Positional d tokens (.ok { keyword := d.name, values })

end

section

variable {resolve : Resolver → Event → Eval Value} {world : World} {command : String}
  {tokens : List Event}

theorem Arg.fallsBack_iff {a : Arg} {result : Except ScenarioError Value} :
    a.FallsBack command result ↔ result = a.fallback command := by
  unfold fallback
  constructor
  · rintro (given | ⟨none, nullable⟩ | ⟨none, required⟩)
    · rw [given]
    · rw [none]
      simp [nullable]
    · rw [none]
      simp [required]
  · rintro rfl
    split
    · rename_i given
      exact .default given
    · rename_i none
      split
      · rename_i nullable
        exact .nothing none nullable
      · rename_i required
        exact .missing none (by simpa using required)

theorem eachComes_nil {r : Resolver} {result : Except ScenarioError (List Value)} :
    EachComes resolve r [] result ↔ result = .ok [] := by
  constructor
  · intro comes
    generalize none : ([] : List Event) = es at comes
    cases comes with
    | all resolved =>
      subst none
      cases resolved
      rfl
    | first => simp at none
  · rintro rfl
    exact .all .nil

/-- The first of several tokens fails, or the others decide. -/
theorem eachComes_cons {r : Resolver} {e : Event} {es : List Event}
    {result : Except ScenarioError (List Value)} :
    EachComes resolve r (e :: es) result ↔
      (∃ error, (resolve r e).Ends (.error error) ∧ result = .error error) ∨
      ∃ v others, (resolve r e).Ends (.ok v) ∧ EachComes resolve r es others ∧
        result = others.map (v :: ·) := by
  constructor
  · intro comes
    generalize tokens : e :: es = all at comes
    cases comes with
    | all resolved =>
      subst tokens
      cases resolved with
      | cons first others => exact .inr ⟨_, _, first, .all others, rfl⟩
    | @first before after e' error others failed =>
      cases before with
      | nil =>
        cases tokens
        exact .inl ⟨error, failed, rfl⟩
      | cons b before =>
        cases tokens
        obtain ⟨⟨v, first⟩, others⟩ := List.forall_mem_cons.mp others
        exact .inr ⟨v, _, first, .first others failed, rfl⟩
  · rintro (⟨error, failed, rfl⟩ | ⟨v, others, first, comes, rfl⟩)
    · show EachComes resolve r ([] ++ e :: es) (.error error)
      exact .first (by simp) failed
    · cases comes with
      | all resolved => exact .all (.cons first resolved)
      | @first before after e' error others failed =>
        show EachComes resolve r ((e :: before) ++ e' :: after) (.error error)
        refine .first ?_ failed
        exact List.forall_mem_cons.mpr ⟨⟨v, first⟩, others⟩

/-- Tokens are resolved one by one up to the first that fails. -/
theorem resolveEach_ends_iff {r : Resolver} {es : List Event}
    {result : Except ScenarioError (List Value)} :
    (resolveEach resolve r es).Ends result ↔ EachComes resolve r es result := by
  induction es generalizing result with
  | nil => rw [resolveEach, Eval.ends_pure, eachComes_nil]
  | cons e es ih =>
    rw [resolveEach, Eval.ends_bind, eachComes_cons]
    simp only [Eval.ends_bind_pure, ih]
    refine or_congr_right ?_
    constructor
    · rintro ⟨v, first, others, comes, rfl⟩
      exact ⟨v, others, first, comes, rfl⟩
    · rintro ⟨v, others, first, comes, rfl⟩
      exact ⟨v, first, others, comes, rfl⟩

/-- Where there is nothing to take one by one, there is the fallback or an empty list. -/
theorem maps_nothing_iff {a : Arg} {r : Resolver} (none : tokens = [] ∨ tokens = [.list []])
    {result : Except ScenarioError Value} :
    (if a.isOptional then Eval.ofExcept (a.fallback command) else pure (.list [])).Ends result ↔
      a.Maps resolve command r tokens result := by
  constructor
  · intro ended
    split at ended
    · rename_i optional
      exact .fallback none optional (Arg.fallsBack_iff.mpr (Eval.ends_ofExcept.mp ended))
    · rename_i required
      obtain rfl := Eval.ends_pure.mp ended
      exact .empty none (by simpa using required)
  · intro maps
    cases maps with
    | single some | elements some | neither some => simp [some] at none
    | fallback _ optional given =>
      rw [if_pos optional, Eval.ends_ofExcept]
      exact Arg.fallsBack_iff.mp given
    | empty _ required => simp [required]
    | several some noGroup =>
      rcases none with none | none
      · exact absurd none some
      · exact absurd none (noGroup _)

theorem resolveMapped_ends_iff {a : Arg} {r : Resolver} {result : Except ScenarioError Value} :
    (resolveMapped resolve a command r tokens).Ends result ↔
      a.Maps resolve command r tokens result := by
  unfold resolveMapped
  split
  · rename_i e es
    rw [Eval.ends_attempt_bind]
    constructor
    · rintro ⟨single, tried, ended⟩
      cases single with
      | ok v =>
        obtain rfl := Eval.ends_pure.mp ended
        exact .single (by simp) tried
      | error error =>
        obtain ⟨each, comes, ended⟩ := Eval.ends_attempt_bind.mp ended
        have comes := resolveEach_ends_iff.mp comes
        cases each with
        | ok vs =>
          obtain rfl := Eval.ends_pure.mp ended
          exact .elements (by simp) tried comes
        | error other =>
          obtain rfl := Eval.ends_throw.mp ended
          exact .neither (by simp) tried comes
    · intro maps
      cases maps with
      | single _ resolved => exact ⟨_, resolved, Eval.ends_pure.mpr rfl⟩
      | elements _ failed resolved =>
        refine ⟨_, failed, Eval.ends_attempt_bind.mpr ⟨_, resolveEach_ends_iff.mpr resolved, ?_⟩⟩
        exact Eval.ends_pure.mpr rfl
      | neither _ failed failed' =>
        refine ⟨_, failed, Eval.ends_attempt_bind.mpr ⟨_, resolveEach_ends_iff.mpr failed', ?_⟩⟩
        exact Eval.ends_throw.mpr rfl
      | fallback none | empty none => simp at none
      | several _ noGroup => exact absurd rfl (noGroup _)
  · exact maps_nothing_iff (.inr rfl)
  · exact maps_nothing_iff (.inl rfl)
  · rename_i noGroup noEmpty some
    rw [Eval.ends_bind_pure]
    simp only [resolveEach_ends_iff]
    constructor
    · rintro ⟨each, comes, rfl⟩
      refine .several some (fun es => ?_) comes
      cases es with
      | nil => exact noEmpty
      | cons e es => exact noGroup e es
    · intro maps
      cases maps with
      | @single es _ isSome | @elements es _ _ isSome | @neither es _ _ isSome =>
        cases es with
        | nil => exact absurd rfl isSome
        | cons e es => exact absurd rfl (noGroup e es)
      | fallback none | empty none =>
        rcases none with none | none
        · exact absurd none some
        · exact absurd none noEmpty
      | several _ _ resolved => exact ⟨_, resolved, rfl⟩

section Sources

variable {a : Arg} {r : Resolver} {place : Nat} {result : Except ScenarioError Value}

theorem comes_implicit {get : World → Except ScenarioError Value}
    (source : a.source = .implicit get) :
    a.Comes resolve world command tokens place result ↔ result = get world := by
  constructor
  · intro comes
    cases comes with
    | implicit source' =>
      cases source.symm.trans source'
      rfl
    | token source' | noToken source' | rest source' | noRest source' | mapped source' =>
      cases source.symm.trans source'
  · rintro rfl
    exact .implicit source

theorem comes_variadic (source : a.source = .token r) (variadic : a.variadic = true) :
    a.Comes resolve world command tokens place result ↔
      if tokens.drop place = [] then result = a.fallback command
      else (resolve r (.list (tokens.drop place))).Ends result := by
  constructor
  · intro comes
    cases comes with
    | implicit source' => cases source.symm.trans source'
    | token _ one | noToken _ one => simp [Arg.takesRest, variadic] at one
    | rest source' _ some resolved =>
      cases source.symm.trans source'
      rwa [if_neg some]
    | noRest _ _ none given =>
      rw [if_pos none]
      exact Arg.fallsBack_iff.mp given
    | mapped _ single => simp [variadic] at single
  · intro comes
    split at comes
    · rename_i none
      exact .noRest source variadic none (Arg.fallsBack_iff.mpr comes)
    · rename_i some
      exact .rest source variadic some comes

theorem comes_mapped (source : a.source = .token r) (single : a.variadic = false)
    (mapped : a.mapped = true) :
    a.Comes resolve world command tokens place result ↔
      a.Maps resolve command r (tokens.drop place) result := by
  constructor
  · intro comes
    cases comes with
    | implicit source' => cases source.symm.trans source'
    | token _ one | noToken _ one => simp [Arg.takesRest, mapped] at one
    | rest _ variadic | noRest _ variadic => simp [single] at variadic
    | mapped source' _ _ maps =>
      cases source.symm.trans source'
      exact maps
  · exact .mapped source single mapped

theorem comes_one (source : a.source = .token r) (one : a.takesRest = false) :
    a.Comes resolve world command tokens place result ↔
      (∃ e, tokens[place]? = some e ∧ (resolve r e).Ends result) ∨
      tokens[place]? = none ∧ result = a.fallback command := by
  obtain ⟨single, unmapped⟩ := Bool.or_eq_false_iff.mp one
  constructor
  · intro comes
    cases comes with
    | implicit source' => cases source.symm.trans source'
    | token source' _ here resolved =>
      cases source.symm.trans source'
      exact .inl ⟨_, here, resolved⟩
    | noToken _ _ none given => exact .inr ⟨none, Arg.fallsBack_iff.mp given⟩
    | rest _ variadic | noRest _ variadic => simp [single] at variadic
    | mapped _ _ mapped => simp [unmapped] at mapped
  · rintro (⟨e, here, resolved⟩ | ⟨none, given⟩)
    · exact .token source one here resolved
    · exact .noToken source one none (Arg.fallsBack_iff.mpr given)

end Sources

/-- What is left of the tokens after an argument. -/
def Arg.leaves (a : Arg) (tokens : List Event) : List Event :=
  if a.isImplicit then tokens else if a.takesRest then [] else tokens.tail

/-- What is left of the tokens after several arguments. -/
def leftAfter (args : List Arg) (tokens : List Event) : List Event :=
  args.foldl (fun tokens a => a.leaves tokens) tokens

/-- An argument comes to what it does in the first place, and leaves its tokens or those after. -/
theorem resolveArg_ends_iff {a : Arg} {result : Except ScenarioError (Value × List Event)} :
    (resolveArg resolve world command a tokens).Ends result ↔
      ∃ r, a.Comes resolve world command tokens 0 r ∧ result = r.map fun v => (v, a.leaves tokens) := by
  cases source : a.source with
  | implicit get =>
    have leaves : a.leaves tokens = tokens := by simp [Arg.leaves, Arg.isImplicit, source]
    simp only [resolveArg, source, comes_implicit source, leaves]
    rw [Eval.ends_bind_pure]
    simp only [Eval.ends_ofExcept]
  | token r =>
    have leaves : a.leaves tokens = if a.takesRest then [] else tokens.tail := by
      simp [Arg.leaves, Arg.isImplicit, source]
    cases variadic : a.variadic with
    | true =>
      have rest : a.takesRest = true := by simp [Arg.takesRest, variadic]
      simp only [resolveArg, source, variadic, if_true, comes_variadic source variadic, leaves, rest,
        List.isEmpty_iff, List.drop_zero]
      split
      · rw [Eval.ends_bind_pure]
        simp only [Eval.ends_ofExcept]
      · rw [Eval.ends_bind_pure]
    | false =>
      cases mapped : a.mapped with
      | true =>
        have rest : a.takesRest = true := by simp [Arg.takesRest, mapped]
        simp only [resolveArg, source, variadic, mapped, if_true, Bool.false_eq_true, if_false,
          comes_mapped source variadic mapped, leaves, rest, List.drop_zero]
        rw [Eval.ends_bind_pure]
        simp only [resolveMapped_ends_iff]
      | false =>
        have one : a.takesRest = false := Bool.or_eq_false_iff.mpr ⟨variadic, mapped⟩
        simp only [resolveArg, source, variadic, mapped, Bool.false_eq_true, if_false,
          comes_one source one, leaves, one]
        cases tokens with
        | nil =>
          dsimp only
          rw [Eval.ends_bind_pure]
          simp
        | cons token tokens =>
          dsimp only
          rw [Eval.ends_bind_pure]
          simp

/-- An argument is given the tokens from its place on. -/
theorem comes_drop (tokens : List Event) {a : Arg} {place : Nat}
    {result : Except ScenarioError Value} :
    a.Comes resolve world command (tokens.drop place) 0 result ↔
      a.Comes resolve world command tokens place result := by
  cases source : a.source with
  | implicit get => rw [comes_implicit source, comes_implicit source]
  | token r =>
    cases variadic : a.variadic with
    | true =>
      rw [comes_variadic source variadic, comes_variadic source variadic, List.drop_zero]
    | false =>
      cases mapped : a.mapped with
      | true =>
        rw [comes_mapped source variadic mapped, comes_mapped source variadic mapped, List.drop_zero]
      | false =>
        have one : a.takesRest = false := Bool.or_eq_false_iff.mpr ⟨variadic, mapped⟩
        rw [comes_one source one, comes_one source one, List.getElem?_drop, Nat.add_zero]

/-! ## Misplaced arguments -/

namespace Definition

theorem misplaced?_eq_some_iff {args : List Arg} {a : Arg} :
    misplaced? args = some a ↔ ∃ before after, args = before ++ a :: after ∧ a.takesRest = true ∧
      after ≠ [] ∧ ∀ b ∈ before, b.takesRest = false := by
  fun_induction misplaced? args with
  | case1 => simp
  | case2 b =>
    simp only [reduceCtorEq, false_iff]
    rintro ⟨before, after, split, -, some, -⟩
    cases before with
    | nil =>
      cases split
      exact some rfl
    | cons => simp at split
  | case3 b args _ rest =>
    rw [Option.some.injEq]
    constructor
    · rintro rfl
      exact ⟨[], args, rfl, rest, by simpa using ‹_›, by simp⟩
    · rintro ⟨before, after, split, -, -, others⟩
      cases before with
      | nil =>
        cases split
        rfl
      | cons first before =>
        cases split
        simp [rest] at others
  | case4 b args some one ih =>
    rw [ih]
    constructor
    · rintro ⟨before, after, rfl, rest, isSome, others⟩
      refine ⟨b :: before, after, rfl, rest, isSome, ?_⟩
      exact List.forall_mem_cons.mpr ⟨by simpa using one, others⟩
    · rintro ⟨before, after, split, rest, isSome, others⟩
      cases before with
      | nil =>
        cases split
        exact absurd rest one
      | cons first before =>
        cases split
        exact ⟨before, after, rfl, rest, isSome, (List.forall_mem_cons.mp others).2⟩

theorem misplaced?_eq_none_iff {args : List Arg} :
    misplaced? args = none ↔
      ∀ before a after, args = before ++ a :: after → a.takesRest = true → after = [] := by
  fun_induction misplaced? args with
  | case1 => simp
  | case2 b =>
    simp only [true_iff]
    intro before a after split _
    cases before with
    | nil =>
      cases split
      rfl
    | cons => simp at split
  | case3 b args some rest =>
    simp only [reduceCtorEq, false_iff]
    intro placed
    have none := placed [] b args rfl rest
    exact some none
  | case4 b args some one ih =>
    rw [ih]
    constructor
    · intro placed before a after split rest
      cases before with
      | nil =>
        cases split
        exact absurd rest one
      | cons first before =>
        cases split
        exact placed before a after rfl rest
    · intro placed before a after split rest
      exact placed (b :: before) a after (by rw [split]; rfl) rest

/-- Either all arguments of a shape are in their places, or the first that is not is told. -/
theorem validate_cases {η : Type} (d : Definition η) :
    (WellPlaced d.args ∧ d.validate = .ok ()) ∨
    ∃ a, Misplaced d.args a ∧ d.validate = .error (.invalidDefinition d.name
      s!"argument '{a.name}' consumes the rest and must be last") := by
  unfold validate
  split
  · rename_i none
    exact .inl ⟨misplaced?_eq_none_iff.mp none, rfl⟩
  · rename_i a some
    exact .inr ⟨a, misplaced?_eq_some_iff.mp some, rfl⟩

end Definition

theorem Misplaced.not_wellPlaced {args : List Arg} {a : Arg} (h : Misplaced args a) :
    ¬ WellPlaced args := by
  obtain ⟨before, after, split, rest, some, -⟩ := h
  intro placed
  exact some (placed before a after split rest)

/-- There is one first argument out of its place. -/
theorem Misplaced.unique {args : List Arg} {a b : Arg} (h : Misplaced args a)
    (h' : Misplaced args b) : a = b := by
  have first := Definition.misplaced?_eq_some_iff.mpr h
  rw [Definition.misplaced?_eq_some_iff.mpr h'] at first
  exact (Option.some.inj first).symm

/-! ## One argument after another -/

section Places

variable {a : Arg} {args : List Arg}

theorem WellPlaced.tail (placed : WellPlaced (a :: args)) : WellPlaced args := by
  intro before b after split rest
  cases implicit : a.isImplicit with
  | true => exact placed before b after (by simp [implicit, split]) rest
  | false => exact placed (a :: before) b after (by simp [implicit, split]) rest

/-- After an argument that takes all remaining tokens come only those that take none. -/
theorem WellPlaced.implicit_of_takesRest (placed : WellPlaced (a :: args))
    (explicit : a.isImplicit = false) (rest : a.takesRest = true) :
    ∀ b ∈ args, b.isImplicit = true := by
  have none := placed [] a (args.filter (! ·.isImplicit)) (by simp [explicit]) rest
  simpa using none

theorem placeOf_succ (k : Nat) :
    placeOf (a :: args) (k + 1) = (if a.isImplicit then 0 else 1) + placeOf args k := by
  unfold placeOf
  cases implicit : a.isImplicit with
  | true => simp [implicit]
  | false => simp [implicit, Nat.add_comm]

theorem comesAt_zero {result : Except ScenarioError Value} :
    ComesAt resolve world command tokens (a :: args) 0 result ↔
      a.Comes resolve world command tokens 0 result := by
  simp [ComesAt, placeOf]

/-- The other arguments come to what they do with the tokens that the first leaves. -/
theorem comesAt_succ (placed : WellPlaced (a :: args)) {k : Nat}
    {result : Except ScenarioError Value} :
    ComesAt resolve world command tokens (a :: args) (k + 1) result ↔
      ComesAt resolve world command (a.leaves tokens) args k result := by
  unfold ComesAt
  rw [List.getElem?_cons_succ, placeOf_succ]
  refine exists_congr fun b => and_congr_right fun here => ?_
  unfold Arg.leaves
  cases implicit : a.isImplicit with
  | true => simp
  | false =>
    simp only [Bool.false_eq_true, if_false]
    cases rest : a.takesRest with
    | false =>
      rw [if_neg Bool.false_ne_true, ← comes_drop tokens, ← comes_drop tokens.tail,
        ← List.drop_one, List.drop_drop]
    | true =>
      -- what takes no token does not depend on what is left
      have noToken := placed.implicit_of_takesRest implicit rest b (List.mem_of_getElem? here)
      cases source : b.source with
      | implicit get => rw [comes_implicit source, comes_implicit source]
      | token r => simp [Arg.isImplicit, source] at noToken

theorem gives_cons (placed : WellPlaced (a :: args)) {values : List (String × Value)} :
    Gives resolve world command tokens (a :: args) values ↔
      ∃ v others, a.Comes resolve world command tokens 0 (.ok v) ∧
        Gives resolve world command (a.leaves tokens) args others ∧
        values = (a.name, v) :: others := by
  constructor
  · rintro ⟨names, each⟩
    cases values with
    | nil => simp at names
    | cons named others =>
      rw [List.map_cons, List.map_cons, List.cons.injEq] at names
      refine ⟨named.2, others, comesAt_zero.mp (each 0 named rfl), ⟨names.2, ?_⟩, ?_⟩
      · intro k other here
        exact (comesAt_succ placed).mp (each (k + 1) other here)
      · rw [← names.1]
  · rintro ⟨v, others, first, ⟨names, each⟩, rfl⟩
    refine ⟨by simp [names], fun k named here => ?_⟩
    cases k with
    | zero =>
      cases here
      exact comesAt_zero.mpr first
    | succ k => exact (comesAt_succ placed).mpr (each k named here)

theorem failsAt_zero {error : ScenarioError} :
    FailsAt resolve world command tokens (a :: args) 0 error ↔
      a.Comes resolve world command tokens 0 (.error error) := by
  simp [FailsAt, comesAt_zero]

theorem failsAt_succ (placed : WellPlaced (a :: args)) {k : Nat} {error : ScenarioError} :
    FailsAt resolve world command tokens (a :: args) (k + 1) error ↔
      (∃ v, a.Comes resolve world command tokens 0 (.ok v)) ∧
        FailsAt resolve world command (a.leaves tokens) args k error := by
  unfold FailsAt
  rw [Nat.forall_lt_succ_left, comesAt_succ placed]
  simp only [comesAt_zero, comesAt_succ placed, and_assoc]

/-- Arguments are resolved in order up to the first that fails. -/
theorem resolveInOrder_ends_iff (placed : WellPlaced args)
    {result : Except ScenarioError (List (String × Value) × List Event)} :
    (resolveInOrder resolve world command args tokens).Ends result ↔
      (∃ k error, FailsAt resolve world command tokens args k error ∧ result = .error error) ∨
      ∃ values, Gives resolve world command tokens args values ∧
        result = .ok (values, leftAfter args tokens) := by
  induction args generalizing tokens result with
  | nil =>
    rw [resolveInOrder, Eval.ends_pure]
    simp [FailsAt, Gives, ComesAt, leftAfter]
  | cons a args ih =>
    replace ih := @fun tokens => @ih tokens placed.tail
    rw [resolveInOrder, Eval.ends_bind]
    simp only [resolveArg_ends_iff]
    constructor
    · rintro (⟨error, ⟨r, comes, failed⟩, rfl⟩ | ⟨⟨v, left⟩, ⟨r, comes, taken⟩, ended⟩)
      · cases r with
        | ok => cases failed
        | error =>
          cases failed
          exact .inl ⟨0, error, failsAt_zero.mpr comes, rfl⟩
      cases r with
      | error => cases taken
      | ok =>
        cases taken
        obtain ⟨r, others, rfl⟩ := Eval.ends_bind_pure.mp ended
        rcases (ih _).mp others with ⟨k, error, fails, rfl⟩ | ⟨values, gives, rfl⟩
        · exact .inl ⟨k + 1, error, (failsAt_succ placed).mpr ⟨⟨_, comes⟩, fails⟩, rfl⟩
        · exact .inr ⟨_, (gives_cons placed).mpr ⟨_, _, comes, gives, rfl⟩, rfl⟩
    · rintro (⟨k, error, fails, rfl⟩ | ⟨values, gives, rfl⟩)
      · cases k with
        | zero => exact .inl ⟨error, ⟨_, failsAt_zero.mp fails, rfl⟩, rfl⟩
        | succ k =>
          obtain ⟨⟨v, comes⟩, fails⟩ := (failsAt_succ placed).mp fails
          refine .inr ⟨_, ⟨_, comes, rfl⟩, Eval.ends_bind_pure.mpr ⟨.error error, ?_, rfl⟩⟩
          exact (ih _).mpr (.inl ⟨k, error, fails, rfl⟩)
      · obtain ⟨v, others, comes, rest, rfl⟩ := (gives_cons placed).mp gives
        refine .inr ⟨_, ⟨_, comes, rfl⟩, Eval.ends_bind_pure.mpr ⟨.ok (others, _), ?_, rfl⟩⟩
        exact (ih _).mpr (.inr ⟨others, rest, rfl⟩)

/-- All tokens are used up if some argument takes the rest; otherwise each argument that takes a
    token has had one. -/
theorem leftAfter_eq (args : List Arg) (tokens : List Event) :
    leftAfter args tokens =
      if (args.filter (! ·.isImplicit)).any Arg.takesRest then []
      else tokens.drop (args.filter (! ·.isImplicit)).length := by
  unfold leftAfter
  induction args generalizing tokens with
  | nil => simp
  | cons a args ih =>
    rw [List.foldl_cons, ih, Arg.leaves]
    cases implicit : a.isImplicit with
    | true => simp [implicit]
    | false =>
      cases rest : a.takesRest with
      | true => simp [implicit, rest]
      | false => simp [implicit, rest, ← List.drop_one, List.drop_drop, Nat.add_comm]

end Places

section Left

variable {η : Type} {d : Definition η}

theorem leftAfter_eq_nil_iff :
    leftAfter d.args tokens = [] ↔
      tokens.length ≤ d.tokenArgs.length ∨ ∃ a ∈ d.tokenArgs, a.takesRest = true := by
  rw [leftAfter_eq, ← List.any_eq_true]
  change (if d.tokenArgs.any Arg.takesRest then [] else tokens.drop d.tokenArgs.length) = [] ↔ _
  cases d.tokenArgs.any Arg.takesRest with
  | true => simp
  | false => simp

theorem exists_leftAfter_iff {extra : Event} :
    (∃ others, leftAfter d.args tokens = extra :: others) ↔
      (∀ a ∈ d.tokenArgs, a.takesRest = false) ∧ tokens[d.tokenArgs.length]? = some extra := by
  have one : (∀ a ∈ d.tokenArgs, a.takesRest = false) ↔ d.tokenArgs.any Arg.takesRest = false := by
    simp
  rw [leftAfter_eq, one, ← List.head?_drop, List.head?_eq_some_iff]
  change (∃ others, (if d.tokenArgs.any Arg.takesRest then [] else tokens.drop d.tokenArgs.length) =
    extra :: others) ↔ _
  cases d.tokenArgs.any Arg.takesRest with
  | true => simp
  | false => simp

/-- Resolving the arguments of a shape comes to what their places say, and to nothing else. -/
theorem resolveArgs_ends_iff {result : Except ScenarioError Args} :
    (resolveArgs resolve world d tokens).Ends result ↔
      Positional resolve world d tokens result := by
  unfold resolveArgs
  rcases d.validate_cases with ⟨placed, valid⟩ | ⟨a, misplaced, invalid⟩
  · rw [valid]
    have asked : ∀ {y : Eval Args}, (do Eval.ofExcept (.ok ()); y).Ends result ↔ y.Ends result :=
      Iff.rfl
    rw [asked, Eval.ends_bind]
    simp only [resolveInOrder_ends_iff placed]
    constructor
    · rintro (⟨error, ⟨k, _, fails, failed⟩ | ⟨_, -, impossible⟩, rfl⟩ | ⟨⟨values, left⟩, ended, last⟩)
      · cases failed
        exact .failed placed fails
      · cases impossible
      rcases ended with ⟨_, _, -, impossible⟩ | ⟨_, gives, same⟩
      · cases impossible
      cases same
      dsimp only at last
      split at last
      · rename_i none
        obtain rfl := Eval.ends_pure.mp last
        exact .resolved placed gives (leftAfter_eq_nil_iff.mp none)
      · rename_i extra others some
        obtain rfl := Eval.ends_throw.mp last
        obtain ⟨one, surplus⟩ := exists_leftAfter_iff.mp ⟨others, some⟩
        exact .tooMany placed gives one surplus
    · intro positional
      cases positional with
      | misplaced misplaced => exact absurd placed misplaced.not_wellPlaced
      | failed _ fails => exact .inl ⟨_, .inl ⟨_, _, fails, rfl⟩, rfl⟩
      | tooMany _ gives one surplus =>
        obtain ⟨others, some⟩ := exists_leftAfter_iff.mpr ⟨one, surplus⟩
        refine .inr ⟨_, .inr ⟨_, gives, rfl⟩, ?_⟩
        dsimp only
        rw [some]
        exact Eval.ends_throw.mpr rfl
      | resolved _ gives used =>
        refine .inr ⟨_, .inr ⟨_, gives, rfl⟩, ?_⟩
        dsimp only
        rw [leftAfter_eq_nil_iff.mpr used]
        exact Eval.ends_pure.mpr rfl
  · rw [invalid]
    have failed : ∀ {e : ScenarioError} {y : Eval Args},
        (do Eval.ofExcept (.error e); y).Ends result ↔ result = .error e := by
      intro e y
      exact Eval.ends_throw
    rw [failed]
    constructor
    · rintro rfl
      exact .misplaced misplaced
    · intro positional
      cases positional with
      | misplaced misplaced' => rw [misplaced.unique misplaced']
      | failed placed | tooMany placed | resolved placed =>
        exact absurd placed misplaced.not_wellPlaced

end Left

end

end MarketScript
