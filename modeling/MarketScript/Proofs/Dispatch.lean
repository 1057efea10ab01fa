import Mathlib.Data.List.Forall2
import Mathlib.Data.List.Nodup
import MarketScript.Proofs.Error
import MarketScript.Proofs.Eval
import MarketScript.Proofs.Event

/-!
# Which shape is taken

What dispatching an event comes to, said without trying shapes one after another.  The catchall is a
matter of last resort: no failure of a shape that bears the keyword leads to it.
-/

namespace MarketScript

namespace Definition

variable {η : Type}

/-- The shape is no catchall, and its keyword stands in its place in the event. -/
def Bears (d : Definition η) (e : Event) : Prop :=
  d.catchall = false ∧ ∃ w, e.items[d.keywordAt]? = some (.word w) ∧ sameWord w d.name = true

theorem recognizes_iff {d : Definition η} {e : Event} : d.recognizes e = true ↔ d.Bears e := by
  unfold recognizes Bears
  cases d.catchall with
  | true => simp
  | false =>
    cases found : e.items[d.keywordAt]? with
    | none => simp
    | some item => cases item <;> simp [Event.asWord?]

instance (d : Definition η) (e : Event) : Decidable (d.Bears e) :=
  decidable_of_iff _ recognizes_iff

/-- The tokens of an event without the keyword in its place. -/
theorem Bears.argTokens {d : Definition η} {e : Event} (h : d.Bears e) :
    d.argTokens e = e.items.eraseIdx d.keywordAt := by
  simp [Definition.argTokens, h.1]

/-- A shape whose keyword stands in its place is given what stands around it. -/
theorem bears_of_items {d : Definition η} {e : Event} {keyword : String}
    (before after : List Event) (isNamed : d.catchall = false) (place : d.keywordAt = before.length)
    (same : sameWord keyword d.name = true) (items : e.items = before ++ .word keyword :: after) :
    d.Bears e ∧ d.argTokens e = before ++ after := by
  have bears : d.Bears e := by
    refine ⟨isNamed, keyword, ?_, same⟩
    rw [items, place, List.getElem?_append_right (Nat.le_refl _), Nat.sub_self]
    rfl
  refine ⟨bears, ?_⟩
  rw [bears.argTokens, items, place, List.eraseIdx_append_of_length_le (Nat.le_refl _), Nat.sub_self]
  rfl

end Definition

section Selection

variable {η : Type} (resolve : Resolver → Event → Eval Value) (world : World)

/-- The shapes that bear the keyword of an event, in the order of their declaration. -/
def candidates (definitions : List (Definition η)) (e : Event) : List (Definition η) :=
  definitions.filter fun d => d.Bears e

/-- What resolving the arguments of a shape that bears the keyword comes to. -/
def Tried (e : Event) (d : Definition η) (result : Except ScenarioError Args) : Prop :=
  (resolveArgs resolve world d (e.items.eraseIdx d.keywordAt)).Ends result

/-- What taking a shape for an event comes to. -/
inductive Selection (definitions : List (Definition η)) (e : Event) :
    Except ScenarioError (Definition η × Args) → Prop
  /-- The first candidate whose arguments can be resolved is taken. -/
  | fits {before after : List (Definition η)} {d : Definition η} {args : Args}
      (split : candidates definitions e = before ++ d :: after)
      (failed : ∀ other ∈ before, ∃ error, Tried resolve world e other (.error error))
      (resolved : Tried resolve world e d (.ok args)) :
      Selection definitions e (.ok (d, args))
  /-- A lone candidate's failure is the failure of all. -/
  | lone {d : Definition η} {error : ScenarioError} (only : candidates definitions e = [d])
      (failed : Tried resolve world e d (.error error)) :
      Selection definitions e (.error error)
  /-- The failures of several candidates are told together. -/
  | several {errors : List ScenarioError} (many : 2 ≤ (candidates definitions e).length)
      (failed : List.Forall₂ (fun d error => Tried resolve world e d (.error error))
        (candidates definitions e) errors) :
      Selection definitions e (.error (noMatch definitions e
        (List.zipWith (fun d error => s!"{d.usage}: {error.message}")
          (candidates definitions e) errors)))
  /-- The first catchall gets the whole event if there is no candidate. -/
  | catchall {d : Definition η} {result : Except ScenarioError Args}
      (none : candidates definitions e = []) (first : definitions.find? (·.catchall) = some d)
      (resolved : (resolveArgs resolve world d e.items).Ends result) :
      Selection definitions e (result.map fun args => (d, args))
  /-- Without candidates and catchalls there is nothing to take. -/
  | unknown (none : candidates definitions e = [])
      (named : ∀ d ∈ definitions, d.catchall = false) :
      Selection definitions e (.error (noMatch definitions e []))

variable {resolve world}
variable {definitions : List (Definition η)} {e : Event}

theorem mem_candidates {d : Definition η} :
    d ∈ candidates definitions e ↔ d ∈ definitions ∧ d.Bears e := by
  simp [candidates]

theorem candidates_eq : definitions.filter (·.recognizes e) = candidates definitions e := by
  refine List.filter_congr fun d _ => ?_
  rw [Bool.eq_iff_iff, Definition.recognizes_iff, decide_eq_true_iff]

/-- Several shapes are tried in order up to the first that fits. -/
theorem firstFitting_ends_iff {ds : List (Definition η)} (bear : ∀ d ∈ ds, d.Bears e)
    {answer : Except ScenarioError (Except (List ScenarioError) (Definition η × Args))} :
    (firstFitting resolve world e ds).Ends answer ↔
      (∃ before d after args, ds = before ++ d :: after ∧
        (∀ other ∈ before, ∃ error, Tried resolve world e other (.error error)) ∧
        Tried resolve world e d (.ok args) ∧ answer = .ok (.ok (d, args))) ∨
      ∃ errors, List.Forall₂ (fun d error => Tried resolve world e d (.error error)) ds errors ∧
        answer = .ok (.error errors) := by
  induction ds generalizing answer with
  | nil =>
    rw [firstFitting, Eval.ends_pure]
    simp
  | cons d ds ih =>
    obtain ⟨bears, bear⟩ := List.forall_mem_cons.mp bear
    rw [firstFitting, Eval.ends_attempt_bind, bears.argTokens]
    constructor
    · rintro ⟨result, tried, rest⟩
      cases result with
      | ok args =>
        rw [Eval.ends_pure] at rest
        exact .inl ⟨[], d, ds, args, rfl, by simp, tried, rest⟩
      -- a failure is put before the failures of the rest, if none of the rest fits
      | error error =>
        simp only [Eval.ends_bind] at rest
        rcases rest with ⟨_, impossible, -⟩ | ⟨found, next, rest⟩
        · simp [ih bear] at impossible
        rcases (ih bear).mp next with ⟨before, d', after, args, rfl, failed, resolved, same⟩ |
          ⟨errors, failed, same⟩
        · cases same
          rw [Eval.ends_pure] at rest
          refine .inl ⟨d :: before, d', after, args, rfl, ?_, resolved, rest⟩
          exact List.forall_mem_cons.mpr ⟨⟨error, tried⟩, failed⟩
        · cases same
          rw [Eval.ends_pure] at rest
          exact .inr ⟨error :: errors, .cons tried failed, rest⟩
    · rintro (⟨before, d', after, args, split, failed, resolved, rfl⟩ | ⟨errors, failed, rfl⟩)
      · cases before with
        | nil =>
          cases split
          exact ⟨.ok args, resolved, Eval.ends_pure.mpr rfl⟩
        | cons first before =>
          cases split
          obtain ⟨⟨error, tried⟩, failed⟩ := List.forall_mem_cons.mp failed
          refine ⟨.error error, tried, Eval.ends_bind.mpr (.inr ⟨.ok (d', args), ?_, ?_⟩)⟩
          · exact (ih bear).mpr (.inl ⟨before, d', after, args, rfl, failed, resolved, rfl⟩)
          · exact Eval.ends_pure.mpr rfl
      · cases failed with
        | @cons _ error _ errors tried failed =>
          refine ⟨.error error, tried, Eval.ends_bind.mpr (.inr ⟨.error errors, ?_, ?_⟩)⟩
          · exact (ih bear).mpr (.inr ⟨errors, failed, rfl⟩)
          · exact Eval.ends_pure.mpr rfl

/-- The failures of shapes, each after the usage of its shape. -/
theorem map_zip_attempts (ds : List (Definition η)) (errors : List ScenarioError) :
    ((ds.zip errors).map fun attempt => s!"{attempt.1.usage}: {attempt.2.message}") =
      List.zipWith (fun d error => s!"{d.usage}: {error.message}") ds errors := by
  rw [List.zip_eq_zipWith, List.map_zipWith]

section Taking

variable {result : Except ScenarioError (Definition η × Args)}

/-- An event that no shape bears the keyword of is a matter for the first catchall. -/
theorem select_of_unrecognized (none : candidates definitions e = []) :
    (select resolve world definitions e).Ends result ↔
      Selection resolve world definitions e result := by
  unfold select
  rw [candidates_eq, none]
  dsimp only
  constructor
  · intro taken
    split at taken
    · rename_i d first
      obtain ⟨r, resolved, rfl⟩ := Eval.ends_bind_pure.mp taken
      exact .catchall none first resolved
    · rename_i noCatchall
      obtain rfl := Eval.ends_throw.mp taken
      exact .unknown none (by simpa using noCatchall)
  · intro selected
    cases selected with
    | fits split => simp [none] at split
    | lone only => simp [none] at only
    | several many => simp [none] at many
    | catchall _ first resolved =>
      rw [first]
      exact Eval.ends_bind_pure.mpr ⟨_, resolved, rfl⟩
    | unknown _ named =>
      have noCatchall : definitions.find? (·.catchall) = .none := by simpa using named
      rw [noCatchall]
      exact Eval.ends_throw.mpr rfl

/-- An event that some shape bears the keyword of is a matter for those that do. -/
theorem select_of_recognized (some : candidates definitions e ≠ []) :
    (select resolve world definitions e).Ends result ↔
      Selection resolve world definitions e result := by
  have bear : ∀ d ∈ candidates definitions e, d.Bears e := fun d member =>
    (mem_candidates.mp member).2
  unfold select
  rw [candidates_eq]
  split
  · rename_i none
    exact absurd none some
  simp only [Eval.ends_bind, firstFitting_ends_iff bear]
  constructor
  · rintro (⟨_, ⟨_, _, _, _, -, -, -, impossible⟩ | ⟨_, -, impossible⟩, -⟩ | ⟨found, tried, rest⟩)
    · cases impossible
    · cases impossible
    rcases tried with ⟨before, d, after, args, split, failed, resolved, same⟩ |
      ⟨errors, failed, same⟩
    · cases same
      obtain rfl := Eval.ends_pure.mp rest
      exact .fits split failed resolved
    cases same
    -- One failure is told as it is, several are told together.
    rcases errors with _ | ⟨first, _ | ⟨second, others⟩⟩
    · exact absurd (List.forall₂_nil_right_iff.mp failed) some
    · obtain rfl := Eval.ends_throw.mp rest
      obtain ⟨d, _, resolved, none, only⟩ := List.forall₂_cons_right_iff.mp failed
      obtain rfl := List.forall₂_nil_right_iff.mp none
      exact .lone only resolved
    · have told := Eval.ends_throw.mp rest
      rw [map_zip_attempts] at told
      subst told
      refine .several ?_ failed
      rw [failed.length_eq]
      simp
  · intro selected
    refine .inr ?_
    cases selected with
    | fits split failed resolved =>
      exact ⟨_, .inl ⟨_, _, _, _, split, failed, resolved, rfl⟩, Eval.ends_pure.mpr rfl⟩
    | @lone d error only failed =>
      refine ⟨.error [error], .inr ⟨[error], ?_, rfl⟩, Eval.ends_throw.mpr rfl⟩
      rw [only]
      exact .cons failed .nil
    | @several errors many failed =>
      refine ⟨.error errors, .inr ⟨errors, failed, rfl⟩, ?_⟩
      rw [failed.length_eq] at many
      rcases errors with _ | ⟨first, _ | ⟨second, others⟩⟩
      · simp at many
      · simp at many
      · rw [← map_zip_attempts]
        exact Eval.ends_throw.mpr rfl
    | catchall none => exact absurd none some
    | unknown none => exact absurd none some

/-- Taking a shape comes to what the rules of selection say, and to nothing else. -/
theorem select_ends_iff :
    (select resolve world definitions e).Ends result ↔
      Selection resolve world definitions e result := by
  by_cases none : candidates definitions e = []
  · exact select_of_unrecognized none
  · exact select_of_recognized none

end Taking

/-- What is taken is one of the shapes. -/
theorem Selection.mem {d : Definition η} {args : Args}
    (selected : Selection resolve world definitions e (.ok (d, args))) : d ∈ definitions := by
  generalize taken : Except.ok (d, args) = result at selected
  cases selected with
  | fits split =>
    cases taken
    have member : d ∈ candidates definitions e := by simp [split]
    exact (mem_candidates.mp member).1
  | lone => cases taken
  | several => cases taken
  | @catchall d' result none first =>
    cases result with
    | error => cases taken
    | ok =>
      cases taken
      exact List.mem_of_find?_eq_some first
  | unknown => cases taken

/-- What is taken is a catchall or bears the keyword, and its arguments are those of its tokens. -/
theorem Selection.resolved {d : Definition η} {args : Args}
    (selected : Selection resolve world definitions e (.ok (d, args))) :
    (d.catchall = true ∨ d.Bears e) ∧
      (resolveArgs resolve world d (d.argTokens e)).Ends (.ok args) := by
  generalize taken : Except.ok (d, args) = result at selected
  cases selected with
  | fits split failed resolved =>
    cases taken
    have member : d ∈ candidates definitions e := by simp [split]
    have bears := (mem_candidates.mp member).2
    rw [bears.argTokens]
    exact ⟨.inr bears, resolved⟩
  | lone => cases taken
  | several => cases taken
  | @catchall d' result none first resolved =>
    cases result with
    | error => cases taken
    | ok =>
      cases taken
      have isCatchall : d.catchall = true := by simpa using List.find?_some first
      rw [Definition.argTokens, if_pos isCatchall]
      exact ⟨.inl isCatchall, resolved⟩
  | unknown => cases taken

/-- Where a catchall is taken, no shape bears the keyword. -/
theorem Selection.unrecognized {d : Definition η} {args : Args}
    (selected : Selection resolve world definitions e (.ok (d, args)))
    (isCatchall : d.catchall = true) : ∀ other ∈ definitions, ¬ other.Bears e := by
  generalize taken : Except.ok (d, args) = result at selected
  cases selected with
  | @fits before after d' args' split =>
    cases taken
    have member : d ∈ candidates definitions e := by simp [split]
    have isNamed := (mem_candidates.mp member).2.1
    simp [isCatchall] at isNamed
  | lone => cases taken
  | several => cases taken
  | catchall none =>
    intro other member bears
    have candidate := mem_candidates.mpr ⟨member, bears⟩
    rw [none] at candidate
    cases candidate
  | unknown => cases taken

/-- The keywords of some shapes are different words, and they stand in one place of an event. -/
structure Unambiguous (definitions : List (Definition η)) : Prop where
  names : (definitions.map fun d => foldCase d.name).Nodup
  place : ∀ d ∈ definitions, ∀ d' ∈ definitions, d.keywordAt = d'.keywordAt

/-- An event bears the keyword of one of the shapes only. -/
theorem Unambiguous.unique (h : Unambiguous definitions) {d d' : Definition η}
    (member : d ∈ definitions) (member' : d' ∈ definitions) (bears : d.Bears e)
    (bears' : d'.Bears e) : d = d' := by
  obtain ⟨-, w, here, same⟩ := bears
  obtain ⟨-, w', here', same'⟩ := bears'
  rw [h.place d member d' member', here'] at here
  cases here
  have folded : foldCase d.name = foldCase d'.name :=
    (sameWord_iff.mp same).symm.trans (sameWord_iff.mp same')
  exact List.inj_on_of_nodup_map h.names member member' folded

theorem Unambiguous.candidates_eq (h : Unambiguous definitions) {d : Definition η}
    (member : d ∈ definitions) (bears : d.Bears e) : candidates definitions e = [d] := by
  have distinct : (candidates definitions e).Nodup := h.names.of_map.filter _
  have candidate : d ∈ candidates definitions e := mem_candidates.mpr ⟨member, bears⟩
  by_contra different
  rcases (distinct.ne_singleton_iff d).mp different with none | ⟨other, isCandidate, apart⟩
  · rw [none] at candidate
    cases candidate
  · obtain ⟨member', bears'⟩ := mem_candidates.mp isCandidate
    exact apart (h.unique member' member bears' bears)

/-- The shape whose keyword an event bears is taken, and the failure of its arguments is the failure
    of all. -/
theorem Unambiguous.selection (h : Unambiguous definitions) {d : Definition η}
    (member : d ∈ definitions) (bears : d.Bears e) {result : Except ScenarioError Args}
    (resolved : (resolveArgs resolve world d (d.argTokens e)).Ends result) :
    Selection resolve world definitions e (result.map fun args => (d, args)) := by
  have only := h.candidates_eq member bears
  rw [bears.argTokens] at resolved
  cases result with
  | ok args =>
    have split : candidates definitions e = [] ++ d :: [] := only
    exact .fits split (by simp) resolved
  | error error => exact .lone only resolved

/-- What the reading of a value makes of a shape that was taken, or of the failure to take one. -/
def fetchTaken (run : η → Args → Eval Value) :
    Except ScenarioError (Definition η × Args) → Eval Value
  | .ok (d, args) => run d.handler args
  | .error error => throw error

/-- What a command makes of a shape that was taken, or of the failure to take one. -/
def commandTaken (world : World) (run : η → Args → Act World) (e : Event) :
    Except ScenarioError (Definition η × Args) → Act World
  | .ok (d, args) =>
    if d.skipOnDryRun && world.settings.dryRun then
      world.addAction s!"Dry run: skipped {e.text}"
    else run d.handler args
  | .error error => throw error

theorem dispatchFetch_of_selection {run : η → Args → Eval Value}
    {result : Except ScenarioError (Definition η × Args)}
    (selected : Selection resolve world definitions e result) :
    dispatchFetch resolve world run definitions e = fetchTaken run result := by
  have ended : select resolve world definitions e = ExceptT.mk (some result) :=
    select_ends_iff.mpr selected
  unfold dispatchFetch
  rw [ended]
  cases result <;> rfl

theorem dispatchCommand_of_selection {run : η → Args → Act World}
    {result : Except ScenarioError (Definition η × Args)}
    (selected : Selection resolve world definitions e result) :
    dispatchCommand resolve world run definitions e = commandTaken world run e result := by
  have ended : select resolve world definitions e = ExceptT.mk (some result) :=
    select_ends_iff.mpr selected
  unfold dispatchCommand
  rw [ended]
  cases result <;> rfl

end Selection

/-! ## Two ways to resolve tokens

Which shape is taken depends on nothing but what the tokens of an event are resolved to.  So two ways
to resolve tokens that agree on those of an event agree on the event. -/

section Agreement

variable {η : Type}

section

variable (P : ScenarioError → Prop) (resolve resolve' : Resolver → Event → Eval Value)
  (world world' : World)

/-- An argument is the same in both worlds, or both ways agree on whatever it can be given of the
    tokens. -/
def Arg.Agrees (a : Arg) (tokens : List Event) : Prop :=
  match a.source with
  | .implicit get => get world = get world' ∧ ∀ e, get world = .error e → P e
  | .token r => ∀ e : Event, e.Of tokens → (resolve r e).Agree P (resolve' r e)

end

variable {P : ScenarioError → Prop} {resolve resolve' : Resolver → Event → Eval Value}
  {world world' : World} {tokens : List Event}

theorem Arg.Agrees.of_suffix {a : Arg} {rest : List Event}
    (h : a.Agrees P resolve resolve' world world' tokens) (suffix : rest <:+ tokens) :
    a.Agrees P resolve resolve' world world' rest := by
  unfold Agrees at h ⊢
  split
  · rename_i get implicit
    simpa only [implicit] using h
  · rename_i r token
    simp only [token] at h
    exact fun e given => h e (given.of_suffix suffix)

theorem resolveEach_agree {r : Resolver} {es : List Event}
    (h : ∀ e ∈ es, (resolve r e).Agree P (resolve' r e)) :
    (resolveEach resolve r es).Agree P (resolveEach resolve' r es) := by
  induction es with
  | nil => exact Eval.agree_pure _
  | cons e es ih =>
    obtain ⟨first, rest⟩ := List.forall_mem_cons.mp h
    exact first.bind fun _ _ => (ih rest).bind fun _ _ => Eval.agree_pure _

/-- An argument leaves tokens from the end. -/
theorem resolveArg_suffix {command : String} {a : Arg} {v : Value} {rest : List Event}
    (ended : (resolveArg resolve world command a tokens).Ends (.ok (v, rest))) :
    rest <:+ tokens := by
  have made : ∀ {x : Eval Value} {left : List Event},
      (do return (← x, left) : Eval (Value × List Event)).Ends (.ok (v, rest)) → rest = left := by
    intro x left ended
    obtain ⟨r, -, same⟩ := Eval.ends_bind_pure.mp ended
    cases r with
    | error e => cases same
    | ok v => cases same; rfl
  unfold resolveArg at ended
  split at ended
  · obtain rfl := made ended
    exact List.suffix_refl _
  · split at ended
    · split at ended <;> obtain rfl := made ended <;> exact List.nil_suffix
    · split at ended
      · obtain rfl := made ended
        exact List.nil_suffix
      · split at ended
        · obtain rfl := made ended
          exact List.nil_suffix
        · obtain rfl := made ended
          exact List.suffix_cons _ _

variable (plain : ∀ e : ScenarioError, e.Plain → P e)

include plain

theorem resolveMapped_agree {a : Arg} {command : String} {r : Resolver}
    (h : ∀ e : Event, e.Of tokens → (resolve r e).Agree P (resolve' r e)) :
    (resolveMapped resolve a command r tokens).Agree P
      (resolveMapped resolve' a command r tokens) := by
  have fallback : (if a.isOptional then Eval.ofExcept (a.fallback command)
      else pure (.list [])).Agree P
      (if a.isOptional then Eval.ofExcept (a.fallback command) else pure (.list [])) := by
    split
    · exact Eval.agree_ofExcept fun e failed => plain e (a.plain_fallback _ e failed)
    · exact Eval.agree_pure _
  unfold resolveMapped
  split
  · rename_i e es
    refine (h _ (.token (List.mem_singleton_self _))).attempt_bind fun single _ errors => ?_
    cases single with
    | ok v => exact Eval.agree_pure _
    | error error =>
      have each : ∀ d ∈ e :: es, (resolve r d).Agree P (resolve' r d) := fun d member =>
        h d (.element (List.mem_singleton_self _) member)
      refine (resolveEach_agree each).attempt_bind fun each _ _ => ?_
      cases each with
      | ok vs => exact Eval.agree_pure _
      | error _ => exact Eval.agree_throw (errors error rfl)
  · exact fallback
  · exact fallback
  · exact (resolveEach_agree fun e member => h e (.token member)).bind fun _ _ => Eval.agree_pure _

theorem resolveArg_agree {command : String} {a : Arg}
    (h : a.Agrees P resolve resolve' world world' tokens) :
    (resolveArg resolve world command a tokens).Agree P
      (resolveArg resolve' world' command a tokens) := by
  have fallback : (Eval.ofExcept (a.fallback command)).Agree P
      (Eval.ofExcept (a.fallback command)) :=
    Eval.agree_ofExcept fun e failed => plain e (a.plain_fallback _ e failed)
  unfold Arg.Agrees at h
  unfold resolveArg
  split
  · rename_i get implicit
    simp only [implicit] at h
    rw [← h.1]
    exact (Eval.agree_ofExcept h.2).bind fun _ _ => Eval.agree_pure _
  · rename_i r token
    simp only [token] at h
    split
    · split
      · exact fallback.bind fun _ _ => Eval.agree_pure _
      · rename_i some
        refine (h _ (.rest ?_ (List.suffix_refl _))).bind fun _ _ => Eval.agree_pure _
        simpa using some
    · split
      · exact (resolveMapped_agree plain h).bind fun _ _ => Eval.agree_pure _
      · split
        · exact fallback.bind fun _ _ => Eval.agree_pure _
        · exact (h _ (.token List.mem_cons_self)).bind fun _ _ => Eval.agree_pure _

theorem resolveInOrder_agree {command : String} {args : List Arg}
    (h : ∀ a ∈ args, a.Agrees P resolve resolve' world world' tokens) :
    (resolveInOrder resolve world command args tokens).Agree P
      (resolveInOrder resolve' world' command args tokens) := by
  induction args generalizing tokens with
  | nil => exact Eval.agree_pure _
  | cons a args ih =>
    obtain ⟨first, rest⟩ := List.forall_mem_cons.mp h
    refine (resolveArg_agree plain first).bind fun resolved ended => ?_
    have suffix := resolveArg_suffix ended
    exact (ih fun a member => (rest a member).of_suffix suffix).bind fun _ _ => Eval.agree_pure _

theorem resolveArgs_agree {d : Definition η}
    (h : ∀ a ∈ d.args, a.Agrees P resolve resolve' world world' tokens) :
    (resolveArgs resolve world d tokens).Agree P (resolveArgs resolve' world' d tokens) := by
  refine (Eval.agree_ofExcept fun e failed => plain e (d.plain_validate e failed)).bind
    fun _ _ => ?_
  refine (resolveInOrder_agree plain h).bind fun resolved _ => ?_
  dsimp only
  split
  · exact Eval.agree_pure _
  · exact Eval.agree_throw (plain _ rfl)

/-- A list of errors keeps the first and puts the others into words, so only it has to be among
    `P`. -/
theorem firstFitting_agree {e : Event} {ds : List (Definition η)}
    (h : ∀ d ∈ ds, ∀ a ∈ d.args, a.Agrees P resolve resolve' world world' (d.argTokens e)) :
    ∃ found, (firstFitting resolve world e ds).Ends (.ok found) ∧
      (firstFitting resolve' world' e ds).Ends (.ok found) ∧
      ∀ errors, found = .error errors → ∀ error ∈ errors, P error := by
  induction ds with
  | nil => exact ⟨.error [], Eval.ends_pure.mpr rfl, Eval.ends_pure.mpr rfl, by simp⟩
  | cons d ds ih =>
    obtain ⟨first, rest⟩ := List.forall_mem_cons.mp h
    obtain ⟨tried, ended, ended', errors⟩ := resolveArgs_agree plain first
    cases tried with
    | ok args =>
      refine ⟨.ok (d, args), ?_, ?_, by simp⟩
      · exact Eval.ends_attempt_bind.mpr ⟨_, ended, Eval.ends_pure.mpr rfl⟩
      · exact Eval.ends_attempt_bind.mpr ⟨_, ended', Eval.ends_pure.mpr rfl⟩
    | error error =>
      obtain ⟨found, next, next', others⟩ := ih rest
      refine ⟨found.mapError (error :: ·), ?_, ?_, ?_⟩
      · refine Eval.ends_attempt_bind.mpr ⟨_, ended, Eval.ends_bind.mpr (.inr ⟨found, next, ?_⟩)⟩
        cases found <;> exact Eval.ends_pure.mpr rfl
      · refine Eval.ends_attempt_bind.mpr ⟨_, ended', Eval.ends_bind.mpr (.inr ⟨found, next', ?_⟩)⟩
        cases found <;> exact Eval.ends_pure.mpr rfl
      · intro all same
        cases found with
        | ok found => cases same
        | error rest =>
          cases same
          exact List.forall_mem_cons.mpr ⟨errors error rfl, others rest rfl⟩

/-- Two ways to resolve tokens take the same shape for an event if they agree on what arguments can be
    given of its tokens. -/
theorem select_agree {definitions : List (Definition η)} {e : Event}
    (h : ∀ d ∈ definitions, d.catchall = true ∨ d.Bears e → ∀ a ∈ d.args,
      a.Agrees P resolve resolve' world world' (d.argTokens e)) :
    (select resolve world definitions e).Agree P (select resolve' world' definitions e) := by
  unfold select
  split
  · split
    · rename_i d first
      have isCatchall : d.catchall = true := by simpa using List.find?_some first
      have agrees := h d (List.mem_of_find?_eq_some first) (.inl isCatchall)
      rw [Definition.argTokens, if_pos isCatchall] at agrees
      exact (resolveArgs_agree plain agrees).bind fun _ _ => Eval.agree_pure _
    · exact Eval.agree_throw (plain _ rfl)
  · have fit : ∀ d ∈ definitions.filter (·.recognizes e), ∀ a ∈ d.args,
        a.Agrees P resolve resolve' world world' (d.argTokens e) := by
      intro d member
      obtain ⟨member, recognized⟩ := List.mem_filter.mp member
      exact h d member (.inr (Definition.recognizes_iff.mp recognized))
    obtain ⟨found, ended, ended', errors⟩ := firstFitting_agree plain fit
    refine Eval.agree_bind_of_ok ended ended' ?_
    split
    · exact Eval.agree_pure _
    · rename_i error
      exact Eval.agree_throw (errors [error] rfl error (List.mem_singleton_self _))
    · exact Eval.agree_throw (plain _ rfl)

end Agreement

/-- Taking a shape comes to something if resolving tokens does. -/
theorem select_total {η : Type} {resolve : Resolver → Event → Eval Value} {world : World}
    (total : ∀ r e, (resolve r e).Total) (definitions : List (Definition η)) (e : Event) :
    (select resolve world definitions e).Total := by
  have agree : (select resolve world definitions e).Agree (fun _ => True)
      (select resolve world definitions e) := by
    refine select_agree (fun _ _ => trivial) fun d _ _ a _ => ?_
    unfold Arg.Agrees
    split
    · exact ⟨rfl, fun _ _ => trivial⟩
    · exact fun e _ => (total _ e).agree
  exact agree.total

/-- Dispatching an event takes the shape that the rules of selection say, with the arguments that
    they say, and comes to their failure otherwise.  A catchall is taken only if no shape bears the
    keyword, and of what is to be done with shapes at most that with the taken one is done. -/
theorem dispatch_takes_selection {η : Type} (resolve : Resolver → Event → Eval Value)
    (world : World) (definitions : List (Definition η)) (e : Event) :
    (∀ result, (select resolve world definitions e).Ends result ↔
      Selection resolve world definitions e result) ∧
    (∀ d args, Selection resolve world definitions e (.ok (d, args)) → d.catchall = true →
      ∀ other ∈ definitions, ¬ other.Bears e) ∧
    (∀ result, Selection resolve world definitions e result →
      (∀ run : η → Args → Eval Value,
        dispatchFetch resolve world run definitions e = fetchTaken run result) ∧
      ∀ run : η → Args → Act World,
        dispatchCommand resolve world run definitions e = commandTaken world run e result) ∧
    ((∀ r token, (resolve r token).Total) →
      ∃ result, Selection resolve world definitions e result) := by
  refine ⟨fun result => select_ends_iff, ?_, ?_, ?_⟩
  · intro d args selected isCatchall
    exact selected.unrecognized isCatchall
  · intro result selected
    exact ⟨fun run => dispatchFetch_of_selection selected,
      fun run => dispatchCommand_of_selection selected⟩
  · intro total
    obtain ⟨result, ended⟩ := select_total total definitions e
    exact ⟨result, select_ends_iff.mp ended⟩

/-- Binding a controller that exists needs an address.  Without one the keyword `Existing` is not
    taken for the name of a new controller, although the catchall would do so. -/
theorem existing_controller_needs_address :
    let world : World := { runId := "run", accounts := [] }
    let resolve : Resolver → Event → Eval Value := fun _ e =>
      Eval.ofExcept (Resolver.literalOf world e)
    let shapes := (CommandTable.deploy .controller).shapes
    let failure : ScenarioError := .missingArgument "Existing" "address"
    (∃ d ∈ shapes, d.catchall = true) ∧
      Selection resolve world shapes (.word "Existing") (.error failure) ∧
      (∀ run, dispatchCommand resolve world run shapes (.word "Existing") = throw failure) ∧
      ∃ result, Selection resolve world shapes (.word "existing") result := by
  intro world resolve shapes failure
  have taken : Selection resolve world shapes (.word "Existing") (.error failure) :=
    ((dispatch_takes_selection resolve world shapes (.word "Existing")).1 _).mp rfl
  refine ⟨by decide, taken, ?_, ?_⟩
  · exact ((dispatch_takes_selection resolve world shapes (.word "Existing")).2.2.1 _ taken).2
  · exact (dispatch_takes_selection resolve world shapes (.word "existing")).2.2.2
      fun _ _ => Eval.total_ofExcept _

end MarketScript
