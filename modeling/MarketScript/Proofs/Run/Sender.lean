import MarketScript.Proofs.Command.Atomicity
import MarketScript.Proofs.Command.Change
import MarketScript.Proofs.Command.Depth
import MarketScript.Proofs.Command.Message
import MarketScript.Proofs.Run.Course

/-!
# Who sends

A statement asks the chain for one thing at most, and for that in the name of one account: the one of
the innermost `From` around the command, or the default sender.
-/

namespace MarketScript

/-- The expression for the account in whose name an event is carried out as a command, if it gives
    one.  The account of a `From` is the one of the command within it, if that gives one itself. -/
def Event.account? (e : Event) : Option Event :=
  match e with
  | list (word keyword :: rest) =>
    if sameWord keyword "From" then
      match rest with
      | [] => none
      | account :: command => ((list command).unwrapSingle.account?).or (some account)
    else if sameWord keyword "DryRun" then (list rest).unwrapSingle.account?
    else none
  | _ => none
termination_by e.size
decreasing_by
  · have := (list command).size_unwrapSingle_le
    simp at this ⊢
    omega
  · have := (list rest).size_unwrapSingle_le
    simp at this ⊢
    omega

namespace Event

variable {keyword : String} {account : Event} {command rest : List Event}

theorem account?_from (isFrom : sameWord keyword "From" = true) :
    (list (word keyword :: account :: command)).account? =
      ((list command).unwrapSingle.account?).or (some account) := by
  rw [account?.eq_def]
  simp [isFrom]

theorem account?_dryRun (isFrom : sameWord keyword "From" = false)
    (isDryRun : sameWord keyword "DryRun" = true) :
    (list (word keyword :: rest)).account? = (list rest).unwrapSingle.account? := by
  rw [account?.eq_def]
  simp [isFrom, isDryRun]

theorem account?_other (isFrom : sameWord keyword "From" = false)
    (isDryRun : sameWord keyword "DryRun" = false) :
    (list (word keyword :: rest)).account? = none := by
  rw [account?.eq_def]
  simp [isFrom, isDryRun]

theorem account?_word (w : String) : (word w).account? = none := by
  rw [account?.eq_def]

end Event

/-- Who sends what a command in a scene asks for. -/
def Scene.senderOf (s : Scene) (e : Event) : Except ScenarioError Address :=
  match e.account? with
  | some account => do (← s.resolve .address account).asAddress
  | none => s.world.defaultFrom

namespace Command

/-- Only at the top level there are commands that change the sender or switch dry runs, and from
    within the other tables there is no way back to it. -/
theorem wrapper_of_mem {table : CommandTable} : ∀ d ∈ table.shapes,
    match d.handler with
    | .fromAccount => table = .topLevel ∧ d.name = "From" ∧ d.skipOnDryRun = false ∧
        d.args = [arg "account" .address, rest "command"]
    | .dryRun => table = .topLevel ∧ d.name = "DryRun" ∧ d.skipOnDryRun = false ∧
        d.args = [rest "command"]
    | .inTable inner _ => inner ≠ .topLevel
    | _ => True := by
  cases table with
  | topLevel => simp [CommandTable.shapes, topLevelShapes, inFamily]
  | assertions => simp [CommandTable.shapes, assertionShapes]
  | family family | deploy family =>
    cases family <;>
      simp [CommandTable.shapes, controllerShapes, marketShapes, tokenShapes, registryShapes,
        rateModelShapes, deployShape, tokenShape, controllerDeployShapes, marketDeployShapes,
        marketDeployShape, existingShape, tokenDeployShapes, rateModelDeployShapes]

/-- At the top level the keyword is the first token, and tells the two shapes from all others. -/
theorem keyword_of_mem : ∀ d ∈ CommandTable.topLevel.shapes, d.catchall = false ∧
    d.keywordAt = 0 ∧ (sameWord "From" d.name = true → d.handler = .fromAccount) ∧
    (sameWord "DryRun" d.name = true → d.handler = .dryRun) := by
  decide

end Command

/-- What is resolved to an address is one. -/
theorem Resolver.isAddress_of_run {value : Event → Eval Value} {w : World} {e : Event} {v : Value}
    (resolved : (Resolver.run value w .address e).Ends (.ok v)) : ∃ a, v = .address a := by
  rcases Eval.ends_bind.mp resolved with ⟨_, -, impossible⟩ | ⟨a, -, made⟩
  · cases impossible
  · cases Eval.ends_pure.mp made
    exact ⟨a, rfl⟩

/-- The account comes first, and everything after it is the command. -/
theorem resolveArgs_from {η : Type} {d : Definition η} {value : Event → Eval Value} {w : World}
    {tokens : List Event} {args : Args}
    (shape : d.args = [Command.arg "account" .address, Command.rest "command"]) :
    (resolveArgs (Resolver.run value w) w d tokens).Ends (.ok args) ↔
      ∃ account command a, tokens = account :: command ∧ command ≠ [] ∧
        (Resolver.run value w .address account).Ends (.ok (.address a)) ∧ args = ⟨d.name,
          [("account", .address a), ("command", .event (Event.list command).unwrapSingle)]⟩ := by
  have valid : d.validate = .ok () := by
    simp [Definition.validate, Definition.tokenArgs, shape, Command.rest, Command.arg,
      Reading.restEvent, Arg.isImplicit, Definition.misplaced?, Arg.takesRest]
  have needed : ∀ v, ¬ (Command.arg "account" .address).fallback d.name = .ok v := by
    simp [Arg.fallback, Command.arg]
  rw [resolveArgs_ok, shape]
  constructor
  · rintro ⟨-, vs, inOrder, rfl⟩
    obtain ⟨v, command, vs', taken, others, rfl⟩ := resolveInOrder_cons.mp inOrder
    obtain ⟨v', given, rfl, -⟩ := (resolveInOrder_rest none).mp others
    rcases (resolveArg_first rfl rfl).mp taken with ⟨-, impossible, -⟩ | ⟨account, rfl, resolved⟩
    · exact absurd impossible (needed v)
    obtain ⟨a, rfl⟩ := Resolver.isAddress_of_run resolved
    split at given
    · cases given
    · rename_i some
      subst given
      exact ⟨account, command, a, rfl, some, resolved, rfl⟩
  · rintro ⟨account, command, a, rfl, some, resolved, rfl⟩
    refine ⟨valid, _, resolveInOrder_cons.mpr ⟨.address a, command, _, ?_, ?_, rfl⟩, rfl⟩
    · exact (resolveArg_first rfl rfl).mpr (.inr ⟨account, rfl, resolved⟩)
    · refine (resolveInOrder_rest none).mpr ⟨_, ?_, rfl, rfl⟩
      rw [if_neg some]

/-- What a shape of the top level is taken for: for another sender, for a dry run, or for neither. -/
inductive Headed (value : Event → Eval Value) (w : World) (d : Command.Shape) :
    Event → Args → Prop
  | fromAccount {keyword : String} {account : Event} {command : List Event} {a : Address}
      (handler : d.handler = .fromAccount) (isFrom : sameWord keyword "From" = true)
      (some : command ≠ [])
      (resolved : (Resolver.run value w .address account).Ends (.ok (.address a))) :
      Headed value w d (.list (.word keyword :: account :: command))
        ⟨d.name, [("account", .address a), ("command", .event (Event.list command).unwrapSingle)]⟩
  | dryRun {keyword : String} {command : List Event} (handler : d.handler = .dryRun)
      (isFrom : sameWord keyword "From" = false) (isDryRun : sameWord keyword "DryRun" = true)
      (some : command ≠ []) :
      Headed value w d (.list (.word keyword :: command))
        ⟨d.name, [("command", .event (Event.list command).unwrapSingle)]⟩
  | other {e : Event} {args : Args} (handler : d.handler ≠ .fromAccount ∧ d.handler ≠ .dryRun)
      (account : e.account? = none) : Headed value w d e args

section TopLevel

variable {value : Event → Eval Value} {w : World} {e : Event} {d : Command.Shape} {args : Args}

theorem items_cons_of_bears (isShape : d ∈ CommandTable.topLevel.shapes) (bears : d.Bears e) :
    ∃ keyword, sameWord keyword d.name = true ∧
      (e = .word keyword ∧ d.argTokens e = [] ∨
        ∃ rest, e = .list (.word keyword :: rest) ∧ d.argTokens e = rest) := by
  obtain ⟨isNamed, place, -, -⟩ := Command.keyword_of_mem d isShape
  obtain ⟨-, keyword, here, same⟩ := id bears
  refine ⟨keyword, same, ?_⟩
  rw [bears.argTokens]
  rw [place] at here ⊢
  cases e with
  | word text =>
    cases here
    exact .inl ⟨rfl, rfl⟩
  | quoted text => cases here
  | list items =>
    cases items with
    | nil => cases here
    | cons first rest =>
      cases here
      exact .inr ⟨rest, rfl, rfl⟩

theorem headed_of_select (taken : (select (Resolver.run value w) w CommandTable.topLevel.shapes
    e).Ends (.ok (d, args))) : Headed value w d e args := by
  have selected := select_ends_iff.mp taken
  have isShape := selected.mem
  obtain ⟨isNamed, place, asFrom, asDryRun⟩ := Command.keyword_of_mem d isShape
  have wrapper := Command.wrapper_of_mem d isShape
  obtain ⟨suits, resolved⟩ := selected.resolved
  rcases suits with isCatchall | bears
  · simp [isNamed] at isCatchall
  obtain ⟨keyword, same, form⟩ := items_cons_of_bears isShape bears
  by_cases isFrom : sameWord keyword "From" = true
  · have handler := asFrom (sameWord_trans (by rwa [sameWord_comm]) same)
    simp only [handler] at wrapper
    obtain ⟨-, -, -, shape⟩ := wrapper
    obtain ⟨account, command, a, tokens, some, account', rfl⟩ := (resolveArgs_from shape).mp resolved
    rcases form with ⟨-, none⟩ | ⟨rest, rfl, atRest⟩
    · rw [none] at tokens
      cases tokens
    · rw [atRest] at tokens
      subst tokens
      exact .fromAccount handler isFrom some account'
  · by_cases isDryRun : sameWord keyword "DryRun" = true
    · have handler := asDryRun (sameWord_trans (by rwa [sameWord_comm]) same)
      simp only [handler] at wrapper
      obtain ⟨-, -, -, shape⟩ := wrapper
      obtain ⟨v, given, rfl⟩ := (resolveArgs_rest none shape).mp resolved
      split at given
      · cases given
      · rename_i some
        subst given
        rcases form with ⟨-, none⟩ | ⟨rest, rfl, atRest⟩
        · exact absurd none some
        · rw [atRest] at some ⊢
          exact .dryRun handler (by simpa using isFrom) isDryRun some
    · refine .other ⟨fun handler => ?_, fun handler => ?_⟩ ?_
      · simp only [handler] at wrapper
        exact isFrom (wrapper.2.1 ▸ same)
      · simp only [handler] at wrapper
        exact isDryRun (wrapper.2.1 ▸ same)
      · rcases form with ⟨rfl, -⟩ | ⟨rest, rfl, -⟩
        · exact Event.account?_word keyword
        · exact Event.account?_other (by simpa using isFrom) (by simpa using isDryRun)

/-- With the keyword `From` nothing else is meant. -/
theorem Headed.of_from {keyword : String} {account : Event} {command : List Event}
    (headed : Headed value w d (.list (.word keyword :: account :: command)) args)
    (isFrom : sameWord keyword "From" = true) :
    d.handler = .fromAccount ∧ ∃ a,
      (Resolver.run value w .address account).Ends (.ok (.address a)) ∧ args =
        ⟨d.name, [("account", .address a), ("command", .event (Event.list command).unwrapSingle)]⟩ := by
  cases headed with
  | fromAccount handler _ _ resolved => exact ⟨handler, _, resolved, rfl⟩
  | dryRun _ notFrom =>
    rw [isFrom] at notFrom
    cases notFrom
  | other _ none =>
    rw [Event.account?_from isFrom, Option.or_eq_none_iff] at none
    cases none.2

end TopLevel

namespace World

/-- Below the top level the sender stays. -/
theorem sender_of_table {chain : Chain} (depth : Nat) :
    ∀ {w : World} {sender : Address} {table : CommandTable} {e : Event} {d : Deed},
      table ≠ .topLevel → (w.deed chain depth sender table e).Ends (.ok d) → d.sender = sender := by
  induction depth with
  | zero =>
    intro w sender table e d _ found
    cases found
  | succ depth ih =>
    intro w sender table e d below found
    rw [deed] at found
    rcases Eval.ends_bind.mp found with ⟨_, -, impossible⟩ | ⟨⟨shape, args⟩, taken, rest⟩
    · cases impossible
    have wrapper := Command.wrapper_of_mem shape (select_ends_iff.mp taken).mem
    dsimp only at rest
    split at rest
    · cases Eval.ends_pure.mp rest
      rfl
    · cases handler : shape.handler with
      | fromAccount | dryRun =>
        simp only [handler] at wrapper
        exact absurd wrapper.1 below
      | inTable inner name =>
        simp only [handler] at wrapper rest
        obtain ⟨event, -, found⟩ := Eval.of_ask rest
        exact ih wrapper found
      | _ =>
        simp only [handler] at rest
        cases Eval.ends_pure.mp rest
        rfl

/-- The sender of a deed is the account of the innermost `From`, or the one that it was looked for
    with. -/
theorem sender_of_deed {chain : Chain} (depth : Nat) :
    ∀ {w : World} (on : Bool) {sender : Address} {e : Event} {d : Deed},
      CommandTable.topLevel.rank e ≤ depth →
      ((w.withDryRun on).deed chain depth sender .topLevel e).Ends (.ok d) →
      match e.account? with
      | some account => Scene.resolve ⟨w, chain⟩ .address account = .ok (.address d.sender)
      | none => d.sender = sender := by
  induction depth with
  | zero =>
    intro w on sender e d _ found
    cases found
  | succ depth ih =>
    intro w on sender e d enough found
    rw [deed] at found
    rcases Eval.ends_bind.mp found with ⟨_, -, impossible⟩ | ⟨⟨shape, args⟩, taken, rest⟩
    · cases impossible
    have wrapper := Command.wrapper_of_mem shape (select_ends_iff.mp taken).mem
    have within : ∀ {inner name event}, shape.handler.inner? = some (inner, name) →
        args.event name = .ok event → inner.rank event ≤ depth := by
      intro inner name event carries told
      have smaller := rank_inner_lt taken carries told
      omega
    have headed := headed_of_select taken
    dsimp only at rest
    cases headed with
    | @fromAccount keyword account command a handler isFrom some resolved =>
      simp only [handler] at wrapper rest
      simp only [wrapper.2.2.1, Bool.false_and, Bool.false_eq_true, if_false] at rest
      have innermost := ih on (within (by rw [handler]; rfl) rfl) rest
      have here : Scene.resolve ⟨w, chain⟩ .address account = .ok (.address a) := by
        have small : 2 * account.size + 1 ≤ depth := by
          simp [CommandTable.rank] at enough
          omega
        exact (Scene.ends_resolve ⟨w, chain⟩ account on .address small).unique resolved
      rw [Event.account?_from isFrom]
      cases nested : (Event.list command).unwrapSingle.account? with
      | some other =>
        rw [nested] at innermost
        exact innermost
      | none =>
        rw [nested] at innermost
        rw [Option.none_or, innermost]
        exact here
    | @dryRun keyword command handler isFrom isDryRun some =>
      simp only [handler] at wrapper rest
      simp only [wrapper.2.2.1, Bool.false_and, Bool.false_eq_true, if_false] at rest
      rw [Event.account?_dryRun isFrom isDryRun]
      exact ih true (within (by rw [handler]; rfl) rfl) rest
    | other notWrapped none =>
      rw [none]
      dsimp only
      split at rest
      · cases Eval.ends_pure.mp rest
        rfl
      · cases handler : shape.handler with
        | fromAccount => exact absurd handler notWrapped.1
        | dryRun => exact absurd handler notWrapped.2
        | inTable inner name =>
          simp only [handler] at wrapper rest
          obtain ⟨event, -, found⟩ := Eval.of_ask rest
          exact sender_of_table depth wrapper found
        | _ =>
          simp only [handler] at rest
          cases Eval.ends_pure.mp rest
          rfl

/-- At the top level nothing is no command. -/
theorem not_deed_nil {chain : Chain} {depth : Nat} {w : World} {sender : Address} {d : Deed} :
    ¬ (w.deed chain depth sender .topLevel (.list [])).Ends (.ok d) := by
  intro found
  cases depth with
  | zero => cases found
  | succ depth =>
    rw [deed] at found
    rcases Eval.ends_bind.mp found with ⟨_, -, impossible⟩ | ⟨⟨shape, args⟩, taken, -⟩
    · cases impossible
    have selected := select_ends_iff.mp taken
    rcases selected.resolved.1 with isCatchall | bears
    · simp [(Command.keyword_of_mem shape selected.mem).1] at isCatchall
    · obtain ⟨keyword, -, ⟨impossible, -⟩ | ⟨rest, impossible, -⟩⟩ :=
        items_cons_of_bears selected.mem bears
      · cases impossible
      · cases impossible

/-- The shape of `From` is taken wherever its account can be resolved. -/
theorem select_from {chain : Chain} {depth : Nat} {w : World} {keyword : String} {account : Event}
    {command : List Event} {a : Address} (isFrom : sameWord keyword "From" = true)
    (some : command ≠ [])
    (resolved : (Resolver.run (fun e => Scene.answer ⟨w, chain⟩ depth (.value e)) w .address
      account).Ends (.ok (.address a))) :
    ∃ d, d ∈ CommandTable.topLevel.shapes ∧ d.handler = .fromAccount ∧
      (select (Resolver.run (fun e => Scene.answer ⟨w, chain⟩ depth (.value e)) w) w
        CommandTable.topLevel.shapes (.list (.word keyword :: account :: command))).Ends
      (.ok (d, ⟨d.name, [("account", .address a),
        ("command", .event (Event.list command).unwrapSingle)]⟩)) := by
  have shape : ∃ d ∈ CommandTable.topLevel.shapes, d.name = "From" ∧ d.handler = .fromAccount ∧
      d.catchall = false ∧ d.keywordAt = 0 := by decide
  obtain ⟨d, isShape, name, handler, isNamed, place⟩ := shape
  obtain ⟨bears, tokens⟩ := Definition.bears_of_items (d := d)
    (e := .list (.word keyword :: account :: command)) [] (account :: command) isNamed place (name ▸ isFrom) rfl
  rw [List.nil_append] at tokens
  have wrapper := Command.wrapper_of_mem d isShape
  simp only [handler] at wrapper
  have tried := (resolveArgs_from (d := d) wrapper.2.2.2).mpr
    ⟨account, command, a, rfl, some, resolved, rfl⟩
  rw [← tokens] at tried
  exact ⟨d, isShape, handler,
    select_ends_iff.mpr (Command.unambiguous_topLevel.selection isShape bears tried)⟩

/-- The deed of a command as another sender is the deed of the command by the other sender. -/
theorem deed_from {chain : Chain} {w : World} {sender : Address} {keyword : String}
    {account : Event} {command : List Event} (isFrom : sameWord keyword "From" = true) {d : Deed} :
    (w.deed chain (Event.list (.word keyword :: account :: command)).depth sender .topLevel
      (.list (.word keyword :: account :: command))).Ends (.ok d) ↔
    ∃ a, Scene.resolve ⟨w, chain⟩ .address account = .ok (.address a) ∧
      (w.deed chain (Event.list command).unwrapSingle.depth a .topLevel
        (Event.list command).unwrapSingle).Ends (.ok d) := by
  obtain ⟨depth, isDepth⟩ : ∃ n, (Event.list (.word keyword :: account :: command)).depth = n + 1 :=
    ⟨_, rfl⟩
  have enough : CommandTable.topLevel.rank (.list (.word keyword :: account :: command)) ≤
      depth + 1 := isDepth ▸ CommandTable.rank_le_depth _ _
  have smaller := (Event.list command).size_unwrapSingle_le
  have within : CommandTable.topLevel.rank (Event.list command).unwrapSingle ≤ depth := by
    simp [CommandTable.rank] at enough smaller ⊢
    omega
  have small : 2 * account.size + 1 ≤ depth := by
    simp [CommandTable.rank] at enough
    omega
  have here := Scene.ends_resolve ⟨w, chain⟩ account w.settings.dryRun .address small
  have same : ∀ a, w.deed chain depth a .topLevel (Event.list command).unwrapSingle =
      w.deed chain (Event.list command).unwrapSingle.depth a .topLevel
        (Event.list command).unwrapSingle :=
    fun a => (deed_agree chain w a .topLevel _ within (CommandTable.rank_le_depth _ _)).eq
  rw [isDepth, deed]
  constructor
  · intro found
    rcases Eval.ends_bind.mp found with ⟨_, -, impossible⟩ | ⟨⟨shape, args⟩, taken, rest⟩
    · cases impossible
    have wrapper := Command.wrapper_of_mem shape (select_ends_iff.mp taken).mem
    obtain ⟨handler, a, resolved, rfl⟩ := (headed_of_select taken).of_from isFrom
    simp only [handler] at wrapper rest
    simp only [wrapper.2.2.1, Bool.false_and, Bool.false_eq_true, if_false] at rest
    refine ⟨a, here.unique resolved, ?_⟩
    rw [← same]
    exact rest
  · rintro ⟨a, resolved, found⟩
    have some : command ≠ [] := by
      rintro rfl
      exact not_deed_nil found
    rw [resolved] at here
    obtain ⟨shape, isShape, handler, taken⟩ := select_from isFrom some here
    have wrapper := Command.wrapper_of_mem shape isShape
    simp only [handler] at wrapper
    refine Eval.ends_bind.mpr (.inr ⟨_, taken, ?_⟩)
    simp only [wrapper.2.2.1, Bool.false_and, Bool.false_eq_true, if_false, handler]
    rw [← same] at found
    exact found

/-- The deed of a statement is done in the name of the account that the statement gives. -/
theorem senderOf_of_deedOf {w : World} {s : Statement} {stage : Stage} {d : Deed}
    (found : w.deedOf? s stage = some d) :
    Scene.senderOf ⟨w, stage.chain⟩ s.event = .ok d.sender := by
  obtain ⟨sender, default, ended⟩ := deedOf?_eq_some.mp found
  have named := sender_of_deed (w := w) _ w.settings.dryRun
    (CommandTable.rank_le_depth .topLevel s.event) ended
  unfold Scene.senderOf
  cases isGiven : s.event.account? with
  | none =>
    rw [isGiven] at named
    rw [named]
    exact default
  | some account =>
    rw [isGiven] at named
    dsimp only at named ⊢
    rw [named]
    rfl

/-- What a statement asks the chain for it asks in the name of the account that it gives. -/
theorem runStatement_sender (w : World) (s : Statement) (stage : Stage) :
    ∃ rs : List Request, rs.length ≤ 1 ∧
      (w.runStatement s stage).2.chain = stage.chain.afterAll rs ∧
      ∀ r ∈ rs, Scene.senderOf ⟨w, stage.chain⟩ s.event = .ok r.sender := by
  cases ended : w.runStatement s stage with
  | mk result stage' =>
    rcases runStatement_cases ended with ⟨_, -, -, rfl⟩ | ⟨d, r, found, ⟨sound, -⟩, acted, -⟩
    · exact ⟨[], by simp, rfl, by simp⟩
    have sender := senderOf_of_deedOf found
    rcases Deed.does_act sound _ _ _ acted with ⟨_, -, givenUp⟩ | ⟨_, _, _, -, effect, -⟩
    · rcases givenUp.chain with same | ⟨request, asked, after⟩
      · exact ⟨[], by simp, same, by simp⟩
      · exact ⟨[request], by simp, after, by simpa [asked] using sender⟩
    · obtain ⟨rs, few, asked, after⟩ := effect.requests
      refine ⟨rs, few, after, fun request member => ?_⟩
      rw [asked request member]
      exact sender

/-- A statement asks the chain for one thing at most, in the name of the account of the innermost
    `From` around its command, or else of the default sender, so that of no other account a number is
    used up.  A command as another sender succeeds exactly if the command, without its parentheses,
    does for that sender, and it makes the same of the world and of the stage. -/
theorem innermost_from_sends (w : World) (s : Statement) (stage : Stage) :
    (∃ rs : List Request, rs.length ≤ 1 ∧
      (w.runStatement s stage).2.chain = stage.chain.afterAll rs ∧
      ∀ r ∈ rs, Scene.senderOf ⟨w, stage.chain⟩ s.event = .ok r.sender) ∧
    (∀ account, (w.runStatement s stage).2.chain.nonceOf account = stage.chain.nonceOf account ∨
      Scene.senderOf ⟨w, stage.chain⟩ s.event = .ok account ∧
        (w.runStatement s stage).2.chain.nonceOf account = stage.chain.nonceOf account + 1) ∧
    ∀ sender keyword account command w' stage', sameWord keyword "From" = true →
      (w.command sender (.list (.word keyword :: account :: command)) stage = (.ok w', stage') ↔
        ∃ a, Scene.resolve ⟨w, stage.chain⟩ .address account = .ok (.address a) ∧
          w.command a (Event.list command).unwrapSingle stage = (.ok w', stage')) := by
  obtain ⟨rs, few, after, senders⟩ := runStatement_sender w s stage
  refine ⟨⟨rs, few, after, senders⟩, fun account => ?_, ?_⟩
  · rw [after]
    cases rs with
    | nil => exact .inl rfl
    | cons r rs =>
      obtain rfl : rs = [] := List.length_eq_zero_iff.mp (by simpa using few)
      rcases stage.chain.nonceOf_after r account with same | ⟨rfl, more⟩
      · exact .inl same
      · exact .inr ⟨senders r (List.mem_singleton_self r), more⟩
  · intro sender keyword account command w' stage' isFrom
    simp only [command_eq_ok_iff, deed_from isFrom]
    constructor
    · rintro ⟨d, v, ⟨a, resolved, found⟩, acted, same⟩
      exact ⟨a, resolved, d, v, found, acted, same⟩
    · rintro ⟨a, resolved, d, v, found, acted, same⟩
      exact ⟨d, v, ⟨a, resolved, found⟩, acted, same⟩

section Nested

/-- The deployment of a token as one account within a command as another one, in a dry run. -/
def deployWithin : Statement :=
  { event := .list [.word "DryRun", .word "from", .word "Admin",
      .list [.word "From", .word "Torrey", deployZrx]],
    span := default }

theorem account_deployWithin : deployWithin.event.account? = some (.word "Torrey") := by
  have none : deployZrx.account? = none := Event.account?_other (by decide) (by decide)
  have torrey : (Event.list [.word "From", .word "Torrey", deployZrx]).account? =
      some (.word "Torrey") := by
    rw [Event.account?_from (by decide)]
    show deployZrx.account?.or _ = _
    rw [none, Option.none_or]
  rw [deployWithin, Event.account?_dryRun (by decide) (by decide)]
  show (Event.list (.word "from" :: .word "Admin" :: _)).account? = _
  rw [Event.account?_from (by decide), Event.unwrapSingle_singleton]
  show (Event.list [.word "From", .word "Torrey", deployZrx]).account?.or _ = _
  rw [torrey, Option.some_or]

/-- The inner account counts. -/
theorem sender_deployWithin :
    Scene.senderOf ⟨adminAndTorrey, {}⟩ deployWithin.event = .ok ⟨2⟩ := by
  have torrey : (Scene.resolve ⟨adminAndTorrey, {}⟩ .address (.word "Torrey")).toOption.map
      Value.asAddress = some (.ok ⟨2⟩) := by
    decide +kernel
  rw [Scene.senderOf, account_deployWithin]
  dsimp only
  cases resolved : Scene.resolve ⟨adminAndTorrey, {}⟩ .address (.word "Torrey") with
  | error e =>
    rw [resolved] at torrey
    cases torrey
  | ok v =>
    rw [resolved] at torrey
    exact Option.some.inj torrey

/-- The outer account has used up no number, and what the inner one has done is what it would have
    done alone. -/
theorem deployWithin_is_torreys :
    (adminAndTorrey.runStatement deployWithin { chain := {} }).2.chain.nonceOf ⟨1⟩ = 0 ∧
    sameWord "from" "From" = true ∧
    ∃ w stage a, adminAndTorrey.command ⟨1⟩ (.list [.word "from", .word "Torrey", deployZrx])
        { chain := {} } = (.ok w, stage) ∧
      Scene.resolve ⟨adminAndTorrey, {}⟩ .address (.word "Torrey") = .ok (.address a) ∧
      adminAndTorrey.command a deployZrx { chain := {} } = (.ok w, stage) ∧
      stage.chain.nonceOf ⟨2⟩ = 1 := by
  obtain ⟨-, nonces, asOther⟩ := innermost_from_sends adminAndTorrey deployWithin { chain := {} }
  have evaluated : (adminAndTorrey.command ⟨1⟩ (.list [.word "from", .word "Torrey", deployZrx])
        { chain := {} }).1.toOption.isSome = true ∧
      (adminAndTorrey.command ⟨1⟩ (.list [.word "from", .word "Torrey", deployZrx])
        { chain := {} }).2.chain.nonceOf ⟨2⟩ = 1 := by
    decide +kernel
  refine ⟨?_, by decide, ?_⟩
  · rcases nonces ⟨1⟩ with same | ⟨isAdmin, -⟩
    · exact same
    · rw [sender_deployWithin] at isAdmin
      exact absurd isAdmin (by decide)
  · cases done : adminAndTorrey.command ⟨1⟩ (.list [.word "from", .word "Torrey", deployZrx])
        { chain := {} } with
    | mk result stage =>
      rw [done] at evaluated
      cases result with
      | error e => cases evaluated.1
      | ok w =>
        obtain ⟨a, resolved, direct⟩ := (asOther ⟨1⟩ "from" _ _ w stage (by decide)).mp done
        exact ⟨w, stage, a, rfl, resolved, direct, evaluated.2⟩

end Nested

end World

end MarketScript
