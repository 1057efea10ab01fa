import MarketScript.Proofs.Command.Deed
import MarketScript.Proofs.Dispatch.Arguments

/-!
# How deep readings go

A query asks only for smaller ones, so its size bounds how many are asked within each other.  With as
many steps as that a query comes to something, and more steps make no difference.  Neither does
whether dry runs are on, nor what words mean that the query does not mention.  No reading fails with
a failed invokation.
-/

namespace MarketScript

/-- The worlds differ at most in what the words with a property mean, and in what no reading looks
    at. -/
structure World.Alike (p : String → Prop) (w w' : World) : Prop where
  words : ∀ word, ¬ p word → w'.resolveWord? word = w.resolveWord? word
  accounts : w'.accounts = w.accounts
  contracts : w'.contracts = w.contracts
  index : w'.index = w.index
  network : w'.settings.network = w.settings.network
  lastInvokation : w'.lastInvokation = w.lastInvokation

/-- Dry runs make no difference to what words mean. -/
theorem World.alike_withDryRun (w : World) (on : Bool) :
    w.Alike (fun _ => False) (w.withDryRun on) where
  words _ _ := rfl
  accounts := rfl
  contracts := rfl
  index := rfl
  network := rfl
  lastInvokation := rfl

/-- An argument that comes from the world is the controller or the registry. -/
def Arg.Usual (a : Arg) : Prop :=
  match a.source with
  | .implicit get => get = World.controller ∨ get = World.registry ∨ get = World.registryOrZero
  | .token _ => True

/-- Which controller or registry it is depends on the index alone. -/
theorem Arg.Usual.same {a : Arg} (h : a.Usual) {get : World → Except ScenarioError Value}
    (source : a.source = .implicit get) (w w' : World) (index : w'.index = w.index) :
    get w = get w' ∧ Plain (get w) := by
  have indexed (name : String) (path : List String) :
      w.indexedAddress name path = w'.indexedAddress name path := by
    unfold World.indexedAddress World.lookup
    rw [index]
  unfold Usual at h
  simp only [source] at h
  rcases h with rfl | rfl | rfl
  · exact ⟨indexed _ _, w.plain_indexedAddress _ _⟩
  · exact ⟨indexed _ _, w.plain_indexedAddress _ _⟩
  · refine ⟨?_, w.plain_registryOrZero⟩
    unfold World.registryOrZero World.registry
    rw [indexed]

namespace Reading

theorem usual_of_mem {table : FetchTable} : ∀ d ∈ table.shapes, ∀ a ∈ d.args, a.Usual := by
  cases table with
  | topLevel =>
    simp [FetchTable.shapes, topLevelShapes, plain, inFamilyShape, restEvent, literalShape,
      Arg.Usual]
  | family family =>
    cases family <;>
      simp [FetchTable.shapes, controllerShapes, marketShapes, marketReadings, tokenShapes,
        registryShapes, rateModelShapes, ofController, ofToken, controllerArg, registryArg,
        marketArg, tokenArg, modelArg, addressArg, Arg.Usual]

/-- The catchall of a table takes the whole event for a literal. -/
theorem literal_of_catchall {table : FetchTable} :
    ∀ d ∈ table.shapes, d.catchall = true → d = literalShape := by
  cases table with
  | topLevel =>
    simp [FetchTable.shapes, topLevelShapes, plain, inFamilyShape]
  | family family =>
    cases family <;>
      simp [FetchTable.shapes, controllerShapes, marketShapes, marketReadings, tokenShapes,
        registryShapes, rateModelShapes, ofController, ofToken]

/-- A reading that makes another one takes everything after its keyword for that. -/
theorem args_of_inFamily {table : FetchTable} :
    ∀ d ∈ table.shapes, ∀ family arg, d.handler = .inFamily family arg →
      d.args = [restEvent arg] ∧ d.catchall = false := by
  cases table with
  | topLevel =>
    simp [FetchTable.shapes, topLevelShapes, plain, inFamilyShape, literalShape]
  | family family =>
    cases family <;>
      simp [FetchTable.shapes, controllerShapes, marketShapes, marketReadings, tokenShapes,
        registryShapes, rateModelShapes, ofController, ofToken]

end Reading

/-! ## Resolving a token -/

/-- The contract at an address, if it has the role of a family. -/
def World.roleAt (w : World) (family : Family) (address : Address) :
    Except ScenarioError Value := do
  let h ← w.contract address
  if family.kinds.contains h.kind then return .address address
  else throw (.typeMismatch family.keyword s!"{h.name} ({h.kind})")

theorem World.contract_eq_ok {w : World} {address : Address} {h : Handle} :
    w.contract address = .ok h ↔ w.contracts.get? address = some h := by
  unfold contract
  split <;> simp_all

theorem World.plain_roleAt (w : World) (family : Family) (address : Address) :
    Plain (w.roleAt family address) := by
  refine (w.plain_contract address).bind fun h => ?_
  split
  · exact plain_ok _
  · exact plain_error rfl

namespace Resolver

variable {value value' : Event → Eval Value} {w : World} {e : Event}

/-- The address that an expression stands for where a contract of a family is asked for. -/
def addressFor (value : Event → Eval Value) (w : World) (family : Family) (e : Event) :
    Eval Address :=
  match e.unwrapSingle.asWord?.bind fun name => w.index.get? [family.shelf, name, "address"] with
  | some v => Eval.ofExcept v.addressIn
  | none => addressOf value w e.unwrapSingle

/-- The contract is found first, and then it must have the role. -/
theorem contractOf_eq (family : Family) :
    contractOf value w family e =
      addressFor value w family e >>= fun address => Eval.ofExcept (w.roleAt family address) := by
  have checked : ∀ address, (do
      let h ← Eval.ofExcept (w.contract address)
      if family.kinds.contains h.kind then return Value.address address
      else throw (.typeMismatch family.keyword s!"{h.name} ({h.kind})") : Eval Value) =
      Eval.ofExcept (w.roleAt family address) := by
    intro address
    unfold World.roleAt
    cases w.contract address with
    | error e => rfl
    | ok h =>
      show (if _ then _ else _) = Eval.ofExcept (if _ then _ else _)
      split <;> rfl
  unfold contractOf addressFor
  simp only [checked]
  cases e.unwrapSingle.asWord?.bind fun name =>
      w.index.get? [family.shelf, name, "address"] with
  | some v => rfl
  | none => rfl

theorem literalOf_alike {p : String → Prop} {w' : World} (alike : w.Alike p w')
    (quiet : ¬ e.Mentions p) : literalOf w' e = literalOf w e := by
  unfold literalOf
  split
  · rfl
  · rename_i word isWord
    rw [← Event.mentions_unwrapSingle, isWord, Event.mentions_word] at quiet
    rw [alike.words word quiet]
  · rfl

section Alike

variable {p : String → Prop} {w' : World} (alike : w.Alike p w') (quiet : ¬ e.Mentions p)
  (h : ∀ d ∈ [e, e.unwrapSingle], (value d).Agree ScenarioError.Plain (value' d))

include h

theorem numberOf_agree : (numberOf value e).Agree ScenarioError.Plain (numberOf value' e) :=
  (h e (by simp)).bind fun v _ =>
    (Eval.agree_ofExcept v.plain_asNumber).bind fun _ _ => Eval.agree_pure _

theorem stringOf_agree : (stringOf value e).Agree ScenarioError.Plain (stringOf value' e) := by
  unfold stringOf
  split
  · exact Eval.agree_pure _
  · exact Eval.agree_pure _
  · exact (h _ (by simp)).bind fun v _ =>
      (Eval.agree_ofExcept v.plain_asString).bind fun _ _ => Eval.agree_pure _

theorem boolOf_agree : (boolOf value e).Agree ScenarioError.Plain (boolOf value' e) :=
  (h e (by simp)).bind fun v _ =>
    (Eval.agree_ofExcept v.plain_asBool).bind fun _ _ => Eval.agree_pure _

include alike quiet

theorem addressOf_agree :
    (addressOf value w e).Agree ScenarioError.Plain (addressOf value' w' e) := by
  have inner := h e.unwrapSingle (by simp)
  unfold addressOf
  split
  · rename_i word isWord
    rw [isWord] at inner
    have other : ¬ p word := by
      rwa [← Event.mentions_unwrapSingle, isWord, Event.mentions_word] at quiet
    split
    · exact Eval.agree_pure _
    · rw [alike.words word other]
      split
      · exact Eval.agree_ofExcept (Value.plain_addressIn _)
      · exact inner.bind fun v _ => Eval.agree_ofExcept v.plain_addressIn
  · exact inner.bind fun v _ => Eval.agree_ofExcept v.plain_addressIn

theorem contractOf_agree (family : Family) :
    (contractOf value w family e).Agree ScenarioError.Plain (contractOf value' w' family e) := by
  have same : ∀ d ∈ [e.unwrapSingle, e.unwrapSingle.unwrapSingle],
      (value d).Agree ScenarioError.Plain (value' d) := by
    rw [e.unwrapSingle_unwrapSingle]
    intro d member
    exact h d (by simp_all)
  have roles : w'.roleAt family = w.roleAt family := by
    funext address
    unfold World.roleAt World.contract
    rw [alike.contracts]
  rw [contractOf_eq, contractOf_eq, roles]
  refine Eval.Agree.bind ?_ fun address _ => Eval.agree_ofExcept (w.plain_roleAt family address)
  unfold addressFor
  rw [alike.index]
  split
  · exact Eval.agree_ofExcept (Value.plain_addressIn _)
  · exact addressOf_agree alike (by rwa [Event.mentions_unwrapSingle]) same

/-- What a token is resolved to depends on what it denotes, with and without its parentheses, and on
    what the words mean that it mentions. -/
theorem run_alike (r : Resolver) :
    (r.run value w e).Agree ScenarioError.Plain (r.run value' w' e) := by
  cases r with
  | value => exact h e (by simp)
  | literal =>
    unfold run
    rw [literalOf_alike alike quiet]
    exact Eval.agree_ofExcept (plain_literalOf w e)
  | event => exact Eval.agree_pure _
  | number => exact numberOf_agree h
  | exp | percent =>
    unfold run
    dsimp only
    split
    · exact Eval.agree_pure _
    · exact numberOf_agree h
  | string => exact stringOf_agree h
  | bool => exact boolOf_agree h
  | address => exact (addressOf_agree alike quiet h).bind fun _ _ => Eval.agree_pure _
  | market => exact contractOf_agree alike quiet h .market
  | token => exact contractOf_agree alike quiet h .token
  | rateModel => exact contractOf_agree alike quiet h .rateModel

end Alike

/-- What a token is resolved to depends on what it and smaller events denote. -/
theorem run_agree (h : ∀ d : Event, d.size ≤ e.size → (value d).Agree ScenarioError.Plain (value' d))
    (r : Resolver) : (r.run value w e).Agree ScenarioError.Plain (r.run value' w e) := by
  refine run_alike (w.alike_withDryRun w.settings.dryRun) Event.not_mentions_false ?_ r
  intro d member
  rcases List.mem_pair.mp member with rfl | rfl
  · exact h _ (Nat.le_refl _)
  · exact h _ e.size_unwrapSingle_le

end Resolver

/-! ## Answering a query -/

section Alike

variable {p : String → Prop} {w w' : World} {c : Chain} (alike : w.Alike p w')

include alike

/-- A contract answers the same in worlds that know the same contracts. -/
theorem Scene.view_alike : Scene.view ⟨w', c⟩ = Scene.view ⟨w, c⟩ := by
  funext address method args
  unfold Scene.view World.contract
  rw [alike.contracts]

/-- What a reading gives depends on the readings of families only through its own event. -/
theorem Scene.read_alike {fetch fetch' : FetchTable → Event → Eval Value} (r : Reading) (args : Args)
    (h : ∀ family arg e, r = .inFamily family arg → args.event arg = .ok e →
      (fetch (.family family) e).Agree ScenarioError.Plain (fetch' (.family family) e)) :
    (Scene.read fetch ⟨w, c⟩ r args).Agree ScenarioError.Plain
      (Scene.read fetch' ⟨w', c⟩ r args) := by
  let s : Scene := ⟨w, c⟩
  have view : Scene.view ⟨w', c⟩ = s.view := Scene.view_alike alike
  have marketOf : Scene.marketOf ⟨w', c⟩ args = s.marketOf args := by
    unfold Scene.marketOf
    rw [view]
  cases r with
  | argument name => exact Eval.agree_ofExcept (args.plain_get name)
  | account =>
    have same : Scene.accountAddress ⟨w', c⟩ args = s.accountAddress args := by
      unfold Scene.accountAddress World.account?
      rw [alike.accounts]
    unfold Scene.read
    dsimp only
    rw [same]
    exact Eval.agree_ofExcept (s.plain_accountAddress args)
  | network =>
    unfold Scene.read
    dsimp only
    rw [alike.network]
    exact Eval.agree_pure _
  | lastInvokation =>
    unfold Scene.read Scene.lastInvokation
    rw [alike.lastInvokation]
    exact Eval.agree_pure _
  | inFamily family arg =>
    refine Eval.Agree.bind (Eval.agree_ofExcept (args.plain_event arg)) fun e given => ?_
    exact h family arg e rfl (Eval.ends_ofExcept.mp given).symm
  | view contract method about decoding =>
    have same : Scene.viewArgs ⟨w', c⟩ args contract method about decoding =
        s.viewArgs args contract method about decoding := by
      unfold Scene.viewArgs
      rw [view]
    unfold Scene.read
    dsimp only
    rw [same]
    exact Eval.agree_ofExcept (s.plain_viewArgs args contract method about decoding)
  | isListed =>
    unfold Scene.read
    dsimp only
    rw [marketOf]
    exact Eval.agree_ofExcept ((s.plain_marketOf args).bind fun found =>
      (Value.plain_asBool _).bind fun _ => plain_ok _)
  | collateralFactor =>
    unfold Scene.read
    dsimp only
    rw [marketOf]
    exact Eval.agree_ofExcept ((s.plain_marketOf args).bind fun found =>
      (Value.plain_asNumber _).bind fun _ => plain_ok _)
  | marketInfo =>
    have same : Scene.marketInfo ⟨w', c⟩ = s.marketInfo := by
      unfold Scene.marketInfo
      rw [view]
    unfold Scene.read
    dsimp only
    rw [same]
    exact Eval.agree_ofExcept ((args.plain_address _).bind fun market => s.plain_marketInfo market)

end Alike

namespace Query

/-- How many steps within each other a query can need. -/
def rank : Query → Nat
  | value e => 2 * e.size + 1
  | fetch _ e => 2 * e.size

/-- The event that a query is about. -/
def event : Query → Event
  | value e => e
  | fetch _ e => e

/-- The query is about something within the tokens beside a word of an event. -/
def Below (q : Query) (e : Event) : Prop :=
  ∃ i w, e.items[i]? = some (.word w) ∧ q.event.Within (e.items.eraseIdx i)

theorem Below.size_lt {q : Query} {e : Event} (h : q.Below e) : q.event.size < e.size := by
  obtain ⟨i, w, here, within⟩ := h
  cases e with
  | list es => exact within.lt here
  | word | quoted =>
    cases i with
    | zero => exact absurd rfl within.1
    | succ i => simp [Event.items] at here

theorem not_below_word {q : Query} {w : String} : ¬ q.Below (.list [.word w]) := by
  rintro ⟨i, _, here, within⟩
  cases i with
  | zero => exact within.1 rfl
  | succ i => simp [Event.items] at here

theorem rank_pos (q : Query) : 0 < q.rank := by
  cases q with
  | value e => exact Nat.succ_pos _
  | fetch table e => exact Nat.mul_pos Nat.two_pos e.size_pos

section Alike

variable {ask ask' : Query → Eval Value} {p : String → Prop} {w w' : World} {c : Chain} {e : Event}
  (alike : w.Alike p w') (quiet : ¬ e.Mentions p)

include alike quiet

/-- A reading depends only on queries about its tokens. -/
theorem fetch_alike {table : FetchTable}
    (h : ∀ q : Query, q.Below e → ¬ q.event.Mentions p →
      (ask q).Agree ScenarioError.Plain (ask' q)) :
    ((fetch table e).step ask ⟨w, c⟩).Agree ScenarioError.Plain
      ((fetch table e).step ask' ⟨w', c⟩) := by
  -- what stands beside a keyword mentions no more than the whole
  have beside (i : Nat) : ¬ (Event.list (e.items.eraseIdx i)).Mentions p := by
    rw [← Event.mentions_items] at quiet
    exact fun mentions => quiet (mentions.of_subset (List.eraseIdx_sublist _ _).subset)
  refine Eval.Agree.bind ?_ fun taken selected => ?_
  · refine select_agree (fun _ plain => plain) fun d member suits a isArg => ?_
    unfold Arg.Agrees
    split
    · rename_i get source
      exact (Reading.usual_of_mem d member a isArg).same source w w' alike.index
    · rename_i r source
      intro token given
      rcases suits with isCatchall | bears
      -- the catchall asks for nothing
      · cases Reading.literal_of_catchall d member isCatchall
        cases List.mem_singleton.mp isArg
        cases source
        have other : ¬ token.Mentions p := by
          rw [Definition.argTokens, if_pos isCatchall] at given
          exact fun mentions => quiet (Event.mentions_items.mp (given.mentions mentions))
        unfold Resolver.run
        rw [Resolver.literalOf_alike alike other]
        exact Eval.agree_ofExcept (Resolver.plain_literalOf w token)
      · obtain ⟨-, word, here, -⟩ := id bears
        rw [bears.argTokens] at given
        have other : ¬ token.Mentions p := fun mentions => beside _ (given.mentions mentions)
        refine Resolver.run_alike alike other (fun d inner => ?_) r
        rcases List.mem_pair.mp inner with rfl | rfl
        · exact h (.value _) ⟨_, word, here, given.within⟩ other
        · exact h (.value _) ⟨_, word, here, given.within.unwrapSingle⟩
            (by rwa [Query.event, Event.mentions_unwrapSingle])
  · obtain ⟨d, args⟩ := taken
    refine Scene.read_alike alike d.handler args fun family arg event reading given => ?_
    have selected := select_ends_iff.mp selected
    obtain ⟨shape, isNamed⟩ := Reading.args_of_inFamily d selected.mem family arg reading
    obtain ⟨suits, resolved⟩ := selected.resolved
    rcases suits with isCatchall | bears
    · simp [isNamed] at isCatchall
    rw [bears.argTokens] at resolved
    obtain ⟨v, taken, rfl⟩ := (resolveArgs_rest _ shape).mp resolved
    obtain ⟨-, word, here, -⟩ := bears
    split at taken
    · cases taken
    · rename_i some
      subst taken
      have same : event = (Event.list (e.items.eraseIdx d.keywordAt)).unwrapSingle := by
        simpa [Args.event, Args.get, Value.asEvent, eq_comm] using given
      subst same
      have within : Event.Within (Event.list (e.items.eraseIdx d.keywordAt))
          (e.items.eraseIdx d.keywordAt) := ⟨some, Nat.le_refl _⟩
      exact h (.fetch (.family family) _) ⟨_, word, here, within.unwrapSingle⟩
        (by rw [Query.event, Event.mentions_unwrapSingle]; exact beside _)

/-- What an expression denotes depends on the reading that it is, if it is one. -/
theorem value_alike
    (word : ∀ word, ¬ p word → (ask (.fetch .topLevel (.list [.word word]))).Agree
      ScenarioError.Plain (ask' (.fetch .topLevel (.list [.word word]))))
    (reading : (ask (.fetch .topLevel e.unwrapSingle)).Agree ScenarioError.Plain
      (ask' (.fetch .topLevel e.unwrapSingle))) :
    ((value e).step ask ⟨w, c⟩).Agree ScenarioError.Plain
      ((value e).step ask' ⟨w', c⟩) := by
  unfold step Scene.valueOf
  dsimp only
  split
  · exact Eval.agree_pure _
  · rename_i isWord
    rw [← Event.mentions_unwrapSingle, isWord, Event.mentions_word] at quiet
    rw [alike.words _ quiet]
    split
    · exact Eval.agree_pure _
    · refine (word _ quiet).attempt_bind fun r _ errors => ?_
      split
      · exact Eval.agree_pure _
      · exact Eval.agree_throw rfl
      · exact Eval.agree_throw (errors _ rfl)
  · exact Eval.agree_pure _
  · exact reading

end Alike

end Query

/-- With as many steps as its rank a query comes to something, and neither more steps make a difference
    nor the words that it does not mention. -/
theorem Scene.answer_alike {p : String → Prop} {w w' : World} (alike : w.Alike p w') (c : Chain)
    (q : Query) (quiet : ¬ q.event.Mentions p) {depth depth' : Nat} (enough : q.rank ≤ depth)
    (enough' : q.rank ≤ depth') :
    (Scene.answer ⟨w, c⟩ depth q).Agree ScenarioError.Plain (Scene.answer ⟨w', c⟩ depth' q) := by
  induction depth generalizing q depth' with
  | zero => exact absurd enough (Nat.not_le.mpr q.rank_pos)
  | succ depth ih =>
    obtain ⟨depth', rfl⟩ : ∃ n, depth' = n + 1 := ⟨depth' - 1, by have := q.rank_pos; omega⟩
    cases q with
    | fetch table e =>
      refine Query.fetch_alike alike quiet fun q below other => ?_
      have smaller : q.event.size < e.size := below.size_lt
      have bound : q.rank ≤ 2 * q.event.size + 1 := by cases q <;> simp [Query.rank, Query.event]
      simp only [Query.rank] at enough enough'
      exact ih q other (by omega) (by omega)
    | value e =>
      simp only [Query.rank] at enough enough'
      have size := e.size_pos
      refine Query.value_alike alike quiet (fun word other => ?_) ?_
      -- the reading of a word has no tokens, so one step is enough for it
      · obtain ⟨depth, rfl⟩ : ∃ n, depth = n + 1 := ⟨depth - 1, by omega⟩
        obtain ⟨depth', rfl⟩ : ∃ n, depth' = n + 1 := ⟨depth' - 1, by omega⟩
        have unread : ¬ (Event.list [.word word]).Mentions p := by
          rw [Event.mentions_list]
          simpa using other
        exact Query.fetch_alike alike unread fun q below => absurd below Query.not_below_word
      · have smaller := e.size_unwrapSingle_le
        exact ih _ (by rwa [Query.event, Event.mentions_unwrapSingle])
          (by simp only [Query.rank]; omega) (by simp only [Query.rank]; omega)

/-- With as many steps as its rank a query comes to something, and neither more steps nor dry runs
    make a difference. -/
theorem Scene.answer_agree (s : Scene) (on : Bool) (q : Query) {depth depth' : Nat}
    (enough : q.rank ≤ depth) (enough' : q.rank ≤ depth') :
    (s.answer depth q).Agree ScenarioError.Plain
      ({ s with world := s.world.withDryRun on }.answer depth' q) :=
  Scene.answer_alike (s.world.alike_withDryRun on) s.chain q Event.not_mentions_false enough enough'

namespace Eval

variable {α : Type} {P : ScenarioError → Prop} {x y : Eval α}

theorem Ends.answerOr {r : Except ScenarioError α} (h : x.Ends r) (e : ScenarioError) :
    x.answerOr e = r := by
  unfold Eval.answerOr
  rw [h]
  rfl

/-- Of two readings that agree one comes to what the other does. -/
theorem Agree.ends_answerOr (h : x.Agree P y) (e : ScenarioError) : y.Ends (x.answerOr e) := by
  obtain ⟨r, ended, ended', -⟩ := h
  rw [ended.answerOr]
  exact ended'

end Eval

namespace Scene

variable (s : Scene) (e : Event)

theorem rank_le_depth : 2 * e.size + 1 ≤ e.depth := by
  unfold Event.depth
  omega

theorem resolve_alike {p : String → Prop} {w w' : World} (alike : w.Alike p w') (c : Chain)
    (quiet : ¬ e.Mentions p) (r : Resolver) {depth : Nat} (enough : 2 * e.size + 1 ≤ depth) :
    (r.run (fun e' => Scene.answer ⟨w, c⟩ e'.depth (.value e')) w e).Agree ScenarioError.Plain
      (r.run (fun e' => Scene.answer ⟨w', c⟩ depth (.value e')) w' e) := by
  refine Resolver.run_alike alike quiet (fun d inner => ?_) r
  have small : d.size ≤ e.size ∧ ¬ d.Mentions p := by
    rcases List.mem_pair.mp inner with rfl | rfl
    · exact ⟨Nat.le_refl _, quiet⟩
    · exact ⟨e.size_unwrapSingle_le, by rwa [Event.mentions_unwrapSingle]⟩
  refine Scene.answer_alike alike c (.value d) small.2 ?_ ?_
  · exact rank_le_depth d
  · simp only [Query.rank]
    omega

/-- Wherever a token is resolved with enough steps left, dry runs on or off, it comes to what it is in
    the scene. -/
theorem ends_resolve (on : Bool) (r : Resolver) {depth : Nat} (enough : 2 * e.size + 1 ≤ depth) :
    (r.run (fun e' => { s with world := s.world.withDryRun on }.answer depth (.value e'))
      (s.world.withDryRun on) e).Ends (s.resolve r e) := by
  have agree := resolve_alike e (s.world.alike_withDryRun on) s.chain Event.not_mentions_false r enough
  exact agree.ends_answerOr (.unresolvedValue e.text)

/-- Where a reading is made with enough steps left, it comes to what it gives in the scene. -/
theorem ends_fetch {depth : Nat} (enough : 2 * e.size ≤ depth) :
    (s.answer depth (.fetch .topLevel e)).Ends (s.fetch e) := by
  rw [fetch]
  refine (s.answer_agree s.world.settings.dryRun (.fetch .topLevel e) ?_ enough).ends_answerOr _
  have := rank_le_depth e
  simp only [Query.rank]
  omega

end Scene

end MarketScript
