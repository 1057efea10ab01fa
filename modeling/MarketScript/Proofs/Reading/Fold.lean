import MarketScript.Proofs.Address
import MarketScript.Proofs.Decimal.Fold
import MarketScript.Proofs.Manifest.Names
import MarketScript.Proofs.Reading.Aliases

/-!
# Words in either case

Everything that a word is compared with is compared in small letters: truth values, the digits of
addresses and numbers, accounts and aliases, the paths of contracts and the keywords of readings.  So
two words that differ in the case of their letters mean the same, if they are none of the three
literals that are taken as they are written.
-/

namespace MarketScript

namespace Eval

variable {α β : Type} {x y : Eval α}

/-- Both readings come to the same answers; their errors may differ. -/
def SameAnswers (x y : Eval α) : Prop := ∀ a, x.Ends (.ok a) ↔ y.Ends (.ok a)

theorem sameAnswers_refl (x : Eval α) : x.SameAnswers x := fun _ => Iff.rfl

theorem SameAnswers.bind {f g : α → Eval β} (h : x.SameAnswers y)
    (rest : ∀ a, (f a).SameAnswers (g a)) : (x >>= f).SameAnswers (y >>= g) := by
  intro b
  rw [ends_bind, ends_bind]
  simp only [reduceCtorEq, and_false, exists_false, false_or]
  exact exists_congr fun a => and_congr (h a) (rest a b)

/-- An attempt whose failure is a failure again comes to what is attempted. -/
theorem sameAnswers_attempt {f : Except ScenarioError α → Eval α}
    (answer : ∀ a, f (.ok a) = pure a) (failure : ∀ e b, ¬ (f (.error e)).Ends (.ok b)) :
    (x.attempt >>= f).SameAnswers x := by
  intro a
  rw [ends_attempt_bind]
  constructor
  · rintro ⟨result, ended, rest⟩
    cases result with
    | error e => exact absurd rest (failure e a)
    | ok a' =>
      rw [answer, ends_pure] at rest
      cases rest
      exact ended
  · intro ended
    exact ⟨.ok a, ended, by rw [answer, ends_pure]⟩

theorem answerOr_toOption_eq_some {e : ScenarioError} {a : α} :
    (x.answerOr e).toOption = some a ↔ x.Ends (.ok a) := by
  unfold answerOr Ends
  cases x.run with
  | none => simp [Except.toOption]
  | some r => cases r <;> simp [Except.toOption]

theorem SameAnswers.toOption (h : x.SameAnswers y) (e e' : ScenarioError) :
    (x.answerOr e).toOption = (y.answerOr e').toOption := by
  apply Option.ext
  intro a
  rw [answerOr_toOption_eq_some, answerOr_toOption_eq_some, h a]

end Eval

/-- Two words that differ at most in the case of letters, and are none of the literals that are taken
    as they are written. -/
structure Recased (a b : String) : Prop where
  same : sameWord a b = true
  plain : ∀ literal ∈ ["Zero", "Max", "Nothing"], sameWord literal a = false

namespace Recased

variable {a b : String}

theorem folded (h : Recased a b) : foldCase a = foldCase b := sameWord_iff.mp h.same

theorem symm (h : Recased a b) : Recased b a := by
  refine ⟨by rw [sameWord_comm, h.same], fun literal member => ?_⟩
  rw [← h.plain literal member, sameWord, sameWord, h.folded]

theorem ne (h : Recased a b) {literal : String} (member : literal ∈ ["Zero", "Max", "Nothing"]) :
    a ≠ literal := by
  rintro rfl
  have apart := h.plain a member
  rw [sameWord_self] at apart
  cases apart

theorem sameWord_eq (h : Recased a b) (keyword : String) : sameWord a keyword = sameWord b keyword := by
  rw [sameWord, sameWord, h.folded]

/-! ## Literals and names -/

theorem address (h : Recased a b) : Address.ofString? a = Address.ofString? b := by
  rw [← Address.ofString?_foldCase a, h.folded, Address.ofString?_foldCase]

theorem decimal (h : Recased a b) : Decimal.ofString? a = Decimal.ofString? b := by
  rw [← Decimal.ofString?_foldCase a, h.folded, Decimal.ofString?_foldCase]

theorem literal (h : Recased a b) : Value.ofLiteral? a = Value.ofLiteral? b := by
  unfold Value.ofLiteral?
  rw [h.sameWord_eq, h.sameWord_eq, if_neg (h.ne (by decide)), if_neg (h.ne (by decide)),
    if_neg (h.ne (by decide)), if_neg (h.symm.ne (by decide)), if_neg (h.symm.ne (by decide)),
    if_neg (h.symm.ne (by decide)), h.address, Number.ofString?, Number.ofString?, h.decimal]

/-- The index is asked for a name in small letters. -/
theorem get? (h : Recased a b) (index : ContractIndex) (before after : List String) :
    index.get? (before ++ a :: after) = index.get? (before ++ b :: after) := by
  simp only [ContractIndex.get?, ContractIndex.foldPath, List.map_append, List.map_cons, h.folded]

variable (w : World)

theorem resolveWord? (h : Recased a b) : w.resolveWord? a = w.resolveWord? b := by
  have contract := h.get? w.index ["Contracts"] []
  have field := h.get? w.index [] ["address"]
  simp only [List.nil_append, List.cons_append] at contract field
  have found : (w.index.firstMatch [["Contracts", a], [a, "address"]]).toOption =
      (w.index.firstMatch [["Contracts", b], [b, "address"]]).toOption := by
    simp only [ContractIndex.firstMatch, List.findSome?_cons, List.findSome?_nil, contract, field]
    split <;> rfl
  rw [World.resolveWord?, World.resolveWord?, h.literal, World.lookupName?, World.lookupName?,
    w.namedAddress?_congr h.same, found]

/-! ## Readings without arguments -/

variable {η : Type} {value : Event → Eval Value}

theorem bears_iff (h : Recased a b) (d : Definition η) :
    d.Bears (.list [.word a]) ↔ d.Bears (.list [.word b]) := by
  have one (c : String) : d.Bears (.list [.word c]) ↔
      d.catchall = false ∧ d.keywordAt = 0 ∧ sameWord c d.name = true := by
    unfold Definition.Bears Event.items
    cases d.keywordAt <;> simp
  rw [one, one, h.sameWord_eq]

theorem candidates_eq (h : Recased a b) (definitions : List (Definition η)) :
    candidates definitions (.list [.word a]) = candidates definitions (.list [.word b]) := by
  refine List.filter_congr fun d _ => ?_
  rw [decide_eq_decide]
  exact h.bears_iff d

/-- Words mean the same as literals and names, in parentheses or not. -/
theorem literalOf (h : Recased a b) {e e' : Event} (isWord : e.unwrapSingle = .word a)
    (isWord' : e'.unwrapSingle = .word b) :
    (Eval.ofExcept (Resolver.literalOf w e)).SameAnswers (Eval.ofExcept (Resolver.literalOf w e')) := by
  intro v
  rw [Eval.ends_ofExcept, Eval.ends_ofExcept]
  unfold Resolver.literalOf
  rw [isWord, isWord']
  dsimp only
  rw [h.resolveWord? w]
  cases w.resolveWord? b <;> simp

/-- Nothing stands beside the keyword of a reading that is a word. -/
theorem tried_iff {resolve : Resolver → Event → Eval Value} {d : Definition η}
    (bears : d.Bears (.list [.word a])) {result : Except ScenarioError Args} :
    Tried resolve w (.list [.word a]) d result ↔ Tried resolve w (.list [.word b]) d result := by
  have first : d.keywordAt = 0 := by
    obtain ⟨-, w, here, -⟩ := bears
    cases place : d.keywordAt with
    | zero => rfl
    | succ n => simp [Event.items, place] at here
  rw [Tried, Tried, first]
  rfl

theorem resolveArgs_literal (h : Recased a b) {args : Args}
    (resolved : (resolveArgs (Resolver.run value w) w Reading.literalShape [.word a]).Ends (.ok args)) :
    (resolveArgs (Resolver.run value w) w Reading.literalShape [.word b]).Ends (.ok args) := by
  obtain ⟨valid, vs, inOrder, rfl⟩ := resolveArgs_ok.mp resolved
  obtain ⟨v, left, vs', given, others, rfl⟩ := resolveInOrder_cons.mp inOrder
  refine resolveArgs_ok.mpr ⟨valid, _, resolveInOrder_cons.mpr ⟨v, left, vs', ?_, others, rfl⟩, rfl⟩
  rw [resolveArg_variadic rfl rfl, if_neg (List.cons_ne_nil _ _)] at given ⊢
  exact ⟨(h.literalOf w rfl rfl v).mp given.1, given.2⟩

theorem select_ends (h : Recased a b) (table : FetchTable) {d : Reading.Shape} {args : Args}
    (ended : (select (Resolver.run value w) w table.shapes (.list [.word a])).Ends (.ok (d, args))) :
    (select (Resolver.run value w) w table.shapes (.list [.word b])).Ends (.ok (d, args)) := by
  have selected := select_ends_iff.mp ended
  refine select_ends_iff.mpr ?_
  generalize taken : Except.ok (d, args) = result at selected
  cases selected with
  | @fits before after d args split failed resolved =>
    have bears : ∀ other ∈ before ++ d :: after, other.Bears (.list [.word a]) := by
      intro other member
      rw [← split] at member
      exact (mem_candidates.mp member).2
    refine .fits (h.candidates_eq _ ▸ split) (fun other member => ?_) ?_
    · obtain ⟨error, tried⟩ := failed other member
      exact ⟨error, (tried_iff w (bears other (List.mem_append_left _ member))).mp tried⟩
    · exact (tried_iff w (bears d (by simp))).mp resolved
  | lone => cases taken
  | several => cases taken
  | @catchall d' result none first resolved =>
    cases result with
    | error => cases taken
    | ok args' =>
      have isCatchall : d'.catchall = true := by simpa using List.find?_some first
      have isLiteral := Reading.literal_of_catchall d' (List.mem_of_find?_eq_some first) isCatchall
      subst isLiteral
      exact .catchall (h.candidates_eq _ ▸ none) first (h.resolveArgs_literal w resolved)
  | unknown => cases taken

theorem select (h : Recased a b) (table : FetchTable) :
    (MarketScript.select (Resolver.run value w) w table.shapes (.list [.word a])).SameAnswers
      (MarketScript.select (Resolver.run value w) w table.shapes (.list [.word b])) :=
  fun _ => ⟨h.select_ends w table, h.symm.select_ends w table⟩

variable (s : Scene) (ask : Query → Eval Value)

theorem fetch (h : Recased a b) (table : FetchTable) :
    ((Query.fetch table (.list [.word a])).step ask s).SameAnswers
      ((Query.fetch table (.list [.word b])).step ask s) :=
  (h.select s.world table).bind fun _ => Eval.sameAnswers_refl _

/-- A word that is no literal and no name denotes what it gives as a reading. -/
theorem valueOf_reading {fetch : Event → Eval Value} (none : s.world.resolveWord? a = none) :
    (s.valueOf fetch (.word a)).SameAnswers (fetch (.list [.word a])) := by
  unfold Scene.valueOf
  rw [Event.unwrapSingle_word]
  dsimp only
  rw [none]
  refine Eval.sameAnswers_attempt (fun _ => rfl) fun e v failed => ?_
  split at failed <;> simp_all

theorem valueOf (h : Recased a b) {fetch : Event → Eval Value}
    (reading : (fetch (.list [.word a])).SameAnswers (fetch (.list [.word b]))) :
    (s.valueOf fetch (.word a)).SameAnswers (s.valueOf fetch (.word b)) := by
  cases means : s.world.resolveWord? a with
  | none =>
    intro v
    rw [valueOf_reading s means, reading v, valueOf_reading s (h.resolveWord? s.world ▸ means)]
  | some v =>
    have means' := h.resolveWord? s.world ▸ means
    unfold Scene.valueOf
    rw [Event.unwrapSingle_word, Event.unwrapSingle_word]
    dsimp only
    rw [means, means']
    exact Eval.sameAnswers_refl _

/-- A query about a word has the same answers in either case. -/
theorem answer (h : Recased a b) (depth : Nat) :
    (s.answer depth (.value (.word a))).SameAnswers (s.answer depth (.value (.word b))) := by
  cases depth with
  | zero => exact Eval.sameAnswers_refl _
  | succ depth =>
    show (s.valueOf (fun e => s.answer depth (.fetch .topLevel e)) (.word a)).SameAnswers _
    refine h.valueOf s ?_
    cases depth with
    | zero => exact Eval.sameAnswers_refl _
    | succ depth => exact h.fetch s (s.answer depth) .topLevel

/-! ## Where something is asked for -/

theorem decimalOf? (h : Recased a b) :
    Resolver.decimalOf? (.word a) = Resolver.decimalOf? (.word b) := h.decimal

theorem percentOf? (h : Recased a b) :
    Resolver.percentOf? (.word a) = Resolver.percentOf? (.word b) := by
  have last : (a.toList.getLast? == some '%') = (b.toList.getLast? == some '%') := by
    rw [← Decimal.isPercent_map_toLower, ← toList_foldCase, h.folded, toList_foldCase,
      Decimal.isPercent_map_toLower]
  unfold Resolver.percentOf?
  simp only [Event.unwrapSingle_word, Event.asWord?, Option.bind_eq_bind, Option.bind_some, last,
    h.decimal]

variable (read : (value (.word a)).SameAnswers (value (.word b)))

include read

theorem addressOf (h : Recased a b) :
    (Resolver.addressOf value w (.word a)).SameAnswers (Resolver.addressOf value w (.word b)) := by
  unfold Resolver.addressOf
  rw [Event.unwrapSingle_word, Event.unwrapSingle_word]
  dsimp only
  rw [if_neg (h.ne (by decide)), if_neg (h.symm.ne (by decide)), h.resolveWord? w]
  split
  · exact Eval.sameAnswers_refl _
  · exact read.bind fun _ => Eval.sameAnswers_refl _

theorem contractOf (h : Recased a b) (family : Family) :
    (Resolver.contractOf value w family (.word a)).SameAnswers
      (Resolver.contractOf value w family (.word b)) := by
  rw [Resolver.contractOf_eq, Resolver.contractOf_eq]
  refine Eval.SameAnswers.bind ?_ fun _ => Eval.sameAnswers_refl _
  unfold Resolver.addressFor
  simp only [Event.unwrapSingle_word, Event.asWord?, Option.bind_some]
  have indexed := h.get? w.index [family.shelf] ["address"]
  simp only [List.singleton_append] at indexed
  rw [indexed]
  split
  · exact Eval.sameAnswers_refl _
  · exact h.addressOf w read

theorem numberOf :
    (Resolver.numberOf value (.word a)).SameAnswers (Resolver.numberOf value (.word b)) :=
  read.bind fun _ => Eval.sameAnswers_refl _

theorem run (h : Recased a b) {r : Resolver} (named : r ≠ .string ∧ r ≠ .event) :
    (r.run value w (.word a)).SameAnswers (r.run value w (.word b)) := by
  obtain ⟨noText, noEvent⟩ := named
  cases r with
  | value => exact read
  | literal => exact h.literalOf w rfl rfl
  | event => exact absurd rfl noEvent
  | number => exact numberOf read
  | exp =>
    unfold Resolver.run
    dsimp only
    rw [h.decimalOf?]
    split
    · exact Eval.sameAnswers_refl _
    · exact numberOf read
  | percent =>
    unfold Resolver.run
    dsimp only
    rw [h.percentOf?]
    split
    · exact Eval.sameAnswers_refl _
    · exact numberOf read
  | string => exact absurd rfl noText
  | bool => exact read.bind fun _ => Eval.sameAnswers_refl _
  | address => exact (h.addressOf w read).bind fun _ => Eval.sameAnswers_refl _
  | market => exact h.contractOf w read .market
  | token => exact h.contractOf w read .token
  | rateModel => exact h.contractOf w read .rateModel

end Recased

/-- A word and the same word in other letters come to the same wherever a value, an address or a
    contract is asked for, or both to nothing.  Only where a text or an expression is asked for does
    the word stand for itself. -/
theorem Scene.words_ignore_case (s : Scene) {a b : String} (same : sameWord a b = true)
    (plain : ∀ literal ∈ ["Zero", "Max", "Nothing"], sameWord literal a = false) {r : Resolver}
    (named : r ≠ .string ∧ r ≠ .event) :
    (s.resolve r (.word a)).toOption = (s.resolve r (.word b)).toOption := by
  have h : Recased a b := ⟨same, plain⟩
  exact (h.run s.world (h.answer s (Event.word a).depth) named).toOption _ _

/-- The name of a contract, a reading and a number, in capital letters. -/
theorem Scene.shouted_words :
    let s : Scene := ⟨World.withOracle, {}⟩
    (s.resolve .address (.word "ORACLE")).toOption = some (.address ⟨7⟩) ∧
      (s.resolve .value (.word "NETWORK")).toOption = some (.string "development") ∧
      (s.resolve .value (.word "0XFF")).toOption = some (.number (.ofInt 255)) := by
  intro s
  refine ⟨?_, ?_, ?_⟩
  · rw [s.words_ignore_case (b := "oracle") (by decide) (by decide) (by decide)]
    rfl
  · rw [s.words_ignore_case (b := "network") (by decide) (by decide) (by decide)]
    rfl
  · rw [s.words_ignore_case (b := "0xff") (by decide) (by decide) (by decide)]
    rfl

end MarketScript
