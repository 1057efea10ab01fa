import MarketScript.Proofs.Command.Totality

/-!
# How deep activations nest

To answer a query others have to be answered, and to carry out a command queries have to be
answered and commands to be carried out.  What stands within an activation is lower than it, though
it need not be about a smaller event, so the height of an activation bounds how many stand within
each other.
-/

namespace MarketScript

/-! ## Single steps -/

/-- Something to tell what queries and commands come to. -/
structure Oracle where
  answer : Scene → Query → Eval Value
  carryOut : World → Address → CommandTable → Event → Act World

/-- What queries and commands come to with at most the given number of them within each other. -/
def Oracle.limited (depth : Nat) : Oracle where
  answer s := s.answer depth
  carryOut := World.carryOut depth

/-- Carries out an event as a command of a table; an oracle tells what the queries and the commands
    within it come to. -/
def World.carryOutBy (o : Oracle) (w : World) (sender : Address) (table : CommandTable)
    (e : Event) : Act World := do
  let scene : Scene := { world := w, chain := (← get).chain }
  dispatchCommand (Resolver.run (fun e => o.answer scene (.value e)) w) w
    (fun c args => c.perform o.carryOut w sender args) table.shapes e

/-- A query that is answered in a scene, or an event that is carried out as a command on a stage. -/
inductive Activation where
  | query (s : Scene) (q : Query)
  | command (w : World) (sender : Address) (table : CommandTable) (e : Event) (stage : Stage)

namespace Activation

/-- What the activation is about. -/
def event : Activation → Event
  | query _ q => q.event
  | command _ _ _ e _ => e

/-- The oracle tells what the activation comes to. -/
def Known (o : Oracle) : Activation → Prop
  | query s q => (o.answer s q).Total
  | command w sender table e stage =>
    ∃ result after, (o.carryOut w sender table e).Ends stage result after

/-- The activation comes to something with what the oracle tells of others. -/
def Settled (o : Oracle) : Activation → Prop
  | query s q => (q.step (o.answer s) s).Total
  | command w sender table e stage =>
    ∃ result after, (w.carryOutBy o sender table e).Ends stage result after

/-- A limit counts the activations within each other: it must not be zero, and for what stands
    within an activation there is one less. -/
theorem known_limited_iff (a : Activation) (depth : Nat) :
    a.Known (.limited depth) ↔ ∃ less, depth = less + 1 ∧ a.Settled (.limited less) := by
  cases depth with
  | zero =>
    refine iff_of_false ?_ (by simp)
    cases a with
    | query s q =>
      rintro ⟨_, impossible⟩
      cases impossible
    | command w sender table e stage =>
      rintro ⟨_, _, impossible⟩
      cases impossible
  | succ depth =>
    have step : a.Known (.limited (depth + 1)) ↔ a.Settled (.limited depth) := by
      cases a <;> exact Iff.rfl
    rw [step]
    simp

end Activation

/-- What the oracle tells is what queries and commands come to. -/
structure Oracle.Truthful (o : Oracle) : Prop where
  answer : ∀ s q result, (o.answer s q).Ends result → (s.answer q.event.depth q).Ends result
  carryOut : ∀ (w : World) sender table e before result after,
    (o.carryOut w sender table e).Ends before result after →
      (w.carryOut e.depth sender table e).Ends before result after

/-- One activation starts another within it: without being told what the other comes to, the one
    comes to nothing, whatever is told of the rest. -/
def Activation.Starts (a b : Activation) : Prop :=
  ∀ o : Oracle, o.Truthful → a.Settled o → b.Known o

/-! ## Heights -/

namespace Query

/-- How many activations there can be from a query inwards.  The reading that a bare word is taken
    for is about a larger event than the word, but has nothing beside its keyword to ask for. -/
def height : Query → Nat
  | value e => 2 * e.size + 1
  | fetch _ (.list [.word _]) => 1
  | fetch _ e => 2 * e.size

theorem height_fetch {table : FetchTable} {e : Event} (h : ∀ w, e ≠ .list [.word w]) :
    (fetch table e).height = 2 * e.size := by
  unfold height
  split
  · rename_i same
    cases same
  · rename_i w same
    cases same
    exact absurd rfl (h w)
  · rename_i same
    cases same
    rfl

theorem height_fetch_le (table : FetchTable) (e : Event) : (fetch table e).height ≤ 2 * e.size := by
  by_cases h : ∃ w, e = .list [.word w]
  · obtain ⟨w, rfl⟩ := h
    simp [height]
  · push Not at h
    rw [height_fetch h]

theorem height_le (q : Query) : q.height ≤ 2 * q.event.size + 1 := by
  cases q with
  | value e => exact Nat.le_refl _
  | fetch table e => exact Nat.le_succ_of_le (height_fetch_le table e)

theorem height_pos (q : Query) : 0 < q.height := by
  have positive := q.event.size_pos
  unfold height
  split <;> simp_all [event]

/-- What a reading asks for is lower than the reading. -/
theorem Below.height_lt {q : Query} {e : Event} (below : q.Below e) (table : FetchTable) :
    q.height < (fetch table e).height := by
  have smaller : q.event.size < e.size := below.size_lt
  have upper := q.height_le
  have high : (fetch table e).height = 2 * e.size := by
    apply height_fetch
    rintro w rfl
    exact not_below_word below
  omega

theorem rank_le_depth (q : Query) : q.rank ≤ q.event.depth := by
  unfold Event.depth
  cases q <;> simp only [rank, event] <;> omega

end Query

namespace Activation

/-- How many activations there can be from this one inwards. -/
def height : Activation → Nat
  | query _ q => q.height
  | command _ _ table e _ => table.rank e

theorem height_pos (a : Activation) : 0 < a.height := by
  cases a with
  | query s q => exact q.height_pos
  | command w sender table e stage =>
    exact Nat.lt_of_lt_of_le (Nat.succ_pos _) (table.le_rank e)

theorem height_le_depth (a : Activation) : a.height ≤ a.event.depth := by
  cases a with
  | query s q =>
    have upper := q.height_le
    have enough := Scene.rank_le_depth q.event
    exact Nat.le_trans upper enough
  | command w sender table e stage => exact table.rank_le_depth e

end Activation

/-! ## Descent -/

/-- Tells of what is lower than the given height, and of nothing else. -/
def Oracle.below (height : Nat) : Oracle where
  answer s q := if q.height < height then s.answer q.event.depth q else Eval.exhausted
  carryOut w sender table e :=
    if table.rank e < height then w.carryOut e.depth sender table e else Act.exhausted

namespace Oracle

theorem truthful_below (height : Nat) : (below height).Truthful where
  answer := by
    intro s q result told
    unfold below at told
    dsimp only at told
    split at told
    · exact told
    · cases told
  carryOut := by
    intro w sender table e before result after told
    unfold below at told
    dsimp only at told
    split at told
    · exact told
    · cases told

theorem known_below_iff {a : Activation} {height : Nat} :
    a.Known (below height) ↔ a.height < height := by
  cases a with
  | query s q =>
    simp only [Activation.Known, Activation.height, below]
    split
    · rename_i low
      have agree := s.answer_agree s.world.settings.dryRun q q.rank_le_depth q.rank_le_depth
      exact iff_of_true agree.total low
    · rename_i high
      refine iff_of_false ?_ high
      rintro ⟨_, impossible⟩
      cases impossible
  | command w sender table e stage =>
    simp only [Activation.Known, Activation.height, below]
    split
    · rename_i low
      obtain ⟨result, after, ends⟩ := w.carryOut_ends sender table e stage
      exact iff_of_true ⟨result, after, ends _ (table.rank_le_depth e)⟩ low
    · rename_i high
      refine iff_of_false ?_ high
      rintro ⟨_, _, impossible⟩
      cases impossible

variable {o : Oracle} (truthful : o.Truthful)

include truthful

/-- What is told of a query is an answer or an error that no failed invokation is behind. -/
theorem Truthful.agree {s : Scene} {q : Query} (known : (o.answer s q).Total) :
    (o.answer s q).Agree ScenarioError.Plain (o.answer s q) := by
  obtain ⟨result, told⟩ := known
  have agree := s.answer_agree s.world.settings.dryRun q q.rank_le_depth q.rank_le_depth
  refine ⟨result, told, told, ?_⟩
  rintro error rfl
  exact agree.error (truthful.answer _ _ _ told)

theorem Truthful.step_total {s : Scene} {q : Query}
    (lower : ∀ q' : Query, q'.height < q.height → (o.answer s q').Total) :
    (q.step (o.answer s) s).Total := by
  have alike := s.world.alike_withDryRun s.world.settings.dryRun
  have agree (q' : Query) (low : q'.height < q.height) := truthful.agree (lower q' low)
  cases q with
  | fetch table e =>
    exact (Query.fetch_alike alike Event.not_mentions_false
      fun q' below _ => agree q' (below.height_lt table)).total
  | value e =>
    have positive := e.size_pos
    refine (Query.value_alike alike Event.not_mentions_false (fun word _ => agree _ ?_)
      (agree _ ?_)).total
    · simp only [Query.height]
      omega
    · have unwrapped := e.size_unwrapSingle_le
      have upper := Query.height_fetch_le .topLevel e.unwrapSingle
      simp only [Query.height] at upper ⊢
      omega

theorem Truthful.carryOutBy_total {w : World} {sender : Address} {table : CommandTable} {e : Event}
    (values : ∀ s (d : Event), 2 * d.size + 1 < table.rank e → (o.answer s (.value d)).Total)
    (commands : ∀ w sender (inner : CommandTable) event, inner.rank event < table.rank e →
      (o.carryOut w sender inner event).Total) :
    (w.carryOutBy o sender table e).Total := by
  refine Act.total_get.bind fun stage => ?_
  dsimp only
  have selects : (select (Resolver.run (fun e => o.answer ⟨w, stage.chain⟩ (.value e)) w) w
      table.shapes e).Total :=
    (select_below_agree fun d small => truthful.agree (values _ d small)).total
  refine Act.total_read selects fun taken selected => ?_
  obtain ⟨d, args⟩ := taken
  dsimp only
  split
  · exact World.total_addAction _
  · refine Command.total_perform d.handler fun inner name carries event told w sender => ?_
    exact commands w sender inner event (rank_inner_lt selected carries told)

/-- An activation comes to something if everything that is lower is known. -/
theorem Truthful.settled {a : Activation}
    (lower : ∀ b : Activation, b.height < a.height → b.Known o) : a.Settled o := by
  cases a with
  | query s q => exact truthful.step_total fun q' low => lower (.query s q') low
  | command w sender table e stage =>
    refine truthful.carryOutBy_total (fun s d low => lower (.query s (.value d)) low) ?_ stage
    exact fun w sender inner event low stage => lower (.command w sender inner event stage) low

end Oracle

namespace Activation

/-- What an activation starts is lower. -/
theorem Starts.height_lt {a b : Activation} (starts : a.Starts b) : b.height < a.height := by
  have truthful := Oracle.truthful_below a.height
  have settled : a.Settled (.below a.height) :=
    truthful.settled fun _ low => Oracle.known_below_iff.mpr low
  exact Oracle.known_below_iff.mp (starts _ truthful settled)

/-- Activations within each other are no more than the height of the outermost. -/
theorem length_le_height {a : Activation} {nest : List Activation}
    (within : (a :: nest).IsChain Starts) : (a :: nest).length ≤ a.height := by
  induction nest generalizing a with
  | nil => exact a.height_pos
  | cons b nest ih =>
    obtain ⟨starts, within⟩ := List.isChain_cons_cons.mp within
    exact Nat.lt_of_le_of_lt (ih within) starts.height_lt

end Activation

/-- Whatever a world holds, looking up an event and carrying it out as a command of any table end.
    With four times as many activations within each other as the event has words, quoted texts and
    lists, and four more, they come to what they come to with any larger limit.  Nor do more than
    that ever stand within each other where there is no limit. -/
theorem World.nesting_bounded (e : Event) :
    (∀ (s : Scene) depth, 4 * e.size + 4 ≤ depth →
      (s.answer depth (.value e)).Ends (s.resolve .value e)) ∧
    (∀ (w : World) sender table stage, ∃ result after, ∀ depth, 4 * e.size + 4 ≤ depth →
      (w.carryOut depth sender table e).Ends stage result after) ∧
    (∀ (w : World) sender stage depth, 4 * e.size + 4 ≤ depth →
      (w.carryOut depth sender .topLevel e).Ends stage (w.command sender e stage).1
        (w.command sender e stage).2) ∧
    ∀ a : Activation, a.event = e →
      (∀ depth, a.Known (.limited depth) ↔
        ∃ less, depth = less + 1 ∧ a.Settled (.limited less)) ∧
      ∀ nest, (a :: nest).IsChain Activation.Starts → (a :: nest).length ≤ 4 * e.size + 4 := by
  have values : 2 * e.size + 1 ≤ 4 * e.size + 4 := Scene.rank_le_depth e
  have commands (table : CommandTable) : table.rank e ≤ 4 * e.size + 4 := table.rank_le_depth e
  refine ⟨?_, ?_, ?_, ?_⟩
  · intro s depth enough
    exact s.ends_resolve e s.world.settings.dryRun .value (Nat.le_trans values enough)
  · intro w sender table stage
    obtain ⟨result, after, ends⟩ := w.carryOut_ends sender table e stage
    exact ⟨result, after, fun depth enough => ends depth (Nat.le_trans (commands table) enough)⟩
  · intro w sender stage depth enough
    exact w.command_ends sender e stage (Nat.le_trans (commands .topLevel) enough)
  · rintro a rfl
    refine ⟨a.known_limited_iff, fun nest within => ?_⟩
    exact Nat.le_trans (Activation.length_le_height within) a.height_le_depth

section DryAssertion

open Activation

def geoffOnly : World := { runId := "", accounts := [⟨"Geoff", ⟨1⟩⟩] }

def networkEqual : Event := .list [.word "Equal", .word "Network", .quoted "development"]

/-- Geoff's assertion about a bare word that is taken for a reading. -/
def geoffAsserts : Event :=
  .list [.word "From", .word "Geoff",
    .list [.word "Assert", .word "Equal", .word "Network", .quoted "development"]]

/-- The same in a dry run, sent by another account on an empty chain. -/
def dryAssertion : Activation :=
  command geoffOnly ⟨2⟩ .topLevel (.list [.word "DryRun", geoffAsserts]) { chain := {} }

/-- What stands within each other inside of the dry run. -/
def dryAssertionNest : List Activation :=
  let w := geoffOnly.withDryRun true
  let stage : Stage := { chain := {} }
  [command w ⟨2⟩ .topLevel geoffAsserts stage,
    command w ⟨1⟩ .topLevel
      (.list [.word "Assert", .word "Equal", .word "Network", .quoted "development"]) stage,
    command w ⟨1⟩ .assertions networkEqual stage,
    query ⟨w, stage.chain⟩ (.value (.word "Network")),
    query ⟨w, stage.chain⟩ (.fetch .topLevel (.list [.word "Network"]))]

/-- The assertion starts to look up what it compares. -/
theorem networkEqual_starts_value (w : World) (sender : Address) (stage : Stage) :
    (command w sender .assertions networkEqual stage).Starts
      (query ⟨w, stage.chain⟩ (.value (.word "Network"))) := by
  rintro o - ⟨result, after, ends⟩
  by_contra unknown
  have untold : o.answer ⟨w, stage.chain⟩ (.value (.word "Network")) = Eval.exhausted := by
    by_contra told
    obtain ⟨result, told⟩ := Option.ne_none_iff_exists'.mp told
    exact unknown ⟨result, told⟩
  have stuck : (w.carryOutBy o sender .assertions networkEqual).run.run stage = none := by
    show (dispatchCommand (Resolver.run (fun e => o.answer ⟨w, stage.chain⟩ (.value e)) w) w
      (fun (c : Command) args => c.perform o.carryOut w sender args) _ _).run.run stage = none
    generalize found : (fun e => o.answer ⟨w, stage.chain⟩ (.value e)) = value
    -- said of the function, that there is no answer can be computed with
    have missing : value = fun e => if e = .word "Network" then Eval.exhausted else value e := by
      funext e
      split
      · rename_i isWord
        rw [isWord, ← found]
        exact untold
      · rfl
    rw [missing]
    rfl
  cases stuck.symm.trans ends

theorem dryAssertion_starts : (dryAssertion :: dryAssertionNest).IsChain Starts := by
  unfold dryAssertionNest
  simp only [List.isChain_cons_cons]
  refine ⟨?_, ?_, ?_, networkEqual_starts_value _ _ _, ?_, .singleton _⟩
  -- the dry run carries out what is sent, and switches dry runs back
  · rintro o - ⟨result, after, ends⟩
    have within : (do
        return (← o.carryOut (geoffOnly.withDryRun true) ⟨2⟩ .topLevel geoffAsserts).withDryRun
          false : Act World).Ends { chain := {} } result after := ends
    obtain ⟨result, ended, -⟩ := Act.ends_bind_pure.mp within
    exact ⟨result, after, ended⟩
  · rintro o - ⟨result, after, ends⟩
    exact ⟨result, after, ends⟩
  · rintro o - ⟨result, after, ends⟩
    exact ⟨result, after, ends⟩
  -- the word is no name, so it is tried as a reading
  · rintro o - ⟨result, ended⟩
    obtain ⟨result, told, -⟩ := Eval.ends_attempt_bind.mp ended
    exact ⟨result, told⟩

/-- Six activations stand within each other where forty-four could, and with this limit the dry run
    comes to something. -/
theorem dryAssertion_nested :
    4 * dryAssertion.event.size + 4 = 44 ∧
    (Scene.answer ⟨geoffOnly, {}⟩ 44 (.value dryAssertion.event)).Ends
      (Scene.resolve ⟨geoffOnly, {}⟩ .value dryAssertion.event) ∧
    dryAssertion.Known (.limited 44) ∧
    (geoffOnly.carryOut 44 ⟨2⟩ .topLevel dryAssertion.event).Ends { chain := {} }
      (geoffOnly.command ⟨2⟩ dryAssertion.event { chain := {} }).1
      (geoffOnly.command ⟨2⟩ dryAssertion.event { chain := {} }).2 ∧
    (dryAssertion :: dryAssertionNest).IsChain Starts ∧
    (dryAssertion :: dryAssertionNest).length = 6 ∧
    (dryAssertion :: dryAssertionNest).length ≤ 44 := by
  obtain ⟨values, tables, commands, nests⟩ := World.nesting_bounded dryAssertion.event
  obtain ⟨result, after, ends⟩ := tables geoffOnly ⟨2⟩ .topLevel { chain := {} }
  refine ⟨rfl, values _ 44 (Nat.le_refl _), ⟨result, after, ends 44 (Nat.le_refl _)⟩,
    commands _ _ _ 44 (Nat.le_refl _), dryAssertion_starts, rfl, ?_⟩
  exact (nests dryAssertion rfl).2 _ dryAssertion_starts

end DryAssertion

end MarketScript
