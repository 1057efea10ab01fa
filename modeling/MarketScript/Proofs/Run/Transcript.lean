import MarketScript.Proofs.Run.Course

/-!
# Transcripts

Commands say what they do while they do it, before it is known whether they succeed.  All the same a
transcript tells exactly what came of each statement: the action that it put into the log, or the
error that it failed with.
-/

namespace MarketScript

/-- What is said when a deed is done and has put an action into the log: the description of the
    action, and before it the world if the deed is to inspect it. -/
def Deed.lines (d : Deed) (a : Action) : List Line :=
  match d.task with
  | .command .inspect _ => [.note d.world.toJson.print, .note a.description]
  | _ => [.note a.description]

theorem Deed.lines_eq (d : Deed) (a : Action) :
    d.lines a = d.task.preface d.world ++ [.note a.description] := by
  obtain ⟨task, w, sender⟩ := d
  cases task with
  | skip e => rfl
  | command c args => cases c <;> rfl

/-- What a statement came to in a run. -/
inductive Turn where
  | done (s : Statement) (d : Deed) (a : Action)
  | failed (s : Statement) (e : ScenarioError)

namespace Turn

def statement : Turn → Statement
  | done s _ _ => s
  | failed s _ => s

def action? : Turn → Option Action
  | done _ _ a => some a
  | failed _ _ => none

def failure? : Turn → Option StatementFailure
  | done _ _ _ => none
  | failed s e => some { line := s.line, event := s.event, error := e }

/-- What a transcript tells of a statement. -/
def lines : Turn → List Line
  | done _ d a => d.lines a
  | failed s e => [.complaint s!"line {s.line}: {e.message}"]

end Turn

namespace World

variable {w w' : World} {s : Statement} {stage stage' : Stage} {turns : List Turn}

/-- What came of the statements of a run, each of them carried out where the one before it has led
    to. -/
inductive Course : World → Stage → List Turn → World → Stage → Prop
  | nil (w : World) (stage : Stage) : Course w stage [] w stage
  | done {w middle w' : World} {stage next stage' : Stage} {s : Statement} {d : Deed} {a : Action}
      {turns : List Turn} (ran : w.runStatement s stage = (.ok middle, next))
      (deed : w.deedOf? s stage = some d) (within : d.Within w)
      (logged : middle.actions = w.actions ++ [a]) (rest : Course middle next turns w' stage') :
      Course w stage (.done s d a :: turns) w' stage'
  | failed {w w' : World} {stage next stage' : Stage} {s : Statement} {e : ScenarioError}
      {turns : List Turn} (ran : w.runStatement s stage = (.error e, next))
      (rest : Course w (complain s e next) turns w' stage') :
      Course w stage (.failed s e :: turns) w' stage'

/-- A statement that was carried out has put one action into the log and has said what belongs to
    it. -/
theorem runStatement_said (done : w.runStatement s stage = (.ok w', stage')) :
    ∃ d a, w.deedOf? s stage = some d ∧ d.Within w ∧ w'.actions = w.actions ++ [a] ∧
      stage'.transcript = stage.transcript ++ d.lines a := by
  obtain ⟨d, i, u, v, found, within, effect, ⟨description, rfl, said⟩, rfl⟩ := runStatement_done done
  obtain ⟨on, same⟩ := within.2
  have actions : u.actions = w.actions := by
    rw [effect.actions, same]
    rfl
  refine ⟨d, _, found, within, congrArg (· ++ [_]) actions, ?_⟩
  rw [said, Deed.lines_eq, List.append_assoc]

/-- A transcript tells the course of a run, and nothing else. -/
theorem Course.transcript (course : Course w stage turns w' stage') :
    stage'.transcript = stage.transcript ++ turns.flatMap Turn.lines := by
  induction course with
  | nil => exact (List.append_nil _).symm
  | done ran deed _ logged _ ih =>
    obtain ⟨d, a, found, -, actions, said⟩ := runStatement_said ran
    cases deed.symm.trans found
    cases List.append_cancel_left (logged.symm.trans actions)
    rw [ih, said, List.flatMap_cons, List.append_assoc]
    rfl
  | @failed _ _ _ next _ s e _ ran _ ih =>
    obtain ⟨_, givenUp⟩ := runStatement_failed ran
    have silent := givenUp.silent
    rw [ih, List.flatMap_cons, ← List.append_assoc, ← silent]
    rfl

theorem Course.actions (course : Course w stage turns w' stage') :
    w'.actions = w.actions ++ turns.filterMap Turn.action? := by
  induction course with
  | nil => exact (List.append_nil _).symm
  | done _ _ _ logged _ ih =>
    rw [ih, logged, List.append_assoc]
    rfl
  | failed _ _ ih => exact ih

/-- The statements that have had their turn: all of them, unless one has failed where the run does
    not go on after a failure; then that was the last turn. -/
structure Taken (goOn : Bool) (ss : List Statement) (turns : List Turn) : Prop where
  along : turns.map Turn.statement <+: ss
  stops : goOn = false → ∀ t ∈ turns.dropLast, t.failure? = none
  goes : goOn = true ∨ (∀ t ∈ turns, t.failure? = none) → turns.map Turn.statement = ss

theorem Taken.done {goOn : Bool} {ss : List Statement} (h : Taken goOn ss turns) (d : Deed)
    (a : Action) : Taken goOn (s :: ss) (.done s d a :: turns) where
  along := (List.prefix_cons_inj s).mpr h.along
  stops := by
    intro stop t member
    cases turns with
    | nil => cases member
    | cons u turns =>
      rw [List.dropLast_cons_cons] at member
      rcases List.mem_cons.mp member with rfl | member
      · rfl
      · exact h.stops stop t member
  goes := by
    intro free
    have rest := h.goes (free.imp_right fun all => (List.forall_mem_cons.mp all).2)
    exact congrArg (s :: ·) rest

theorem Taken.failed {ss : List Statement} (h : Taken true ss turns) (e : ScenarioError) :
    Taken true (s :: ss) (.failed s e :: turns) where
  along := (List.prefix_cons_inj s).mpr h.along
  stops := fun impossible => nomatch impossible
  goes := fun _ => congrArg (s :: ·) (h.goes (.inl rfl))

theorem taken_nil (goOn : Bool) : Taken goOn [] [] where
  along := List.nil_prefix
  stops := fun _ _ none => absurd none List.not_mem_nil
  goes := fun _ => rfl

theorem taken_stopped (ss : List Statement) (e : ScenarioError) :
    Taken false (s :: ss) [.failed s e] where
  along := (List.prefix_cons_inj s).mpr List.nil_prefix
  stops := fun _ _ none => absurd none List.not_mem_nil
  goes := by
    rintro (impossible | free)
    · cases impossible
    · cases free _ List.mem_cons_self

/-- Every run has a course. -/
theorem exists_course (goOn : Bool) (ss : List Statement) (w : World) (stage : Stage) :
    ∃ turns, Course w stage turns (run goOn ss w stage).1.world (run goOn ss w stage).2 ∧
      Taken goOn ss turns ∧
      (run goOn ss w stage).1.failures = turns.filterMap Turn.failure? := by
  induction ss generalizing w stage with
  | nil => exact ⟨[], .nil w stage, taken_nil goOn, rfl⟩
  | cons s ss ih =>
    cases ended : w.runStatement s stage with
    | mk result next =>
      cases result with
      | ok middle =>
        obtain ⟨d, a, found, within, logged, -⟩ := runStatement_said ended
        obtain ⟨turns, course, taken, failures⟩ := ih middle next
        rw [run_done ended]
        exact ⟨.done s d a :: turns, .done ended found within logged course, taken.done d a,
          failures⟩
      | error e =>
        cases goOn with
        | false =>
          rw [run_failed_stop ended]
          exact ⟨[.failed s e], .failed ended (.nil w _), taken_stopped ss e, rfl⟩
        | true =>
          obtain ⟨turns, course, taken, failures⟩ := ih w (complain s e next)
          rw [run_failed_goOn ended]
          exact ⟨.failed s e :: turns, .failed ended course, taken.failed e,
            congrArg (_ :: ·) failures⟩

/-- A transcript is faithful.  A run takes its statements one after the other: all of them, or up to
    the first that fails if it does not go on after a failure.  To the transcript it adds, for each
    that is carried out, the description of the one action that this puts into the log, after the
    world if the command is to inspect it, and for each that fails its line and its error; it adds
    nothing else.  The failures of the report are those of the statements that failed, and the log
    is the earlier one with the action of each that was carried out. -/
theorem transcript_faithful (goOn : Bool) (ss : List Statement) (w : World) (stage : Stage) :
    ∃ turns, Course w stage turns (run goOn ss w stage).1.world (run goOn ss w stage).2 ∧
      turns.map Turn.statement <+: ss ∧
      (goOn = false → ∀ t ∈ turns.dropLast, t.failure? = none) ∧
      (goOn = true ∨ (∀ t ∈ turns, t.failure? = none) → turns.map Turn.statement = ss) ∧
      (run goOn ss w stage).2.transcript = stage.transcript ++ turns.flatMap Turn.lines ∧
      (run goOn ss w stage).1.failures = turns.filterMap Turn.failure? ∧
      (run goOn ss w stage).1.world.actions = w.actions ++ turns.filterMap Turn.action? := by
  obtain ⟨turns, course, taken, failures⟩ := exists_course goOn ss w stage
  exact ⟨turns, course, taken.along, taken.stops, taken.goes, course.transcript, failures,
    course.actions⟩

end World

end MarketScript
