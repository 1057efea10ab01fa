import MarketScript.Proofs.Index.Coherence
import MarketScript.Proofs.Run.Names

/-!
# The index of a run

The index of a world is made of the registrations of its run and of nothing else.  So its data and
the fields below agree unless a name was given again with fewer fields than it had before.
-/

namespace MarketScript

namespace Command

theorem fields_of_registration {c : Command} {args : Args} {after : World} {r : Registration}
    (registered : c.registration? args after = some r) : r.fields ∈ fieldSets := by
  obtain ⟨b, -, rfl⟩ := Option.map_eq_some_iff.mp registered
  exact fieldNames_mem c

end Command

namespace ContractIndex

/-- The index is made of some registrations. -/
def Holds (index : ContractIndex) (rs : List Registration) : Prop :=
  ∃ fs : List Filing, (∀ f ∈ fs, f.Proper) ∧ fs.map (·.registration) = rs ∧ index = ofFilings fs

theorem holds_nothing : Holds {} [] := ⟨[], by simp, rfl, rfl⟩

variable {index : ContractIndex} {rs : List Registration}

theorem Holds.coherent_iff (h : index.Holds rs) : index.Coherent ↔ Registration.Covered rs := by
  obtain ⟨fs, proper, rfl, rfl⟩ := h
  exact coherent_ofFilings_iff proper

theorem Holds.field_of_data (h : index.Holds rs) {path : List String}
    {fields : List (String × Value)} (found : index.get? path = some (.map fields)) {name : String}
    {value : Value} (field : (Value.map fields).field? name = some value) :
    index.get? (path ++ [name]) = some value := by
  obtain ⟨fs, proper, -, rfl⟩ := h
  exact ContractIndex.field_of_data proper found field

theorem Holds.file (h : index.Holds rs) {f : Filing} (proper : f.Proper) :
    (index.file f).Holds (rs ++ [f.registration]) := by
  obtain ⟨fs, others, rfl, rfl⟩ := h
  refine ⟨fs ++ [f], ?_, by simp, ?_⟩
  · rw [List.forall_mem_append]
    exact ⟨others, by simpa using proper⟩
  · rw [ofFilings, ofFilings, List.foldl_concat]

end ContractIndex

namespace World

variable {w w' : World} {s : Statement} {stage stage' : Stage} {rs : List Registration}

theorem index_register (w : World) (f : Filing) :
    (w.register f.handle (f.family.paths f.handle.name)
      (f.handle.data f.description f.fields)).index = w.index.file f := rfl

/-- What is registered is put into the index. -/
theorem Entered.holds {r : Option Registration} (h : w.Entered r w') (held : w.index.Holds rs)
    (known : ∀ r', r = some r' → r'.fields ∈ Command.fieldSets) :
    w'.index.Holds (rs ++ r.toList) := by
  cases h with
  | nothing contracts index =>
    rw [index, Option.toList_none, List.append_nil]
    exact held
  | @contract _ r kind description fields names plain contracts index =>
    let f : Filing := ⟨r.family, ⟨r.name, kind, r.address⟩, description, fields⟩
    have same : f.registration = r := by
      rw [Filing.registration, names]
    have filed : (w.index.file f).Holds (rs ++ [f.registration]) :=
      held.file ⟨names ▸ known r rfl, plain⟩
    have made : w'.index = w.index.file f := index.trans (index_register w f)
    rw [made, ← same]
    exact filed

/-- The registration that a statement has made, seen from the world after it. -/
def registrationOf? (w : World) (s : Statement) (stage : Stage) (after : World) :
    Option Registration :=
  (w.deedOf? s stage).bind (·.task.registration? after)

/-- The registrations that the statements of a run make, in their order. -/
def registrations (goOn : Bool) : List Statement → World → Stage → List Registration
  | [], _, _ => []
  | s :: rest, w, stage =>
    match w.runStatement s stage with
    | (.ok after, stage') =>
      (w.registrationOf? s stage after).toList ++ registrations goOn rest after stage'
    | (.error error, stage') =>
      if goOn then registrations goOn rest w (complain s error stage') else []

/-- A statement that succeeds registers what the world after it shows. -/
theorem entered_statement (done : w.runStatement s stage = (.ok w', stage')) :
    w.Entered (w.registrationOf? s stage w') w' ∧
      ∀ r, w.registrationOf? s stage w' = some r → r.fields ∈ Command.fieldSets := by
  rcases runStatement_cases done with ⟨_, -, impossible, -⟩ | ⟨d, r, found, ⟨sound, on, same⟩, acted, result⟩
  · cases impossible
  cases r with
  | error error => cases result
  | ok v =>
    cases result
    have entered := (Deed.yields_act sound _ _ _ acted).entered
    rw [same] at entered
    have kept := entered.withDryRun w.settings.dryRun
    rw [registrationOf?, found, Option.bind_some, Task.registration?_withDryRun]
    refine ⟨kept, fun r registered => ?_⟩
    obtain ⟨c, args, -, -, byCommand⟩ := Task.deploys_of_registration registered
    exact Command.fields_of_registration byCommand

theorem holds_statement (held : w.index.Holds rs)
    (done : w.runStatement s stage = (.ok w', stage')) :
    w'.index.Holds (rs ++ (w.registrationOf? s stage w').toList) := by
  obtain ⟨entered, fields⟩ := entered_statement done
  exact entered.holds held fields

/-- The index after a run is made of what was in it and the registrations of the run. -/
theorem holds_run (goOn : Bool) (ss : List Statement) :
    ∀ {w : World} {stage : Stage} {rs : List Registration}, w.index.Holds rs →
      (run goOn ss w stage).1.world.index.Holds (rs ++ registrations goOn ss w stage) := by
  induction ss with
  | nil =>
    intro w stage rs held
    rw [registrations, List.append_nil]
    exact held
  | cons s ss ih =>
    intro w stage rs held
    cases ended : w.runStatement s stage with
    | mk result middle =>
      cases result with
      | ok after =>
        rw [run_done ended]
        simp only [registrations, ended]
        rw [← List.append_assoc]
        exact ih (holds_statement held ended)
      | error e =>
        cases goOn with
        | false =>
          rw [run_failed_stop ended]
          simp only [registrations, ended, Bool.false_eq_true, if_false, List.append_nil]
          exact held
        | true =>
          rw [run_failed_goOn ended]
          simp only [registrations, ended, if_true]
          exact ih held

/-- In the index after any run from a fresh world the fields of data stand one step below it, and
    nothing else does exactly if no registration had a field that the last one at its path has
    not. -/
theorem index_coherent_iff {w : World} (fresh : w.Fresh) (goOn : Bool) (ss : List Statement)
    (stage : Stage) :
    (∀ path fields, (run goOn ss w stage).1.world.index.get? path = some (.map fields) →
      ∀ name value, (Value.map fields).field? name = some value →
        (run goOn ss w stage).1.world.index.get? (path ++ [name]) = some value) ∧
    ((run goOn ss w stage).1.world.index.Coherent ↔
      Registration.Covered (registrations goOn ss w stage)) := by
  have before : w.index.Holds [] := by
    rw [fresh.2]
    exact ContractIndex.holds_nothing
  have after : (run goOn ss w stage).1.world.index.Holds
      ([] ++ registrations goOn ss w stage) := holds_run goOn ss before
  rw [List.nil_append] at after
  refine ⟨?_, after.coherent_iff⟩
  intro path fields found name value field
  exact after.field_of_data found field

section Redeployments

/-- A script that deploys a token twice under one name. -/
def redeployments : List Statement :=
  [["Erc20", "Deploy", "Standard", "BAT", "Basic"],
    ["Erc20", "Deploy", "Standard", "bat", "Better", "6"]].map
      fun words => { event := .words words, span := default }

theorem redeployments_fields :
    (registrations false redeployments adminOnly { chain := {} }).map (·.fields) =
      [["symbol", "fullName", "decimals"], ["symbol", "fullName", "decimals"]] := by
  decide +kernel

/-- The second token has all the fields of the first, so nothing is left of that. -/
theorem redeployments_coherent :
    (run false redeployments adminOnly { chain := {} }).1.world.index.Coherent := by
  have fresh : adminOnly.Fresh := ⟨rfl, rfl⟩
  have all : ∀ r ∈ registrations false redeployments adminOnly { chain := {} },
      r.fields = ["symbol", "fullName", "decimals"] := by
    intro r member
    have given := List.mem_map_of_mem (f := Registration.fields) member
    rw [redeployments_fields] at given
    simpa using given
  refine (index_coherent_iff fresh false redeployments { chain := {} }).2.mpr ?_
  intro r member path last _ latest
  have isThere := List.mem_reverse.mp (List.mem_of_find?_eq_some latest)
  rw [all r member, all last isThere]
  exact List.Subset.refl _

/-- A script that gives the name of a deployed token to another one. -/
def nameGivenAgain : List Statement :=
  [["Erc20", "Deploy", "Standard", "BAT", "Basic"],
    ["Erc20", "Deploy", "Standard", "FOO", "Foo", "6"],
    ["Erc20", "Deploy", "Existing", "BAT", "FOO"]].map
      fun words => { event := .words words, span := default }

/-- The index after the script. -/
def afterNameGivenAgain : ContractIndex :=
  (run false nameGivenAgain adminOnly { chain := {} }).1.world.index

/-- The data of the name has no `decimals` any more, but those of the first token are still below. -/
theorem nameGivenAgain_incoherent :
    (afterNameGivenAgain.get? ["Tokens", "BAT", "decimals"]).map Value.text = some "18" ∧
      ¬ afterNameGivenAgain.Coherent := by
  have evaluated :
      (afterNameGivenAgain.get? ["Tokens", "BAT"]).map (fun v =>
        (ContractIndex.isData v, (v.field? "decimals").map Value.text)) = some (true, none) ∧
      (afterNameGivenAgain.get? ["Tokens", "BAT", "decimals"]).map Value.text = some "18" := by
    decide +kernel
  obtain ⟨data, left⟩ := evaluated
  refine ⟨left, fun coherent => ?_⟩
  obtain ⟨v, found, same⟩ := Option.map_eq_some_iff.mp data
  obtain ⟨isData, nothing⟩ := Prod.mk.inj same
  cases v with
  | map fields =>
    have below : afterNameGivenAgain.get? ["Tokens", "BAT", "decimals"] = _ :=
      coherent ["Tokens", "BAT"] fields found "decimals"
    rw [below, nothing] at left
    cases left
  | _ => cases isData

end Redeployments

end World

end MarketScript
