import MarketScript.Chain.Params
import MarketScript.Proofs.Except

/-!
# Refusals

A contract that refuses a message with codes says so twice: in its result and in its only log.
-/

namespace MarketScript

/-- The result and the logs of a message that is refused: the only log is a failure, and its error
    code, which is not zero, is the result. -/
def Refused (result : Abi) (logs : List Log) : Prop :=
  ∃ log code, logs = [log] ∧ log.event = "Failure" ∧ log.field? "error" = some (.number code) ∧
    code ≠ 0 ∧ result = .number code

/-- The result and the logs of a message that is carried out. -/
def Completed (result : Abi) (logs : List Log) : Prop :=
  (∀ log ∈ logs, log.event ≠ "Failure") ∧
    (result = .number 0 ∨ result = .bool true ∨ result = .unit)

/-- What a nested message tells does not make the message around it a refusal. -/
theorem completed_append {result inner : Abi} {logs : List Log} {log : Log}
    (h : Completed inner logs) (event : log.event ≠ "Failure")
    (success : result = .number 0 ∨ result = .bool true ∨ result = .unit) :
    Completed result (logs ++ [log]) := by
  refine ⟨?_, success⟩
  intro other member
  rcases List.mem_append.mp member with member | member
  · exact h.1 other member
  · rw [List.mem_singleton.mp member]
    exact event

theorem Refused.not_completed {result : Abi} {logs : List Log} (h : Refused result logs) :
    ¬ Completed result logs := by
  obtain ⟨log, _, rfl, event, -⟩ := h
  intro completed
  exact completed.1 log List.mem_cons_self event

namespace FailureFamily

/-- Only the name of success has the code zero. -/
theorem errorCode?_ne_zero {f : FailureFamily} {error : String} {code : Nat}
    (h : f.errorCode? error = some code) (named : error ≠ "NO_ERROR") : code ≠ 0 := by
  rintro rfl
  cases f <;> simp [errorCode?, errors, List.findIdx?_cons] at h <;> exact named h.symm

/-- The place of a name in a table has this name. -/
theorem nameOf_of_findIdx? {table : List String} {name : String} {code : Nat}
    (h : table.findIdx? (· == name) = some code) :
    nameOf table code = name ∧ name ∈ table ∧ code < table.length := by
  obtain ⟨inside, named, -⟩ := List.findIdx?_eq_some_iff_getElem.mp h
  obtain rfl := eq_of_beq named
  refine ⟨?_, List.getElem_mem inside, inside⟩
  unfold nameOf
  rw [List.getElem?_eq_getElem inside]
  rfl

variable {f : FailureFamily} {error info : String} {code : Nat}

/-- The code of a name stands for this name. -/
theorem errorName_of_errorCode? (h : f.errorCode? error = some code) : f.errorName code = error :=
  (nameOf_of_findIdx? h).1

theorem infoName_of_infoCode? (h : f.infoCode? info = some code) : f.infoName code = info :=
  (nameOf_of_findIdx? h).1

theorem mem_of_errorCode? (h : f.errorCode? error = some code) : error ∈ f.errors :=
  (nameOf_of_findIdx? h).2.1

theorem mem_of_infoCode? (h : f.infoCode? info = some code) : info ∈ f.infos :=
  (nameOf_of_findIdx? h).2.1

theorem errorCode?_le_maxCode (h : f.errorCode? error = some code) :
    code ≤ InvokationError.maxCode := by
  have inside := (nameOf_of_findIdx? h).2.2
  have short : f.errors.length ≤ InvokationError.maxCode := by cases f <;> decide
  omega

theorem infoCode?_le_maxCode (h : f.infoCode? info = some code) :
    code ≤ InvokationError.maxCode := by
  have inside := (nameOf_of_findIdx? h).2.2
  have short : f.infos.length ≤ InvokationError.maxCode := by cases f <;> decide
  omega

/-- The names in the tables begin with letters. -/
theorem begins_with_letter {name : String} (member : name ∈ f.errors ++ f.infos) :
    ∃ c cs, name = String.ofList (c :: cs) ∧ c.isDigit = false := by
  revert name
  cases f with
  | silent => nofun
  | controller | market =>
    simp only [errors, infos, List.cons_append, List.nil_append, List.forall_mem_cons]
    and_intros
    all_goals first | exact ⟨_, _, rfl, rfl⟩ | nofun

/-- No name in the tables is a number. -/
theorem ne_toString {name : String} (member : name ∈ f.errors ++ f.infos) (n : Nat) :
    name ≠ toString n := by
  obtain ⟨c, cs, rfl, letter⟩ := begins_with_letter member
  intro same
  have digits : c :: cs = Nat.toDigits 10 n := String.ofList_injective same
  have digit : c.isDigit = true :=
    Nat.isDigit_of_mem_toDigits (by decide) (by decide) (digits ▸ List.mem_cons_self)
  rw [letter] at digit
  cases digit

end FailureFamily

namespace Outcome

variable {σ : Type} {state : σ} {f : Frame} {family : FailureFamily} {error info : String}
  {detail : Int} {o : Outcome σ}

theorem refused_eq_ok :
    refused state f family error info detail = .ok o ↔
      ∃ e i, family.errorCode? error = some e ∧ family.infoCode? info = some i ∧
        done state (.number e) f "Failure"
          [("error", .number e), ("info", .number i), ("detail", .number detail)] = o := by
  unfold refused
  cases family.errorCode? error with
  | none => simp
  | some e =>
    cases family.infoCode? info with
    | none => simp
    | some i => simp

/-- A refusal leaves the contract as it is. -/
theorem refused_spec (h : refused state f family error info detail = .ok o)
    (named : error ≠ "NO_ERROR") : o.state = state ∧ Refused o.result o.logs := by
  obtain ⟨e, i, he, -, rfl⟩ := refused_eq_ok.mp h
  refine ⟨rfl, _, (e : Int), rfl, rfl, rfl, ?_, rfl⟩
  have := FailureFamily.errorCode?_ne_zero he named
  omega

/-- What a refusal tells is read back as its error. -/
theorem ofLog_refused (h : refused state f family error info detail = .ok o) {log : Log}
    (told : log ∈ o.logs) :
    ∃ i d, InvokationError.ofLog family log = .failure error i d := by
  obtain ⟨e, i, he, -, rfl⟩ := refused_eq_ok.mp h
  obtain rfl := List.mem_singleton.mp told
  have small := FailureFamily.errorCode?_le_maxCode he
  generalize hlog : (⟨f.this, "Failure", _⟩ : Log) = log
  have code : InvokationError.codeIn log "error" = e := by
    simp [← hlog, InvokationError.codeIn, Log.field?, Abi.asNumber?, small]
  refine ⟨family.infoName (InvokationError.codeIn log "info"),
    family.detailName error (InvokationError.codeIn log "detail"), ?_⟩
  simp only [InvokationError.ofLog, InvokationError.ofCodes, code,
    FailureFamily.errorName_of_errorCode? he]

end Outcome

end MarketScript
