import MarketScript.Proofs.Index.Report
import MarketScript.Proofs.Run.Coherence

/-!
# What an inspection shows

The report of a world tells every entry of the index that is not data, each under a name of its own,
whatever names a run has given to contracts.
-/

namespace MarketScript

namespace World

/-- The members of a report have different names. -/
theorem member_contracts (w : World) : w.toJson.Member "contracts" w.index.toJson := by
  apply Json.member_ofMembers
  · show ["run_id", "network", "dry_run", "accounts", "aliases", "contracts", "actions"].Nodup
    decide
  · simp

/-- The index after any run from a fresh world has no two entries, apart from data, whose paths are
    written alike.  So the report of the world has one member for each of them, and no other. -/
theorem inspection_loses_no_entry {w : World} (fresh : w.Fresh) (goOn : Bool) (ss : List Statement)
    (stage : Stage) :
    let after := (run goOn ss w stage).1.world
    (∀ d ∈ after.index.told, ∀ e ∈ after.index.told,
      ContractIndex.pathText d.1 = ContractIndex.pathText e.1 → d = e) ∧
    ∃ members, after.toJson.Member "contracts" (.object members) ∧ (members.map (·.1)).Nodup ∧
      members.Perm (after.index.told.map fun e => (ContractIndex.pathText e.1, e.2.toJson)) := by
  intro after
  have before : w.index.Holds [] := by
    rw [fresh.2]
    exact ContractIndex.holds_nothing
  have held : after.index.Holds ([] ++ registrations goOn ss w stage) := holds_run goOn ss before
  obtain ⟨fs, proper, -, made⟩ := held
  have leaves : after.index.OnlyLeaves := by
    rw [made]
    exact ContractIndex.onlyLeaves_ofFilings proper
  refine ⟨fun d hd e he same => leaves.eq_of_pathText hd he same, ?_⟩
  obtain ⟨members, report, distinct, perm⟩ := leaves.toJson
  refine ⟨members, ?_, distinct, perm⟩
  rw [← report]
  exact after.member_contracts

section Dotted

/-- A script that names a token like the path of a field of another one. -/
def dottedNames : List Statement :=
  [["Erc20", "Deploy", "Standard", "x", "First"],
    ["Erc20", "Deploy", "Standard", "x.name", "Second"]].map
      fun words => { event := .words words, span := default }

/-- All sixteen entries of the two tokens are in the report. -/
theorem dottedNames_inspected :
    let after := (run false dottedNames adminOnly { chain := {} }).1.world
    adminOnly.Fresh ∧
      [["tokens", "x", "name"], ["tokens", "x.name", "name"]] ⊆ after.index.told.map (·.1) ∧
      ∃ members, after.toJson.Member "contracts" (.object members) ∧ members.length = 16 := by
  intro after
  have fresh : adminOnly.Fresh := ⟨rfl, rfl⟩
  have evaluated : [["tokens", "x", "name"], ["tokens", "x.name", "name"]] ⊆
      after.index.told.map (·.1) ∧ after.index.told.length = 16 := by
    decide +kernel
  obtain ⟨present, sixteen⟩ := evaluated
  obtain ⟨-, members, report, -, perm⟩ := inspection_loses_no_entry fresh false dottedNames { chain := {} }
  refine ⟨fresh, present, members, report, ?_⟩
  rw [perm.length_eq, List.length_map]
  exact sixteen

end Dotted

end World

end MarketScript
