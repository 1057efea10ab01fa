import Mathlib.Data.List.Nodup
import MarketScript.Json

/-!
# The members of objects

An object has each name once.  So members with different names are all there, in whatever order they
were given, and of two with one name only one.
-/

namespace MarketScript

namespace Json

/-- The document is an object in which exactly one member has the name, and this one the value. -/
def Member (document : Json) (name : String) (value : Json) : Prop :=
  ∃ members, document = .object members ∧ (members.map (·.1)).Nodup ∧ (name, value) ∈ members

variable {members done : List (String × Json)} {name : String} {value : Json}

/-- A member with a new name takes the place of no other. -/
theorem insertMember_perm (new : name ∉ done.map (·.1)) :
    (insertMember name value done).Perm ((name, value) :: done) := by
  induction done with
  | nil => exact List.Perm.refl _
  | cons head rest ih =>
    obtain ⟨other, document⟩ := head
    rw [List.map_cons, List.mem_cons, not_or] at new
    obtain ⟨apart, new⟩ := new
    rw [insertMember]
    split
    · exact List.Perm.refl _
    · rename_i equal
      exact absurd (Std.LawfulEqCmp.eq_of_compare equal) apart
    · exact ((ih new).cons _).trans (List.Perm.swap _ _ _)

theorem foldl_insertMember_perm (distinct : ((members ++ done).map (·.1)).Nodup) :
    (members.foldl (fun done (name, value) => insertMember name value done) done).Perm
      (members ++ done) := by
  induction members generalizing done with
  | nil => exact List.Perm.refl _
  | cons head rest ih =>
    obtain ⟨name, value⟩ := head
    rw [List.cons_append, List.map_cons, List.nodup_cons] at distinct
    obtain ⟨new, distinct⟩ := distinct
    have absent : name ∉ done.map (·.1) := by
      rw [List.map_append, List.mem_append, not_or] at new
      exact new.2
    have inserted : (rest ++ insertMember name value done).Perm ((name, value) :: (rest ++ done)) :=
      ((insertMember_perm absent).append_left rest).trans List.perm_middle
    refine (ih ?_).trans inserted
    rw [(inserted.map _).nodup_iff, List.map_cons, List.nodup_cons]
    exact ⟨new, distinct⟩

/-- Members with different names are the members of their object. -/
theorem ofMembers_perm (distinct : (members.map (·.1)).Nodup) :
    ∃ all, ofMembers members = .object all ∧ (all.map (·.1)).Nodup ∧ all.Perm members := by
  rw [← List.append_nil members] at distinct
  have perm := foldl_insertMember_perm distinct
  rw [List.append_nil] at distinct perm
  exact ⟨_, rfl, (perm.map _).nodup_iff.mpr distinct, perm⟩

theorem member_ofMembers (distinct : (members.map (·.1)).Nodup) (member : (name, value) ∈ members) :
    (ofMembers members).Member name value := by
  obtain ⟨all, made, nodup, perm⟩ := ofMembers_perm distinct
  exact ⟨all, made, nodup, perm.mem_iff.mpr member⟩

end Json

end MarketScript
