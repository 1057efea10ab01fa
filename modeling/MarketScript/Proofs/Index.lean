import Mathlib.Data.List.Induction
import MarketScript.World
import MarketScript.Family

/-!
# What the index holds

An insertion changes the index at its path and, for data with fields, one step below it, and nowhere
else.  So what is registered in one family is never in the way of another.
-/

namespace MarketScript

namespace Store

variable {κ ν : Type} [Ord κ] [Std.TransOrd κ] [Std.LawfulEqOrd κ] [DecidableEq κ]

/-- Of several entries put into a store one after the other the last of each key stays. -/
theorem get?_foldl_insert (entries : List (κ × ν)) (s : Store κ ν) (key : κ) :
    (entries.foldl (fun s e => s.insert e.1 e.2) s).get? key =
      ((entries.reverse.find? (·.1 = key)).map (·.2)).or (s.get? key) := by
  induction entries using List.reverseRecOn with
  | nil => rfl
  | append_singleton entries e ih =>
    rw [List.foldl_append, List.reverse_append]
    simp only [List.foldl_cons, List.foldl_nil, List.reverse_singleton, List.singleton_append,
      List.find?_cons, get?_insert]
    by_cases same : e.1 = key
    · simp [same]
    · simp [same, ih]

end Store

namespace ContractIndex

variable {index : ContractIndex} {path other : List String} {value : Value}

theorem get?_insert :
    (index.insert path value).get? other =
      if foldPath path = foldPath other then some value
      else (((fieldEntries (foldPath path) value).reverse.find? (·.1 = foldPath other)).map
        (·.2)).or (index.get? other) := by
  unfold insert get?
  rw [Store.get?_insert, Store.get?_foldl_insert]

@[simp] theorem get?_insert_self : (index.insert path value).get? path = some value := by
  rw [get?_insert, if_pos rfl]

/-- Nothing changes but at the path and one step below it. -/
theorem get?_insert_elsewhere (apart : foldPath path ≠ foldPath other)
    (notBelow : ∀ step, foldPath path ++ [step] ≠ foldPath other) :
    (index.insert path value).get? other = index.get? other := by
  have none : (fieldEntries (foldPath path) value).reverse.find? (·.1 = foldPath other) = none := by
    rw [List.find?_eq_none]
    intro e member
    rw [decide_eq_true_iff]
    cases value with
    | map fields =>
      obtain ⟨f, -, rfl⟩ := List.mem_map.mp (List.mem_reverse.mp member)
      exact notBelow _
    | _ => cases List.mem_reverse.mp member
  rw [get?_insert, if_neg apart, none]
  rfl

theorem foldPath_concat (path : List String) (name : String) :
    foldPath (path ++ [name]) = foldPath path ++ [foldCase name] := by
  simp [foldPath]

theorem length_foldPath (path : List String) : (foldPath path).length = path.length :=
  List.length_map _

/-- Longer and shorter paths are elsewhere. -/
theorem get?_insert_of_length (apart : other.length ≠ path.length)
    (notBelow : other.length ≠ path.length + 1) :
    (index.insert path value).get? other = index.get? other := by
  apply get?_insert_elsewhere
  · intro same
    have length := congrArg List.length same
    rw [length_foldPath, length_foldPath] at length
    exact apart length.symm
  · intro step same
    have length := congrArg List.length same
    rw [List.length_append, length_foldPath, length_foldPath] at length
    exact notBelow length.symm

/-- Paths with another first step are elsewhere. -/
theorem get?_insert_of_head {step step' : String} {path other : List String}
    (apart : foldCase step ≠ foldCase step') :
    (index.insert (step :: path) value).get? (step' :: other) = index.get? (step' :: other) := by
  apply get?_insert_elsewhere
  · intro same
    exact apart (List.cons.inj same).1
  · intro _ same
    exact apart (List.cons.inj same).1

/-- One step below the path of data stands its last field of that name. -/
theorem get?_insert_field {fields : List (String × Value)} (same : foldPath path = foldPath other)
    (name : String) :
    (index.insert path (.map fields)).get? (other ++ [name]) =
      ((fields.reverse.find? fun f => sameWord f.1 name).map (·.2)).or
        (index.get? (other ++ [name])) := by
  have longer := foldPath_concat other name
  have apart : foldPath path ≠ foldPath (other ++ [name]) := by
    rw [longer, same]
    intro equal
    simpa using congrArg List.length equal
  have found : (fieldEntries (foldPath path) (.map fields)).reverse.find?
      (·.1 = foldPath (other ++ [name])) =
      (fields.reverse.find? fun f => sameWord f.1 name).map
        fun f => (foldPath path ++ [foldCase f.1], f.2) := by
    unfold fieldEntries
    rw [← List.map_reverse, List.find?_map, longer, same]
    congr 2
    funext f
    rw [Bool.eq_iff_iff]
    simp [sameWord]
  rw [get?_insert, if_neg apart, found, Option.map_map]
  rfl

end ContractIndex

namespace Handle

variable {h : Handle} {description : String} {fields : List (String × Value)}

/-- The fields that contract data has besides the usual ones, none of which is an address field. -/
def NoAddress (fields : List (String × Value)) : Prop :=
  ∀ f ∈ fields, sameWord f.1 "address" = false

theorem noAddress_of_names (names : List String) (same : fields.map (·.1) = names)
    (plain : ∀ name ∈ names, sameWord name "address" = false) : NoAddress fields := by
  subst same
  intro f member
  exact plain f.1 (List.mem_map_of_mem member)

/-- Contract data stands for the address of the contract. -/
@[simp] theorem addressIn_data : (h.data description fields).addressIn = .ok h.address := by
  have name : sameWord "name" "address" = false := by decide
  simp [data, Value.addressIn, Value.field?, name, Value.asAddress]

/-- One step below contract data stands the address of the contract. -/
theorem get?_insert_data {index : ContractIndex} {path other : List String}
    (plain : NoAddress fields)
    (same : ContractIndex.foldPath path = ContractIndex.foldPath other) :
    (index.insert path (h.data description fields)).get? (other ++ ["address"]) =
      some (.address h.address) := by
  have none : fields.reverse.find? (fun f => sameWord f.1 "address") = none := by
    rw [List.find?_eq_none]
    intro f member
    simp [plain f (List.mem_reverse.mp member)]
  have description : sameWord "description" "address" = false := by decide
  have contract : sameWord "contract" "address" = false := by decide
  rw [data, ContractIndex.get?_insert_field same, List.reverse_append, List.find?_append, none]
  simp [description, contract]

end Handle

namespace Family

/-- Contracts of different families stand on different shelves. -/
theorem foldCase_shelf_inj {f g : Family} : foldCase f.shelf = foldCase g.shelf ↔ f = g := by
  cases f <;> cases g <;> decide

/-- No shelf is named like a family that is indexed by its role. -/
theorem foldCase_keyword_ne_shelf {f g : Family} (role : f = .controller ∨ f = .registry)
    (shelved : g ≠ .registry) : foldCase f.keyword ≠ foldCase g.shelf := by
  rcases role with rfl | rfl <;> cases g <;> first | decide | exact absurd rfl shelved

theorem foldCase_shelf_ne_contracts (f : Family) : foldCase "Contracts" ≠ foldCase f.shelf := by
  cases f <;> decide

end Family

namespace Handle

variable {h : Handle} {description : String} {fields : List (String × Value)}

/-- Contract data put on a shelf under a name changes the address of no other name and on no other
    shelf. -/
theorem get?_insert_shelf {index : ContractIndex} (plain : NoAddress fields)
    (family shelved : Family) (own name : String) :
    (index.insert [family.shelf, own] (h.data description fields)).get?
        [shelved.shelf, name, "address"] =
      if family = shelved ∧ sameWord own name = true then some (.address h.address)
      else index.get? [shelved.shelf, name, "address"] := by
  split
  · rename_i same
    obtain ⟨rfl, sameName⟩ := same
    have same : ContractIndex.foldPath [family.shelf, own] =
        ContractIndex.foldPath [family.shelf, name] := by
      simp [ContractIndex.foldPath, sameWord_iff.mp sameName]
    exact get?_insert_data plain same
  · rename_i other
    apply ContractIndex.get?_insert_elsewhere
    · intro same
      have length := congrArg List.length same
      simp [ContractIndex.foldPath] at length
    · intro step same
      simp only [ContractIndex.foldPath, List.map_cons, List.map_nil, List.cons_append,
        List.nil_append, List.cons.injEq] at same
      exact other ⟨Family.foldCase_shelf_inj.mp same.1, sameWord_iff.mpr same.2.1⟩

end Handle

namespace World

variable {w : World} {h : Handle} {description : String} {fields : List (String × Value)}

/-- Registering a contract changes the address that stands on a shelf under a name only if the
    contract is of the family of the shelf and has this name. -/
theorem get?_register_shelf (plain : Handle.NoAddress fields) (family : Family)
    {shelved : Family} (isNamed : shelved ≠ .registry) (name : String) :
    (w.register h (family.paths h.name) (h.data description fields)).index.get?
        [shelved.shelf, name, "address"] =
      if family = shelved ∧ sameWord h.name name = true then some (.address h.address)
      else w.index.get? [shelved.shelf, name, "address"] := by
  have byName : (w.index.insert ["Contracts", h.name] (.address h.address)).get?
      [shelved.shelf, name, "address"] = w.index.get? [shelved.shelf, name, "address"] :=
    ContractIndex.get?_insert_of_head (Family.foldCase_shelf_ne_contracts shelved)
  cases family with
  | registry =>
    show (ContractIndex.insert _ ["Registry"] _).get? _ = _
    rw [ContractIndex.get?_insert_of_length (by simp) (by simp), byName, if_neg]
    rintro ⟨rfl, -⟩
    exact isNamed rfl
  | controller =>
    show (ContractIndex.insert (ContractIndex.insert _ ["Controller"] _)
      [Family.controller.shelf, h.name] _).get? _ = _
    rw [Handle.get?_insert_shelf plain, ContractIndex.get?_insert_of_length (by simp) (by simp),
      byName]
  | market | token | rateModel =>
    rw [← byName]
    exact Handle.get?_insert_shelf plain _ shelved h.name name

/-- The index has the data of one controller and of one registry without a name, those that were
    registered last. -/
theorem get?_register_role (family : Family) {role : Family}
    (isRole : role = .controller ∨ role = .registry) :
    (w.register h (family.paths h.name) (h.data description fields)).index.get? [role.keyword] =
      if family = role then some (h.data description fields) else w.index.get? [role.keyword] := by
  have longer : ∀ (index : ContractIndex) (step step' : String) (value : Value),
      (index.insert [step, step'] value).get? [role.keyword] = index.get? [role.keyword] :=
    fun index step step' value => ContractIndex.get?_insert_of_length (by simp) (by simp)
  have apart : foldCase Family.controller.keyword ≠ foldCase Family.registry.keyword := by decide
  cases family with
  | controller =>
    show (ContractIndex.insert (ContractIndex.insert (ContractIndex.insert _ _ _)
      [Family.controller.keyword] _) [_, _] _).get? _ = _
    rw [longer]
    rcases isRole with rfl | rfl
    · exact ContractIndex.get?_insert_self
    · rw [ContractIndex.get?_insert_of_head apart, longer]
      rfl
  | registry =>
    show (ContractIndex.insert (ContractIndex.insert _ _ _) [Family.registry.keyword] _).get? _ = _
    rcases isRole with rfl | rfl
    · rw [ContractIndex.get?_insert_of_head apart.symm, longer]
      rfl
    · exact ContractIndex.get?_insert_self
  | market | token | rateModel =>
    show (ContractIndex.insert (ContractIndex.insert _ _ _) [_, _] _).get? _ = _
    rw [longer, longer, if_neg]
    rintro rfl
    rcases isRole with impossible | impossible <;> cases impossible

end World

end MarketScript
