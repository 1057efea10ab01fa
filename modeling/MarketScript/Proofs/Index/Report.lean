import MarketScript.Proofs.Index.Coherence
import MarketScript.Proofs.Json

/-!
# The index in a report

A report names an entry of the index by the steps of its path with dots between them.  The name of a
contract may have dots of its own, but it is the only such step: the first step is a keyword, and the
name of a field that follows is one that a command knows.  So no two paths are named alike.
-/

namespace MarketScript

section Dots

variable {α : Type} {dot : α} {before before' after after' : List α}

/-- What stands before the first dot is told by the whole. -/
theorem append_cons_first (clean : dot ∉ before) (clean' : dot ∉ before')
    (same : before ++ dot :: after = before' ++ dot :: after') : before = before' ∧ after = after' := by
  induction before generalizing before' with
  | nil =>
    cases before' with
    | nil => exact ⟨rfl, (List.cons.inj same).2⟩
    | cons a rest => exact absurd ((List.cons.inj same).1 ▸ List.mem_cons_self) clean'
  | cons a rest ih =>
    cases before' with
    | nil => exact absurd ((List.cons.inj same).1 ▸ List.mem_cons_self) clean
    | cons a' rest' =>
      obtain ⟨rfl, others⟩ := List.cons.inj same
      obtain ⟨rfl, rest⟩ := ih (fun member => clean (List.mem_cons_of_mem _ member))
        (fun member => clean' (List.mem_cons_of_mem _ member)) others
      exact ⟨rfl, rest⟩

/-- What stands after the last dot is told by the whole. -/
theorem append_cons_last (clean : dot ∉ after) (clean' : dot ∉ after')
    (same : before ++ dot :: after = before' ++ dot :: after') : before = before' ∧ after = after' := by
  have reversed := congrArg List.reverse same
  simp only [List.reverse_append, List.reverse_cons, List.append_assoc, List.singleton_append]
    at reversed
  obtain ⟨last, first⟩ := append_cons_first (by rwa [List.mem_reverse]) (by rwa [List.mem_reverse])
    reversed
  exact ⟨List.reverse_injective first, List.reverse_injective last⟩

end Dots

namespace ContractIndex

/-- A step without a dot. -/
def Dotless (step : String) : Prop := '.' ∉ step.toList

instance (step : String) : Decidable (Dotless step) := inferInstanceAs (Decidable ('.' ∉ step.toList))

/-- The paths of what is not data: the fields of data that has a name, each on a shelf under that
    name, and elsewhere a single step below the first. -/
inductive Leaf : List String → Prop
  | pair {step : String} (next : String) (dotless : Dotless step)
      (noShelf : ∀ family ≠ Family.registry, step ≠ foldCase family.shelf) : Leaf [step, next]
  | shelved {family : Family} (name : String) {field : String} (shelf : family ≠ .registry)
      (known : Dotless field) : Leaf [foldCase family.shelf, name, field]

theorem toList_pathText_cons (step next : String) (rest : List String) :
    (pathText (step :: next :: rest)).toList =
      step.toList ++ '.' :: (pathText (next :: rest)).toList := by
  rw [pathText, String.intercalate_cons_cons, String.toList_append, String.toList_append,
    List.append_assoc]
  rfl

theorem dotless_contracts : Dotless (foldCase "Contracts") := by decide

theorem dotless_keyword (family : Family) : Dotless (foldCase family.keyword) := by
  cases family <;> decide

theorem dotless_shelf (family : Family) : Dotless (foldCase family.shelf) := by
  cases family <;> decide

theorem dotless_of_mem : ∀ names ∈ Command.fieldSets, ∀ name ∈ Handle.fieldNames ++ names,
    Dotless (foldCase name) := by
  decide

/-- The written path tells the first step and the written rest. -/
theorem pathText_cons_inj {step step' next next' : String} {rest rest' : List String}
    (dotless : Dotless step) (dotless' : Dotless step')
    (same : pathText (step :: next :: rest) = pathText (step' :: next' :: rest')) :
    step = step' ∧ pathText (next :: rest) = pathText (next' :: rest') := by
  have characters := congrArg String.toList same
  rw [toList_pathText_cons, toList_pathText_cons] at characters
  obtain ⟨first, others⟩ := append_cons_first dotless dotless' characters
  exact ⟨String.toList_inj.mp first, String.toList_inj.mp others⟩

/-- Below a name the written path tells the name, dots or not, and the field. -/
theorem pathText_field_inj {name name' field field' : String} (dotless : Dotless field)
    (dotless' : Dotless field') (same : pathText [name, field] = pathText [name', field']) :
    name = name' ∧ field = field' := by
  have characters := congrArg String.toList same
  rw [toList_pathText_cons, toList_pathText_cons] at characters
  obtain ⟨first, others⟩ := append_cons_last dotless dotless' characters
  exact ⟨String.toList_inj.mp first, String.toList_inj.mp others⟩

/-- No two paths of what is not data are written alike. -/
theorem Leaf.pathText_inj {path path' : List String} (h : Leaf path) (h' : Leaf path')
    (same : pathText path = pathText path') : path = path' := by
  cases h with
  | @pair step next dotless noShelf =>
    cases h' with
    | @pair step' next' dotless' =>
      obtain ⟨first, rest⟩ := pathText_cons_inj dotless dotless' same
      rw [pathText, pathText, String.intercalate_singleton, String.intercalate_singleton] at rest
      rw [first, rest]
    | @shelved family _ _ shelf =>
      obtain ⟨first, -⟩ := pathText_cons_inj dotless (dotless_shelf family) same
      exact absurd first (noShelf family shelf)
  | @shelved family name field shelf known =>
    cases h' with
    | @pair step' next' dotless' noShelf =>
      obtain ⟨first, -⟩ := pathText_cons_inj (dotless_shelf family) dotless' same
      exact absurd first.symm (noShelf family shelf)
    | @shelved family' name' field' _ known' =>
      obtain ⟨first, rest⟩ := pathText_cons_inj (dotless_shelf family) (dotless_shelf family') same
      obtain ⟨names, fields⟩ := pathText_field_inj known known' rest
      rw [first, names, fields]

/-- The address of a contract stands below the shelf of all contracts, under its name. -/
theorem Leaf.contract (name : String) : Leaf [foldCase "Contracts", name] :=
  .pair name dotless_contracts fun family _ => Family.foldCase_shelf_ne_contracts family

/-- A field of the contract that is single in its family stands below the keyword. -/
theorem Leaf.role {family : Family} (single : family = .controller ∨ family = .registry)
    (field : String) : Leaf [foldCase family.keyword, field] :=
  .pair field (dotless_keyword family) fun _ => Family.foldCase_keyword_ne_shelf single

/-! ## What a registration puts into the index -/

/-- What stands in the index is data or stands where no other entry is written alike. -/
def OnlyLeaves (index : ContractIndex) : Prop :=
  ∀ key v, index.entries.get? key = some v → isData v = false → Leaf key

variable {index : ContractIndex} {path : List String} {value : Value}

theorem OnlyLeaves.insert (h : index.OnlyLeaves) (here : isData value = false → Leaf (foldPath path))
    (below : ∀ e ∈ fieldEntries (foldPath path) value, Leaf e.1) :
    (index.insert path value).OnlyLeaves := by
  intro key v found plain
  rw [ContractIndex.insert, Store.get?_insert, Store.get?_foldl_insert] at found
  split at found
  · rename_i atPath
    cases found
    rw [← atPath]
    exact here plain
  · rcases Option.or_eq_some_iff.mp found with field | ⟨-, old⟩
    · obtain ⟨e, isField, -⟩ := Option.map_eq_some_iff.mp field
      have atField : e.1 = key := by simpa using List.find?_some isField
      rw [← atField]
      exact below e (List.mem_reverse.mp (List.mem_of_find?_eq_some isField))
    · exact h key v old plain

/-- Below a place of data stand its fields. -/
theorem IsPlace.leaf {field : String} (place : IsPlace path) (known : Dotless field) :
    Leaf (foldPath path ++ [field]) := by
  rcases place.cases with ⟨family, atPath, single⟩ | ⟨family, name, atPath, shelf⟩
  · rw [atPath]
    exact .role single field
  · rw [atPath]
    exact .shelved name shelf known

theorem OnlyLeaves.file (h : index.OnlyLeaves) {f : Filing} (proper : f.Proper) :
    (index.file f).OnlyLeaves := by
  have contract : (index.insert ["Contracts", f.handle.name] (.address f.handle.address)).OnlyLeaves :=
    h.insert (fun _ => .contract _) (fun _ none => by cases none)
  have known : ∀ e ∈ f.entries, Dotless (foldCase e.1) := by
    intro e member
    apply dotless_of_mem _ proper.given
    have names : f.entries.map (·.1) = Handle.fieldNames ++ f.fields.map (·.1) := by
      simp [Filing.entries, Handle.fieldNames]
    rw [← names]
    exact List.mem_map_of_mem member
  have data : ∀ (paths : List (List String)) (index : ContractIndex), index.OnlyLeaves →
      (∀ path ∈ paths, IsPlace path) →
      (paths.foldl (·.insert · (.map f.entries)) index).OnlyLeaves := by
    intro paths
    induction paths with
    | nil => exact fun index h _ => h
    | cons path paths ih =>
      intro index h places
      rw [List.forall_mem_cons] at places
      refine ih _ (h.insert (fun plain => by cases plain) fun e member => ?_) places.2
      obtain ⟨d, isEntry, rfl⟩ := List.mem_map.mp member
      exact places.1.leaf (known d isEntry)
  exact data _ _ contract fun _ member => isPlace_of_mem member

theorem onlyLeaves_ofFilings {fs : List Filing} (proper : ∀ f ∈ fs, f.Proper) :
    (ofFilings fs).OnlyLeaves := by
  induction fs using List.reverseRecOn with
  | nil =>
    intro key v found
    cases found
  | append_singleton fs f ih =>
    rw [List.forall_mem_append] at proper
    rw [ofFilings, List.foldl_concat, ← ofFilings]
    exact (ih proper.1).file (proper.2 f (List.mem_singleton_self f))

/-! ## The report -/

/-- The entries that a report tells. -/
def told (index : ContractIndex) : List (List String × Value) :=
  index.entries.toList.filter (! isData ·.2)

/-- The entries are told apart by their written paths. -/
theorem OnlyLeaves.eq_of_pathText (h : index.OnlyLeaves) {d e : List String × Value}
    (hd : d ∈ index.told) (he : e ∈ index.told) (same : pathText d.1 = pathText e.1) : d = e := by
  have stands {e : List String × Value} (he : e ∈ index.told) :
      index.entries.get? e.1 = some e.2 ∧ isData e.2 = false := by
    obtain ⟨member, plain⟩ := List.mem_filter.mp he
    exact ⟨Store.find_of_mem index.entries.sorted member, by simpa using plain⟩
  obtain ⟨atD, plainD⟩ := stands hd
  obtain ⟨atE, plainE⟩ := stands he
  have paths := (h d.1 d.2 atD plainD).pathText_inj (h e.1 e.2 atE plainE) same
  rw [paths, atE] at atD
  exact Prod.ext paths (Option.some.inj atD).symm

theorem nodup_told (index : ContractIndex) : index.told.Nodup := by
  refine List.Nodup.filter _ (index.entries.sorted.imp fun {d e} rising same => ?_)
  have equal : compare e.1 e.1 = .eq := Std.ReflCmp.compare_self
  rw [same, equal] at rising
  cases rising

/-- The report has a member for each entry that is not data, and no other. -/
theorem OnlyLeaves.toJson (h : index.OnlyLeaves) :
    ∃ members, index.toJson = .object members ∧ (members.map (·.1)).Nodup ∧
      members.Perm (index.told.map fun e => (pathText e.1, e.2.toJson)) := by
  apply Json.ofMembers_perm
  rw [List.map_map]
  exact index.nodup_told.map_on fun d hd e he same => h.eq_of_pathText hd he same

end ContractIndex

end MarketScript
