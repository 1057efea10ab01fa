import MarketScript.Proofs.Command.Change

/-!
# Data and its fields

The data of a contract stands in the index at its path, and its fields one step below.  A later
registration at the same path takes the place of the data, but of the fields only of those that it
has itself.  So the two agree exactly if no registration had a field that the last one at its path
has not.
-/

namespace MarketScript

namespace ContractIndex

/-- Wherever data with fields stands, its fields and nothing else stand one step below it. -/
def Coherent (index : ContractIndex) : Prop :=
  ∀ path fields, index.get? path = some (.map fields) →
    ∀ name, index.get? (path ++ [name]) = (Value.map fields).field? name

/-- A path at which the data of contracts is put. -/
def IsPlace (path : List String) : Prop :=
  ∃ (family : Family) (name : String), ∃ p ∈ family.paths name, foldPath p = foldPath path

theorem isPlace_of_mem {family : Family} {name : String} {path : List String}
    (member : path ∈ family.paths name) : IsPlace path :=
  ⟨family, name, path, member, rfl⟩

/-- Data is put at the keyword of a family, or on the shelf of a family under a name. -/
theorem IsPlace.cases {path : List String} (h : IsPlace path) :
    (∃ family : Family, foldPath path = [foldCase family.keyword] ∧
      (family = .controller ∨ family = .registry)) ∨
    ∃ (family : Family) (name : String), foldPath path = [foldCase family.shelf, name] ∧
      family ≠ .registry := by
  obtain ⟨family, name, p, member, same⟩ := h
  have shelved : family ≠ .registry → p = [family.shelf, name] →
      ∃ (family : Family) (name : String), foldPath path = [foldCase family.shelf, name] ∧
        family ≠ .registry := by
    rintro isNamed rfl
    exact ⟨family, foldCase name, same.symm, isNamed⟩
  cases family with
  | controller =>
    rcases List.mem_cons.mp member with rfl | member
    · exact .inl ⟨.controller, same.symm, .inl rfl⟩
    · exact .inr (shelved (by decide) (List.mem_singleton.mp member))
  | registry =>
    cases List.mem_singleton.mp member
    exact .inl ⟨.registry, same.symm, .inr rfl⟩
  | market | token | rateModel => exact .inr (shelved (by decide) (List.mem_singleton.mp member))

/-- No data is put one step below other data. -/
theorem IsPlace.not_below {path other : List String} (h : IsPlace path) (h' : IsPlace other)
    (step : String) : foldPath path ++ [step] ≠ foldPath other := by
  rcases h.cases with ⟨role, atPath, isRole⟩ | ⟨shelved, name, atPath, -⟩
  · rcases h'.cases with ⟨_, atOther, -⟩ | ⟨shelved, name, atOther, isNamed⟩
    · simp [atPath, atOther]
    · rw [atPath, atOther]
      intro same
      exact Family.foldCase_keyword_ne_shelf isRole isNamed (List.cons.inj same).1
  · rcases h'.cases with ⟨_, atOther, -⟩ | ⟨_, _, atOther, -⟩ <;> simp [atPath, atOther]

/-- The addresses of contracts stand elsewhere. -/
theorem IsPlace.head {path : List String} (h : IsPlace path) :
    ∃ step rest, foldPath path = step :: rest ∧ foldCase "Contracts" ≠ step := by
  rcases h.cases with ⟨family, atPath, -⟩ | ⟨family, name, atPath, -⟩
  · exact ⟨_, _, atPath, by cases family <;> decide⟩
  · exact ⟨_, _, atPath, Family.foldCase_shelf_ne_contracts family⟩

section Insert

variable {index : ContractIndex} {path other : List String} {fields : List (String × Value)}

/-- Of fields with different names it does not matter from which end they are looked through. -/
theorem field?_eq_last (distinct : fields.Pairwise fun e f => sameWord e.1 f.1 = false)
    (name : String) : (fields.reverse.find? fun f => sameWord f.1 name).map (·.2) =
      (Value.map fields).field? name := by
  congr 1
  induction fields with
  | nil => rfl
  | cons e fields ih =>
    rw [List.pairwise_cons] at distinct
    rw [List.reverse_cons, List.find?_append, ih distinct.2, List.find?_singleton, List.find?_cons]
    cases isName : sameWord e.1 name with
    | false => simp
    | true =>
      have none : fields.find? (fun f => sameWord f.1 name) = none := by
        rw [List.find?_eq_none]
        intro f member sameName
        rw [sameWord_comm] at sameName
        have apart := distinct.1 f member
        rw [sameWord_trans isName sameName] at apart
        cases apart
      simp [none]

theorem get?_insert_place (place : IsPlace path) (place' : IsPlace other) (value : Value) :
    (index.insert path value).get? other =
      if foldPath path = foldPath other then some value else index.get? other := by
  split
  · rename_i same
    rw [get?_insert, if_pos same]
  · rename_i apart
    exact get?_insert_elsewhere apart (place.not_below place')

theorem get?_insert_below (place : IsPlace path) (place' : IsPlace other)
    (distinct : fields.Pairwise fun e f => sameWord e.1 f.1 = false) (name : String) :
    (index.insert path (.map fields)).get? (other ++ [name]) =
      if foldPath path = foldPath other then
        ((Value.map fields).field? name).or (index.get? (other ++ [name]))
      else index.get? (other ++ [name]) := by
  split
  · rename_i same
    rw [get?_insert_field same, field?_eq_last distinct]
  · rename_i apart
    refine get?_insert_elsewhere ?_ fun step => ?_
    · rw [foldPath_concat]
      exact (place'.not_below place (foldCase name)).symm
    · rw [foldPath_concat]
      intro same
      exact apart (List.append_inj_left' same rfl)

/-- Data whose fields are not data themselves is put nowhere but at its path. -/
theorem data_of_insert {fields' : List (String × Value)}
    (plain : ∀ f ∈ fields, isData f.2 = false)
    (found : (index.insert path (.map fields)).get? other = some (.map fields')) :
    foldPath path = foldPath other ∨ index.get? other = some (.map fields') := by
  rw [get?_insert] at found
  split at found
  · rename_i same
    exact .inl same
  · rw [Option.or_eq_some_iff] at found
    rcases found with field | ⟨-, old⟩
    · obtain ⟨e, isField, value⟩ := Option.map_eq_some_iff.mp field
      obtain ⟨f, member, rfl⟩ :=
        List.mem_map.mp (List.mem_reverse.mp (List.mem_of_find?_eq_some isField))
      have impossible := plain f member
      rw [show f.2 = .map fields' from value] at impossible
      cases impossible
    · exact .inr old

end Insert

section Paths

variable {other : List String} {fields : List (String × Value)} {paths : List (List String)}

theorem get?_foldl_place (places : ∀ path ∈ paths, IsPlace path) (place : IsPlace other)
    (value : Value) (index : ContractIndex) :
    (paths.foldl (·.insert · value) index).get? other =
      if ∃ path ∈ paths, foldPath path = foldPath other then some value
      else index.get? other := by
  induction paths generalizing index with
  | nil => simp
  | cons path paths ih =>
    rw [List.forall_mem_cons] at places
    rw [List.foldl_cons, ih places.2, get?_insert_place places.1 place]
    by_cases same : foldPath path = foldPath other
    · simp [same]
    · simp [same]

theorem get?_foldl_below (places : ∀ path ∈ paths, IsPlace path) (place : IsPlace other)
    (distinct : fields.Pairwise fun e f => sameWord e.1 f.1 = false) (name : String)
    (index : ContractIndex) :
    (paths.foldl (·.insert · (.map fields)) index).get? (other ++ [name]) =
      if ∃ path ∈ paths, foldPath path = foldPath other then
        ((Value.map fields).field? name).or (index.get? (other ++ [name]))
      else index.get? (other ++ [name]) := by
  induction paths generalizing index with
  | nil => simp
  | cons path paths ih =>
    rw [List.forall_mem_cons] at places
    rw [List.foldl_cons, ih places.2, get?_insert_below places.1 place distinct]
    by_cases same : foldPath path = foldPath other
    · simp [same, ← Option.or_assoc]
    · simp [same]

theorem data_of_foldl {fields' : List (String × Value)} (places : ∀ path ∈ paths, IsPlace path)
    (plain : ∀ f ∈ fields, isData f.2 = false) {index : ContractIndex}
    (found : (paths.foldl (·.insert · (.map fields)) index).get? other = some (.map fields')) :
    IsPlace other ∨ index.get? other = some (.map fields') := by
  induction paths generalizing index with
  | nil => exact .inr found
  | cons path paths ih =>
    rw [List.forall_mem_cons] at places
    rcases ih places.2 found with place | found
    · exact .inl place
    · rcases data_of_insert plain found with same | old
      · obtain ⟨family, name, p, member, atPath⟩ := places.1
        exact .inl ⟨family, name, p, member, atPath.trans same⟩
      · exact .inr old

end Paths

end ContractIndex

namespace Registration

open ContractIndex

/-- Whether a registration puts data at a path. -/
def At (r : Registration) (path : List String) : Prop :=
  ∃ p ∈ r.family.paths r.name, foldPath p = foldPath path

instance (r : Registration) (path : List String) : Decidable (r.At path) :=
  inferInstanceAs (Decidable (∃ p ∈ _, _))

theorem At.place {r : Registration} {path : List String} (h : r.At path) : IsPlace path := by
  obtain ⟨p, member, same⟩ := h
  exact ⟨r.family, r.name, p, member, same⟩

/-- The last of several registrations that puts data at a path. -/
def latest (rs : List Registration) (path : List String) : Option Registration :=
  rs.reverse.find? (·.At path)

/-- No registration has a field that the last one at one of its paths has not. -/
def Covered (rs : List Registration) : Prop :=
  ∀ r ∈ rs, ∀ path last, r.At path → latest rs path = some last → r.fields ⊆ last.fields

end Registration

namespace Handle

/-- The names of the fields that the data of every contract has. -/
def fieldNames : List String := ["name", "address", "contract", "description"]

end Handle

namespace Command

/-- The further fields that contract data can have. -/
def fieldSets : List (List String) :=
  [[], ["borrowRate"], ["symbol", "fullName", "decimals"],
    ["symbol", "fullName", "underlying", "decimals"]]

theorem fieldNames_mem (c : Command) : c.fieldNames ∈ fieldSets := by
  cases c <;> simp [fieldNames, fieldSets]

/-- The names of the fields of contract data are different, whatever the case of their letters. -/
theorem distinct_of_mem : ∀ names ∈ fieldSets,
    (Handle.fieldNames ++ names).Pairwise fun m n => sameWord m n = false := by
  decide

/-- No further field is spelled in another way, or like one that all data has. -/
theorem mem_of_sameWord : ∀ names ∈ fieldSets, ∀ m ∈ names, ∀ names' ∈ fieldSets,
    ∀ n ∈ Handle.fieldNames ++ names', sameWord n m = true → m ∈ names' := by
  decide +kernel

end Command

/-- What a contract is registered with. -/
structure Filing where
  family : Family
  handle : Handle
  description : String
  fields : List (String × Value)

namespace Filing

open ContractIndex

def entries (f : Filing) : List (String × Value) :=
  [("name", .string f.handle.name), ("address", .address f.handle.address),
    ("contract", .string f.handle.kind), ("description", .string f.description)] ++ f.fields

def registration (f : Filing) : Registration :=
  { family := f.family, name := f.handle.name, address := f.handle.address,
    fields := f.fields.map (·.1) }

/-- The further fields are those that a command gives, and they are not data themselves. -/
structure Proper (f : Filing) : Prop where
  given : f.fields.map (·.1) ∈ Command.fieldSets
  plain : ∀ e ∈ f.fields, isData e.2 = false

variable {f : Filing}

theorem Proper.distinct (h : f.Proper) :
    f.entries.Pairwise fun d e => sameWord d.1 e.1 = false := by
  have names := Command.distinct_of_mem _ h.given
  have same : Handle.fieldNames ++ f.fields.map (·.1) = f.entries.map (·.1) := by
    simp [entries, Handle.fieldNames]
  rw [same, List.pairwise_map] at names
  exact names

theorem Proper.plain_entries (h : f.Proper) : ∀ e ∈ f.entries, isData e.2 = false := by
  intro e member
  rcases List.mem_append.mp member with usual | further
  · simp only [List.mem_cons, List.not_mem_nil, or_false] at usual
    rcases usual with rfl | rfl | rfl | rfl <;> rfl
  · exact h.plain e further

/-- Data has a field if the name is one of the usual ones or one of the further ones. -/
theorem field?_isSome {name : String} :
    ((Value.map f.entries).field? name).isSome = true ↔
      ∃ n ∈ Handle.fieldNames ++ f.registration.fields, sameWord n name = true := by
  have same : Handle.fieldNames ++ f.registration.fields = f.entries.map (·.1) := by
    simp [entries, Handle.fieldNames, registration]
  rw [same, Value.field?, Option.isSome_map, List.find?_isSome]
  simp only [List.mem_map, exists_exists_and_eq_and]

end Filing

namespace ContractIndex

/-- The index with what a contract is registered with. -/
def file (index : ContractIndex) (f : Filing) : ContractIndex :=
  (f.family.paths f.handle.name).foldl (·.insert · (.map f.entries))
    (index.insert ["Contracts", f.handle.name] (.address f.handle.address))

/-- The index of several registrations. -/
def ofFilings (fs : List Filing) : ContractIndex := fs.foldl file {}

section File

variable {index : ContractIndex} {f : Filing} {path : List String}

theorem get?_insert_contract {name : String} {address : Address} (rest : List String)
    (place : IsPlace path) :
    (index.insert ["Contracts", name] (.address address)).get? (path ++ rest) =
      index.get? (path ++ rest) := by
  obtain ⟨step, after, atPath, apart⟩ := place.head
  have longer : foldPath (path ++ rest) = step :: (after ++ foldPath rest) := by
    rw [foldPath, List.map_append, ← foldPath, atPath]
    rfl
  refine get?_insert_elsewhere ?_ fun _ => ?_
  · rw [longer]
    intro same
    exact apart (List.cons.inj same).1
  · rw [longer]
    intro same
    exact apart (List.cons.inj same).1

theorem get?_file_place (place : IsPlace path) :
    (index.file f).get? path =
      if f.registration.At path then some (.map f.entries) else index.get? path := by
  have other : (index.insert ["Contracts", f.handle.name] (.address f.handle.address)).get?
      (path ++ []) = index.get? (path ++ []) := get?_insert_contract [] place
  rw [List.append_nil] at other
  rw [file, get?_foldl_place (fun _ member => isPlace_of_mem member) place, other]
  rfl

theorem get?_file_below (proper : f.Proper) (place : IsPlace path) (name : String) :
    (index.file f).get? (path ++ [name]) =
      if f.registration.At path then
        ((Value.map f.entries).field? name).or (index.get? (path ++ [name]))
      else index.get? (path ++ [name]) := by
  rw [file, get?_foldl_below (fun _ member => isPlace_of_mem member) place proper.distinct,
    get?_insert_contract [name] place]
  rfl

theorem data_of_file {fields : List (String × Value)} (proper : f.Proper)
    (found : (index.file f).get? path = some (.map fields)) :
    IsPlace path ∨ index.get? path = some (.map fields) := by
  rcases data_of_foldl (fun _ member => isPlace_of_mem member) proper.plain_entries found with
    place | found
  · exact .inl place
  · rw [get?_insert] at found
    split at found
    · cases found
    · exact .inr found

end File

section Filings

variable {fs : List Filing} {path : List String}

/-- At a place stands the data of the last registration there. -/
theorem get?_ofFilings_place (place : IsPlace path) :
    (ofFilings fs).get? path =
      (fs.reverse.find? (·.registration.At path)).map fun f => .map f.entries := by
  induction fs using List.reverseRecOn with
  | nil => rfl
  | append_singleton fs f ih =>
    rw [ofFilings, List.foldl_concat, ← ofFilings, get?_file_place place, ih,
      List.reverse_concat, List.find?_cons]
    by_cases here : f.registration.At path <;> simp [here]

/-- One step below a place stands the field of the last registration there that has it. -/
theorem get?_ofFilings_below (proper : ∀ f ∈ fs, f.Proper) (place : IsPlace path) (name : String) :
    (ofFilings fs).get? (path ++ [name]) = fs.reverse.findSome? fun f =>
      if f.registration.At path then (Value.map f.entries).field? name else none := by
  induction fs using List.reverseRecOn with
  | nil => rfl
  | append_singleton fs f ih =>
    rw [List.forall_mem_append] at proper
    have last : f.Proper := proper.2 f (List.mem_singleton_self f)
    rw [ofFilings, List.foldl_concat, ← ofFilings, get?_file_below last place, ih proper.1,
      List.reverse_concat, List.findSome?_cons]
    by_cases here : f.registration.At path
    · simp only [here, if_true]
      cases (Value.map f.entries).field? name <;> rfl
    · simp only [here, if_false]

theorem isPlace_of_data {fields : List (String × Value)} (proper : ∀ f ∈ fs, f.Proper)
    (found : (ofFilings fs).get? path = some (.map fields)) : IsPlace path := by
  induction fs using List.reverseRecOn with
  | nil => cases found
  | append_singleton fs f ih =>
    rw [List.forall_mem_append] at proper
    rw [ofFilings, List.foldl_concat, ← ofFilings] at found
    rcases data_of_file (proper.2 f (List.mem_singleton_self f)) found with place | old
    · exact place
    · exact ih proper.1 old

theorem latest_registration (fs : List Filing) (path : List String) :
    Registration.latest (fs.map (·.registration)) path =
      (fs.reverse.find? (·.registration.At path)).map (·.registration) := by
  rw [Registration.latest, ← List.map_reverse, List.find?_map]
  rfl

/-- The first element with a property that is looked for has the say. -/
theorem findSome?_of_find? {α β : Type} {p : α → Prop} [DecidablePred p] {g : α → Option β} {b : β}
    {as : List α} {a : α} (found : as.find? (p ·) = some a) (value : g a = some b) :
    (as.findSome? fun a => if p a then g a else none) = some b := by
  induction as with
  | nil => cases found
  | cons head rest ih =>
    rw [List.find?_cons] at found
    rw [List.findSome?_cons]
    by_cases here : p head
    · simp only [here, decide_true, Option.some.injEq] at found
      subst found
      simp [here, value]
    · simp only [here, decide_false] at found
      simp [here, ih found]

/-- The fields of data stand one step below it in any case. -/
theorem field_of_data {fields : List (String × Value)} (proper : ∀ f ∈ fs, f.Proper)
    (found : (ofFilings fs).get? path = some (.map fields)) {name : String} {value : Value}
    (field : (Value.map fields).field? name = some value) :
    (ofFilings fs).get? (path ++ [name]) = some value := by
  have place := isPlace_of_data proper found
  rw [get?_ofFilings_place place] at found
  obtain ⟨g, last, same⟩ := Option.map_eq_some_iff.mp found
  cases same
  rw [get?_ofFilings_below proper place]
  exact findSome?_of_find? last field

theorem Coherent.covered (proper : ∀ f ∈ fs, f.Proper) (h : (ofFilings fs).Coherent) :
    Registration.Covered (fs.map (·.registration)) := by
  intro r member path last here latest name given
  obtain ⟨f, filed, rfl⟩ := List.mem_map.mp member
  rw [latest_registration] at latest
  obtain ⟨g, final, rfl⟩ := Option.map_eq_some_iff.mp latest
  have place : IsPlace path := here.place
  have data : (ofFilings fs).get? path = some (.map g.entries) := by
    rw [get?_ofFilings_place place, final]
    rfl
  -- the field that was once given is still there, so the last data has one of this name
  have isThere : ((ofFilings fs).get? (path ++ [name])).isSome = true := by
    rw [get?_ofFilings_below proper place, List.findSome?_isSome_iff]
    refine ⟨f, List.mem_reverse.mpr filed, ?_⟩
    rw [if_pos here, Filing.field?_isSome]
    exact ⟨name, List.mem_append_right _ given, sameWord_self name⟩
  rw [h path g.entries data name, Filing.field?_isSome] at isThere
  obtain ⟨n, known, same⟩ := isThere
  have member := List.mem_reverse.mp (List.mem_of_find?_eq_some final)
  exact Command.mem_of_sameWord _ (proper f filed).given name given _ (proper g member).given n
    known same

theorem coherent_of_covered (proper : ∀ f ∈ fs, f.Proper)
    (h : Registration.Covered (fs.map (·.registration))) : (ofFilings fs).Coherent := by
  intro path fields found name
  cases field : (Value.map fields).field? name with
  | some value => exact field_of_data proper found field
  | none =>
    have place := isPlace_of_data proper found
    rw [get?_ofFilings_place place] at found
    obtain ⟨g, last, same⟩ := Option.map_eq_some_iff.mp found
    cases same
    rw [get?_ofFilings_below proper place, List.findSome?_eq_none_iff]
    intro f member
    split
    · rename_i here
      -- what an earlier registration has the last one has too, and that has no such field
      have latest : Registration.latest (fs.map (·.registration)) path = some g.registration := by
        rw [latest_registration, last]
        rfl
      have given : f.registration ∈ fs.map (·.registration) :=
        List.mem_map_of_mem (List.mem_reverse.mp member)
      have kept := h f.registration given path g.registration here latest
      rw [← Option.not_isSome_iff_eq_none, Filing.field?_isSome]
      rintro ⟨n, known, same⟩
      have isThere : ((Value.map g.entries).field? name).isSome = true := by
        rw [Filing.field?_isSome]
        refine ⟨n, ?_, same⟩
        rcases List.mem_append.mp known with usual | further
        · exact List.mem_append_left _ usual
        · exact List.mem_append_right _ (kept further)
      rw [field] at isThere
      cases isThere
    · rfl

/-- The index of some registrations is coherent exactly if no field is left of an earlier one. -/
theorem coherent_ofFilings_iff (proper : ∀ f ∈ fs, f.Proper) :
    (ofFilings fs).Coherent ↔ Registration.Covered (fs.map (·.registration)) :=
  ⟨Coherent.covered proper, coherent_of_covered proper⟩

end Filings

end ContractIndex

end MarketScript
