import MarketScript.Proofs.Index.Coherence

/-!
# Addresses in the index

The index has addresses under the names of contracts, and data with addresses at the places of the
families.  All of them are addresses of contracts that were registered, at a place of a family those
of contracts that were registered in this family.
-/

namespace MarketScript

namespace Family

/-- Data is put at the keyword of a family, or on its shelf under a name. -/
theorem mem_paths {family : Family} {name : String} {path : List String}
    (member : path ∈ family.paths name) : path = [family.keyword] ∨ path = [family.shelf, name] := by
  cases family with
  | controller => simpa [paths, keyword] using member
  | market | token | rateModel => exact .inr (List.mem_singleton.mp member)
  | registry => exact .inl (List.mem_singleton.mp member)

/-- Different families put data at different places. -/
theorem eq_of_paths {f g : Family} {name name' : String} {path path' : List String}
    (member : path ∈ f.paths name) (member' : path' ∈ g.paths name')
    (same : ContractIndex.foldPath path = ContractIndex.foldPath path') : f = g := by
  have keywords : foldCase f.keyword = foldCase g.keyword → f = g := by
    cases f <;> cases g <;> decide
  rcases mem_paths member with rfl | rfl <;> rcases mem_paths member' with rfl | rfl
  · exact keywords (List.cons.inj same).1
  · cases (List.cons.inj same).2
  · cases (List.cons.inj same).2
  · exact foldCase_shelf_inj.mp (List.cons.inj same).1

end Family

namespace ContractIndex

variable {index : ContractIndex} {fs : List Filing} {name : String}
  {path : List String} {v : Value}

/-- Under the name of a contract stands its address, and no data gets in the way. -/
theorem get?_file_contract {f : Filing} :
    (index.file f).get? ["Contracts", name] =
      if sameWord f.handle.name name then some (.address f.handle.address)
      else index.get? ["Contracts", name] := by
  have elsewhere : ∀ (paths : List (List String)) (index : ContractIndex),
      (∀ path ∈ paths, IsPlace path) →
      (paths.foldl (·.insert · (.map f.entries)) index).get? ["Contracts", name] =
        index.get? ["Contracts", name] := by
    intro paths
    induction paths with
    | nil => exact fun index _ => rfl
    | cons path paths ih =>
      intro index places
      rw [List.forall_mem_cons] at places
      rw [List.foldl_cons, ih _ places.2]
      obtain ⟨step, rest, atPath, apart⟩ := places.1.head
      refine get?_insert_elsewhere ?_ fun _ => ?_
      · rw [atPath]
        exact fun same => apart (List.cons.inj same).1.symm
      · rw [atPath]
        exact fun same => apart (List.cons.inj same).1.symm
  have same : foldPath ["Contracts", f.handle.name] = foldPath ["Contracts", name] ↔
      sameWord f.handle.name name = true := by
    simp [foldPath, sameWord_iff]
  rw [file, elsewhere _ _ fun _ member => isPlace_of_mem member, get?_insert]
  simp only [same]
  rfl

section Filings

variable (proper : ∀ f ∈ fs, f.Proper)

/-- Under the name of a contract stands the address of one that was registered. -/
theorem contract_of_ofFilings (found : (ofFilings fs).get? ["Contracts", name] = some v) :
    ∃ f ∈ fs, v = .address f.handle.address := by
  induction fs using List.reverseRecOn with
  | nil => cases found
  | append_singleton fs f ih =>
    rw [ofFilings, List.foldl_concat, ← ofFilings, get?_file_contract] at found
    split at found
    · cases found
      exact ⟨f, by simp, rfl⟩
    · obtain ⟨g, member, same⟩ := ih found
      exact ⟨g, List.mem_append_left _ member, same⟩

/-- The address of contract data is the one of the contract. -/
theorem address_of_entries (f : Filing) :
    (Value.map f.entries).field? "address" = some (.address f.handle.address) := by
  have name : sameWord "name" "address" = false := by decide
  simp [Filing.entries, Value.field?, name]

include proper in
/-- At the place of a family stands data of a contract that was registered there, and its address
    stands below. -/
theorem place_of_ofFilings (place : IsPlace path)
    (found : (ofFilings fs).get? path = some v ∨
      (ofFilings fs).get? (path ++ ["address"]) = some v) :
    ∃ f ∈ fs, f.registration.At path ∧ v.addressIn = .ok f.handle.address := by
  rcases found with data | below
  · rw [get?_ofFilings_place place] at data
    obtain ⟨f, last, rfl⟩ := Option.map_eq_some_iff.mp data
    refine ⟨f, List.mem_reverse.mp (List.mem_of_find?_eq_some last), ?_, ?_⟩
    · simpa using List.find?_some last
    · rw [Value.addressIn, address_of_entries]
      rfl
  · rw [get?_ofFilings_below proper place] at below
    obtain ⟨f, member, field⟩ := List.exists_of_findSome?_eq_some below
    split at field
    · rename_i here
      rw [address_of_entries] at field
      cases field
      exact ⟨f, List.mem_reverse.mp member, here, rfl⟩
    · cases field

end Filings

end ContractIndex

end MarketScript
