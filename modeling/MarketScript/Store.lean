/-!
# Stores

Finite maps as lists of entries in rising order of their keys.  The order is part of the type, so
two stores with the same entries are the same store, in whatever order the entries were made.
-/

namespace MarketScript

/-- Finite maps from `κ` to `ν`. -/
structure Store (κ : Type) (ν : Type) [Ord κ] where
  /-- The entries, in rising order of their keys. -/
  entries : List (κ × ν)
  sorted : entries.Pairwise fun a b => compare a.1 b.1 = .lt

namespace Store

variable {κ ν : Type} [Ord κ]

/-- The value of the first entry with a key. -/
def find (key : κ) : List (κ × ν) → Option ν
  | [] => none
  | (k, v) :: rest => if compare key k = .eq then some v else find key rest

/-- Puts an entry in its place, instead of one with the same key. -/
def put (key : κ) (value : ν) : List (κ × ν) → List (κ × ν)
  | [] => [(key, value)]
  | (k, v) :: rest =>
    match compare key k with
    | .lt => (key, value) :: (k, v) :: rest
    | .eq => (key, value) :: rest
    | .gt => (k, v) :: put key value rest

/-- The entries with other keys. -/
def drop (key : κ) (entries : List (κ × ν)) : List (κ × ν) :=
  entries.filter fun entry => compare key entry.1 != .eq

/-- Every entry after a putting is the new one or an old one. -/
theorem mem_of_mem_put {key : κ} {value : ν} {entries : List (κ × ν)} {e : κ × ν}
    (h : e ∈ put key value entries) : e = (key, value) ∨ e ∈ entries := by
  induction entries with
  | nil => simpa [put] using h
  | cons head rest ih =>
    obtain ⟨k, v⟩ := head
    rw [put] at h
    split at h
    · simpa using h
    · simp only [List.mem_cons] at h ⊢
      exact h.imp_right .inr
    · simp only [List.mem_cons] at h ⊢
      rcases h with h | h
      · exact .inr (.inl h)
      · exact (ih h).imp_right .inr

variable [Std.TransOrd κ] [Std.LawfulEqOrd κ]

/-- Putting keeps the order. -/
theorem sorted_put (key : κ) (value : ν) {entries : List (κ × ν)}
    (h : entries.Pairwise fun a b => compare a.1 b.1 = .lt) :
    (put key value entries).Pairwise fun a b => compare a.1 b.1 = .lt := by
  induction entries with
  | nil => simp [put]
  | cons head rest ih =>
    obtain ⟨k, v⟩ := head
    rw [List.pairwise_cons] at h
    rw [put]
    split
    · rename_i hlt
      refine List.pairwise_cons.mpr ⟨fun e he => ?_, List.pairwise_cons.mpr h⟩
      rcases List.mem_cons.mp he with rfl | he
      · exact hlt
      · exact Std.TransCmp.lt_trans hlt (h.1 e he)
    · rename_i heq
      refine List.pairwise_cons.mpr ⟨fun e he => ?_, h.2⟩
      rw [Std.LawfulEqCmp.eq_of_compare heq]
      exact h.1 e he
    · rename_i hgt
      refine List.pairwise_cons.mpr ⟨fun e he => ?_, ih h.2⟩
      rcases mem_of_mem_put he with rfl | he
      · exact Std.OrientedCmp.lt_of_gt hgt
      · exact h.1 e he

/-- The store without entries. -/
def empty : Store κ ν := ⟨[], .nil⟩

omit [Std.TransOrd κ] [Std.LawfulEqOrd κ] in
@[simp] theorem entries_empty : (empty : Store κ ν).entries = [] := rfl

instance : Inhabited (Store κ ν) := ⟨empty⟩

/-- The value at a key. -/
def get? (s : Store κ ν) (key : κ) : Option ν := find key s.entries

/-- Whether a key has a value. -/
def contains (s : Store κ ν) (key : κ) : Bool := (s.get? key).isSome

/-- The store with a value at a key. -/
def insert (s : Store κ ν) (key : κ) (value : ν) : Store κ ν :=
  ⟨put key value s.entries, sorted_put key value s.sorted⟩

/-- The store without a value at a key. -/
def erase (s : Store κ ν) (key : κ) : Store κ ν :=
  ⟨drop key s.entries, s.sorted.filter _⟩

/-- The entries, in rising order of their keys. -/
def toList (s : Store κ ν) : List (κ × ν) := s.entries

/-- The values, in rising order of their keys. -/
def values (s : Store κ ν) : List ν := s.entries.map (·.2)

/-- The store of several entries; of two with one key the later stays. -/
def ofList (entries : List (κ × ν)) : Store κ ν :=
  entries.foldl (fun s entry => s.insert entry.1 entry.2) empty

def size (s : Store κ ν) : Nat := s.entries.length

omit [Std.TransOrd κ] [Std.LawfulEqOrd κ] in
/-- Stores with the same entries are the same. -/
theorem ext_entries {s t : Store κ ν} (h : s.entries = t.entries) : s = t := by
  cases s; cases t; cases h; rfl

omit [Std.TransOrd κ] [Std.LawfulEqOrd κ] in
@[simp] theorem get?_empty (key : κ) : (empty : Store κ ν).get? key = none := rfl

section

variable [DecidableEq κ]

omit [Std.TransOrd κ] in
theorem find_put (key other : κ) (value : ν) (entries : List (κ × ν)) :
    find other (put key value entries) = if key = other then some value else find other entries := by
  induction entries with
  | nil =>
    by_cases h : key = other
    · simp [put, find, h, Std.ReflCmp.compare_self]
    · have : compare other key ≠ .eq := fun he => h (Std.LawfulEqCmp.eq_of_compare he).symm
      simp [put, find, h, this]
  | cons head rest ih =>
    obtain ⟨k, v⟩ := head
    rw [put]
    split
    · by_cases h : key = other
      · simp [find, h, Std.ReflCmp.compare_self]
      · have : compare other key ≠ .eq := fun he => h (Std.LawfulEqCmp.eq_of_compare he).symm
        simp [find, h, this]
    · rename_i heq
      have hk := Std.LawfulEqCmp.eq_of_compare heq
      subst hk
      by_cases h : key = other
      · simp [find, h, Std.ReflCmp.compare_self]
      · have : compare other key ≠ .eq := fun he => h (Std.LawfulEqCmp.eq_of_compare he).symm
        simp [find, h, this]
    · rename_i hgt
      by_cases h : key = other
      · subst h
        simp only [find, hgt, ih]
        simp
      · simp only [find, ih, h, if_false]

/-- What stands at each key after an insertion. -/
theorem get?_insert (s : Store κ ν) (key other : κ) (value : ν) :
    (s.insert key value).get? other = if key = other then some value else s.get? other :=
  find_put key other value s.entries

@[simp] theorem get?_insert_self (s : Store κ ν) (key : κ) (value : ν) :
    (s.insert key value).get? key = some value := by
  simp [get?_insert]

omit [Std.TransOrd κ] in
theorem find_drop (key other : κ) (entries : List (κ × ν)) :
    find other (drop key entries) = if key = other then none else find other entries := by
  induction entries with
  | nil => simp [drop, find]
  | cons head rest ih =>
    obtain ⟨k, v⟩ := head
    by_cases hk : compare key k = .eq
    · have := Std.LawfulEqCmp.eq_of_compare hk
      subst this
      have hd : drop key ((key, v) :: rest) = drop key rest := by simp [drop]
      rw [hd, ih]
      by_cases h : key = other
      · simp [h]
      · have : compare other key ≠ .eq := fun he => h (Std.LawfulEqCmp.eq_of_compare he).symm
        simp [find, h, this]
    · have hd : drop key ((k, v) :: rest) = (k, v) :: drop key rest := by simp [drop, hk]
      rw [hd]
      simp only [find, ih]
      by_cases h : key = other
      · subst h
        simp [hk]
      · simp [h]

omit [Std.TransOrd κ] in
/-- What stands at each key after an erasure. -/
theorem get?_erase (s : Store κ ν) (key other : κ) :
    (s.erase key).get? other = if key = other then none else s.get? other :=
  find_drop key other s.entries

end

omit [Std.TransOrd κ] [Std.LawfulEqOrd κ] in
/-- A key less than all keys of a list is not among them. -/
theorem find_eq_none_of_lt {key : κ} {entries : List (κ × ν)}
    (h : ∀ e ∈ entries, compare key e.1 = .lt) : find key entries = none := by
  induction entries with
  | nil => rfl
  | cons head rest ih =>
    have h0 := h head (by simp)
    rw [find, h0]
    simpa using ih fun e he => h e (by simp [he])

/-- Stores that hold the same value at every key are the same. -/
theorem ext {s t : Store κ ν} (h : ∀ key, s.get? key = t.get? key) : s = t := by
  obtain ⟨xs, hx⟩ := s
  obtain ⟨ys, hy⟩ := t
  apply ext_entries
  replace h : ∀ key, find key xs = find key ys := h
  show xs = ys
  induction xs generalizing ys with
  | nil =>
    cases ys with
    | nil => rfl
    | cons y ys =>
      have := h y.1
      simp [find, Std.ReflCmp.compare_self] at this
  | cons x xs ih =>
    cases ys with
    | nil =>
      have := h x.1
      simp [find, Std.ReflCmp.compare_self] at this
    | cons y ys =>
      have hxs := List.pairwise_cons.mp hx
      have hys := List.pairwise_cons.mp hy
      have hkey : x.1 = y.1 := by
        cases hc : compare x.1 y.1 with
        | eq => exact Std.LawfulEqCmp.eq_of_compare hc
        | lt =>
          have := h x.1
          rw [@find_eq_none_of_lt _ _ _ _ (y :: ys)] at this
          · simp [find, Std.ReflCmp.compare_self] at this
          · intro e he
            rcases List.mem_cons.mp he with rfl | he
            · exact hc
            · exact Std.TransCmp.lt_trans hc (hys.1 e he)
        | gt =>
          have hc := Std.OrientedCmp.lt_of_gt hc
          have := h y.1
          rw [@find_eq_none_of_lt _ _ _ _ (x :: xs)] at this
          · simp [find, Std.ReflCmp.compare_self] at this
          · intro e he
            rcases List.mem_cons.mp he with rfl | he
            · exact hc
            · exact Std.TransCmp.lt_trans hc (hxs.1 e he)
      have hvalue : x.2 = y.2 := by
        have := h x.1
        rw [hkey] at this
        simpa [find, hkey, Std.ReflCmp.compare_self] using this
      have hxy : x = y := Prod.ext hkey hvalue
      subst hxy
      congr 1
      refine ih hxs.2 ys hys.2 fun key => ?_
      by_cases hk : compare key x.1 = .eq
      · have := Std.LawfulEqCmp.eq_of_compare hk
        subst this
        rw [find_eq_none_of_lt hxs.1, find_eq_none_of_lt hys.1]
      · have := h key
        simpa [find, hk] using this

/-- Writing back what stands at a key after erasing it changes nothing. -/
theorem insert_erase_of_get? {s : Store κ ν} {key : κ} {value : ν} (h : s.get? key = some value) :
    (s.erase key).insert key value = s := by
  classical
  apply ext
  intro other
  rw [get?_insert, get?_erase]
  by_cases hk : key = other
  · subst hk; simp [h]
  · simp [hk]

end Store

end MarketScript
