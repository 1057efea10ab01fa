import Mathlib.Algebra.Order.BigOperators.Group.List
import Mathlib.Algebra.Order.Ring.Int
import MarketScript.Store

/-!
# Stores of amounts

What becomes of the sum of all values of a store when one value changes, and how a single value
compares with the sum.
-/

namespace MarketScript

namespace Store

variable {κ ν : Type} [Ord κ] [Std.TransOrd κ] [Std.LawfulEqOrd κ]

omit [Std.TransOrd κ] in
theorem mem_of_find {key : κ} {value : ν} {entries : List (κ × ν)}
    (h : find key entries = some value) : (key, value) ∈ entries := by
  induction entries with
  | nil => cases h
  | cons head rest ih =>
    obtain ⟨k, v⟩ := head
    rw [find] at h
    split at h
    · rename_i heq
      cases Std.LawfulEqCmp.eq_of_compare heq
      cases h
      exact List.mem_cons_self
    · exact List.mem_cons_of_mem _ (ih h)

omit [Std.TransOrd κ] in
/-- Every entry is found under its key. -/
theorem find_of_mem {entries : List (κ × ν)} {e : κ × ν}
    (h : entries.Pairwise fun a b => compare a.1 b.1 = .lt) (he : e ∈ entries) :
    find e.1 entries = some e.2 := by
  induction entries with
  | nil => cases he
  | cons head rest ih =>
    obtain ⟨k, v⟩ := head
    rw [List.pairwise_cons] at h
    rcases List.mem_cons.mp he with rfl | he
    · simp [find, Std.ReflCmp.compare_self]
    · have hlt : compare k e.1 = .lt := h.1 e he
      have hne : compare e.1 k ≠ .eq := by
        intro heq
        have hk : e.1 = k := Std.LawfulEqCmp.eq_of_compare heq
        simp [hk, Std.ReflCmp.compare_self] at hlt
      rw [find, if_neg hne]
      exact ih h.2 he

section

variable [DecidableEq κ]

/-- Erasing a key before putting a value there makes no difference. -/
@[simp] theorem insert_erase (s : Store κ ν) (key : κ) (value : ν) :
    (s.erase key).insert key value = s.insert key value := by
  apply ext
  intro other
  rw [get?_insert, get?_insert, get?_erase]
  split <;> rfl

theorem erase_insert_insert (s : Store κ ν) (a b : κ) (v w : ν) :
    ((s.erase a).insert b v).insert a w = (s.insert b v).insert a w := by
  apply ext
  intro other
  simp only [get?_insert, get?_erase]
  by_cases ha : a = other <;> simp [ha]

/-- Values at different keys can be put there in any order. -/
theorem insert_comm (s : Store κ ν) {a b : κ} (apart : a ≠ b) (v w : ν) :
    (s.insert a v).insert b w = (s.insert b w).insert a v := by
  apply ext
  intro other
  simp only [get?_insert]
  by_cases ha : a = other
  · subst ha
    rw [if_neg apart.symm, if_pos rfl, if_pos rfl]
  · rw [if_neg ha, if_neg ha]

theorem erase_insert (s : Store κ ν) {a b : κ} (apart : a ≠ b) (v : ν) :
    (s.insert a v).erase b = (s.erase b).insert a v := by
  apply ext
  intro other
  simp only [get?_insert, get?_erase]
  by_cases ha : a = other
  · subst ha
    rw [if_neg apart.symm, if_pos rfl, if_pos rfl]
  · rw [if_neg ha, if_neg ha]

/-- Writing what stands at a key changes nothing. -/
theorem insert_of_get? {s : Store κ ν} {key : κ} {value : ν} (h : s.get? key = some value) :
    s.insert key value = s := by
  rw [← insert_erase, insert_erase_of_get? h]

end

/-- The sum of all values. -/
def total (s : Store κ Int) : Int := s.values.sum

omit [Std.TransOrd κ] [Std.LawfulEqOrd κ] in
@[simp] theorem total_empty : (empty : Store κ Int).total = 0 := rfl

omit [Std.LawfulEqOrd κ] in
theorem sum_put (key : κ) (value : Int) {entries : List (κ × Int)}
    (h : entries.Pairwise fun a b => compare a.1 b.1 = .lt) :
    ((put key value entries).map (·.2)).sum =
      (entries.map (·.2)).sum + (value - (find key entries).getD 0) := by
  induction entries with
  | nil => simp [put, find]
  | cons head rest ih =>
    obtain ⟨k, v⟩ := head
    rw [List.pairwise_cons] at h
    rw [put]
    split
    · rename_i hlt
      -- the key comes before all others, so nothing stood at it
      have hnone : find key ((k, v) :: rest) = none := by
        apply find_eq_none_of_lt
        intro e he
        rcases List.mem_cons.mp he with rfl | he
        · exact hlt
        · exact Std.TransCmp.lt_trans hlt (h.1 e he)
      rw [hnone]
      simp
      omega
    · rename_i heq
      simp [find, heq]
      omega
    · rename_i hgt
      have hih := ih h.2
      simp [find, hgt] at hih ⊢
      omega

/-- A value put into a store changes the sum by as much as it differs from the value before. -/
theorem total_insert (s : Store κ Int) (key : κ) (value : Int) :
    (s.insert key value).total = s.total + (value - (s.get? key).getD 0) :=
  sum_put key value s.sorted

omit [Std.TransOrd κ] in
theorem values_nonneg {s : Store κ Int} (h : ∀ key, 0 ≤ (s.get? key).getD 0) :
    ∀ v ∈ s.values, 0 ≤ v := by
  intro v hv
  obtain ⟨e, he, rfl⟩ := List.mem_map.mp hv
  have := h e.1
  rwa [get?, find_of_mem s.sorted he] at this

omit [Std.TransOrd κ] in
theorem total_nonneg {s : Store κ Int} (h : ∀ key, 0 ≤ (s.get? key).getD 0) : 0 ≤ s.total :=
  List.sum_nonneg (values_nonneg h)

omit [Std.TransOrd κ] in
/-- Where no value is negative, none is more than the sum of all. -/
theorem getD_le_total {s : Store κ Int} (h : ∀ key, 0 ≤ (s.get? key).getD 0) (key : κ) :
    (s.get? key).getD 0 ≤ s.total := by
  cases hfound : s.get? key with
  | none => exact total_nonneg h
  | some v =>
    refine List.single_le_sum (values_nonneg h) v ?_
    exact List.mem_map.mpr ⟨_, mem_of_find hfound, rfl⟩

/-- A change of one value leaves no value negative, unless it is the changed one. -/
theorem nonneg_add_iff [DecidableEq κ] {s : Store κ Int} (h : ∀ key, 0 ≤ (s.get? key).getD 0)
    (key : κ) (amount : Int) :
    (∀ other, 0 ≤ ((s.insert key ((s.get? key).getD 0 + amount)).get? other).getD 0) ↔
      ¬ (s.get? key).getD 0 + amount < 0 := by
  constructor
  · intro all
    have := all key
    rw [get?_insert_self, Option.getD_some] at this
    omega
  · intro fits other
    rw [get?_insert]
    split
    · rw [Option.getD_some]
      omega
    · exact h other

end Store

end MarketScript
