import Mathlib.Data.List.Induction
import MarketScript.Token

/-!
# Balanced parentheses

Parentheses are balanced where they match, which is a matter of counting: no beginning of the tokens
closes more than it opens, and all of them together close what they open.  Where they are not, some
parenthesis is to blame.
-/

namespace MarketScript

namespace Line

/-- How many more parentheses some tokens open than they close. -/
def depth (ts : List Token) : Int :=
  ts.countP (·.kind = .leftParen) - ts.countP (·.kind = .rightParen)

/-- No parenthesis is closed that was not opened. -/
def Supported (ts : List Token) : Prop := ∀ before, before <+: ts → 0 ≤ depth before

structure Balanced (ts : List Token) : Prop where
  supported : Supported ts
  depth_eq : depth ts = 0

variable {t : Token} {ts before after : List Token}

@[simp] theorem depth_nil : depth [] = 0 := rfl

@[simp] theorem depth_append (ts us : List Token) : depth (ts ++ us) = depth ts + depth us := by
  simp only [depth, List.countP_append]
  omega

theorem depth_cons (t : Token) (ts : List Token) : depth (t :: ts) = depth [t] + depth ts :=
  depth_append [t] ts

@[simp] theorem depth_open (h : t.kind = .leftParen) : depth [t] = 1 := by
  simp [depth, h]

@[simp] theorem depth_close (h : t.kind = .rightParen) : depth [t] = -1 := by
  simp [depth, h]

@[simp] theorem depth_other (hl : t.kind ≠ .leftParen) (hr : t.kind ≠ .rightParen) :
    depth [t] = 0 := by
  simp [depth, hl, hr]

theorem Supported.of_append (h : Supported (before ++ after)) : Supported before :=
  fun start along => h start (along.trans (List.prefix_append before after))

theorem supported_nil : Supported [] := by
  intro before along
  simp [List.prefix_nil.mp along]

/-- What follows balanced tokens is supported exactly if the whole is. -/
theorem Supported.concat_iff (h : Supported ts) :
    Supported (ts ++ [t]) ↔ 0 ≤ depth (ts ++ [t]) := by
  constructor
  · intro all
    exact all _ (List.prefix_refl _)
  · intro level before along
    rcases List.prefix_concat_iff.mp along with rfl | along
    · exact level
    · exact h before along

/-- A parenthesis that closes nothing is the first such one if what stands before it is balanced. -/
theorem exists_stray (h : ¬ Supported ts) :
    ∃ before t after, ts = before ++ t :: after ∧ t.kind = .rightParen ∧ Balanced before := by
  induction ts using List.reverseRecOn with
  | nil => exact absurd supported_nil h
  | append_singleton ts t ih =>
    by_cases earlier : Supported ts
    · rw [earlier.concat_iff, depth_append] at h
      have level : 0 ≤ depth ts := earlier ts (List.prefix_refl ts)
      by_cases hr : t.kind = .rightParen
      · rw [depth_close hr] at h
        exact ⟨ts, t, [], rfl, hr, earlier, by omega⟩
      · by_cases hl : t.kind = .leftParen
        · rw [depth_open hl] at h
          omega
        · rw [depth_other hl hr] at h
          omega
    · obtain ⟨before, u, after, rfl, closing, balanced⟩ := ih earlier
      exact ⟨before, u, after ++ [t], by simp, closing, balanced⟩

/-- A parenthesis that is never closed is the last such one if what stands after it is balanced. -/
theorem exists_unclosed (h : ∃ after, after <:+ ts ∧ 0 < depth after) :
    ∃ before t after, ts = before ++ t :: after ∧ t.kind = .leftParen ∧ Balanced after := by
  induction ts with
  | nil =>
    obtain ⟨after, along, level⟩ := h
    rw [List.suffix_nil.mp along, depth_nil] at level
    omega
  | cons t ts ih =>
    by_cases later : ∃ after, after <:+ ts ∧ 0 < depth after
    · obtain ⟨before, u, after, rfl, opening, balanced⟩ := ih later
      exact ⟨t :: before, u, after, rfl, opening, balanced⟩
    · -- no end of `ts` opens more than it closes, so the parenthesis is the first token
      have ends : ∀ after, after <:+ ts → depth after ≤ 0 := by
        intro after along
        by_contra level
        exact later ⟨after, along, by omega⟩
      obtain ⟨after, along, level⟩ := h
      rcases List.suffix_cons_iff.mp along with rfl | along
      · rw [depth_cons] at level
        have whole := ends ts (List.suffix_refl ts)
        by_cases hl : t.kind = .leftParen
        · rw [depth_open hl] at level
          have zero : depth ts = 0 := by omega
          refine ⟨[], t, ts, rfl, hl, ?_, zero⟩
          rintro before ⟨rest, rfl⟩
          have := ends rest (List.suffix_append before rest)
          rw [depth_append] at zero
          omega
        · have : depth [t] ≤ 0 := by
            by_cases hr : t.kind = .rightParen
            · rw [depth_close hr]
              omega
            · simp [depth_other hl hr]
          omega
      · exact absurd level (Int.not_lt.mpr (ends after along))

/-- Tokens whose parentheses do not match have a stray one or one that is never closed. -/
theorem balanced_or_exists (ts : List Token) :
    Balanced ts ∨
      (∃ before t after, ts = before ++ t :: after ∧ t.kind = .rightParen ∧ Balanced before) ∨
      Supported ts ∧
        ∃ before t after, ts = before ++ t :: after ∧ t.kind = .leftParen ∧ Balanced after := by
  by_cases supported : Supported ts
  · have level := supported ts (List.prefix_refl ts)
    by_cases zero : depth ts = 0
    · exact .inl ⟨supported, zero⟩
    · exact .inr (.inr ⟨supported, exists_unclosed ⟨ts, List.suffix_refl ts, by omega⟩⟩)
  · exact .inr (.inl (exists_stray supported))

/-- Tokens that are no parentheses change nothing. -/
theorem balanced_append_iff (flat : ∀ t ∈ after, t.kind ≠ .leftParen ∧ t.kind ≠ .rightParen) :
    Balanced (before ++ after) ↔ Balanced before := by
  induction after using List.reverseRecOn with
  | nil => rw [List.append_nil]
  | append_singleton after t ih =>
    obtain ⟨flat, flat_t⟩ := List.forall_mem_append.mp flat
    obtain ⟨hl, hr⟩ := flat_t t (List.mem_singleton_self t)
    rw [← ih flat, ← List.append_assoc]
    have same : depth (before ++ after ++ [t]) = depth (before ++ after) := by
      rw [depth_append _ [t], depth_other hl hr, Int.add_zero]
    constructor
    · intro h
      exact ⟨h.supported.of_append, same ▸ h.depth_eq⟩
    · intro h
      have zero := same.trans h.depth_eq
      exact ⟨h.supported.concat_iff.mpr (Int.le_of_eq zero.symm), zero⟩

end Line

end MarketScript
