import MarketScript.Event

/-!
# Sizes and words of events

What is within an event is smaller than the event, and taking parentheses off makes nothing larger.
Nor does what is within an event mention a word that the event does not.
-/

namespace MarketScript

namespace Event

variable {e : Event} {es tokens : List Event}

@[simp] theorem size_word (w : String) : (word w).size = 1 := rfl

@[simp] theorem size_list (es : List Event) : (list es).size = 1 + sizes es := rfl

@[simp] theorem sizes_nil : sizes [] = 0 := rfl

@[simp] theorem sizes_cons (e : Event) (es : List Event) : sizes (e :: es) = e.size + sizes es := rfl

theorem size_pos (e : Event) : 0 < e.size := by
  cases e with
  | word w | quoted w => exact Nat.one_pos
  | list es => exact Nat.add_pos_left Nat.one_pos _

theorem sizes_append (es es' : List Event) : sizes (es ++ es') = sizes es + sizes es' := by
  induction es with
  | nil => simp
  | cons e es ih => rw [List.cons_append, sizes_cons, sizes_cons, ih, Nat.add_assoc]

theorem size_le_of_mem (member : e ∈ es) : e.size ≤ sizes es := by
  obtain ⟨before, after, rfl⟩ := List.append_of_mem member
  rw [sizes_append, sizes_cons]
  omega

theorem sizes_le_of_suffix (suffix : es <:+ tokens) : sizes es ≤ sizes tokens := by
  obtain ⟨before, rfl⟩ := suffix
  rw [sizes_append]
  omega

/-- A word among several events makes up one of their sizes. -/
theorem sizes_eraseIdx {i : Nat} {w : String} (here : es[i]? = some (word w)) :
    sizes (es.eraseIdx i) + 1 = sizes es := by
  induction es generalizing i with
  | nil => simp at here
  | cons e es ih =>
    cases i with
    | zero =>
      simp only [List.getElem?_cons_zero, Option.some.injEq] at here
      subst here
      simp [Nat.add_comm]
    | succ i =>
      have rest := ih (i := i) (by simpa using here)
      simp only [List.eraseIdx_cons_succ, sizes_cons]
      omega

theorem size_unwrapSingle_le (e : Event) : e.unwrapSingle.size ≤ e.size := by
  fun_induction unwrapSingle e with
  | case1 e ih =>
    simp
    omega
  | case2 e _ => exact Nat.le_refl _

/-- The event is no larger than some tokens together, and there are any. -/
def Within (e : Event) (tokens : List Event) : Prop :=
  tokens ≠ [] ∧ e.size ≤ (list tokens).size

theorem within_of_mem (member : e ∈ tokens) : e.Within tokens := by
  refine ⟨List.ne_nil_of_mem member, ?_⟩
  have := size_le_of_mem member
  rw [size_list]
  omega

theorem Within.unwrapSingle (h : e.Within tokens) : e.unwrapSingle.Within tokens :=
  ⟨h.1, Nat.le_trans e.size_unwrapSingle_le h.2⟩

theorem Within.of_suffix (h : e.Within es) (suffix : es <:+ tokens) : e.Within tokens := by
  refine ⟨fun none => h.1 (List.suffix_nil.mp (none ▸ suffix)), Nat.le_trans h.2 ?_⟩
  exact Nat.add_le_add_left (sizes_le_of_suffix suffix) 1

/-- What is within the tokens of an event is smaller than the event. -/
theorem Within.lt {i : Nat} {w : String} (h : e.Within (tokens.eraseIdx i))
    (here : tokens[i]? = some (word w)) : e.size < (list tokens).size := by
  have rest := sizes_eraseIdx here
  have small := h.2
  rw [size_list] at small ⊢
  omega

theorem unwrapSingle_unwrapSingle (e : Event) : e.unwrapSingle.unwrapSingle = e.unwrapSingle := by
  fun_induction unwrapSingle e with
  | case1 e ih => exact ih
  | case2 e plain =>
    unfold unwrapSingle
    split
    · rename_i d
      exact absurd rfl (plain d)
    · rfl

/-- What an argument can be given of some tokens. -/
inductive Of (tokens : List Event) : Event → Prop
  | token {e : Event} (member : e ∈ tokens) : Of tokens e
  /-- An element of a token that is a group. -/
  | element {e : Event} {es : List Event} (group : list es ∈ tokens) (member : e ∈ es) : Of tokens e
  /-- All tokens that are left. -/
  | rest {es : List Event} (some : es ≠ []) (suffix : es <:+ tokens) : Of tokens (list es)

theorem Of.within (h : e.Of tokens) : e.Within tokens := by
  cases h with
  | token member => exact within_of_mem member
  | element group member =>
    obtain ⟨some, small⟩ := within_of_mem group
    refine ⟨some, Nat.le_trans ?_ small⟩
    have smaller := size_le_of_mem member
    rw [size_list]
    omega
  | @rest es some suffix =>
    have within : (list es).Within es := ⟨some, Nat.le_refl _⟩
    exact within.of_suffix suffix

theorem Of.of_suffix (h : e.Of es) (suffix : es <:+ tokens) : e.Of tokens := by
  cases h with
  | token member => exact .token (suffix.subset member)
  | element group member => exact .element (suffix.subset group) member
  | rest some suffix' => exact .rest some (suffix'.trans suffix)

/-- A bare word of the event, at any depth, has a property. -/
inductive Mentions (p : String → Prop) : Event → Prop
  | word {w : String} (h : p w) : Mentions p (word w)
  | item {e : Event} {es : List Event} (member : e ∈ es) (h : Mentions p e) : Mentions p (list es)

section Mentions

variable {p : String → Prop}

@[simp] theorem mentions_word {w : String} : (word w).Mentions p ↔ p w := by
  constructor
  · rintro ⟨h⟩
    exact h
  · exact .word

theorem mentions_list : (list es).Mentions p ↔ ∃ e ∈ es, e.Mentions p := by
  constructor
  · rintro (_ | ⟨member, h⟩)
    exact ⟨_, member, h⟩
  · rintro ⟨e, member, h⟩
    exact .item member h

theorem mentions_unwrapSingle : e.unwrapSingle.Mentions p ↔ e.Mentions p := by
  fun_induction unwrapSingle e with
  | case1 e ih =>
    rw [ih, mentions_list]
    simp
  | case2 e _ => rfl

theorem mentions_items : (list e.items).Mentions p ↔ e.Mentions p := by
  cases e with
  | list es => rfl
  | word | quoted => simp [items, mentions_list]

theorem Mentions.of_subset (h : (list es).Mentions p) (sub : es ⊆ tokens) :
    (list tokens).Mentions p := by
  obtain ⟨e, member, h⟩ := mentions_list.mp h
  exact .item (sub member) h

/-- What an argument is given mentions no more than the tokens. -/
theorem Of.mentions (given : e.Of tokens) (h : e.Mentions p) : (list tokens).Mentions p := by
  cases given with
  | token member => exact .item member h
  | element group member => exact .item group (.item member h)
  | rest _ suffix => exact h.of_subset suffix.subset

theorem not_mentions_false : ¬ e.Mentions fun _ => False := by
  intro h
  induction h with
  | word h => exact h
  | item _ _ ih => exact ih

end Mentions

end Event

end MarketScript
