import MarketScript.Proofs.Decimal.Value
import MarketScript.Proofs.Except
import MarketScript.Value

/-!
# Values for contracts

A value can be given to a contract if it is made of whole numbers, texts, truth values and addresses,
in lists of any depth.  What is given is the value again when a contract gives it back, and whatever
a contract gives back can be given to another unless a unit is within it.
-/

namespace MarketScript

/-- No unit is within the contract value. -/
inductive Abi.Unitless : Abi → Prop
  | number (n : Int) : Unitless (.number n)
  | string (s : String) : Unitless (.string s)
  | bool (b : Bool) : Unitless (.bool b)
  | address (a : Address) : Unitless (.address a)
  | array {elements : List Abi} : (∀ a ∈ elements, Unitless a) → Unitless (.array elements)

namespace Value

/-- The value is made of what contracts take. -/
inductive Sendable : Value → Prop
  | number {n : Number} {i : Int} : n.mantissa.value = i → Sendable (.number n)
  | string (s : String) : Sendable (.string s)
  | bool (b : Bool) : Sendable (.bool b)
  | address (a : Address) : Sendable (.address a)
  | list {elements : List Value} : (∀ v ∈ elements, Sendable v) → Sendable (.list elements)

/-- What holds of a value and of what a contract is given for it. -/
structure Sent (v : Value) (a : Abi) : Prop where
  sendable : v.Sendable
  unitless : a.Unitless
  same : (ofAbi a).same v = true

/-- The same of several values. -/
structure SentAll (vs : List Value) (as : List Abi) : Prop where
  sendable : ∀ v ∈ vs, v.Sendable
  unitless : ∀ a ∈ as, a.Unitless
  same : sameElements (ofAbis as) vs = true

mutual

theorem sent_of_encode : (v : Value) → ∀ {a}, v.encode = .ok a → Sent v a
  | number n, a, encoded => by
    rw [encode] at encoded
    split at encoded
    · rename_i i whole
      cases encoded
      have isWhole := Decimal.toInt?_eq_some.mp whole
      refine ⟨.number isWhole, .number i, Number.same_iff.mpr (Decimal.value_inj.mp ?_)⟩
      exact (Decimal.value_ofInt i).trans isWhole.symm
    · cases encoded
  | string s, a, encoded => by
    cases encoded
    exact ⟨.string s, .string s, beq_self_eq_true s⟩
  | bool b, a, encoded => by
    cases encoded
    exact ⟨.bool b, .bool b, beq_self_eq_true b⟩
  | address x, a, encoded => by
    cases encoded
    exact ⟨.address x, .address x, beq_self_eq_true x⟩
  | list vs, a, encoded => by
    rw [encode] at encoded
    obtain ⟨as, given, rfl⟩ := except_map_eq_ok.mp encoded
    have all := sentAll_of_encodes vs given
    exact ⟨.list all.sendable, .array all.unitless, all.same⟩
  | map _, a, encoded | event _, a, encoded | nothing, a, encoded => by cases encoded

theorem sentAll_of_encodes : (vs : List Value) → ∀ {as}, encodes vs = .ok as → SentAll vs as
  | [], as, encoded => by
    cases encoded
    exact ⟨List.forall_mem_nil _, List.forall_mem_nil _, rfl⟩
  | v :: vs, as, encoded => by
    rw [encodes] at encoded
    obtain ⟨a, first, rest⟩ := except_bind_eq_ok.mp encoded
    obtain ⟨as, others, whole⟩ := except_bind_eq_ok.mp rest
    cases whole
    have one := sent_of_encode v first
    have all := sentAll_of_encodes vs others
    refine ⟨List.forall_mem_cons.mpr ⟨one.sendable, all.sendable⟩,
      List.forall_mem_cons.mpr ⟨one.unitless, all.unitless⟩, ?_⟩
    rw [ofAbis, sameElements, one.same, all.same]
    rfl

end

theorem encodes_of_each {vs : List Value} (each : ∀ v ∈ vs, ∃ a, v.encode = .ok a) :
    ∃ as, encodes vs = .ok as := by
  induction vs with
  | nil => exact ⟨[], rfl⟩
  | cons v vs ih =>
    obtain ⟨⟨a, first⟩, others⟩ := List.forall_mem_cons.mp each
    obtain ⟨as, rest⟩ := ih others
    refine ⟨a :: as, ?_⟩
    rw [encodes, first, rest]
    rfl

theorem Sendable.encode {v : Value} (h : v.Sendable) : ∃ a, v.encode = .ok a := by
  induction h with
  | @number n i whole =>
    have isWhole : n.toInt? = some i := Decimal.toInt?_eq_some.mpr whole
    exact ⟨.number i, by rw [Value.encode, isWhole]⟩
  | string s => exact ⟨.string s, rfl⟩
  | bool b => exact ⟨.bool b, rfl⟩
  | address a => exact ⟨.address a, rfl⟩
  | list _ ih =>
    obtain ⟨as, encoded⟩ := encodes_of_each ih
    exact ⟨.array as, by rw [Value.encode, encoded]; rfl⟩

theorem encodes_ofAbis {as : List Abi} (each : ∀ a ∈ as, (ofAbi a).encode = .ok a) :
    encodes (ofAbis as) = .ok as := by
  induction as with
  | nil => rfl
  | cons a as ih =>
    obtain ⟨first, others⟩ := List.forall_mem_cons.mp each
    rw [ofAbis, encodes, first, ih others]
    rfl

theorem encode_ofAbi {a : Abi} (h : a.Unitless) : (ofAbi a).encode = .ok a := by
  induction h with
  | number n => rfl
  | string s => rfl
  | bool b => rfl
  | address a => rfl
  | array _ ih =>
    rw [ofAbi, encode, encodes_ofAbis ih]
    rfl

/-- A contract value is given as it was got exactly if no unit is within it.  A value can be given
    exactly if it is made of what contracts take, and then what was given is the value again. -/
theorem contract_values_round_trip :
    (∀ a : Abi, (ofAbi a).encode = .ok a ↔ a.Unitless) ∧
    ∀ v : Value, ((∃ a, v.encode = .ok a) ↔ v.Sendable) ∧
      ∀ a, v.encode = .ok a → (ofAbi a).same v = true := by
  refine ⟨fun a => ⟨?_, encode_ofAbi⟩, fun v => ⟨⟨?_, Sendable.encode⟩, ?_⟩⟩
  · intro encoded
    exact (sent_of_encode _ encoded).unitless
  · rintro ⟨a, encoded⟩
    exact (sent_of_encode v encoded).sendable
  · intro a encoded
    exact (sent_of_encode v encoded).same

/-- A scaled number in a list in a list comes back without its scale, as the same number. -/
theorem nested_list_round_trips :
    (∃ a, (list [list [number (.exp (.ofInt 2))], bool true]).encode = .ok a ∧
      (ofAbi a).same (list [list [number (.exp (.ofInt 2))], bool true]) = true) ∧
    (ofAbi (.array [.array [.number 5], .string "x"])).encode =
      .ok (.array [.array [.number 5], .string "x"]) := by
  obtain ⟨back, values⟩ := contract_values_round_trip
  constructor
  · obtain ⟨sendable, same⟩ := values (list [list [number (.exp (.ofInt 2))], bool true])
    have two : (Number.exp (.ofInt 2)).mantissa.value = (2000000000000000000 : Int) :=
      Decimal.toInt?_eq_some.mp (by decide +kernel)
    have made : (list [list [number (.exp (.ofInt 2))], bool true]).Sendable := by
      refine .list (List.forall_mem_cons.mpr ⟨.list ?_, List.forall_mem_singleton.mpr (.bool true)⟩)
      exact List.forall_mem_singleton.mpr (.number two)
    obtain ⟨a, encoded⟩ := sendable.mpr made
    exact ⟨a, encoded, same a encoded⟩
  · refine (back _).mpr (.array (List.forall_mem_cons.mpr ⟨.array ?_, ?_⟩))
    · exact List.forall_mem_singleton.mpr (.number 5)
    · exact List.forall_mem_singleton.mpr (.string "x")

end Value

end MarketScript
