import MarketScript.Proofs.Address
import MarketScript.Proofs.Decimal.Written
import MarketScript.Proofs.Except
import MarketScript.Reading

/-!
# Numbers in readings

Where a fraction or a percentage is asked for, a word that can be read as a numeral is one, before it
is asked what else the word may mean.  An address is such a word, and the only one that does not mean
a number by itself.
-/

namespace MarketScript

open Decimal (Numeral)

/-! ## Words with digits -/

theorem mem_of_mem_trimBlanks {cs : List Char} {c : Char} (member : c ∈ trimBlanks cs) : c ∈ cs := by
  rw [trimBlanks, List.mem_reverse] at member
  have inReverse := (List.dropWhile_suffix _).subset member
  rw [List.mem_reverse] at inReverse
  exact (List.dropWhile_suffix _).subset inReverse

/-- The word has a digit. -/
def HasDigit (w : String) : Prop := ∃ c ∈ w.toList, c.isDigit = true

/-- A digit has no case, so a word with one is no word without. -/
theorem HasDigit.not_sameWord {w v : String} (h : HasDigit w)
    (plain : (foldCase v).toList.any Char.isDigit = false) : sameWord w v = false := by
  rw [← Bool.not_eq_true, sameWord_iff]
  intro same
  obtain ⟨c, member, digit⟩ := h
  have folded : c.toLower ∈ (foldCase w).toList := by
    rw [toList_foldCase]
    exact List.mem_map_of_mem member
  rw [same] at folded
  have noDigit := List.any_eq_false.mp plain _ folded
  rw [isDigit_toLower] at noDigit
  exact noDigit digit

theorem HasDigit.ne {w v : String} (h : HasDigit w)
    (plain : (foldCase v).toList.any Char.isDigit = false) : w ≠ v := by
  rintro rfl
  have apart := h.not_sameWord plain
  rw [sameWord_self] at apart
  cases apart

/-- A word with a digit means an address or a number by itself, or nothing. -/
theorem Value.ofLiteral?_of_hasDigit {w : String} (h : HasDigit w) :
    ofLiteral? w =
      ((Address.ofString? w).map address).or ((Number.ofString? w).map number) := by
  unfold ofLiteral?
  rw [h.not_sameWord (v := "true") (by decide), h.not_sameWord (v := "false") (by decide),
    if_neg Bool.false_ne_true, if_neg Bool.false_ne_true, if_neg (h.ne (by decide)),
    if_neg (h.ne (by decide)), if_neg (h.ne (by decide))]
  cases Address.ofString? w <;> rfl

/-- Every numeral has a digit. -/
theorem Decimal.hasDigit {w : String} {d : Decimal} (read : Decimal.ofString? w = some d) :
    HasDigit w := by
  obtain ⟨n, h, written⟩ := Decimal.exists_numeral read
  have inNumeral : ∃ c ∈ n.chars, c.isDigit = true := by
    cases n with
    | sixteen s capital ds => exact ⟨'0', by simp [Numeral.chars], by decide⟩
    | ten s whole part x percent =>
      obtain ⟨digits, some, -⟩ := h
      obtain ⟨c, member⟩ := List.exists_mem_of_ne_nil _ some
      refine ⟨c, ?_, digits c member⟩
      have inMantissa : c ∈ Numeral.mantissa whole part := by
        rcases List.mem_append.mp member with inWhole | inPart
        · exact List.mem_append_left _ inWhole
        · cases part with
          | none => cases inPart
          | some ds => exact List.mem_append_right _ (List.mem_cons_of_mem _ inPart)
      exact List.mem_append_left _ (List.mem_append_right _ (List.mem_append_left _ inMantissa))
  obtain ⟨c, member, digit⟩ := inNumeral
  rw [written] at member
  exact ⟨c, mem_of_mem_trimBlanks member, digit⟩

/-! ## Addresses as numerals -/

namespace Address

variable {w : String} {a : Address}

/-- An address is written as a numeral of base sixteen, with forty digits. -/
theorem exists_digits (read : ofString? w = some a) :
    ∃ (capital : Bool) (ds : List Char), w.toList = (Numeral.sixteen .none capital ds).chars ∧
      ds.length = 40 ∧ (∀ c ∈ ds, (hexDigit? c).isSome = true) ∧
      a = ⟨BitVec.ofNat 160 (numeral 16 ds)⟩ := by
  obtain ⟨ds, spelled, rfl⟩ := ofString?_eq_some.mp read
  rcases spelled.sign with small | capital
  · exact ⟨false, ds, small, spelled.forty, spelled.isDigit, rfl⟩
  · exact ⟨true, ds, capital, spelled.forty, spelled.isDigit, rfl⟩

/-- A run of digits is a whole number in base sixteen. -/
theorem hexInteger?_digits {ds : List Char} (some : ds ≠ [])
    (digits : ∀ c ∈ ds, (hexDigit? c).isSome = true) :
    Decimal.hexInteger? ds = .some (numeral 16 ds) := by
  have apart : ∀ c ∈ ds, c ≠ '-' ∧ c ≠ '+' ∧ c ≠ '_' := by
    intro c member
    refine ⟨?_, ?_, ?_⟩ <;> (rintro rfl; exact absurd (digits _ member) (by decide))
  have clean : ds.filter (· != '_') = ds := by
    rw [List.filter_eq_self]
    intro c member
    simpa using (apart c member).2.2
  have all : ds.all (hexDigit? · |>.isSome) = true := List.all_eq_true.mpr digits
  cases ds with
  | nil => exact absurd rfl some
  | cons d rest =>
    obtain ⟨noMinus, noPlus, noLine⟩ := apart d List.mem_cons_self
    simp [Decimal.hexInteger?, noMinus, noPlus, noLine, clean, all]

theorem isBlank_of_hexDigit? {c : Char} (digit : (hexDigit? c).isSome = true) :
    isBlank c = false := by
  rw [hexDigit?_eq] at digit
  have bounds : 48 ≤ c.toNat ∧ c.toNat ≤ 102 := by grind
  exact isBlank_of_visible (by omega) (by omega)

/-- The address of the word is also the numeral of its bits. -/
theorem decimal_ofString? (read : ofString? w = some a) :
    Decimal.ofString? w = some (.ofInt a.bits.toNat) := by
  obtain ⟨capital, ds, written, forty, digits, rfl⟩ := exists_digits read
  have some : ds ≠ [] := by
    rintro rfl
    cases forty
  have small := numeral_lt_of_digits digits
  have plain : ∀ c ∈ w.toList, isBlank c = false := by
    rw [written]
    intro c member
    rcases List.mem_cons.mp member with rfl | member
    · decide
    · rcases List.mem_cons.mp member with rfl | member
      · cases capital <;> decide
      · exact isBlank_of_hexDigit? (digits c member)
  rw [Decimal.ofString?, trimBlanks_of_plain plain, written,
    Decimal.ofChars?_sixteen (hexInteger?_digits some digits)]
  rw [forty] at small
  have fits : (BitVec.ofNat 160 (numeral 16 ds)).toNat = numeral 16 ds := by
    rw [BitVec.toNat_ofNat, Nat.mod_eq_of_lt]
    exact small
  rw [fits]
  exact congrArg (Option.some ∘ Decimal.ofInt) (one_mul _)

end Address

/-- The address that an expression is the literal of. -/
def Event.address? (e : Event) : Option Address := e.unwrapSingle.asWord?.bind Address.ofString?

namespace Scene

variable (s : Scene) {e : Event}

/-! ## What is asked for -/

/-- A word that means something means it wherever any value will do. -/
theorem resolve_value_of_word {w : String} {v : Value} (isWord : e.unwrapSingle = .word w)
    (means : s.world.resolveWord? w = some v) : s.resolve .value e = .ok v := by
  have steps : e.depth = 4 * e.size + 3 + 1 := rfl
  have read : s.answer e.depth (.value e) = pure v := by
    rw [steps, Scene.answer, Query.step, valueOf, isWord]
    dsimp only
    rw [means]
  rw [resolve, Resolver.run, read]
  rfl

theorem resolve_number :
    s.resolve .number e = do let v ← s.resolve .value e; let _ ← v.asNumber; return v := by
  unfold resolve Resolver.run Resolver.numberOf
  dsimp only
  cases s.answer e.depth (.value e) with
  | none => rfl
  | some r =>
    cases r with
    | error error => rfl
    | ok v =>
      cases v <;> rfl

theorem resolve_exp : s.resolve .exp e =
    match Resolver.decimalOf? e with
    | some d => .ok (.number (.exp d))
    | none => s.resolve .number e := by
  unfold resolve Resolver.run
  dsimp only
  cases Resolver.decimalOf? e <;> rfl

theorem resolve_percent : s.resolve .percent e =
    match Resolver.percentOf? e with
    | some d => .ok (.number (.exp d))
    | none => s.resolve .number e := by
  unfold resolve Resolver.run
  dsimp only
  cases Resolver.percentOf? e <;> rfl

/-- An address literal means the address wherever any value will do, and another numeral means the
    number. -/
theorem resolve_value_of_decimal {d : Decimal} (read : Resolver.decimalOf? e = some d) :
    s.resolve .value e =
      .ok (e.address?.elim (.number (.ofDecimal d)) Value.address) := by
  obtain ⟨w, isWord, read⟩ := Option.bind_eq_some_iff.mp read
  have word : e.unwrapSingle = .word w := by
    cases unwrapped : e.unwrapSingle <;> rw [unwrapped] at isWord <;> cases isWord
    rfl
  apply s.resolve_value_of_word word
  rw [World.resolveWord?, Value.ofLiteral?_of_hasDigit (Decimal.hasDigit read), Event.address?, word]
  show (((Address.ofString? w).map Value.address).or ((Number.ofString? w).map Value.number)).or _ =
    some ((Address.ofString? w).elim _ _)
  rw [Number.ofString?, read]
  cases Address.ofString? w <;> rfl

/-- With or without a percent sign, a percentage is a numeral. -/
theorem percentOf?_isSome : (Resolver.percentOf? e).isSome = (Resolver.decimalOf? e).isSome := by
  unfold Resolver.percentOf? Resolver.decimalOf?
  cases e.unwrapSingle.asWord? with
  | none => rfl
  | some w =>
    show (if w.toList.getLast? == some '%' then Decimal.ofString? w
      else (Decimal.ofString? w).map (·.scaleDown 2)).isSome = (Decimal.ofString? w).isSome
    split
    · rfl
    · rw [Option.isSome_map]

/-- The numbers that a fraction and a percentage are for an address. -/
theorem numeral_of_address {a : Address} (literal : e.address? = some a) :
    Resolver.decimalOf? e = some (.ofInt a.bits.toNat) := by
  obtain ⟨w, isWord, read⟩ := Option.bind_eq_some_iff.mp literal
  rw [Resolver.decimalOf?, isWord, Option.bind_some, Address.decimal_ofString? read]

/-- A number that is asked for is what the expression is where any value will do. -/
theorem resolve_value_of_number {v : Value} (given : s.resolve .number e = .ok v) :
    ∃ n, v = .number n ∧ s.resolve .value e = .ok v := by
  rw [resolve_number] at given
  obtain ⟨v', read, given⟩ := except_bind_eq_ok.mp given
  obtain ⟨n, isNumber, same⟩ := except_bind_eq_ok.mp given
  cases same
  cases v <;> cases isNumber
  exact ⟨_, rfl, read⟩

/-- A fraction and a percentage are taken from the numeral, if the expression is one. -/
theorem scaled_cases {r : Resolver} (scaled : r ∈ [Resolver.exp, Resolver.percent]) :
    (∃ d, Resolver.decimalOf? e = some d ∧ ∃ d', s.resolve r e = .ok (.number (.exp d'))) ∨
      (Resolver.decimalOf? e = none ∧ s.resolve r e = s.resolve .number e) := by
  have percent := percentOf?_isSome (e := e)
  simp only [List.mem_cons, List.not_mem_nil, or_false] at scaled
  rcases scaled with rfl | rfl
  · rw [resolve_exp]
    cases Resolver.decimalOf? e with
    | none => exact .inr ⟨rfl, rfl⟩
    | some d => exact .inl ⟨d, rfl, d, rfl⟩
  · rw [resolve_percent]
    cases numeral : Resolver.decimalOf? e with
    | none =>
      rw [numeral, Option.isSome_none, Option.isSome_eq_false_iff, Option.isNone_iff_eq_none]
        at percent
      rw [percent]
      exact .inr ⟨rfl, rfl⟩
    | some d =>
      rw [numeral, Option.isSome_some] at percent
      obtain ⟨d', given⟩ := Option.isSome_iff_exists.mp percent
      rw [given]
      exact .inl ⟨d, rfl, d', rfl⟩

/-- A fraction or a percentage that is asked for is a number where any value will do, unless the
    expression is the literal of an address.  Then it is an address there, and no number where a number
    is asked for, but the number of its bits is taken for the fraction. -/
theorem numbers_agree_iff :
    (∀ v, s.resolve .number e = .ok v → ∃ n, v = .number n ∧ s.resolve .value e = .ok v) ∧
    (∀ r ∈ [Resolver.exp, Resolver.percent],
      ((∀ v, s.resolve r e = .ok v → ∃ n, s.resolve .value e = .ok (.number n)) ↔
        e.address? = none)) ∧
    ∀ a ∈ e.address?,
      s.resolve .number e = .error (.typeMismatch "Number" s!"Address({a.text})") ∧
      s.resolve .exp e = .ok (.number (.exp (.ofInt a.bits.toNat))) ∧
      ∃ d, s.resolve .percent e = .ok (.number (.exp d)) := by
  refine ⟨fun v => s.resolve_value_of_number, ?_, ?_⟩
  · intro r scaled
    constructor
    · intro agree
      by_contra literal
      obtain ⟨a, literal⟩ := Option.ne_none_iff_exists'.mp literal
      have numeral := numeral_of_address literal
      obtain ⟨d, -, d', given⟩ | ⟨none, -⟩ := s.scaled_cases (e := e) scaled
      · obtain ⟨n, isNumber⟩ := agree _ given
        rw [s.resolve_value_of_decimal numeral, literal] at isNumber
        cases isNumber
      · rw [none] at numeral
        cases numeral
    · intro noAddress v given
      obtain ⟨d, numeral, -⟩ | ⟨-, same⟩ := s.scaled_cases (e := e) scaled
      · rw [s.resolve_value_of_decimal numeral, noAddress]
        exact ⟨_, rfl⟩
      · rw [same] at given
        obtain ⟨n, rfl, read⟩ := s.resolve_value_of_number given
        exact ⟨n, read⟩
  · intro a literal
    have numeral := numeral_of_address literal
    refine ⟨?_, ?_, ?_⟩
    · rw [resolve_number, s.resolve_value_of_decimal numeral, literal]
      rfl
    · rw [resolve_exp, numeral]
    · obtain ⟨d, -, given⟩ | ⟨none, -⟩ := s.scaled_cases (e := e) (r := .percent) (by decide)
      · exact given
      · rw [none] at numeral
        cases numeral

/-- The address that ends in `a1` is an address where any value will do, and the number 161 where a
    fraction is asked for. -/
theorem address_read_as_fraction :
    let s : Scene := ⟨{ runId := "run", accounts := [] }, {}⟩
    let e : Event := .word "0x00000000000000000000000000000000000000a1"
    s.resolve .value e = .ok (.address ⟨161⟩) ∧
      s.resolve .exp e = .ok (.number (.exp (.ofInt 161))) := by
  refine ⟨?_, ?_⟩ <;> rfl

/-! ## The numbers of numerals -/

end Scene

section

variable {w : String} {v : Decimal}

end

end MarketScript
