import MarketScript.Proofs.Decimal.Numeral

/-!
# Which texts are read as decimals

Only numerals are read, and a numeral is taken apart as it was written: into its sign, the digits
around its point, its exponent and its percent sign.  What comes of it then is a matter of its
exponent alone.
-/

namespace MarketScript.Decimal

/-! ## Exponents -/

/-- The word of 64 bits for a whole number, if there is one. -/
def word? (n : Int) : Option Int64 :=
  if -2 ^ 63 ≤ n ∧ n < 2 ^ 63 then some (Int64.ofInt n) else none

theorem word?_toInt (e : Int64) : word? e.toInt = some e := by
  rw [word?, if_pos ⟨e.le_toInt, e.toInt_lt⟩, Int64.ofInt_toInt]

theorem word?_eq_some {n : Int} {e : Int64} : word? n = some e ↔ e.toInt = n := by
  constructor
  · intro fits
    unfold word? at fits
    split at fits
    · rename_i range
      cases fits
      exact Int64.toInt_ofInt_of_le range.1 range.2
    · cases fits
  · rintro rfl
    exact word?_toInt e

theorem unsignable_of_digits {ds : List Char} (digits : ∀ c ∈ ds, c.isDigit = true) :
    Unsignable ds := by
  cases ds with
  | nil => rintro _ ⟨⟩
  | cons d ds => exact unsignable_cons (.inl (digits d List.mem_cons_self))

/-- A written exponent is read if it fits into a word. -/
theorem exponent?_chars (s : Sign) {ds : List Char} (some : ds ≠ [])
    (digits : ∀ c ∈ ds, c.isDigit = true) :
    exponent? (s.chars ++ ds) = word? (s.factor * numeral 10 ds) := by
  have shape : (ds.isEmpty || ! ds.all Char.isDigit) = false := by simpa [some] using digits
  have upper : ∀ n : Int, n ≤ Int64.maxValue.toInt ↔ n < 2 ^ 63 := fun n => by
    rw [Int64.toInt_maxValue]
    omega
  rw [exponent?, splitSign_chars s (unsignable_of_digits digits), Sign.factor_mul, word?]
  simp only [shape, Bool.false_eq_true, if_false, Int64.toInt_minValue, upper]

/-- What is read as an exponent is written with a sign and digits. -/
theorem exists_exponent {cs : List Char} {e : Int64} (read : exponent? cs = some e) :
    ∃ (s : Sign) (ds : List Char), s.chars ++ ds = cs ∧ ds ≠ [] ∧ ∀ c ∈ ds, c.isDigit = true := by
  obtain ⟨s, written, -⟩ := exists_sign cs
  refine ⟨s, (splitSign cs).2, written, ?_⟩
  by_cases shape : ((splitSign cs).2.isEmpty || ! (splitSign cs).2.all Char.isDigit) = true
  · simp [exponent?, shape] at read
  · simpa using shape

/-! ## Digits around a point -/

section Mantissa

open Numeral

variable {d : Draft} {whole rest : List Char} {part : Option (List Char)}

theorem digits?_mantissa (written : d.mantissa = mantissa whole part)
    (digits : ∀ c ∈ whole ++ part.getD [], c.isDigit = true) (some : whole ++ part.getD [] ≠ []) :
    d.digits? = .some (whole, part.getD []) := by
  have noPoint : ∀ c ∈ whole, (c == '.') = false := by
    intro c member
    have digit := digits c (List.mem_append_left _ member)
    rw [beq_eq_false_iff_ne]
    rintro rfl
    simp at digit
  have cut : (splitAtFirst (· == '.') d.mantissa).getD (d.mantissa, []) =
      (whole, part.getD []) := by
    cases part with
    | none =>
      have whole' : d.mantissa = whole := by simpa [mantissa] using written
      rw [whole', splitAtFirst_eq_none.mpr noPoint]
      rfl
    | some ds =>
      rw [splitAtFirst_eq_some.mpr ⟨'.', rfl, written, noPoint⟩]
      rfl
  have any : (whole.isEmpty && (part.getD []).isEmpty) = false := by
    rw [← Bool.not_eq_true, Bool.and_eq_true, List.isEmpty_iff, List.isEmpty_iff]
    rintro ⟨noWhole, noPart⟩
    exact some (by rw [noWhole, noPart]; rfl)
  have all : (whole ++ part.getD []).all Char.isDigit = true := List.all_eq_true.mpr digits
  simp only [Draft.digits?, cut, any, all, Bool.false_eq_true, if_false, if_true]

/-- Digits that are read were written around a point, or without one. -/
theorem exists_mantissa (read : d.digits? = some (whole, rest)) :
    ∃ part, mantissa whole part = d.mantissa ∧ part.getD [] = rest ∧
      (∀ c ∈ whole ++ rest, c.isDigit = true) ∧ whole ++ rest ≠ [] := by
  unfold Draft.digits? at read
  cases cut : splitAtFirst (· == '.') d.mantissa with
  | none =>
    simp only [cut, Option.getD_none] at read
    split at read
    · cases read
    · rename_i any
      split at read
      · rename_i all
        cases read
        refine ⟨none, by simp [mantissa], rfl, List.all_eq_true.mp all, ?_⟩
        simpa using any
      · cases read
  | some pieces =>
    obtain ⟨before, after⟩ := pieces
    obtain ⟨point, isPoint, written, -⟩ := splitAtFirst_eq_some.mp cut
    rw [beq_iff_eq] at isPoint
    subst isPoint
    simp only [cut, Option.getD_some] at read
    split at read
    · cases read
    · rename_i any
      split at read
      · rename_i all
        cases read
        refine ⟨some rest, written.symm, rfl, List.all_eq_true.mp all, ?_⟩
        simpa [imp_iff_not_or] using any
      · cases read

end Mantissa

/-! ## Signs around the body -/

/-- The percent sign at the end, if there is one. -/
def percentSign (percent : Bool) : List Char := if percent then ['%'] else []

theorem unsigned_ofChars (s : Sign) {cs : List Char} (percent : Bool) (plain : Unsignable cs)
    (noPercent : ∀ c ∈ cs, c ≠ '%') :
    Unsigned.ofChars (s.chars ++ cs ++ percentSign percent) = ⟨s.isMinus, percent, cs⟩ := by
  cases percent with
  | true => simp [Unsigned.ofChars, percentSign, splitSign_chars s plain]
  | false =>
    have last : ((s.chars ++ cs).getLast? == some '%') = false := by
      rw [beq_eq_false_iff_ne]
      intro same
      rcases List.mem_append.mp (List.mem_of_getLast? same) with inSign | inBody
      · cases s <;> simp [Sign.chars] at inSign
      · exact noPercent _ inBody rfl
    simp only [Unsigned.ofChars, percentSign, Bool.false_eq_true, if_false, List.append_nil, last,
      splitSign_chars s plain]

/-- The signs that are taken off a text were written around its body. -/
theorem exists_signs (cs : List Char) :
    ∃ s : Sign, s.chars ++ (Unsigned.ofChars cs).body ++ percentSign (Unsigned.ofChars cs).percent =
      cs ∧ s.isMinus = (Unsigned.ofChars cs).negative := by
  by_cases last : cs.getLast? = some '%'
  · obtain ⟨s, written, minus⟩ := exists_sign cs.dropLast
    refine ⟨s, ?_, ?_⟩
    · simp [Unsigned.ofChars, last, written, percentSign, List.dropLast_append_getLast?]
    · simpa [Unsigned.ofChars, last] using minus
  · obtain ⟨s, written, minus⟩ := exists_sign cs
    refine ⟨s, ?_, ?_⟩
    · simp [Unsigned.ofChars, last, written, percentSign]
    · simpa [Unsigned.ofChars, last] using minus

/-! ## Base ten -/

section Ten

open Numeral

variable {s : Sign} {whole : List Char} {part : Option (List Char)} {x : Option Exponent}
  {percent : Bool}

/-- The characters between the signs of a numeral of base ten. -/
theorem mem_body (h : (ten s whole part x percent).WellFormed) {c : Char}
    (member : c ∈ body whole part x) : c.isDigit = true ∨ c ∈ ['.', 'e', 'E', '+', '-'] := by
  obtain ⟨digits, -, exponents⟩ := h
  rcases List.mem_append.mp member with inMantissa | inExponent
  · rcases List.mem_append.mp inMantissa with inWhole | inPart
    · exact .inl (digits c (List.mem_append_left _ inWhole))
    · cases part with
      | none => cases inPart
      | some ds =>
        rcases List.mem_cons.mp inPart with rfl | inPart
        · simp
        · exact .inl (digits c (List.mem_append_right _ inPart))
  · cases x with
    | none => cases inExponent
    | some x =>
      obtain ⟨capital, sign, ds⟩ := x
      rcases List.mem_cons.mp inExponent with rfl | inExponent
      · cases capital <;> simp
      · rcases List.mem_append.mp inExponent with inSign | inDigits
        · cases sign <;> simp_all [Sign.chars]
        · exact .inl ((exponents _ rfl).2 c inDigits)

theorem unsignable_body (h : (ten s whole part x percent).WellFormed) :
    Unsignable (body whole part x) := by
  obtain ⟨digits, some, -⟩ := h
  cases whole with
  | cons d ds => exact unsignable_cons (.inl (digits d (by simp)))
  | nil =>
    cases part with
    | none => exact absurd rfl some
    | some ds => exact unsignable_cons (.inr rfl)

theorem hexDigits?_body (h : (ten s whole part x percent).WellFormed) :
    hexDigits? (body whole part x) = none := by
  have noHex : ∀ c, c = 'x' ∨ c = 'X' → c ∉ body whole part x := by
    rintro c (rfl | rfl) member <;> simpa using mem_body h member
  unfold hexDigits?
  split
  · rename_i same
    exact absurd (by simp [same]) (noHex 'x' (.inl rfl))
  · rename_i same
    exact absurd (by simp [same]) (noHex 'X' (.inr rfl))
  · rfl

/-- A numeral of base ten is taken apart as it was written. -/
theorem unsigned_ten (h : (ten s whole part x percent).WellFormed) :
    Unsigned.ofChars (ten s whole part x percent).chars =
      ⟨s.isMinus, percent, body whole part x⟩ := by
  refine unsigned_ofChars s percent (unsignable_body h) fun c member => ?_
  rintro rfl
  simpa using mem_body h member

theorem draft?_body {u : Unsigned} (h : (ten s whole part x percent).WellFormed)
    (written : u.body = body whole part x) :
    u.draft? = (word? (ten s whole part x percent).exponent).map
      (⟨u.negative, u.percent, mantissa whole part, ·⟩) := by
  have noExponent : ∀ c ∈ mantissa whole part, (c == 'e' || c == 'E') = false := by
    intro c member
    have plain : (ten s whole part none percent).WellFormed := ⟨h.1, h.2.1, by simp⟩
    have inBody : c ∈ body whole part none := by simpa [body] using member
    have digit : c.isDigit = true ∨ c = '.' := by
      rcases List.mem_append.mp member with inWhole | inPart
      · exact .inl (h.1 c (List.mem_append_left _ inWhole))
      · cases part with
        | none => cases inPart
        | some ds =>
          rcases List.mem_cons.mp inPart with rfl | inPart
          · exact .inr rfl
          · exact .inl (h.1 c (List.mem_append_right _ inPart))
    rcases digit with digit | rfl
    · rw [Bool.or_eq_false_iff, beq_eq_false_iff_ne, beq_eq_false_iff_ne]
      constructor <;> (rintro rfl; simp at digit)
    · rfl
  unfold Unsigned.draft?
  cases x with
  | none =>
    have cut : splitAtFirst (fun c => c == 'e' || c == 'E') u.body = none := by
      rw [written, body, Option.elim_none, List.append_nil]
      exact splitAtFirst_eq_none.mpr noExponent
    rw [cut, written, body, Option.elim_none, List.append_nil]
    rfl
  | some x =>
    have cut : splitAtFirst (fun c => c == 'e' || c == 'E') u.body =
        some (mantissa whole part, x.sign.chars ++ x.digits) := by
      refine splitAtFirst_eq_some.mpr ⟨if x.capital then 'E' else 'e', ?_, written, noExponent⟩
      cases x.capital <;> rfl
    obtain ⟨some, digits⟩ := h.2.2 x rfl
    rw [cut]
    dsimp only
    rw [exponent?_chars x.sign some digits]
    rfl

/-- What is made of a numeral of base ten is decided by its exponent. -/
theorem ofChars?_ten (h : (ten s whole part x percent).WellFormed) :
    ofChars? (ten s whole part x percent).chars =
      (word? (ten s whole part x percent).exponent).bind fun e =>
        if e.abs > exponentLimit then none
        else some (ofDigits s.isMinus (whole ++ part.getD [])
          (placesOf (ten s whole part x percent).fraction e percent)) := by
  unfold ofChars?
  rw [unsigned_ten h]
  dsimp only
  rw [hexDigits?_body h]
  dsimp only
  rw [draft?_body h rfl]
  cases word? (ten s whole part x percent).exponent with
  | none => rfl
  | some e =>
    rw [Option.map_some, Option.bind_some, Option.bind_some, Draft.decimal?,
      digits?_mantissa rfl h.1 h.2.1]
    rfl

end Ten

/-! ## Base sixteen -/

section Sixteen

open Numeral

theorem hexDigits?_eq_some {cs ds : List Char} :
    hexDigits? cs = some ds ↔
      ∃ capital : Bool, cs = '0' :: (if capital then 'X' else 'x') :: ds := by
  constructor
  · intro read
    unfold hexDigits? at read
    split at read
    · cases read
      exact ⟨false, rfl⟩
    · cases read
      exact ⟨true, rfl⟩
    · cases read
  · rintro ⟨capital, rfl⟩
    cases capital <;> rfl

/-- The characters of a whole number in base sixteen. -/
theorem mem_of_hexInteger? {ds : List Char} (read : (hexInteger? ds).isSome = true) {c : Char}
    (member : c ∈ ds) : c ∈ ['-', '+', '_'] ∨ (hexDigit? c).isSome = true := by
  -- After a sign all characters are underscores and digits.
  have plain : ∀ (negative : Bool) {cs : List Char},
      (if (cs.isEmpty || cs.head? == some '_') = true then none
        else if ((cs.filter (· != '_')).all (hexDigit? · |>.isSome)) = true then
          some (if negative then - (numeral 16 (cs.filter (· != '_')) : Int)
            else numeral 16 (cs.filter (· != '_')))
        else none).isSome = true →
      ∀ c ∈ cs, c ∈ ['-', '+', '_'] ∨ (hexDigit? c).isSome = true := by
    intro negative cs read c member
    split at read
    · cases read
    · split at read
      · rename_i all
        by_cases underscore : c = '_'
        · simp [underscore]
        · refine .inr (List.all_eq_true.mp all c (List.mem_filter.mpr ⟨member, ?_⟩))
          simpa using underscore
      · cases read
  unfold hexInteger? at read
  split at read
  rename_i negative cs minus
  have afterMinus : c = '-' ∨ c ∈ cs := by
    split at minus <;> cases minus
    · exact .inr member
    · simpa using member
    · exact .inr member
  rcases afterMinus with rfl | member
  · simp
  · split at read
    · exact plain negative read c member
    · rename_i rest single
      rcases List.mem_cons.mp member with rfl | member
      · simp
      · exact plain negative read c member
    · exact plain negative read c member

/-- A numeral of base sixteen is read as it was written. -/
theorem ofChars?_sixteen {s : Sign} {capital : Bool} {ds : List Char} {m : Int}
    (read : hexInteger? ds = some m) :
    ofChars? (sixteen s capital ds).chars = some (ofInt (s.factor * m)) := by
  have noPercent : ∀ c ∈ '0' :: (if capital then 'X' else 'x') :: ds, c ≠ '%' := by
    rintro c member rfl
    simp only [List.mem_cons] at member
    rcases member with zero | mark | inDigits
    · exact absurd zero (by decide)
    · cases capital <;> exact absurd mark (by decide)
    · rcases mem_of_hexInteger? (by rw [read]; rfl) inDigits with sign | digit
      · exact absurd sign (by decide)
      · exact absurd digit (by decide)
  have plain : Unsignable ('0' :: (if capital then 'X' else 'x') :: ds) :=
    unsignable_cons (.inl (by decide))
  have taken := unsigned_ofChars s false plain noPercent
  rw [percentSign, if_neg Bool.false_ne_true, List.append_nil] at taken
  unfold ofChars?
  rw [Numeral.chars, taken]
  dsimp only
  rw [hexDigits?_eq_some.mpr ⟨capital, rfl⟩]
  dsimp only
  rw [read, Sign.factor_mul]
  rfl

end Sixteen

/-! ## Nothing but numerals -/

theorem exists_draft {u : Unsigned} {d : Draft} (read : u.draft? = some d) :
    ∃ x : Option Exponent, d.mantissa ++ x.elim [] Exponent.chars = u.body ∧
      ∀ y ∈ x, y.digits ≠ [] ∧ ∀ c ∈ y.digits, c.isDigit = true := by
  unfold Unsigned.draft? at read
  split at read
  · cases read
    exact ⟨none, List.append_nil _, by simp⟩
  · rename_i mantissa after cut
    obtain ⟨mark, isMark, written, -⟩ := splitAtFirst_eq_some.mp cut
    obtain ⟨e, readExponent, rfl⟩ := Option.map_eq_some_iff.mp read
    obtain ⟨s, ds, rfl, some, digits⟩ := exists_exponent readExponent
    refine ⟨.some ⟨mark == 'E', s, ds⟩, ?_, ?_⟩
    · rw [written]
      rcases Bool.or_eq_true_iff.mp isMark with small | capital
      · rw [beq_iff_eq] at small
        subst small
        rfl
      · rw [beq_iff_eq] at capital
        subst capital
        rfl
    · rintro _ ⟨⟩
      exact ⟨some, digits⟩

/-- A text that is read spells a numeral. -/
theorem exists_numeral {cs : List Char} {d : Decimal} (read : ofChars? cs = some d) :
    ∃ n : Numeral, n.WellFormed ∧ n.chars = cs := by
  obtain ⟨s, written, -⟩ := exists_signs cs
  unfold ofChars? at read
  dsimp only at read
  split at read
  · rename_i ds hex
    obtain ⟨capital, body⟩ := hexDigits?_eq_some.mp hex
    split at read
    · cases read
    · rename_i noPercent
      obtain ⟨m, readDigits, -⟩ := Option.map_eq_some_iff.mp read
      refine ⟨.sixteen s capital ds, ?_, ?_⟩
      · show (hexInteger? ds).isSome = true
        rw [readDigits]
        rfl
      · rw [← written, body, percentSign, if_neg noPercent, List.append_nil]
        rfl
  · obtain ⟨draft, isDraft, readDraft⟩ := Option.bind_eq_some_iff.mp read
    unfold Draft.decimal? at readDraft
    split at readDraft
    · cases readDraft
    · obtain ⟨⟨whole, rest⟩, readDigits, -⟩ := Option.map_eq_some_iff.mp readDraft
      obtain ⟨part, isMantissa, rfl, digits, some⟩ := exists_mantissa readDigits
      obtain ⟨x, isBody, exponents⟩ := exists_draft isDraft
      refine ⟨.ten s whole part x (Unsigned.ofChars cs).percent, ⟨digits, some, exponents⟩, ?_⟩
      rw [Numeral.chars, Numeral.body, isMantissa, isBody]
      exact written

end MarketScript.Decimal
