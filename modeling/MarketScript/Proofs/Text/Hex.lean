import MarketScript.Proofs.Decimal.Meaning
import MarketScript.Proofs.Text.Fold
import MarketScript.Sha256

/-!
# Digits of base sixteen

A number below a power of sixteen has one numeral of a given length in small letters.  A byte is two
digits, and the digits of a text are told by its bytes as well as by its characters, since no byte of
a longer character is one of ASCII.
-/

namespace MarketScript

/-! ## Numerals in small letters -/

/-- A digit of base sixteen that is no capital letter. -/
structure SmallDigit (c : Char) : Prop where
  isDigit : (hexDigit? c).isSome = true
  small : c.toLower = c

/-- The digit in small letters. -/
theorem SmallDigit.of_digit {c : Char} (isDigit : (hexDigit? c).isSome = true) :
    SmallDigit c.toLower := by
  refine ⟨by rwa [hexDigit?_toLower], ?_⟩
  rcases toLower_cases c.toLower with ⟨-, same⟩ | ⟨low, high, -⟩
  · exact same
  · rcases toLower_cases c with ⟨apart, same⟩ | ⟨_, _, further⟩
    · rw [same] at low high
      omega
    · omega

/-- A small digit is told by its value. -/
theorem SmallDigit.eq_of_value {c d : Char} (hc : SmallDigit c) (hd : SmallDigit d)
    (same : (hexDigit? c).getD 0 = (hexDigit? d).getD 0) : c = d := by
  have noCapital {c : Char} (h : SmallDigit c) : ¬ (65 ≤ c.toNat ∧ c.toNat ≤ 90) := by
    rintro ⟨low, high⟩
    have moved := toLower_cases c
    rw [h.small] at moved
    omega
  have placed := hc.isDigit
  have placed' := hd.isDigit
  have := noCapital hc
  have := noCapital hd
  rw [hexDigit?_eq] at same placed placed'
  rw [hexDigit?_eq d] at same
  rw [← Char.toNat_inj]
  grind

theorem hexDigit?_digitChar {n : Nat} (h : n < 16) : hexDigit? n.digitChar = some n := by
  have all : ∀ n < 16, hexDigit? (Nat.digitChar n) = some n := by decide
  exact all n h

theorem smallDigit_digitChar {n : Nat} (h : n < 16) : SmallDigit n.digitChar := by
  have all : ∀ n < 16, (Nat.digitChar n).toLower = Nat.digitChar n := by decide
  exact ⟨by rw [hexDigit?_digitChar h]; rfl, all n h⟩

/-- Numerals of the same length and of the same number are the same up to the case of letters. -/
theorem eq_of_numeral_eq {cs ds : List Char} (length : cs.length = ds.length)
    (hc : ∀ c ∈ cs, SmallDigit c) (hd : ∀ d ∈ ds, SmallDigit d)
    (same : numeral 16 cs = numeral 16 ds) : cs = ds := by
  induction cs using List.reverseRecOn generalizing ds with
  | nil => exact (List.length_eq_zero_iff.mp length.symm).symm
  | append_singleton cs c ih =>
    obtain rfl | ⟨ds, d, rfl⟩ := List.eq_nil_or_concat' ds
    · simp at length
    have last := hc c (by simp)
    have last' := hd d (by simp)
    obtain ⟨m, isDigit⟩ := Option.isSome_iff_exists.mp last.isDigit
    obtain ⟨n, isDigit'⟩ := Option.isSome_iff_exists.mp last'.isDigit
    have := hexDigit?_lt isDigit
    have := hexDigit?_lt isDigit'
    rw [numeral_concat, numeral_concat, isDigit, isDigit', Option.getD_some, Option.getD_some] at same
    have rest : cs = ds := by
      apply ih
      · simpa using length
      · exact fun c member => hc c (List.mem_append_left _ member)
      · exact fun d member => hd d (List.mem_append_left _ member)
      · omega
    have lastSame : c = d := by
      apply last.eq_of_value last'
      rw [isDigit, isDigit', Option.getD_some, Option.getD_some]
      omega
    rw [rest, lastSame]

theorem numeral_lt_of_digits {cs : List Char} (digits : ∀ c ∈ cs, (hexDigit? c).isSome = true) :
    numeral 16 cs < 16 ^ cs.length := by
  refine Decimal.numeral_lt fun c member => ?_
  obtain ⟨n, isDigit⟩ := Option.isSome_iff_exists.mp (digits c member)
  rw [isDigit]
  exact hexDigit?_lt isDigit

theorem numeral_replicate_zero_append (count : Nat) (cs : List Char) :
    numeral 16 (List.replicate count '0' ++ cs) = numeral 16 cs := by
  induction count with
  | zero => rfl
  | succ count ih => exact ih

/-- The digits that the core library writes mean the number. -/
theorem numeral_toDigits (n : Nat) : numeral 16 (Nat.toDigits 16 n) = n := by
  induction n using Nat.strongRecOn with
  | ind n ih =>
    by_cases small : n < 16
    · rw [Nat.toDigits_of_lt_base small]
      show 0 * 16 + (hexDigit? n.digitChar).getD 0 = n
      rw [hexDigit?_digitChar small]
      exact Nat.zero_add n
    · have last : n % 16 < 16 := Nat.mod_lt _ (by decide)
      rw [Nat.toDigits_of_base_le (by decide) (Nat.le_of_not_lt small), numeral_concat,
        ih _ (by omega), hexDigit?_digitChar last]
      exact Nat.div_add_mod' n 16

theorem smallDigit_of_mem_toDigits {n : Nat} {c : Char} (member : c ∈ Nat.toDigits 16 n) :
    SmallDigit c := by
  induction n using Nat.strongRecOn with
  | ind n ih =>
    by_cases small : n < 16
    · rw [Nat.toDigits_of_lt_base small, List.mem_singleton] at member
      rw [member]
      exact smallDigit_digitChar small
    · rw [Nat.toDigits_of_base_le (by decide) (Nat.le_of_not_lt small), List.mem_append] at member
      rcases member with before | last
      · exact ih _ (by omega) before
      · rw [List.mem_singleton.mp last]
        exact smallDigit_digitChar (Nat.mod_lt _ (by decide))

/-! ## Bytes as digits -/

/-- The value of a byte that is a digit of base sixteen, of either case. -/
def nibble? (b : UInt8) : Option UInt8 :=
  if 0x30 ≤ b ∧ b ≤ 0x39 then some (b - 0x30)
  else if 0x41 ≤ b ∧ b ≤ 0x46 then some (b - 0x41 + 10)
  else if 0x61 ≤ b ∧ b ≤ 0x66 then some (b - 0x61 + 10)
  else none

/-- The bytes that digits stand for, two digits for each. -/
def hexBytes? : List UInt8 → Option (List UInt8)
  | [] => some []
  | [_] => none
  | high :: low :: rest => do
    let high ← nibble? high
    let low ← nibble? low
    let rest ← hexBytes? rest
    return (high <<< 4 ||| low) :: rest

/-- The digits of bytes, two for each. -/
def hexDigitsOf (bs : List UInt8) : List Char :=
  bs.flatMap fun b => [(b.toNat / 16).digitChar, (b.toNat % 16).digitChar]

/-- The number of bytes, the highest first. -/
def bytesValue (bs : List UInt8) : Nat := bs.foldl (fun n b => n * 256 + b.toNat) 0

/-- The character of a byte of ASCII. -/
def charOf (b : UInt8) : Char := Char.ofNat b.toNat

theorem nibble?_toNat (b : UInt8) : (nibble? b).map UInt8.toNat = hexDigit? (charOf b) := by
  have all : ∀ n < 256, (nibble? (UInt8.ofNat n)).map UInt8.toNat =
      hexDigit? (charOf (UInt8.ofNat n)) := by
    decide +kernel
  have this := all b.toNat b.toNat_lt
  rwa [UInt8.ofNat_toNat] at this

theorem toNat_shiftLeft_or {high low : UInt8} (h : high.toNat < 16) (l : low.toNat < 16) :
    (high <<< 4 ||| low).toNat = high.toNat * 16 + low.toNat := by
  have all : ∀ m < 16, ∀ n < 16,
      (UInt8.ofNat m <<< 4 ||| UInt8.ofNat n).toNat = m * 16 + n := by
    decide +kernel
  have this := all _ h _ l
  rwa [UInt8.ofNat_toNat, UInt8.ofNat_toNat] at this

/-- What is read from digits is their number. -/
theorem bytesValue_of_hexBytes? {ds bs : List UInt8} (read : hexBytes? ds = some bs) :
    bytesValue bs = numeral 16 (ds.map charOf) := by
  have from' (n : Nat) : bs.foldl (fun n b => n * 256 + b.toNat) n =
      (ds.map charOf).foldl (fun n c => n * 16 + (hexDigit? c).getD 0) n := by
    fun_induction hexBytes? ds generalizing bs n with
    | case1 =>
      cases read
      rfl
    | case2 => cases read
    | case3 high low rest ih =>
      simp only [Option.bind_eq_bind, Option.bind_eq_some_iff, Option.pure_def] at read
      obtain ⟨m, first, l, second, bs, others, whole⟩ := read
      cases whole
      have high' := nibble?_toNat high
      have low' := nibble?_toNat low
      rw [first, Option.map_some] at high'
      rw [second, Option.map_some] at low'
      rw [List.map_cons, List.map_cons, List.foldl_cons, List.foldl_cons, List.foldl_cons, ih others,
        ← high', ← low', Option.getD_some, Option.getD_some,
        toNat_shiftLeft_or (hexDigit?_lt high'.symm) (hexDigit?_lt low'.symm)]
      congr 1
      omega
  exact from' 0

theorem hexBytes?_isSome_iff {ds : List UInt8} : (hexBytes? ds).isSome = true ↔
    ds.length % 2 = 0 ∧ ∀ b ∈ ds, (hexDigit? (charOf b)).isSome = true := by
  fun_induction hexBytes? ds with
  | case1 => simp
  | case2 => simp
  | case3 high low rest ih =>
    have high' := congrArg Option.isSome (nibble?_toNat high)
    have low' := congrArg Option.isSome (nibble?_toNat low)
    rw [Option.isSome_map] at high' low'
    rw [List.forall_mem_cons, List.forall_mem_cons, ← high', ← low']
    have even : (high :: low :: rest).length % 2 = rest.length % 2 := by
      simp only [List.length_cons]
      omega
    rw [even]
    cases nibble? high with
    | none => simp
    | some m =>
      cases nibble? low with
      | none => simp
      | some l =>
        have known : ((hexBytes? rest).bind fun rest => some ((m <<< 4 ||| l) :: rest)).isSome =
            (hexBytes? rest).isSome := by
          cases hexBytes? rest <;> rfl
        simpa [known] using ih

theorem length_hexDigitsOf (bs : List UInt8) : (hexDigitsOf bs).length = 2 * bs.length := by
  induction bs with
  | nil => rfl
  | cons b bs ih =>
    rw [hexDigitsOf, List.flatMap_cons, List.length_append]
    show 2 + (hexDigitsOf bs).length = 2 * (bs.length + 1)
    omega

theorem smallDigit_of_mem_hexDigitsOf {bs : List UInt8} {c : Char} (member : c ∈ hexDigitsOf bs) :
    SmallDigit c := by
  obtain ⟨b, -, digit⟩ := List.mem_flatMap.mp member
  have small := b.toNat_lt
  rcases List.mem_pair.mp digit with rfl | rfl
  · exact smallDigit_digitChar (by omega)
  · exact smallDigit_digitChar (by omega)

theorem numeral_hexDigitsOf (bs : List UInt8) : numeral 16 (hexDigitsOf bs) = bytesValue bs := by
  induction bs using List.reverseRecOn with
  | nil => rfl
  | append_singleton bs b ih =>
    have small := b.toNat_lt
    have split : hexDigitsOf (bs ++ [b]) =
        hexDigitsOf bs ++ [(b.toNat / 16).digitChar] ++ [(b.toNat % 16).digitChar] := by
      simp [hexDigitsOf]
    rw [split, numeral_concat, numeral_concat, ih, hexDigit?_digitChar (by omega),
      hexDigit?_digitChar (by omega), Option.getD_some, Option.getD_some, bytesValue, bytesValue,
      List.foldl_concat]
    omega

theorem bigEndian_succ (count n : Nat) :
    Sha256.bigEndian (count + 1) n = Sha256.bigEndian count (n / 256) ++ [UInt8.ofNat n] := by
  have higher : ∀ i ∈ List.range count, UInt8.ofNat (n >>> (8 * (count + 1 - 1 - i))) =
      UInt8.ofNat ((n / 256) >>> (8 * (count - 1 - i))) := by
    intro i member
    have below := List.mem_range.mp member
    have further : 8 * (count + 1 - 1 - i) = 8 + 8 * (count - 1 - i) := by omega
    rw [further, Nat.shiftRight_add, Nat.shiftRight_eq_div_pow n 8]
  rw [Sha256.bigEndian, List.range_succ, List.map_append, List.map_congr_left higher]
  simp [Sha256.bigEndian]

theorem bytesValue_bigEndian (count n : Nat) :
    bytesValue (Sha256.bigEndian count n) = n % 256 ^ count := by
  induction count generalizing n with
  | zero => simp [Sha256.bigEndian, bytesValue, Nat.mod_one]
  | succ count ih =>
    have before := ih (n / 256)
    rw [bytesValue] at before
    rw [bigEndian_succ, bytesValue, List.foldl_concat, before, pow_succ', Nat.mod_mul]
    show n / 256 % 256 ^ count * 256 + n % 256 = _
    omega

/-! ## Bytes of a text -/

/-- The bytes of characters. -/
def utf8 (cs : List Char) : List UInt8 := cs.flatMap String.utf8EncodeChar

theorem utf8_cons (c : Char) (cs : List Char) :
    utf8 (c :: cs) = String.utf8EncodeChar c ++ utf8 cs := List.flatMap_cons

theorem toUTF8_toList (text : String) : text.toUTF8.data.toList = utf8 text.toList := by
  rw [String.toUTF8_eq_toByteArray, ← String.utf8Encode_toList, List.utf8Encode,
    List.data_toByteArray]
  rfl

/-- A character of ASCII is one byte. -/
theorem utf8EncodeChar_ascii {c : Char} (small : c.toNat < 128) :
    String.utf8EncodeChar c = [UInt8.ofNat c.toNat] := by
  have single : c.utf8Size = 1 := by
    rw [Char.utf8Size_eq_one_iff, UInt32.le_iff_toNat_le]
    exact Nat.le_of_lt_succ small
  rw [String.utf8EncodeChar_eq_singleton single]
  rfl

/-- No other character has a byte of ASCII at its start. -/
theorem utf8EncodeChar_other {c : Char} (large : 128 ≤ c.toNat) :
    ∃ b rest, String.utf8EncodeChar c = b :: rest ∧ 128 ≤ b.toNat := by
  have marked (b mark : UInt8) (h : 128 ≤ mark.toNat) : 128 ≤ (b ||| mark).toNat := by
    rw [UInt8.toNat_or]
    exact Nat.le_trans h Nat.right_le_or
  have longer : c.utf8Size ≠ 1 := by
    rw [Ne, Char.utf8Size_eq_one_iff, UInt32.le_iff_toNat_le]
    exact Nat.not_le_of_lt large
  have positive := c.utf8Size_pos
  have atMost := c.utf8Size_le_four
  obtain two | three | four : c.utf8Size = 2 ∨ c.utf8Size = 3 ∨ c.utf8Size = 4 := by omega
  · exact ⟨_, _, String.utf8EncodeChar_eq_cons_cons two, marked _ 0xc0 (by decide)⟩
  · exact ⟨_, _, String.utf8EncodeChar_eq_cons_cons_cons three, marked _ 0xe0 (by decide)⟩
  · exact ⟨_, _, String.utf8EncodeChar_eq_cons_cons_cons_cons four, marked _ 0xf0 (by decide)⟩

/-- A byte of ASCII is a character. -/
theorem exists_of_utf8_eq_cons {cs : List Char} {b : UInt8} {rest : List UInt8}
    (small : b.toNat < 128) (encoded : utf8 cs = b :: rest) :
    ∃ cs', cs = charOf b :: cs' ∧ utf8 cs' = rest := by
  cases cs with
  | nil => cases encoded
  | cons c cs =>
    rw [utf8_cons] at encoded
    by_cases ascii : c.toNat < 128
    · rw [utf8EncodeChar_ascii ascii] at encoded
      obtain ⟨first, rfl⟩ := List.cons.inj encoded
      refine ⟨cs, ?_, rfl⟩
      have fits : c.toNat < UInt8.size := Nat.lt_trans ascii (by decide)
      rw [← first, charOf, UInt8.toNat_ofNat_of_lt' fits, Char.ofNat_toNat]
    · obtain ⟨b', rest', other, large⟩ := utf8EncodeChar_other (Nat.le_of_not_lt ascii)
      rw [other] at encoded
      obtain ⟨rfl, -⟩ := List.cons.inj encoded
      omega

end MarketScript
