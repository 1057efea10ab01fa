import MarketScript.Address
import MarketScript.Proofs.Text.Hex

/-!
# The texts of addresses

An address is read from `0x` or `0X` and forty digits of base sixteen, whatever the case of their
letters, and written with small ones.  It makes no difference whether the characters of a text are
read or its bytes.
-/

namespace MarketScript

/-- The digits of base sixteen. -/
def hexAlphabet : List Char := "0123456789abcdefABCDEF".toList

theorem toNat_lt_of_hexDigit? {c : Char} (digit : (hexDigit? c).isSome = true) : c.toNat < 128 := by
  rw [hexDigit?_eq] at digit
  grind

theorem mem_hexAlphabet {c : Char} : c ∈ hexAlphabet ↔ (hexDigit? c).isSome = true := by
  constructor
  · intro member
    have all : hexAlphabet.all (hexDigit? · |>.isSome) = true := by decide +kernel
    exact List.all_eq_true.mp all c member
  · intro digit
    have all : ∀ n < 128, (hexDigit? (Char.ofNat n)).isSome = true → Char.ofNat n ∈ hexAlphabet := by
      decide +kernel
    have this := all c.toNat (toNat_lt_of_hexDigit? digit)
    rw [Char.ofNat_toNat] at this
    exact this digit

theorem toNat_charOf (b : UInt8) : (charOf b).toNat = b.toNat := by
  have all : ∀ n < 256, (Char.ofNat n).toNat = n := by decide +kernel
  exact all b.toNat b.toNat_lt

/-- The characters of ASCII have one byte each. -/
theorem map_charOf_utf8 {cs : List Char} (ascii : ∀ c ∈ cs, c.toNat < 128) :
    (utf8 cs).length = cs.length ∧ (utf8 cs).map charOf = cs := by
  induction cs with
  | nil => exact ⟨rfl, rfl⟩
  | cons c cs ih =>
    have small := ascii c List.mem_cons_self
    have fits : c.toNat < UInt8.size := Nat.lt_trans small (by decide)
    obtain ⟨length, back⟩ := ih fun d member => ascii d (List.mem_cons_of_mem _ member)
    rw [utf8_cons, utf8EncodeChar_ascii small, List.singleton_append]
    refine ⟨congrArg (· + 1) length, ?_⟩
    rw [List.map_cons, back, charOf, UInt8.toNat_ofNat_of_lt' fits, Char.ofNat_toNat]

/-- The bytes of a text whose bytes are digits are its characters. -/
theorem eq_map_charOf {cs : List Char} {bs : List UInt8} (encoded : utf8 cs = bs)
    (digits : ∀ b ∈ bs, (hexDigit? (charOf b)).isSome = true) : cs = bs.map charOf := by
  induction bs generalizing cs with
  | nil =>
    cases cs with
    | nil => rfl
    | cons c cs => simp [utf8_cons] at encoded
  | cons b bs ih =>
    have small := toNat_lt_of_hexDigit? (digits b List.mem_cons_self)
    rw [toNat_charOf] at small
    obtain ⟨rest, rfl, others⟩ := exists_of_utf8_eq_cons small encoded
    rw [ih others fun b member => digits b (List.mem_cons_of_mem _ member)]
    rfl

namespace Address

variable {cs ds : List Char} {a : Address}

/-! ## Which texts are addresses -/

/-- The characters are those of an address with the given digits. -/
structure Spelling (cs ds : List Char) : Prop where
  sign : cs = '0' :: 'x' :: ds ∨ cs = '0' :: 'X' :: ds
  forty : ds.length = 40
  digits : ∀ c ∈ ds, c ∈ hexAlphabet

/-- The address of forty digits. -/
def ofDigits (ds : List Char) : Address := ⟨BitVec.ofNat 160 (numeral 16 ds)⟩

theorem Spelling.isDigit (h : Spelling cs ds) : ∀ c ∈ ds, (hexDigit? c).isSome = true :=
  fun c member => mem_hexAlphabet.mp (h.digits c member)

theorem ofChars?_eq_some : ofChars? cs = some a ↔ ∃ ds, Spelling cs ds ∧ ofDigits ds = a := by
  have fits {ds : List Char} : (ds.length = 40 && ds.all (hexDigit? · |>.isSome)) = true ↔
      ds.length = 40 ∧ ∀ c ∈ ds, c ∈ hexAlphabet := by
    simp [mem_hexAlphabet]
  constructor
  · intro read
    unfold ofChars? at read
    split at read
    · rename_i ds
      obtain ⟨spelled, written⟩ := Option.ite_none_right_eq_some.mp read
      obtain ⟨forty, digits⟩ := fits.mp spelled
      exact ⟨ds, ⟨.inl rfl, forty, digits⟩, Option.some.inj written⟩
    · rename_i ds
      obtain ⟨spelled, written⟩ := Option.ite_none_right_eq_some.mp read
      obtain ⟨forty, digits⟩ := fits.mp spelled
      exact ⟨ds, ⟨.inr rfl, forty, digits⟩, Option.some.inj written⟩
    · cases read
  · rintro ⟨ds, ⟨rfl | rfl, forty, digits⟩, rfl⟩
    · exact if_pos (fits.mpr ⟨forty, digits⟩)
    · exact if_pos (fits.mpr ⟨forty, digits⟩)

theorem ofString?_eq_some {text : String} :
    ofString? text = some a ↔ ∃ ds, Spelling text.toList ds ∧ ofDigits ds = a :=
  ofChars?_eq_some

theorem ofString?_isSome_iff {text : String} :
    (ofString? text).isSome = true ↔ ∃ ds, Spelling text.toList ds := by
  rw [Option.isSome_iff_exists]
  constructor
  · rintro ⟨a, read⟩
    obtain ⟨ds, spelled, -⟩ := ofString?_eq_some.mp read
    exact ⟨ds, spelled⟩
  · rintro ⟨ds, spelled⟩
    exact ⟨_, ofString?_eq_some.mpr ⟨ds, spelled, rfl⟩⟩

theorem toNat_ofDigits (h : Spelling cs ds) : (ofDigits ds).bits.toNat = numeral 16 ds := by
  have small := numeral_lt_of_digits h.isDigit
  rw [h.forty] at small
  rw [ofDigits, BitVec.toNat_ofNat, Nat.mod_eq_of_lt]
  exact small

/-! ## Letter case -/

theorem Spelling.toLower (h : Spelling cs ds) :
    Spelling (cs.map Char.toLower) (ds.map Char.toLower) := by
  refine ⟨?_, by rw [List.length_map, h.forty], ?_⟩
  · rcases h.sign with rfl | rfl
    · exact .inl rfl
    · exact .inl rfl
  · intro c member
    obtain ⟨c, isDigit, rfl⟩ := List.mem_map.mp member
    rw [mem_hexAlphabet, hexDigit?_toLower]
    exact h.isDigit c isDigit

theorem Spelling.of_toLower (h : Spelling (cs.map Char.toLower) ds) : ∃ ds, Spelling cs ds := by
  have spelled : ∃ c rest, cs = '0' :: c :: rest ∧ (c = 'x' ∨ c = 'X') ∧
      rest.map Char.toLower = ds := by
    rcases h.sign with written | written
    · obtain ⟨zero, _, rfl, first, written⟩ := List.map_eq_cons_iff.mp written
      obtain ⟨sign, rest, rfl, second, rfl⟩ := List.map_eq_cons_iff.mp written
      obtain rfl := (toLower_eq_iff rfl).mp first
      exact ⟨sign, rest, rfl, (toLower_eq_letter (by decide) (by decide) rfl).mp second, rfl⟩
    · obtain ⟨zero, _, rfl, first, written⟩ := List.map_eq_cons_iff.mp written
      obtain ⟨sign, rest, rfl, second, rfl⟩ := List.map_eq_cons_iff.mp written
      exact absurd second (toLower_ne_capital sign (by decide) (by decide))
  obtain ⟨sign, rest, rfl, either, rfl⟩ := spelled
  refine ⟨rest, ?_, by rw [← h.forty, List.length_map], ?_⟩
  · rcases either with rfl | rfl
    · exact .inl rfl
    · exact .inr rfl
  · intro c member
    rw [mem_hexAlphabet, ← hexDigit?_toLower]
    exact h.isDigit c.toLower (List.mem_map_of_mem member)

/-- A text and the same text in small letters are the same address, or both are none. -/
theorem ofString?_foldCase (text : String) : ofString? (foldCase text) = ofString? text := by
  have folded {a : Address} (read : ofString? text = some a) :
      ofString? (foldCase text) = some a := by
    obtain ⟨ds, spelled, rfl⟩ := ofString?_eq_some.mp read
    refine ofString?_eq_some.mpr ⟨ds.map Char.toLower, ?_, ?_⟩
    · rw [toList_foldCase]
      exact spelled.toLower
    · rw [ofDigits, numeral_map_toLower, ofDigits]
  cases read : ofString? text with
  | some a => exact folded read
  | none =>
    rw [← Option.not_isSome_iff_eq_none, ofString?_isSome_iff] at read ⊢
    rintro ⟨ds, spelled⟩
    rw [toList_foldCase] at spelled
    exact read spelled.of_toLower

/-! ## Written addresses -/

theorem length_digits (a : Address) : a.digits.length = 40 := by
  have bound : (Nat.toDigits 16 a.bits.toNat).length ≤ 40 := by
    rw [Nat.length_toDigits_le_iff (by decide) (by decide)]
    exact a.bits.isLt
  rw [digits, List.length_append, List.length_replicate]
  omega

theorem smallDigit_of_mem_digits {c : Char} (member : c ∈ a.digits) : SmallDigit c := by
  rcases List.mem_append.mp member with zero | digit
  · rw [List.eq_of_mem_replicate zero]
    exact ⟨rfl, rfl⟩
  · exact smallDigit_of_mem_toDigits digit

theorem numeral_digits (a : Address) : numeral 16 a.digits = a.bits.toNat := by
  rw [digits, numeral_replicate_zero_append, numeral_toDigits]

theorem spelling_text (a : Address) : Spelling a.text.toList a.digits := by
  refine ⟨?_, a.length_digits, ?_⟩
  · rw [text, String.toList_ofList]
    exact .inl rfl
  · intro c member
    exact mem_hexAlphabet.mpr (smallDigit_of_mem_digits member).isDigit

/-- What is written can be read. -/
theorem ofString?_text (a : Address) : ofString? a.text = some a := by
  refine ofString?_eq_some.mpr ⟨a.digits, a.spelling_text, ?_⟩
  rw [ofDigits, numeral_digits, BitVec.ofNat_toNat, BitVec.setWidth_eq]

/-- What is read is written in small letters. -/
theorem text_of_ofString? {text : String} (read : ofString? text = some a) :
    a.text = foldCase text := by
  obtain ⟨ds, spelled, rfl⟩ := ofString?_eq_some.mp read
  have digits : (ofDigits ds).digits = ds.map Char.toLower := by
    apply eq_of_numeral_eq
    · rw [length_digits, List.length_map, spelled.forty]
    · exact fun c => smallDigit_of_mem_digits
    · intro c member
      obtain ⟨c, isDigit, rfl⟩ := List.mem_map.mp member
      exact .of_digit (spelled.isDigit c isDigit)
    · rw [numeral_digits, toNat_ofDigits spelled, numeral_map_toLower]
  rw [Address.text, digits, foldCase]
  rcases spelled.sign with small | capital
  · rw [small]
    rfl
  · rw [capital]
    rfl

/-! ## Bytes -/

theorem bytesValue_bytes (a : Address) : bytesValue a.bytes = a.bits.toNat := by
  rw [bytes, bytesValue_bigEndian, Nat.mod_eq_of_lt]
  exact a.bits.isLt

theorem length_bytes (a : Address) : a.bytes.length = 20 := by
  rw [bytes, Sha256.bigEndian, List.length_map, List.length_range]

/-- The digits of an address are those of its bytes. -/
theorem digits_eq_hexDigitsOf (a : Address) : a.digits = hexDigitsOf a.bytes := by
  apply eq_of_numeral_eq
  · rw [length_digits, length_hexDigitsOf, length_bytes]
  · exact fun c => smallDigit_of_mem_digits
  · exact fun c => smallDigit_of_mem_hexDigitsOf
  · rw [numeral_digits, numeral_hexDigitsOf, bytesValue_bytes]

/-- The address of twenty bytes, the highest first. -/
def ofBytes (bs : List UInt8) : Address := ⟨BitVec.ofNat 160 (bytesValue bs)⟩

/-- Reads an address from the bytes of a text: those of `0x` or `0X`, and forty that are digits of
    base sixteen. -/
def ofUtf8? : List UInt8 → Option Address
  | 0x30 :: 0x78 :: ds | 0x30 :: 0x58 :: ds =>
    if ds.length = 40 then (hexBytes? ds).map ofBytes else none
  | _ => none

theorem ofUtf8?_eq_some {bs : List UInt8} : ofUtf8? bs = some a ↔
    ∃ ds, (bs = 0x30 :: 0x78 :: ds ∨ bs = 0x30 :: 0x58 :: ds) ∧ ds.length = 40 ∧
      ∃ decoded, hexBytes? ds = some decoded ∧ ofBytes decoded = a := by
  constructor
  · intro read
    unfold ofUtf8? at read
    split at read
    · rename_i ds
      obtain ⟨forty, read⟩ := Option.ite_none_right_eq_some.mp read
      exact ⟨ds, .inl rfl, forty, Option.map_eq_some_iff.mp read⟩
    · rename_i ds
      obtain ⟨forty, read⟩ := Option.ite_none_right_eq_some.mp read
      exact ⟨ds, .inr rfl, forty, Option.map_eq_some_iff.mp read⟩
    · cases read
  · rintro ⟨ds, rfl | rfl, forty, read⟩
    · exact Option.ite_none_right_eq_some.mpr ⟨forty, Option.map_eq_some_iff.mpr read⟩
    · exact Option.ite_none_right_eq_some.mpr ⟨forty, Option.map_eq_some_iff.mpr read⟩

/-- The bytes of a text are read as its characters are. -/
theorem ofUtf8?_toUTF8 (text : String) : ofUtf8? text.toUTF8.data.toList = ofString? text := by
  rw [toUTF8_toList]
  apply Option.ext
  intro a
  rw [ofUtf8?_eq_some, ofString?_eq_some]
  constructor
  · rintro ⟨bs, encoded, forty, decoded, read, rfl⟩
    obtain ⟨-, digits⟩ := hexBytes?_isSome_iff.mp (Option.isSome_of_eq_some read)
    have written (sign : UInt8) (ascii : sign.toNat < 128)
        (encoded : utf8 text.toList = 0x30 :: sign :: bs) :
        text.toList = '0' :: charOf sign :: bs.map charOf := by
      obtain ⟨_, first, others⟩ := exists_of_utf8_eq_cons (by decide) encoded
      obtain ⟨_, second, rest⟩ := exists_of_utf8_eq_cons ascii others
      rw [first, second, eq_map_charOf rest digits]
      rfl
    refine ⟨bs.map charOf, ⟨?_, by rw [List.length_map, forty], ?_⟩, ?_⟩
    · exact encoded.imp (written 0x78 (by decide)) (written 0x58 (by decide))
    · intro c member
      obtain ⟨b, digit, rfl⟩ := List.mem_map.mp member
      exact mem_hexAlphabet.mpr (digits b digit)
    · rw [ofDigits, ofBytes, bytesValue_of_hexBytes? read]
  · rintro ⟨ds, spelled, rfl⟩
    have ascii : ∀ c ∈ ds, c.toNat < 128 := fun c member =>
      toNat_lt_of_hexDigit? (spelled.isDigit c member)
    obtain ⟨length, back⟩ := map_charOf_utf8 ascii
    have even : (hexBytes? (utf8 ds)).isSome = true := by
      rw [hexBytes?_isSome_iff, length, spelled.forty]
      refine ⟨rfl, fun b member => spelled.isDigit _ ?_⟩
      rw [← back]
      exact List.mem_map_of_mem member
    obtain ⟨decoded, read⟩ := Option.isSome_iff_exists.mp even
    refine ⟨utf8 ds, ?_, by rw [length, spelled.forty], decoded, read, ?_⟩
    · rcases spelled.sign with written | written
      · exact .inl (by rw [written]; rfl)
      · exact .inr (by rw [written]; rfl)
    · rw [ofDigits, ofBytes, bytesValue_of_hexBytes? read, back]

end Address

end MarketScript
