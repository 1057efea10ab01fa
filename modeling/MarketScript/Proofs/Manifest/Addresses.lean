import MarketScript.Proofs.Address
import MarketScript.Proofs.Manifest.Names

/-!
# Addresses in manifests

The reader of a manifest looks at the characters of an address and leaves it as it is; when a world
is set up its bytes are read.  Both mean the same by an address, so every manifest that was accepted
sets up a world.
-/

namespace MarketScript

namespace Manifest

/-- Whether a text is an address, where what follows its sign is measured in bytes. -/
def measuresAddress (text : String) : Bool :=
  match text.toList with
  | '0' :: 'x' :: ds | '0' :: 'X' :: ds =>
    (String.ofList ds).utf8ByteSize == 40 && ds.all (hexDigit? · |>.isSome)
  | _ => false

/-- Digits are as many bytes as characters. -/
theorem utf8ByteSize_ofList {ds : List Char} (digits : ∀ c ∈ ds, (hexDigit? c).isSome = true) :
    (String.ofList ds).utf8ByteSize = ds.length := by
  have ascii : ∀ c ∈ ds, c.toNat < 128 := fun c member => toNat_lt_of_hexDigit? (digits c member)
  rw [← (map_charOf_utf8 ascii).1, ← String.size_toByteArray, String.toByteArray_ofList,
    List.utf8Encode, List.size_toByteArray]
  rfl

theorem measuresAddress_eq (text : String) : measuresAddress text = isAddressText text := by
  have measured (ds : List Char) :
      ((String.ofList ds).utf8ByteSize == 40 && ds.all (hexDigit? · |>.isSome)) =
        (ds.length == 40 && ds.all (hexDigit? · |>.isSome)) := by
    cases digits : ds.all (hexDigit? · |>.isSome) with
    | false => rw [Bool.and_false, Bool.and_false]
    | true => rw [utf8ByteSize_ofList (List.all_eq_true.mp digits)]
  unfold measuresAddress
  simp only [measured]
  rfl

end Manifest

namespace World

theorem exists_ofManifest {text : String} {m : Manifest} (accepted : Manifest.parse text = .ok m)
    (runId : String) : ∃ w, ofManifest runId m = .ok w := by
  obtain ⟨w, made, -⟩ := ofManifest_names (Manifest.checked_of_parse accepted) runId
  exact ⟨w, made⟩

end World

namespace Address

/-- A text is an address for the reader of a manifest exactly if it can be read as one, by its
    characters or by its bytes, and exactly if it is spelled as one.  An address is written as it is
    read up to the case of letters, and so no accepted manifest fails to set up a world. -/
theorem texts_have_one_meaning :
    (∀ text : String,
      (∀ table name, Manifest.checkAddress table name text = .ok () ↔
        (ofString? text).isSome = true) ∧
      ((ofString? text).isSome = true ↔ ∃ ds, Spelling text.toList ds) ∧
      Manifest.isAddressText text = Manifest.measuresAddress text ∧
      ofString? text = ofUtf8? text.toUTF8.data.toList ∧
      ∀ a, ofString? text = some a → a.text = foldCase text) ∧
    (∀ a : Address, ofString? a.text = some a ∧
      a.text = String.ofList ('0' :: 'x' :: hexDigitsOf a.bytes)) ∧
    ∀ text m, Manifest.parse text = .ok m → ∀ runId, ∃ w, World.ofManifest runId m = .ok w := by
  refine ⟨fun text => ⟨?_, ?_, ?_, ?_, ?_⟩, fun a => ⟨?_, ?_⟩, ?_⟩
  · intro table name
    exact Manifest.checkAddress_eq_ok
  · exact ofString?_isSome_iff
  · rw [Manifest.measuresAddress_eq]
  · rw [ofUtf8?_toUTF8]
  · intro a
    exact text_of_ofString?
  · exact ofString?_text a
  · rw [← digits_eq_hexDigitsOf]
    rfl
  · intro text m accepted runId
    exact World.exists_ofManifest accepted runId

section Shouted

/-- A manifest with an address in capital letters. -/
def shoutedManifest : String :=
  "[accounts]\nGeoff = \"0X00000000000000000000000000000000000000AB\"\n"

/-- The manifest sets up a world, and its address is written in small letters. -/
theorem shoutedManifest_sets_up :
    (∃ m w, Manifest.parse shoutedManifest = .ok m ∧ World.ofManifest "" m = .ok w ∧
      m.accounts.toList = [("Geoff", "0X00000000000000000000000000000000000000AB")]) ∧
    ∃ a, ofString? "0X00000000000000000000000000000000000000AB" = some a ∧
      a.text = "0x00000000000000000000000000000000000000ab" := by
  obtain ⟨texts, -, worlds⟩ := texts_have_one_meaning
  constructor
  · have evaluated : (match Manifest.parse shoutedManifest with
        | .ok m => some m.accounts.toList
        | _ => none) = some [("Geoff", "0X00000000000000000000000000000000000000AB")] := by
      decide +kernel
    split at evaluated
    · rename_i m accepted
      obtain ⟨w, made⟩ := worlds _ m accepted ""
      exact ⟨m, w, accepted, made, Option.some.inj evaluated⟩
    · cases evaluated
  · obtain ⟨-, -, -, -, written⟩ := texts "0X00000000000000000000000000000000000000AB"
    have read : (ofString? "0X00000000000000000000000000000000000000AB").isSome = true := by
      decide +kernel
    obtain ⟨a, read⟩ := Option.isSome_iff_exists.mp read
    refine ⟨a, read, (written a read).trans ?_⟩
    decide +kernel

end Shouted

end Address

end MarketScript
