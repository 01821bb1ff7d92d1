import ChatSpace.Proofs.ObjectId
import ChatSpace.Proofs.Text.Hex

namespace ChatSpace.ObjectId

variable {digits : Bytes} {id : ObjectId}

@[simp] theorem encode_hex (id : ObjectId) : Utf8.encode id.hex = id.encode :=
  Hex.encode_text id.bytes

theorem length_hex (id : ObjectId) : id.hex.toList.length = 40 := by
  rw [hex, Hex.text, String.toList_ofList, List.length_map, Hex.length_encode, id.length_bytes]

theorem isSome_nibble_iff :
    (∀ d ∈ digits, (Hex.nibble? d).isSome) ↔ ∀ d ∈ digits, d ∈ Hex.bothCases :=
  forall₂_congr fun _ _ => Hex.isSome_nibble?_iff

theorem named_iff : Named digits id ↔
    digits.length = 40 ∧ (∀ d ∈ digits, d ∈ Hex.bothCases) ∧
      Utf8.encode id.hex = digits.map Hex.lower := by
  rw [encode_hex, ← isSome_nibble_iff]
  constructor
  · rintro ⟨hlength, hdigits, hencode⟩
    exact ⟨hlength, hdigits, hencode⟩
  · rintro ⟨hlength, hdigits, hencode⟩
    exact ⟨hlength, hdigits, hencode⟩

theorem ofHex_eq_ok_iff_named : ofHex digits = .ok id ↔ Named digits id := by
  constructor
  · intro h
    rcases named_or_misnamed digits with ⟨other, hnamed⟩ | ⟨e, hwrong⟩
    · cases h.symm.trans (ofHex_of_named hnamed)
      exact hnamed
    · cases h.symm.trans (ofHex_of_misnamed hwrong)
  · exact ofHex_of_named

theorem ofHex_eq_error_iff_misnamed {e : ObjectIdError} :
    ofHex digits = .error e ↔ Misnamed digits e := by
  constructor
  · intro h
    rcases named_or_misnamed digits with ⟨id, hnamed⟩ | ⟨other, hwrong⟩
    · cases h.symm.trans (ofHex_of_named hnamed)
    · cases h.symm.trans (ofHex_of_misnamed hwrong)
      exact hwrong
  · exact ofHex_of_misnamed

theorem exists_named_iff :
    (∃ id, Named digits id) ↔ digits.length = 40 ∧ ∀ d ∈ digits, d ∈ Hex.bothCases := by
  constructor
  · rintro ⟨id, hnamed⟩
    exact ⟨hnamed.length_digits, isSome_nibble_iff.mp hnamed.isSome_nibble⟩
  · rintro ⟨hlength, hdigits⟩
    refine (named_or_misnamed digits).resolve_right ?_
    rintro ⟨_, hne | ⟨-, hd, hnone⟩⟩
    · exact hne hlength
    · exact Hex.nibble?_eq_none_iff.mp hnone (hdigits _ hd)

theorem misnamed_length_iff {length : Nat} :
    Misnamed digits (.invalidLength length) ↔ length = digits.length ∧ digits.length ≠ 40 := by
  constructor
  · rintro ⟨hne⟩
    exact ⟨rfl, hne⟩
  · rintro ⟨rfl, hne⟩
    exact .length hne

theorem misnamed_characters_iff {text : String} :
    Misnamed digits (.invalidCharacters text) ↔
      text = Utf8.lossy digits ∧ digits.length = 40 ∧ ∃ d ∈ digits, d ∉ Hex.bothCases := by
  constructor
  · rintro (_ | ⟨hlength, hd, hnone⟩)
    exact ⟨rfl, hlength, _, hd, Hex.nibble?_eq_none_iff.mp hnone⟩
  · rintro ⟨rfl, hlength, d, hd, hother⟩
    exact .characters hlength hd (Hex.nibble?_eq_none_iff.mpr hother)

theorem ofHex_forty_digits :
    (∀ digits,
      ((∃ id, ofHex digits = .ok id) ↔
        digits.length = 40 ∧ ∀ d ∈ digits, d ∈ Hex.bothCases) ∧
      (∀ id, ofHex digits = .ok id ↔
        digits.length = 40 ∧ (∀ d ∈ digits, d ∈ Hex.bothCases) ∧
          Utf8.encode id.hex = digits.map Hex.lower) ∧
      (∀ length, ofHex digits = .error (.invalidLength length) ↔
        length = digits.length ∧ digits.length ≠ 40) ∧
      ∀ text, ofHex digits = .error (.invalidCharacters text) ↔
        text = Utf8.lossy digits ∧ digits.length = 40 ∧ ∃ d ∈ digits, d ∉ Hex.bothCases) ∧
    ∀ id, ofHex (Utf8.encode id.hex) = .ok id ∧
      Nat.ofDigits 16 ((Utf8.encode id.hex).map Hex.worth).reverse =
        Nat.ofDigits 256 (id.bytes.map UInt8.toNat).reverse ∧
      id.short.toList <+: id.hex.toList ∧ id.short.toList.length = 7 := by
  constructor
  · intro digits
    simp only [ofHex_eq_ok_iff_named, ofHex_eq_error_iff_misnamed]
    exact ⟨exists_named_iff, fun _ => named_iff, fun _ => misnamed_length_iff,
      fun _ => misnamed_characters_iff⟩
  · intro id
    have hshort : id.short.toList = id.hex.toList.take 7 := String.toList_ofList
    rw [encode_hex, hshort, List.length_take, length_hex]
    exact ⟨ofHex_encode id, Hex.ofDigits_encode id.bytes, List.take_prefix 7 _, rfl⟩

end ChatSpace.ObjectId
