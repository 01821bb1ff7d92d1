import ChatSpace.Proofs.Text.Ascii
import ChatSpace.Proofs.Text.Utf8
import ChatSpace.Text.Hex
import Mathlib.Data.Nat.Digits.Defs

namespace ChatSpace

namespace Utf8

theorem encodeChar_charOf {b : UInt8} (h : b.toNat < 128) :
    String.utf8EncodeChar (charOf b) = [b] := by
  rw [String.utf8EncodeChar.eq_1, charOf, val_ofNat (.inl (by omega)), if_pos (by omega),
    UInt8.ofNat_toNat]

theorem encode_map_charOf {bytes : Bytes} (h : ∀ b ∈ bytes, b.toNat < 128) :
    encode (String.ofList (bytes.map charOf)) = bytes := by
  induction bytes with
  | nil => rfl
  | cons b bytes ih =>
      rw [List.map_cons, encode_cons, encodeChar_charOf (h b (by simp)),
        ih fun c hc => h c (by simp [hc])]
      rfl

end Utf8

namespace Hex

variable {d : UInt8} {n m : Nat} {bytes : Bytes}

def alphabet : Bytes :=
  Utf8.encode "0123456789abcdef"

def bothCases : Bytes :=
  Utf8.encode "0123456789abcdefABCDEF"

def worth (d : UInt8) : Nat :=
  alphabet.idxOf (lower d)

theorem alphabet_eq : alphabet = (List.range 16).map digit := by
  decide

theorem worth_of_nibble? (h : nibble? d = some n) : worth d = n := by
  have hlt : n < alphabet.length := by
    rw [alphabet_eq, List.length_map, List.length_range]
    exact nibble?_lt h
  have hget : alphabet[n] = digit n := by simp [alphabet_eq]
  rw [worth, ← digit_of_nibble? h, ← hget]
  exact List.Nodup.idxOf_getElem (by decide) n hlt

theorem isSome_nibble?_iff : (nibble? d).isSome ↔ d ∈ bothCases := by
  have hall : ∀ n < 256, (nibble? (.ofNat n)).isSome = bothCases.contains (.ofNat n) := by
    decide +kernel
  have hd := hall d.toNat d.toNat_lt
  rw [UInt8.ofNat_toNat] at hd
  rw [hd, List.contains_iff_mem]

theorem nibble?_eq_none_iff : nibble? d = none ↔ d ∉ bothCases := by
  rw [← isSome_nibble?_iff, Option.not_isSome_iff_eq_none]

theorem encode_cons (b : UInt8) (bytes : Bytes) :
    encode (b :: bytes) = digit (b.toNat / 16) :: digit (b.toNat % 16) :: encode bytes := by
  simp [encode]

theorem worth_digit (h : n < 16) : worth (digit n) = n :=
  worth_of_nibble? (nibble?_digit h)

theorem ofDigits_encode (bytes : Bytes) :
    Nat.ofDigits 16 ((encode bytes).map worth).reverse =
      Nat.ofDigits 256 (bytes.map UInt8.toNat).reverse := by
  have hfold (first : Nat) : ((encode bytes).map worth).foldl (fun n d => d + 16 * n) first =
      (bytes.map UInt8.toNat).foldl (fun n b => b + 256 * n) first := by
    induction bytes generalizing first with
    | nil => rfl
    | cons b bytes ih =>
        have hb := b.toNat_lt
        have hoctet : b.toNat % 16 + 16 * (b.toNat / 16 + 16 * first) =
            b.toNat + 256 * first := by
          omega
        rw [encode_cons, List.map_cons, List.map_cons, List.map_cons, worth_digit (by omega),
          worth_digit (by omega), List.foldl_cons, List.foldl_cons, List.foldl_cons, hoctet, ih]
  simpa [Nat.ofDigits_eq_foldr] using hfold 0

theorem lt_of_mem_encode (h : d ∈ encode bytes) : d.toNat < 128 := by
  have hdigit : ∀ n < 16, (digit n).toNat < 128 := by decide
  obtain ⟨b, -, hd⟩ := List.mem_flatMap.mp h
  have hb := b.toNat_lt
  simp only [List.mem_cons, List.not_mem_nil, or_false] at hd
  rcases hd with rfl | rfl
  · exact hdigit _ (by omega)
  · exact hdigit _ (by omega)

@[simp] theorem encode_text (bytes : Bytes) : Utf8.encode (text bytes) = encode bytes :=
  Utf8.encode_map_charOf fun _ => lt_of_mem_encode

theorem digit_lt_digit_iff (hn : n < 16) (hm : m < 16) : digit n < digit m ↔ n < m := by
  have hvalue {k : Nat} (hk : k < 16) :
      (digit k).toNat = if k < 10 then 0x30 + k else 0x57 + k := by
    unfold digit
    split <;> rw [UInt8.toNat_ofNat'] <;> omega
  rw [UInt8.lt_iff_toNat_lt, hvalue hn, hvalue hm]
  split <;> split <;> omega

theorem digit_inj (hn : n < 16) (hm : m < 16) : digit n = digit m ↔ n = m := by
  constructor
  · intro h
    rw [← worth_digit hn, h, worth_digit hm]
  · exact congrArg digit

theorem lex_encode_iff {bytes others : Bytes} :
    List.Lex (· < ·) (encode bytes) (encode others) ↔ List.Lex (· < ·) bytes others := by
  induction bytes generalizing others with
  | nil =>
      cases others with
      | nil => rfl
      | cons c others => exact iff_of_true (encode_cons c others ▸ .nil) .nil
  | cons b bytes ih =>
      cases others with
      | nil => exact iff_of_false List.not_lex_nil List.not_lex_nil
      | cons c others =>
          have hb := b.toNat_lt
          have hc := c.toNat_lt
          rw [encode_cons, encode_cons, List.cons_lex_cons_iff, List.cons_lex_cons_iff,
            List.cons_lex_cons_iff, ih, digit_lt_digit_iff (by omega) (by omega),
            digit_lt_digit_iff (by omega) (by omega), digit_inj (by omega) (by omega),
            digit_inj (by omega) (by omega), UInt8.lt_iff_toNat_lt, ← UInt8.toNat_inj]
          by_cases hrest : List.Lex (· < ·) bytes others <;>
            simp only [hrest, and_true, and_false, or_false] <;> omega

end Hex

end ChatSpace
