import ChatSpace.Text.Utf8

namespace ChatSpace.Utf8

theorem val_ofNat {n : Nat} (h : n.isValidChar) : (Char.ofNat n).val.toNat = n := by
  have hchar : Char.ofNat n = Char.ofNatAux n h := dif_pos h
  rw [hchar]
  rfl

theorem ofNat_eq {b : UInt8} {n : Nat} (h : b.toNat = n) : .ofNat n = b := by
  rw [← h, UInt8.ofNat_toNat]

section Arithmetic

variable {a b c d : UInt8} {n : Nat}

theorem encodeChar_two (hn : n = (a.toNat - 192) * 64 + (b.toNat - 128))
    (ha : 194 ≤ a.toNat ∧ a.toNat < 224) (hb : 128 ≤ b.toNat ∧ b.toNat ≤ 191) :
    String.utf8EncodeChar (.ofNat n) = [a, b] := by
  rw [String.utf8EncodeChar.eq_1, val_ofNat (.inl (by omega)), if_neg (by omega),
    if_pos (by omega), ofNat_eq (b := a) (by omega), ofNat_eq (b := b) (by omega)]

theorem encodeChar_three (hn : n = ((a.toNat - 224) * 64 + (b.toNat - 128)) * 64 + (c.toNat - 128))
    (ha : 224 ≤ a.toNat ∧ a.toNat < 240) (hb : 128 ≤ b.toNat ∧ b.toNat ≤ 191)
    (hc : 128 ≤ c.toNat ∧ c.toNat ≤ 191) (hlong : a.toNat = 224 → 160 ≤ b.toNat)
    (hscalar : a.toNat = 237 → b.toNat ≤ 159) :
    String.utf8EncodeChar (.ofNat n) = [a, b, c] := by
  have hvalid : n.isValidChar := by
    unfold Nat.isValidChar
    omega
  rw [String.utf8EncodeChar.eq_1, val_ofNat hvalid, if_neg (by omega), if_neg (by omega),
    if_pos (by omega), ofNat_eq (b := a) (by omega), ofNat_eq (b := b) (by omega),
    ofNat_eq (b := c) (by omega)]

theorem encodeChar_four
    (hn : n = (((a.toNat - 240) * 64 + (b.toNat - 128)) * 64 + (c.toNat - 128)) * 64 +
      (d.toNat - 128))
    (ha : 240 ≤ a.toNat ∧ a.toNat < 245) (hb : 128 ≤ b.toNat ∧ b.toNat ≤ 191)
    (hc : 128 ≤ c.toNat ∧ c.toNat ≤ 191) (hd : 128 ≤ d.toNat ∧ d.toNat ≤ 191)
    (hlong : a.toNat = 240 → 144 ≤ b.toNat) (hlast : a.toNat = 244 → b.toNat ≤ 143) :
    String.utf8EncodeChar (.ofNat n) = [a, b, c, d] := by
  have hvalid : n.isValidChar := by
    unfold Nat.isValidChar
    omega
  rw [String.utf8EncodeChar.eq_1, val_ofNat hvalid, if_neg (by omega), if_neg (by omega),
    if_neg (by omega), ofNat_eq (b := a) (by omega), ofNat_eq (b := b) (by omega),
    ofNat_eq (b := c) (by omega), ofNat_eq (b := d) (by omega)]

end Arithmetic

section Completes

variable {read owed value : Nat} {low high : UInt8} {bytes : Bytes} {c : Char}

theorem toNat_le_of_accepts {p : Pending} {b : UInt8} (h : p.accepts b) :
    p.low.toNat ≤ b.toNat ∧ b.toNat ≤ p.high.toNat := by
  simpa [Pending.accepts, UInt8.le_iff_toNat_le] using h

theorem eq_singleton_of_completes
    (h : Pending.Completes ⟨read, 1, low, high, value⟩ bytes c) :
    ∃ b : UInt8, bytes = [b] ∧ (low.toNat ≤ b.toNat ∧ b.toNat ≤ high.toNat) ∧
      c = Char.ofNat (value * 64 + (b.toNat - 128)) := by
  cases h with
  | last haccept hadvance =>
      rw [Pending.advance, if_pos (Nat.le_refl 1)] at hadvance
      exact ⟨_, rfl, toNat_le_of_accepts haccept, (Advance.complete.inj hadvance).symm⟩
  | more _ hadvance _ =>
      rw [Pending.advance, if_pos (Nat.le_refl 1)] at hadvance
      cases hadvance

theorem exists_cons_of_completes
    (h : Pending.Completes ⟨read, owed + 2, low, high, value⟩ bytes c) :
    ∃ (b : UInt8) (rest : Bytes), bytes = b :: rest ∧
      (low.toNat ≤ b.toNat ∧ b.toNat ≤ high.toNat) ∧
      Pending.Completes ⟨read + 1, owed + 1, 0x80, 0xBF, value * 64 + (b.toNat - 128)⟩ rest c := by
  have hmore : ¬ owed + 2 ≤ 1 := by omega
  cases h with
  | last _ hadvance =>
      rw [Pending.advance, if_neg hmore] at hadvance
      cases hadvance
  | more haccept hadvance hrest =>
      rw [Pending.advance, if_neg hmore] at hadvance
      cases Advance.more.inj hadvance
      exact ⟨_, _, rfl, toNat_le_of_accepts haccept, hrest⟩

structure IsRange (low high : UInt8) (bottom top : Prop) (least greatest : Nat) : Prop where
  low_le : 128 ≤ low.toNat
  le_high : high.toNat ≤ 191
  least : bottom → least ≤ low.toNat
  greatest : top → high.toNat ≤ greatest

variable {b : UInt8} {rest : Bytes}

theorem eq_encodeChar_of_one (h : Pending.Completes ⟨1, 1, 0x80, 0xBF, value⟩ rest c)
    (hb : b.toNat = value + 192) (hvalue : 2 ≤ value ∧ value < 32) :
    b :: rest = String.utf8EncodeChar c := by
  obtain ⟨b₁, hrest, hb₁, hc⟩ := eq_singleton_of_completes h
  simp only [UInt8.reduceToNat] at hb₁
  rw [hrest, hc]
  exact Eq.symm (encodeChar_two (by omega) (by omega) (by omega))

theorem eq_encodeChar_of_two (h : Pending.Completes ⟨1, 2, low, high, value⟩ rest c)
    (hb : b.toNat = value + 224) (hvalue : value < 16)
    (hrange : IsRange low high (value = 0) (value = 13) 160 159) :
    b :: rest = String.utf8EncodeChar c := by
  obtain ⟨b₁, rest₁, hrest, hb₁, h⟩ := exists_cons_of_completes h
  obtain ⟨b₂, hrest₁, hb₂, hc⟩ := eq_singleton_of_completes h
  obtain ⟨hlow, hhigh, hleast, hgreatest⟩ := hrange
  simp only [UInt8.reduceToNat] at hb₂
  rw [hrest, hrest₁, hc]
  exact Eq.symm (encodeChar_three (by omega) (by omega) (by omega) (by omega) (by omega)
    (by omega))

theorem eq_encodeChar_of_three (h : Pending.Completes ⟨1, 3, low, high, value⟩ rest c)
    (hb : b.toNat = value + 240) (hvalue : value < 5)
    (hrange : IsRange low high (value = 0) (value = 4) 144 143) :
    b :: rest = String.utf8EncodeChar c := by
  obtain ⟨b₁, rest₁, hrest, hb₁, h⟩ := exists_cons_of_completes h
  obtain ⟨b₂, rest₂, hrest₁, hb₂, h⟩ := exists_cons_of_completes h
  obtain ⟨b₃, hrest₂, hb₃, hc⟩ := eq_singleton_of_completes h
  obtain ⟨hlow, hhigh, hleast, hgreatest⟩ := hrange
  simp only [UInt8.reduceToNat] at hb₂ hb₃
  rw [hrest, hrest₁, hrest₂, hc]
  exact Eq.symm (encodeChar_four (by omega) (by omega) (by omega) (by omega) (by omega) (by omega)
    (by omega))

end Completes

theorem eq_encodeChar_of_opens {b : UInt8} {p : Pending} {rest : Bytes} {c : Char}
    (hlead : lead b = .opens p) (h : p.Completes rest c) : b :: rest = String.utf8EncodeChar c := by
  unfold lead at hlead
  simp only [UInt8.lt_iff_toNat_lt, ← UInt8.toNat_inj, UInt8.reduceToNat] at hlead
  repeat' split at hlead
  all_goals cases hlead
  · exact eq_encodeChar_of_one h (by omega) (by omega)
  · exact eq_encodeChar_of_two h (by omega) (by omega) ⟨by decide, by decide, by decide, nofun⟩
  · exact eq_encodeChar_of_two h (by omega) (by omega) ⟨by decide, by decide, nofun, by decide⟩
  · exact eq_encodeChar_of_two h (by omega) (by omega)
      ⟨by decide, by decide, by omega, by omega⟩
  · exact eq_encodeChar_of_three h (by omega) (by omega) ⟨by decide, by decide, by decide, nofun⟩
  · exact eq_encodeChar_of_three h (by omega) (by omega)
      ⟨by decide, by decide, by omega, by omega⟩
  · exact eq_encodeChar_of_three h (by omega) (by omega) ⟨by decide, by decide, nofun, by decide⟩

theorem eq_encodeChar_of_spells {bytes : Bytes} {c : Char} (h : Spells bytes c) :
    bytes = String.utf8EncodeChar c := by
  cases h with
  | opens hlead h => exact eq_encodeChar_of_opens hlead h
  | @ascii b hlead =>
      have hb : b.toNat < 128 := by
        unfold lead at hlead
        split at hlead
        · next hlt => exact UInt8.lt_iff_toNat_lt.mp hlt
        · repeat' split at hlead
          all_goals cases hlead
      rw [String.utf8EncodeChar.eq_1, val_ofNat (.inl (by omega)), if_pos (by omega),
        UInt8.ofNat_toNat]

theorem exists_completes_of_faultFrom {p : Pending} {bytes : Bytes} {offset : Nat}
    (h : faultFrom offset (some p) bytes = none) :
    ∃ front c back offset', bytes = front ++ back ∧ p.Completes front c ∧
      faultFrom offset' none back = none := by
  induction bytes generalizing p offset with
  | nil => cases h
  | cons b bytes ih =>
      rw [faultFrom] at h
      split at h
      · next haccept =>
        split at h
        · next c hadvance => exact ⟨[b], c, bytes, _, rfl, .last haccept hadvance, h⟩
        · next q hadvance =>
          obtain ⟨front, c, back, offset', rfl, hfront, hback⟩ := ih h
          exact ⟨b :: front, c, back, offset', rfl, .more haccept hadvance hfront, hback⟩
      · cases h

theorem exists_chars_of_faultFrom {bytes : Bytes} {offset : Nat}
    (h : faultFrom offset none bytes = none) :
    ∃ chars : List Char, bytes = chars.flatMap String.utf8EncodeChar := by
  induction hlen : bytes.length using Nat.strongRecOn generalizing bytes offset with
  | ind n ih =>
    cases bytes with
    | nil => exact ⟨[], rfl⟩
    | cons b bytes =>
        have hnext (front : Bytes) {back : Bytes} {c : Char} {offset' : Nat}
            (hbytes : b :: bytes = front ++ back) (hfront : Spells front c)
            (hback : faultFrom offset' none back = none) :
            ∃ chars : List Char, b :: bytes = chars.flatMap String.utf8EncodeChar := by
          have hpos : 0 < front.length := by cases hfront <;> simp
          have hlt : back.length < n := by
            have hsum := congrArg List.length hbytes
            rw [List.length_append] at hsum
            omega
          obtain ⟨chars, rfl⟩ := ih _ hlt hback rfl
          exact ⟨c :: chars, by rw [hbytes, eq_encodeChar_of_spells hfront, List.flatMap_cons]⟩
        rw [faultFrom] at h
        split at h
        · next hlead => exact hnext [b] rfl (.ascii hlead) h
        · next p hlead =>
          obtain ⟨front, c, back, offset', rfl, hfront, hback⟩ := exists_completes_of_faultFrom h
          exact hnext (b :: front) rfl (.opens hlead hfront) hback
        · cases h

theorem exists_text_of_isValid {bytes : Bytes} (h : isValid bytes) :
    ∃ text, bytes = encode text := by
  obtain ⟨chars, hchars⟩ := exists_chars_of_faultFrom (Option.isNone_iff_eq_none.mp h)
  exact ⟨String.ofList chars, by simpa [encode] using hchars⟩

theorem encode_lossy {bytes : Bytes} (h : isValid bytes) : encode (lossy bytes) = bytes := by
  obtain ⟨text, rfl⟩ := exists_text_of_isValid h
  rw [lossy_encode]

theorem decode_eq_ok_iff {bytes : Bytes} {text : String} :
    decode bytes = .ok text ↔ bytes = encode text := by
  constructor
  · intro h
    unfold decode at h
    split at h
    · next hnone =>
      cases h
      exact (encode_lossy (by simp [isValid, hnone])).symm
    · cases h
  · rintro rfl
    exact decode_encode text

end ChatSpace.Utf8
