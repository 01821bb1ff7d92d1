import ChatSpace.ObjectId

namespace ChatSpace

namespace Hex

theorem exists_decode {digits : Bytes} (heven : digits.length % 2 = 0)
    (h : ∀ d ∈ digits, (nibble? d).isSome) : ∃ bytes, decode digits = some bytes := by
  fun_induction decode digits with
  | case1 => exact ⟨[], rfl⟩
  | case2 d => cases heven
  | case3 high low rest ih =>
      obtain ⟨n, hn⟩ := Option.isSome_iff_exists.mp (h high (by simp))
      obtain ⟨m, hm⟩ := Option.isSome_iff_exists.mp (h low (by simp))
      have hrest : rest.length % 2 = 0 := by
        simp only [List.length_cons] at heven
        omega
      obtain ⟨bytes, hbytes⟩ := ih hrest fun d hd => h d (by simp [hd])
      exact ⟨UInt8.ofNat (16 * n + m) :: bytes, by simp [hn, hm, hbytes]⟩

theorem isSome_nibble_of_decode {digits bytes : Bytes} (h : decode digits = some bytes) {d : UInt8}
    (hd : d ∈ digits) : (nibble? d).isSome := by
  fun_induction decode digits generalizing bytes with
  | case1 => simp at hd
  | case2 => simp at h
  | case3 high low rest ih =>
      simp only [Option.bind_eq_bind, Option.bind_eq_some_iff] at h
      obtain ⟨n, hn, m, hm, tail, htail, -⟩ := h
      rcases List.mem_cons.mp hd with rfl | hd
      · simp [hn]
      rcases List.mem_cons.mp hd with rfl | hd
      · simp [hm]
      · exact ih htail hd

end Hex

namespace ObjectId

variable {digits : Bytes} {id : ObjectId} {e : ObjectIdError}

structure Named (digits : Bytes) (id : ObjectId) : Prop where
  length_digits : digits.length = 40
  isSome_nibble : ∀ d ∈ digits, (Hex.nibble? d).isSome
  encode_eq : id.encode = digits.map Hex.lower

inductive Misnamed (digits : Bytes) : ObjectIdError → Prop
  | length : digits.length ≠ 40 → Misnamed digits (.invalidLength digits.length)
  | characters {d} : digits.length = 40 → d ∈ digits → Hex.nibble? d = none →
      Misnamed digits (.invalidCharacters (Utf8.lossy digits))

theorem ofHex_of_named (h : Named digits id) : ofHex digits = .ok id := by
  obtain ⟨bytes, hbytes⟩ := Hex.exists_decode (by simp [h.length_digits]) h.isSome_nibble
  have hsame : Hex.encode bytes = Hex.encode id.bytes :=
    (Hex.encode_of_decode hbytes).trans h.encode_eq.symm
  have hdecode := congrArg Hex.decode hsame
  rw [Hex.decode_encode, Hex.decode_encode] at hdecode
  rw [ofHex_eq_ok_iff, hbytes, hdecode]

theorem ofHex_of_misnamed (h : Misnamed digits e) : ofHex digits = .error e := by
  unfold ofHex
  cases h with
  | length hlen => rw [dif_neg hlen]
  | characters hlen hd hnibble =>
      rw [dif_pos hlen]
      split
      · next bytes hbytes =>
        have hsome := Hex.isSome_nibble_of_decode hbytes hd
        simp [hnibble] at hsome
      · rfl

theorem named_or_misnamed (digits : Bytes) :
    (∃ id, Named digits id) ∨ ∃ e, Misnamed digits e := by
  by_cases hlen : digits.length = 40
  · by_cases hnibble : ∀ d ∈ digits, (Hex.nibble? d).isSome
    · obtain ⟨bytes, hbytes⟩ := Hex.exists_decode (by simp [hlen]) hnibble
      have hlen' := Hex.length_of_decode hbytes
      exact .inl ⟨⟨bytes, by omega⟩, hlen, hnibble, Hex.encode_of_decode hbytes⟩
    · obtain ⟨d, hd⟩ := Classical.not_forall.mp hnibble
      obtain ⟨hmem, hnone⟩ := Classical.not_imp.mp hd
      exact .inr ⟨_, .characters hlen hmem (Option.not_isSome_iff_eq_none.mp hnone)⟩
  · exact .inr ⟨_, .length hlen⟩

theorem named_encode (id : ObjectId) : Named id.encode id where
  length_digits := by simp [encode, id.length_bytes]
  isSome_nibble _ := Hex.isSome_nibble_of_decode (Hex.decode_encode id.bytes)
  encode_eq := Hex.encode_of_decode (Hex.decode_encode id.bytes)

theorem newline_not_mem_encode (id : ObjectId) : Bytes.newline ∉ id.encode := by
  intro hmem
  exact absurd ((named_encode id).isSome_nibble _ hmem) (by decide)

end ObjectId

end ChatSpace
