import ChatSpace.Text.Decimal

namespace ChatSpace.Decimal

def octet (c : Char) : UInt8 :=
  UInt8.ofNat c.toNat

theorem toNat_octet {c : Char} (h : c.isDigit) : (octet c).toNat = c.toNat := by
  have hle : c.toNat ≤ 0x39 := (Char.isDigit_iff_toNat.mp h).2
  rw [octet, UInt8.toNat_ofNat']
  omega

theorem isDigit_octet {c : Char} (h : c.isDigit) : isDigit (octet c) = true := by
  have := Char.isDigit_iff_toNat.mp h
  simp only [isDigit, Bool.and_eq_true, decide_eq_true_eq, UInt8.le_iff_toNat_le, toNat_octet h]
  exact this

theorem encodeChar_of_isDigit {c : Char} (h : c.isDigit) : String.utf8EncodeChar c = [octet c] := by
  have hsize : c.utf8Size = 1 := by
    have := Char.isDigit_iff_toNat.mp h
    rw [Char.utf8Size_eq_one_iff, UInt32.le_iff_toNat_le]
    exact Nat.le_trans this.2 (by decide)
  exact String.utf8EncodeChar_eq_singleton hsize

theorem encode_of_isDigit {chars : List Char} (h : ∀ c ∈ chars, c.isDigit) :
    Utf8.encode (String.ofList chars) = chars.map octet := by
  unfold Utf8.encode
  rw [String.toList_ofList]
  induction chars with
  | nil => rfl
  | cons c chars ih =>
      rw [List.flatMap_cons, encodeChar_of_isDigit (h c (by simp)),
        ih fun c' hc' => h c' (by simp [hc'])]
      rfl

theorem isDigit_of_mem_digits {n : Nat} {c : Char} (h : c ∈ digits n) : c.isDigit :=
  Nat.isDigit_of_mem_toDigits (by decide) (by decide) h

theorem encode_digits (n : Nat) :
    Utf8.encode (String.ofList (digits n)) = (digits n).map octet :=
  encode_of_isDigit fun _ => isDigit_of_mem_digits

theorem all_isDigit_octets (n : Nat) : ((digits n).map octet).all isDigit = true := by
  simpa using fun c hc => isDigit_octet (isDigit_of_mem_digits (n := n) hc)

theorem foldl_shift_octets {chars : List Char} (h : ∀ c ∈ chars, c.isDigit) (n : Nat) :
    (chars.map octet).foldl shift n = Nat.ofDigitChars 10 chars n := by
  induction chars generalizing n with
  | nil => simp
  | cons c chars ih =>
      rw [List.map_cons, List.foldl_cons, ih (fun c' hc' => h c' (by simp [hc'])),
        Nat.ofDigitChars_cons, shift, toNat_octet (h c (by simp)), Nat.mul_comm]
      rfl

theorem unsigned?_octets {chars : List Char} (h : ∀ c ∈ chars, c.isDigit) (hne : chars ≠ []) :
    unsigned? (chars.map octet) = some (Nat.ofDigitChars 10 chars 0) := by
  have hall : (chars.map octet).all isDigit = true := by
    simpa using fun c hc => isDigit_octet (h c hc)
  simp [unsigned?, hne, hall, value, foldl_shift_octets h]

theorem unsigned?_digits (n : Nat) : unsigned? ((digits n).map octet) = some n := by
  rw [unsigned?_octets (fun _ => isDigit_of_mem_digits) (by simp [digits])]
  exact congrArg some Nat.ofDigitChars_ten_toDigits

structure Spells (octets : Bytes) (n : Nat) : Prop where
  nonempty : octets ≠ []
  isDigit_of_mem : ∀ b ∈ octets, isDigit b
  value_eq : value octets = n

theorem unsigned?_eq_some_iff {octets : Bytes} {n : Nat} :
    unsigned? octets = some n ↔ Spells octets n := by
  simp only [unsigned?, Option.ite_none_right_eq_some, Bool.and_eq_true, Bool.not_eq_true',
    List.isEmpty_eq_false_iff, List.all_eq_true, Option.some.injEq]
  constructor
  · rintro ⟨⟨hne, hdigit⟩, hvalue⟩
    exact ⟨hne, hdigit, hvalue⟩
  · rintro ⟨hne, hdigit, hvalue⟩
    exact ⟨⟨hne, hdigit⟩, hvalue⟩

theorem signed?_of_all_isDigit {octets : Bytes} (h : octets.all isDigit = true) :
    signed? octets = (unsigned? octets).map Int.ofNat := by
  unfold signed? signedBy
  split
  · exact absurd h (by simp [isDigit])
  · exact absurd h (by simp [isDigit])
  · rfl

theorem signed?_minus (octets : Bytes) :
    signed? (0x2D :: octets) = (unsigned? octets).map fun n => -(Int.ofNat n) :=
  rfl

theorem signed?_plus (octets : Bytes) :
    signed? (0x2B :: octets) = (unsigned? octets).map Int.ofNat :=
  rfl

theorem signed?_minus_chars (chars : List Char) :
    signed? (Utf8.encode (String.ofList ('-' :: chars))) =
      (unsigned? (Utf8.encode (String.ofList chars))).map fun n => -(Int.ofNat n) := by
  rw [Utf8.encode_cons]
  exact signed?_minus _

theorem signed?_plus_chars (chars : List Char) :
    signed? (Utf8.encode (String.ofList ('+' :: chars))) =
      (unsigned? (Utf8.encode (String.ofList chars))).map Int.ofNat := by
  rw [Utf8.encode_cons]
  exact signed?_plus _

inductive Denotes : Bytes → Int → Prop
  | plain {digits n} : Spells digits n → Denotes digits n
  | plus {digits n} : Spells digits n → Denotes (0x2B :: digits) n
  | minus {digits n} : Spells digits n → Denotes (0x2D :: digits) (-n)

theorem signed?_of_denotes {octets : Bytes} {n : Int} (h : Denotes octets n) :
    signed? octets = some n := by
  cases h with
  | plain hdigits =>
      rw [signed?_of_all_isDigit (List.all_eq_true.mpr hdigits.isDigit_of_mem),
        unsigned?_eq_some_iff.mpr hdigits]
      rfl
  | plus hdigits => rw [signed?_plus, unsigned?_eq_some_iff.mpr hdigits]; rfl
  | minus hdigits => rw [signed?_minus, unsigned?_eq_some_iff.mpr hdigits]; rfl

theorem signed?_eq_some_iff {octets : Bytes} {n : Int} :
    signed? octets = some n ↔ Denotes octets n := by
  constructor
  · intro h
    unfold signed? signedBy at h
    split at h
    all_goals
      obtain ⟨m, hm, rfl⟩ := Option.map_eq_some_iff.mp h
      have hdigits := unsigned?_eq_some_iff.mp hm
    · exact .plus hdigits
    · exact .minus hdigits
    · exact .plain hdigits
  · exact signed?_of_denotes

theorem within?_eq_some_iff {low high : Int} (hlow : low ≤ 0) (hhigh : 0 ≤ high) {text : String}
    {n : Int} :
    within? low high text = some n ↔ Denotes (Utf8.encode text) n ∧ low ≤ n ∧ n ≤ high := by
  rw [within?_eq hlow hhigh, Option.filter_eq_some_iff, signed?_eq_some_iff, Bool.and_eq_true,
    decide_eq_true_iff, decide_eq_true_iff]

theorem encode_toString (n : Nat) : Utf8.encode (toString n) = (digits n).map octet := by
  rw [Nat.toString_eq_ofList_toDigits]
  exact encode_digits n

theorem signed?_toString (n : Int) : signed? (Utf8.encode (toString n)) = some n := by
  rw [Int.toString_eq_repr, Int.repr_eq_if]
  split
  · next hn =>
    rw [← Nat.toString_eq_repr, encode_toString, signed?_of_all_isDigit (all_isDigit_octets _),
      unsigned?_digits]
    exact congrArg some (Int.toNat_of_nonneg hn)
  · next hn =>
    have hminus (text : String) : Utf8.encode ("-" ++ text) = 0x2D :: Utf8.encode text :=
      Utf8.encode_append "-" text
    rw [← Nat.toString_eq_repr, hminus, encode_toString, signed?_minus, unsigned?_digits]
    apply congrArg some
    change -((-n).toNat : Int) = n
    omega

theorem toList_toString_ne_nil (n : Int) : (toString n).toList ≠ [] := by
  intro hnil
  have hread := signed?_toString n
  rw [Utf8.encode, hnil] at hread
  cases hread

theorem int64?_toString {n : Int} (low : -0x8000000000000000 ≤ n) (high : n ≤ 0x7FFFFFFFFFFFFFFF) :
    int64? (toString n) = some n := by
  rw [int64?, within?_eq (by decide) (by decide), signed?_toString]
  simp [Option.filter, low, high]

theorem eq_or_isDigit_of_mem_toString {n : Int} {c : Char} (h : c ∈ (toString n).toList) :
    c = '-' ∨ c.isDigit := by
  have hdigits (n : Nat) (h : c ∈ n.repr.toList) : c.isDigit := by
    rw [← Nat.toString_eq_repr, Nat.toString_eq_ofList_toDigits, String.toList_ofList] at h
    exact isDigit_of_mem_digits h
  rw [Int.toString_eq_repr, Int.repr_eq_if] at h
  split at h
  · exact .inr (hdigits _ h)
  · rw [String.toList_append, List.mem_append] at h
    rcases h with h | h
    · exact .inl (by simpa using h)
    · exact .inr (hdigits _ h)

theorem isDigit_of_mem_padded {width n : Nat} {c : Char} (h : c ∈ padded width n) : c.isDigit := by
  rcases List.mem_append.mp h with hzero | hdigit
  · rw [List.eq_of_mem_replicate hzero]
    rfl
  · exact isDigit_of_mem_digits hdigit

theorem padded_ne_nil (width n : Nat) : padded width n ≠ [] := by
  simp [padded, digits]

theorem ofDigitChars_padded {n : Nat} (h : n < 100) (first : Nat) :
    Nat.ofDigitChars 10 (padded 2 n) first = first * 100 + n := by
  have hlen : (digits n).length ≤ 2 := (Nat.length_toDigits_le_iff (by decide) (by decide)).mpr h
  have hvalue : Nat.ofDigitChars 10 (digits n) 0 = n := Nat.ofDigitChars_ten_toDigits
  rw [padded, Nat.ofDigitChars_append, Nat.ofDigitChars_replicate_zero,
    Nat.ofDigitChars_eq_ofDigitChars_zero, hvalue, ← Nat.mul_assoc, ← Nat.pow_add,
    Nat.add_sub_cancel' hlen, Nat.mul_comm]

theorem unsigned?_padded (width n : Nat) :
    unsigned? (Utf8.encode (String.ofList (padded width n))) = some n := by
  have hvalue : Nat.ofDigitChars 10 (digits n) 0 = n := Nat.ofDigitChars_ten_toDigits
  rw [encode_of_isDigit fun _ => isDigit_of_mem_padded,
    unsigned?_octets (fun _ => isDigit_of_mem_padded) (padded_ne_nil width n), padded,
    Nat.ofDigitChars_append, Nat.ofDigitChars_replicate_zero, Nat.mul_zero, hvalue]

theorem isDigit_of_mem_pair {first second : Nat} {c : Char}
    (h : c ∈ padded 2 first ++ padded 2 second) : c.isDigit := by
  rcases List.mem_append.mp h with h | h <;> exact isDigit_of_mem_padded h

theorem unsigned?_pair {first second : Nat} (hfirst : first < 100) (hsecond : second < 100) :
    unsigned? (Utf8.encode (String.ofList (padded 2 first ++ padded 2 second))) =
      some (first * 100 + second) := by
  have hne : padded 2 first ++ padded 2 second ≠ [] := by simp [padded_ne_nil]
  rw [encode_of_isDigit fun _ => isDigit_of_mem_pair,
    unsigned?_octets (fun _ => isDigit_of_mem_pair) hne, Nat.ofDigitChars_append,
    ofDigitChars_padded hfirst, ofDigitChars_padded hsecond, Nat.zero_mul, Nat.zero_add]

theorem ofDigitChars_inj {chars chars' : List Char} {n n' : Nat}
    (hlen : chars.length = chars'.length) (h : ∀ c ∈ chars, c.isDigit)
    (h' : ∀ c ∈ chars', c.isDigit)
    (heq : Nat.ofDigitChars 10 chars n = Nat.ofDigitChars 10 chars' n') :
    n = n' ∧ chars = chars' := by
  induction chars generalizing chars' n n' with
  | nil =>
      obtain rfl := List.eq_nil_of_length_eq_zero hlen.symm
      exact ⟨by simpa using heq, rfl⟩
  | cons c chars ih =>
      obtain ⟨c', chars', rfl⟩ := List.exists_cons_of_length_eq_add_one hlen.symm
      rw [Nat.ofDigitChars_cons, Nat.ofDigitChars_cons] at heq
      obtain ⟨hvalue, rfl⟩ := ih (by simpa using hlen) (fun d hd => h d (by simp [hd]))
        (fun d hd => h' d (by simp [hd])) heq
      have hzero : '0'.toNat = 0x30 := rfl
      have hc : 0x30 ≤ c.toNat ∧ c.toNat ≤ 0x39 := Char.isDigit_iff_toNat.mp (h c (by simp))
      have hc' : 0x30 ≤ c'.toNat ∧ c'.toNat ≤ 0x39 := Char.isDigit_iff_toNat.mp (h' c' (by simp))
      have hsame : c.toNat = c'.toNat := by omega
      exact ⟨by omega, by rw [Char.toNat_inj.mp hsame]⟩

theorem length_padded {n : Nat} (h : n < 100) : (padded 2 n).length = 2 := by
  have hlen : (digits n).length ≤ 2 := (Nat.length_toDigits_le_iff (by decide) (by decide)).mpr h
  rw [padded, List.length_append, List.length_replicate]
  omega

theorem padded_ofDigitChars {field : List Char} (hlen : field.length = 2)
    (h : ∀ c ∈ field, c.isDigit) (hvalue : Nat.ofDigitChars 10 field 0 < 100) :
    padded 2 (Nat.ofDigitChars 10 field 0) = field := by
  have hread := ofDigitChars_padded hvalue 0
  rw [Nat.zero_mul, Nat.zero_add] at hread
  exact (ofDigitChars_inj ((length_padded hvalue).trans hlen.symm)
    (fun _ => isDigit_of_mem_padded) h hread).2

end ChatSpace.Decimal
