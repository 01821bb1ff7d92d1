import ChatSpace.Text.Bytes

namespace ChatSpace.Hex

def digit (n : Nat) : UInt8 :=
  UInt8.ofNat (if n < 10 then 0x30 + n else 0x57 + n)

def nibble? (d : UInt8) : Option Nat :=
  if 0x30 ≤ d.toNat ∧ d.toNat ≤ 0x39 then some (d.toNat - 0x30)
  else if 0x61 ≤ d.toNat ∧ d.toNat ≤ 0x66 then some (d.toNat - 0x57)
  else if 0x41 ≤ d.toNat ∧ d.toNat ≤ 0x46 then some (d.toNat - 0x37)
  else none

def lower (d : UInt8) : UInt8 :=
  if 0x41 ≤ d.toNat ∧ d.toNat ≤ 0x5A then UInt8.ofNat (d.toNat + 0x20) else d

def encode (bytes : Bytes) : Bytes :=
  bytes.flatMap fun b => [digit (b.toNat / 16), digit (b.toNat % 16)]

def decode : Bytes → Option Bytes
  | [] => some []
  | [_] => none
  | high :: low :: rest => do
      let high ← nibble? high
      let low ← nibble? low
      let bytes ← decode rest
      pure (UInt8.ofNat (16 * high + low) :: bytes)

theorem nibble?_digit {n : Nat} (h : n < 16) : nibble? (digit n) = some n := by
  revert n; decide

theorem nibble?_lt {d : UInt8} {n : Nat} (h : nibble? d = some n) : n < 16 := by
  unfold nibble? at h
  repeat' split at h
  all_goals simp_all
  all_goals omega

theorem digit_of_nibble? {d : UInt8} {n : Nat} (h : nibble? d = some n) : digit n = lower d := by
  have hd := d.toNat_lt
  apply UInt8.toNat_inj.mp
  unfold nibble? at h
  unfold digit lower
  repeat' split at h
  all_goals simp_all
  all_goals subst h
  all_goals repeat' split
  all_goals simp_all
  all_goals omega

@[simp] theorem length_encode (bytes : Bytes) : (encode bytes).length = 2 * bytes.length := by
  induction bytes with
  | nil => rfl
  | cons b bytes ih => simp [encode] at ih ⊢; omega

theorem decode_encode (bytes : Bytes) : decode (encode bytes) = some bytes := by
  induction bytes with
  | nil => rfl
  | cons b bytes ih =>
      have hb := b.toNat_lt
      have hsum : 16 * (b.toNat / 16) + b.toNat % 16 = b.toNat := by omega
      have hb' : encode (b :: bytes)
          = digit (b.toNat / 16) :: digit (b.toNat % 16) :: encode bytes := by simp [encode]
      rw [hb', decode, nibble?_digit (by omega), nibble?_digit (by omega), ih]
      simp only [Option.bind_eq_bind, Option.bind_some, Option.pure_def, hsum, UInt8.ofNat_toNat]

theorem encode_of_decode {digits bytes : Bytes} (h : decode digits = some bytes) :
    encode bytes = digits.map lower := by
  fun_induction decode digits generalizing bytes with
  | case1 => simp_all [encode]
  | case2 => simp at h
  | case3 high low rest ih =>
      simp only [Option.bind_eq_bind, Option.bind_eq_some_iff, Option.pure_def,
        Option.some.injEq] at h
      obtain ⟨n, hn, m, hm, tail, ht, rfl⟩ := h
      have hn' := nibble?_lt hn
      have hm' := nibble?_lt hm
      have hto : (UInt8.ofNat (16 * n + m)).toNat = 16 * n + m := by
        simp; omega
      have hdiv : (16 * n + m) / 16 = n := by omega
      have hmod : (16 * n + m) % 16 = m := by omega
      have hcons : encode (UInt8.ofNat (16 * n + m) :: tail)
          = digit ((UInt8.ofNat (16 * n + m)).toNat / 16) ::
            digit ((UInt8.ofNat (16 * n + m)).toNat % 16) :: encode tail := by simp [encode]
      rw [hcons, hto, hdiv, hmod, digit_of_nibble? hn, digit_of_nibble? hm, ih ht]
      simp

theorem length_of_decode {digits bytes : Bytes} (h : decode digits = some bytes) :
    digits.length = 2 * bytes.length := by
  have := congrArg List.length (encode_of_decode h)
  simp at this
  omega

def text (bytes : Bytes) : String :=
  String.ofList ((encode bytes).map fun d => Char.ofNat d.toNat)

end ChatSpace.Hex
