import ChatSpace.Commit.Timestamp
import ChatSpace.Proofs.Calendar.Reading

namespace ChatSpace

namespace Word

variable {a b c : Int32} {w : UInt32}

theorem toNat_abs (a : Int32) : a.abs.toUInt32.toNat = a.toInt.natAbs := by
  change a.toBitVec.abs.toNat = a.toBitVec.toInt.natAbs
  have hlt := a.toBitVec.isLt
  rw [BitVec.toNat_abs, BitVec.toInt_eq_msb_cond]
  split <;> omega

theorem toInt_toInt32 (h : w.toNat < 0x80000000) : w.toInt32.toInt = w.toNat :=
  BitVec.toInt_eq_toNat_of_lt (x := w.toBitVec) (by simp; omega)

theorem toInt_neg (h : 0 ≤ a.toInt) : (-a).toInt = -a.toInt := by
  have hlt := a.toInt_lt
  rw [Int32.toInt_neg, Int.bmod_eq_of_le (by omega) (by omega)]

def product? (a b : Int32) : Option Int32 :=
  if a.toBitVec.smulOverflow b.toBitVec then none else some (a * b)

theorem smulOverflow_iff :
    a.toBitVec.smulOverflow b.toBitVec = true ↔
      ¬ (-0x80000000 ≤ a.toInt * b.toInt ∧ a.toInt * b.toInt < 0x80000000) := by
  simp only [BitVec.smulOverflow, Int32.toInt_toBitVec, Bool.or_eq_true, decide_eq_true_eq]
  omega

theorem product?_eq_some_iff : product? a b = some c ↔ c.toInt = a.toInt * b.toInt := by
  have hlow := c.le_toInt
  have hhigh := c.toInt_lt
  rw [product?, Option.ite_none_left_eq_some, smulOverflow_iff, Option.some.injEq,
    ← Int32.toInt_inj, Int32.toInt_mul]
  constructor
  · rintro ⟨hfits, heq⟩
    rw [← heq, Int.bmod_eq_of_le] <;> omega
  · intro heq
    refine ⟨by omega, ?_⟩
    rw [heq, Int.bmod_eq_of_le] <;> omega

end Word

namespace Timestamp

open Decimal

variable {text : String} {hhmm : Int} {t : Timestamp}

def minutes (hhmm : Int) : Int :=
  hhmm.sign * (hhmm.natAbs / 100 * 60 + hhmm.natAbs % 100 : Nat)

theorem minutes_of_neg (h : hhmm < 0) :
    minutes hhmm = -(hhmm.natAbs / 100 * 60 + hhmm.natAbs % 100 : Nat) := by
  rw [minutes, Int.sign_eq_neg_one_of_neg h, Int.neg_one_mul]

theorem minutes_of_nonneg (h : 0 ≤ hhmm) :
    minutes hhmm = (hhmm.natAbs / 100 * 60 + hhmm.natAbs % 100 : Nat) := by
  rcases Int.le_iff_lt_or_eq.mp h with hpos | rfl
  · rw [minutes, Int.sign_eq_one_of_pos hpos, Int.one_mul]
  · rfl

theorem toNat_magnitude (w : UInt32) :
    (magnitude w).toNat = w.toNat / 100 * 60 + w.toNat % 100 := by
  have hlt : w.toNat < 0x100000000 := w.toNat_lt
  simp only [magnitude, UInt32.toNat_add, UInt32.toNat_mul, UInt32.toNat_div, UInt32.toNat_mod,
    UInt32.reduceToNat]
  omega

structure IsExact (n : Int32) : Prop where
  size_eq : n.abs.toUInt32.toNat = n.toInt.natAbs
  hours_eq : (n.abs.toUInt32 / 100 * 60).toNat = n.toInt.natAbs / 100 * 60
  magnitude_eq :
    (magnitude n.abs.toUInt32).toNat = n.toInt.natAbs / 100 * 60 + n.toInt.natAbs % 100
  signed_eq : (magnitude n.abs.toUInt32).toInt32.toInt = (magnitude n.abs.toUInt32).toNat
  negated_eq :
    (-(magnitude n.abs.toUInt32).toInt32).toInt = -(magnitude n.abs.toUInt32).toInt32.toInt
  minutes_eq : (signedMinutes n).toInt = minutes n.toInt

theorem isExact (n : Int32) : IsExact n := by
  have hlow := n.le_toInt
  have hhigh := n.toInt_lt
  have hsize := Word.toNat_abs n
  have hmagnitude := toNat_magnitude n.abs.toUInt32
  rw [hsize] at hmagnitude
  -- The size may be 2 ^ 31, which is no signed word, but of each hundred only 60 minutes are left.
  have hsigned := Word.toInt_toInt32 (w := magnitude n.abs.toUInt32) (by omega)
  have hnegated := Word.toInt_neg (a := (magnitude n.abs.toUInt32).toInt32) (by omega)
  refine ⟨hsize, ?_, hmagnitude, hsigned, hnegated, ?_⟩
  · simp only [UInt32.toNat_mul, UInt32.toNat_div, UInt32.reduceToNat]
    omega
  · rw [signedMinutes]
    split
    · next hneg =>
      rw [hnegated, hsigned, hmagnitude, minutes_of_neg (Int32.lt_iff_toInt_lt.mp hneg)]
    · next hpos =>
      have hle : 0 ≤ n.toInt := Int32.le_iff_toInt_le.mp (Int32.not_lt.mp hpos)
      rw [hsigned, hmagnitude, minutes_of_nonneg hle]

theorem int32?_eq_some_iff {n : Int} :
    int32? text = some n ↔
      Denotes (Utf8.encode text) n ∧ -0x80000000 ≤ n ∧ n ≤ 0x7FFFFFFF :=
  within?_eq_some_iff (by decide) (by decide)

theorem offsetOf_eq (text : String) : offsetOf text = minutes ((int32? text).getD 0) := by
  rw [offsetOf]
  cases hread : int32? text with
  | none => rfl
  | some n =>
      obtain ⟨-, hlow, hhigh⟩ := int32?_eq_some_iff.mp hread
      simp only [Option.getD_some]
      rw [(isExact _).minutes_eq, Int32.toInt_ofInt_of_le hlow (by omega)]

theorem offsetOf_of_denotes {n : Int} (h : Denotes (Utf8.encode text) n) (low : -0x80000000 ≤ n)
    (high : n ≤ 0x7FFFFFFF) : offsetOf text = minutes n := by
  rw [offsetOf_eq, int32?_eq_some_iff.mpr ⟨h, low, high⟩, Option.getD_some]

theorem offsetOf_of_not_denotes
    (h : ∀ n, Denotes (Utf8.encode text) n → -0x80000000 ≤ n → ¬ n ≤ 0x7FFFFFFF) :
    offsetOf text = 0 := by
  have hnone : int32? text = none := by
    rw [Option.eq_none_iff_forall_ne_some]
    intro n hread
    obtain ⟨hn, hlow, hhigh⟩ := int32?_eq_some_iff.mp hread
    exact h n hn hlow hhigh
  rw [offsetOf_eq, hnone]
  rfl

def withinDay? (seconds : Int32) : Option Int32 :=
  if -86400 < seconds ∧ seconds < 86400 then some seconds else none

def zoneWord (offset : Int32) : Int32 :=
  ((Word.product? offset 60).bind withinDay?).getD 0

theorem toInt_zoneWord (offset : Int32) :
    (zoneWord offset).toInt =
      if -86400 < offset.toInt * 60 ∧ offset.toInt * 60 < 86400 then offset.toInt * 60 else 0 := by
  have hproduct {seconds : Int32} :
      Word.product? offset 60 = some seconds ↔ seconds.toInt = offset.toInt * 60 :=
    Word.product?_eq_some_iff
  cases hread : Word.product? offset 60 with
  | none =>
      have hlarge : ¬ (-86400 < offset.toInt * 60 ∧ offset.toInt * 60 < 86400) := by
        rintro ⟨low, high⟩
        have hfits := Int32.toInt_ofInt_of_le (n := offset.toInt * 60) (by omega) (by omega)
        rw [hproduct.mpr hfits] at hread
        cases hread
      rw [zoneWord, hread, if_neg hlarge]
      rfl
  | some seconds =>
      have hlow : (-86400 : Int32).toInt = -86400 := rfl
      have hhigh : (86400 : Int32).toInt = 86400 := rfl
      rw [zoneWord, hread, ← hproduct.mp hread, Option.bind_some]
      simp only [withinDay?, Int32.lt_iff_toInt_lt, hlow, hhigh]
      split <;> rfl

theorem zone_eq_toInt_zoneWord {offset : Int32} (h : t.offset = offset.toInt) :
    t.zone = (zoneWord offset).toInt := by
  rw [toInt_zoneWord, ← h, zone]

theorem zone_of_lt (h : t.offset.natAbs < 1440) : t.zone = t.offset * 60 :=
  if_pos (by omega)

theorem int32?_offsetText {minutes : Int} (low : -5999 ≤ minutes) (high : minutes ≤ 5999) :
    int32? (String.ofList (offsetText minutes)) =
      let n : Nat := minutes.natAbs / 60 * 100 + minutes.natAbs % 60
      some (if minutes < 0 then -(n : Int) else n) := by
  have hsmall : minutes.natAbs ≤ 5999 := by omega
  have hhours : minutes.natAbs / 60 < 100 := by omega
  have hminutes : minutes.natAbs % 60 < 100 := by omega
  have hread := unsigned?_pair hhours hminutes
  rw [int32?, within?_eq (by decide) (by decide), offsetText]
  generalize minutes.natAbs = n at hsmall hread ⊢
  split
  · next hneg =>
    rw [List.cons_append, signed?_minus_chars, hread]
    simp [Option.filter]
    omega
  · next hpos =>
    rw [List.cons_append, signed?_plus_chars, hread]
    simp [Option.filter]
    omega

theorem offsetOf_offsetText {minutes : Int} (low : -5999 ≤ minutes) (high : minutes ≤ 5999) :
    offsetOf (String.ofList (offsetText minutes)) = minutes := by
  rw [offsetOf_eq, int32?_offsetText low high, Option.getD_some]
  split
  · next hneg => rw [minutes_of_neg (by omega)]; omega
  · next hpos => rw [minutes_of_nonneg (by omega)]; omega

theorem zoneText_eq (minutes : Int) : Calendar.zoneText (minutes * 60) = offsetText minutes := by
  have hsign : minutes * 60 < 0 ↔ minutes < 0 := by omega
  have hsize : (minutes * 60).natAbs / 60 = minutes.natAbs := by omega
  simp only [Calendar.zoneText, offsetText, hsign, hsize]

def zoneField (t : Timestamp) : String :=
  String.ofList ((Fields.split ' ' t.text.toList).getLastD [])

theorem zoneField_eq (t : Timestamp) : t.zoneField = String.ofList (Calendar.zoneText t.zone) := by
  rw [zoneField, text, Calendar.Moment.toList_text,
    Fields.split_join _ _ (by simp [Calendar.Moment.fields])
      fun _ => Calendar.Moment.space_not_mem_fields]
  rfl

theorem zoneField_of_lt (h : t.offset.natAbs < 1440) :
    t.zoneField = String.ofList (offsetText t.offset) := by
  rw [zoneField_eq, zone_of_lt h, zoneText_eq]

structure IsPair (bound : Nat) (field : List Char) : Prop where
  length_eq : field.length = 2
  isDigit_of_mem : ∀ c ∈ field, c.isDigit
  value_lt : Nat.ofDigitChars 10 field 0 < bound

inductive IsClock : String → Prop
  | of {sign hours minutes} : sign = '+' ∨ sign = '-' → IsPair 24 hours → IsPair 60 minutes →
      IsClock (String.ofList (sign :: hours ++ minutes))

theorem IsPair.exists_padded {bound : Nat} {field : List Char} (h : IsPair bound field)
    (hbound : bound ≤ 100) : ∃ n < bound, field = padded 2 n :=
  ⟨_, h.value_lt, (padded_ofDigitChars h.length_eq h.isDigit_of_mem
    (Nat.lt_of_lt_of_le h.value_lt hbound)).symm⟩

theorem IsClock.eq_offsetText (h : IsClock text) :
    text = "-0000" ∨
      ∃ offset : Int, offset.natAbs < 1440 ∧ text = String.ofList (offsetText offset) := by
  obtain ⟨hsign, hhours, hminutes⟩ := h
  obtain ⟨hour, hhour, rfl⟩ := hhours.exists_padded (by decide)
  obtain ⟨minute, hminute, rfl⟩ := hminutes.exists_padded (by decide)
  have hdiv : (hour * 60 + minute) / 60 = hour := by omega
  have hmod : (hour * 60 + minute) % 60 = minute := by omega
  rcases hsign with rfl | rfl
  · refine .inr ⟨(hour * 60 + minute : Nat), by omega, ?_⟩
    rw [offsetText, Int.natAbs_natCast, hdiv, hmod, if_neg (by omega)]
  · by_cases hzero : hour * 60 + minute = 0
    · obtain ⟨rfl, rfl⟩ : hour = 0 ∧ minute = 0 := by omega
      exact .inl (by decide)
    · refine .inr ⟨-(hour * 60 + minute : Nat), by omega, ?_⟩
      rw [offsetText, Int.natAbs_neg, Int.natAbs_natCast, hdiv, hmod, if_pos (by omega)]

theorem IsClock.zoneField_iff (h : IsClock text) (time : Int) :
    ({ time, offset := offsetOf text } : Timestamp).zoneField = text ↔ text ≠ "-0000" := by
  rcases h.eq_offsetText with rfl | ⟨offset, hsmall, rfl⟩
  · have hread : offsetOf "-0000" = 0 := by decide
    have hwritten : ({ time, offset := 0 } : Timestamp).zoneField = "+0000" := by
      rw [zoneField_of_lt (by simp)]
      change String.ofList (offsetText 0) = "+0000"
      decide
    rw [hread, hwritten]
    decide
  · have hread : offsetOf (String.ofList (offsetText offset)) = offset :=
      offsetOf_offsetText (by omega) (by omega)
    rw [zoneField_of_lt (by rw [hread]; exact hsmall), hread]
    refine ⟨fun _ heq => ?_, fun _ => rfl⟩
    rw [heq] at hread
    obtain rfl : offset = 0 := hread.symm
    exact absurd heq (by decide)

theorem offsetOf_exact :
    (∀ text n, Denotes (Utf8.encode text) n → -0x80000000 ≤ n → n ≤ 0x7FFFFFFF →
      offsetOf text = n.sign * (n.natAbs / 100 * 60 + n.natAbs % 100 : Nat)) ∧
    (∀ text, (∀ n, Denotes (Utf8.encode text) n → -0x80000000 ≤ n → ¬ n ≤ 0x7FFFFFFF) →
      offsetOf text = 0) ∧
    (∀ n : Int32, IsExact n ∧ ∀ text, Denotes (Utf8.encode text) n.toInt →
      offsetOf text = (signedMinutes n).toInt) ∧
    (∀ offset seconds : Int32,
      Word.product? offset 60 = some seconds ↔ seconds.toInt = offset.toInt * 60) ∧
    (∀ (t : Timestamp) (offset : Int32), t.offset = offset.toInt →
      t.zone = (zoneWord offset).toInt ∧
      t.zone = if t.offset.natAbs < 1440 then t.offset * 60 else 0) ∧
    (∀ t : Timestamp, t.offset.natAbs < 1440 → offsetOf t.zoneField = t.offset) ∧
    ∀ text time, IsClock text →
      (({ time, offset := offsetOf text } : Timestamp).zoneField = text ↔ text ≠ "-0000") := by
  refine ⟨fun _ _ => offsetOf_of_denotes, fun _ => offsetOf_of_not_denotes, ?_,
    fun _ _ => Word.product?_eq_some_iff, ?_, ?_, fun _ time h => h.zoneField_iff time⟩
  · intro n
    refine ⟨isExact n, fun text hread => ?_⟩
    have hhigh := n.toInt_lt
    rw [(isExact n).minutes_eq]
    exact offsetOf_of_denotes hread n.le_toInt (by omega)
  · intro t offset h
    refine ⟨zone_eq_toInt_zoneWord h, ?_⟩
    split
    · next hlt => exact zone_of_lt hlt
    · next hge => exact if_neg (by omega)
  · intro t h
    rw [zoneField_of_lt h]
    exact offsetOf_offsetText (by omega) (by omega)

theorem offsetOf_exact_extremes :
    let least : Timestamp := { time := 0, offset := offsetOf "-2147483648" }
    let west : Timestamp := { time := 0, offset := -45 }
    Denotes (Utf8.encode "-2147483648") (-0x80000000) ∧ least.offset = -1288490208 ∧
      Word.product? (signedMinutes Int32.minValue) 60 = none ∧ least.zone = 0 ∧
      offsetOf "-2147483649" = 0 ∧
      west.offset.natAbs < 1440 ∧ west.zoneField = "-0045" ∧ offsetOf west.zoneField = -45 ∧
      IsClock "-0045" ∧
      ({ time := 0, offset := offsetOf "-0045" } : Timestamp).zoneField = "-0045" := by
  intro least west
  obtain ⟨hnumber, hnothing, hword, hproduct, hzone, hwritten, hclock⟩ := offsetOf_exact
  have hleast : Denotes (Utf8.encode "-2147483648") (-0x80000000) :=
    signed?_eq_some_iff.mp (by decide)
  have hminutes : least.offset = -1288490208 := hnumber _ _ hleast (by decide) (by decide)
  have hleastWord : least.offset = (signedMinutes Int32.minValue).toInt :=
    (hword Int32.minValue).2 _ hleast
  have hbeyond (n : Int) (h : Denotes (Utf8.encode "-2147483649") n) : n = -2147483649 :=
    Option.some.inj ((signed?_eq_some_iff.mpr h).symm.trans (by decide))
  have hhours : IsPair 24 ['0', '0'] := ⟨rfl, by simp, by decide⟩
  have hpast : IsPair 60 ['4', '5'] := ⟨rfl, by simp, by decide⟩
  have hshape : IsClock "-0045" := .of (.inr rfl) hhours hpast
  have hsmall : west.offset.natAbs < 1440 := by decide
  refine ⟨hleast, hminutes, ?_, ?_, ?_, hsmall, by decide, hwritten west hsmall, hshape,
    (hclock _ 0 hshape).mpr (by decide)⟩
  · rw [Option.eq_none_iff_forall_ne_some]
    intro seconds h
    have := (hproduct _ seconds).mp h
    have := seconds.le_toInt
    omega
  · rw [(hzone least _ hleastWord).2, hminutes]
    rfl
  · refine hnothing _ fun n h hlow _ => ?_
    have := hbeyond n h
    omega

end Timestamp

end ChatSpace
