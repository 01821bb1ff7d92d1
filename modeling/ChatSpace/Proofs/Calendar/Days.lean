import ChatSpace.Calendar
import Mathlib.Order.Basic
import Mathlib.Data.Int.Basic
import Mathlib.Tactic.IntervalCases

namespace ChatSpace.Calendar

variable {year : Int} {month : Nat} {d : Date}

def IsLeap (year : Int) : Prop :=
  4 ∣ year ∧ (¬ 100 ∣ year ∨ 400 ∣ year)

instance (year : Int) : Decidable (IsLeap year) :=
  inferInstanceAs (Decidable (4 ∣ year ∧ (¬ 100 ∣ year ∨ 400 ∣ year)))

def yearLength (year : Int) : Nat :=
  if IsLeap year then 366 else 365

def monthLength (year : Int) (month : Nat) : Nat :=
  match month with
  | 2 => if IsLeap year then 29 else 28
  | 4 | 6 | 9 | 11 => 30
  | _ => 31

def daysOfYears (first : Int) : Nat → Nat
  | 0 => 0
  | n + 1 => daysOfYears first n + yearLength (first + n)

def daysToYear (year : Int) : Int :=
  daysOfYears 1970 (year - 1970).toNat - daysOfYears year (1970 - year).toNat

def daysToMonth (year : Int) : Nat → Nat
  | 0 => 0
  | 1 => 0
  | month + 2 => daysToMonth year (month + 1) + monthLength year (month + 1)

namespace Date

structure Valid (d : Date) : Prop where
  month : 1 ≤ d.month ∧ d.month ≤ 12
  day : 1 ≤ d.day ∧ d.day ≤ monthLength d.year d.month

def number (d : Date) : Int :=
  daysToYear d.year + daysToMonth d.year d.month + d.day - 1

end Date

theorem daysOfYears_succ (first : Int) (n : Nat) :
    daysOfYears first (n + 1) = yearLength first + daysOfYears (first + 1) n := by
  induction n with
  | zero => simp [daysOfYears]
  | succ n ih =>
      have hlast : first + (n + 1 : Nat) = first + 1 + n := by omega
      rw [daysOfYears, ih, hlast, daysOfYears, Nat.add_assoc]

theorem daysToYear_succ (year : Int) :
    daysToYear (year + 1) = daysToYear year + yearLength year := by
  rcases le_or_gt 1970 year with hlate | hearly
  · have hafter : (year + 1 - 1970).toNat = (year - 1970).toNat + 1 := by omega
    have hnone : (1970 - year).toNat = 0 := by omega
    have hnext : (1970 - (year + 1)).toNat = 0 := by omega
    have hyear : 1970 + ((year - 1970).toNat : Int) = year := by omega
    have hlast (n : Nat) : daysOfYears 1970 (n + 1) =
        daysOfYears 1970 n + yearLength (1970 + n) := rfl
    rw [daysToYear, daysToYear, hafter, hnone, hnext, hlast, hyear]
    simp [daysOfYears]
  · have hbefore : (1970 - year).toNat = (1970 - (year + 1)).toNat + 1 := by omega
    have hnone : (year - 1970).toNat = 0 := by omega
    have hnext : (year + 1 - 1970).toNat = 0 := by omega
    rw [daysToYear, daysToYear, hbefore, hnone, hnext, daysOfYears_succ]
    omega

theorem yearLength_eq (year : Int) :
    (yearLength year : Int) = 365 + (year / 4 - (year - 1) / 4) - (year / 100 - (year - 1) / 100)
      + (year / 400 - (year - 1) / 400) := by
  by_cases hleap : IsLeap year
  · rw [yearLength, if_pos hleap]
    simp only [IsLeap] at hleap
    omega
  · rw [yearLength, if_neg hleap]
    simp only [IsLeap] at hleap
    omega

def leapDays (year : Int) : Int :=
  (year - 1) / 4 - (year - 1) / 100 + (year - 1) / 400

theorem daysToYear_eq (year : Int) :
    daysToYear year = 365 * (year - 1970) + leapDays year - 477 := by
  induction year using Int.inductionOn' with
  | b => exact 1970
  | zero => rfl
  | succ year _ ih =>
      have hlength := yearLength_eq year
      rw [daysToYear_succ, ih]
      simp only [leapDays]
      omega
  | pred year _ ih =>
      have hlength := yearLength_eq (year - 1)
      have hsucc := daysToYear_succ (year - 1)
      simp only [leapDays] at *
      rw [Int.sub_add_cancel] at hsucc
      omega

theorem monthStart_succ (year : Int) (h : month < 10) :
    monthStart (month + 1) = monthStart month + monthLength year (month + 3) := by
  interval_cases month <;> rfl

theorem daysToMonth_three (year : Int) :
    (daysToMonth year 3 : Int) = yearLength year - 306 := by
  by_cases hleap : IsLeap year <;> simp [daysToMonth, monthLength, yearLength, hleap]

theorem daysToMonth_add_three (year : Int) (h : month < 10) :
    daysToMonth year (month + 3) = daysToMonth year 3 + monthStart month := by
  induction month with
  | zero => rfl
  | succ month ih =>
      have hprevious := ih (by omega)
      have hstart := monthStart_succ year (show month < 10 by omega)
      have hnext : daysToMonth year (month + 1 + 3) =
          daysToMonth year (month + 3) + monthLength year (month + 3) := rfl
      omega

theorem daysToMonth_le_two {month : Nat} (year : Int) (h : 1 ≤ month ∧ month ≤ 2) :
    daysToMonth year month + 306 = monthStart (month + 9) := by
  obtain ⟨hlow, hhigh⟩ := h
  interval_cases month <;> rfl

namespace Date

theorem Valid.number_eq_toDay (h : d.Valid) : d.number = d.toDay := by
  obtain ⟨⟨hlow, hhigh⟩, hday, -⟩ := h
  have hyear := daysToYear_eq d.year
  simp only [leapDays] at hyear
  simp only [number, toDay, epochOffset, daysPerEra]
  rcases le_or_gt d.month 2 with hmonth | hmonth
  · have hdays := daysToMonth_le_two d.year ⟨hlow, hmonth⟩
    simp only [hmonth, if_true]
    omega
  · have hdays := daysToMonth_add_three d.year (show d.month - 3 < 10 by omega)
    have hmarch := daysToMonth_three d.year
    have hlength := yearLength_eq d.year
    rw [Nat.sub_add_cancel hmonth] at hdays
    simp only [Nat.not_le.mpr hmonth, if_false]
    omega

end Date

theorem isLeap_of_yearOfEra {day : Nat} (h : day < 146097) (hlast : (yearOfEra day).2 = 365)
    (era : Int) : IsLeap (era * 400 + (yearOfEra day).1 + 1) := by
  simp only [yearOfEra] at *
  generalize hc : min (day / 36524) 3 = c at *
  generalize hq : (day - c * 36524) / 1461 = q at *
  have hyear : min ((day - c * 36524) % 1461 / 365) 3 = 3 := by omega
  -- Only the last century of an era has a leap day at the end of its last four years.
  have hcycle : q < 24 ∨ q = 24 ∧ c = 3 := by omega
  rw [hyear, IsLeap]
  omega

theorem lt_monthStart_succ (dayOfYear : Nat) :
    dayOfYear < monthStart ((5 * dayOfYear + 2) / 153 + 1) := by
  simp only [monthStart]
  omega

theorem valid_fromMarch {dayOfYear : Nat} (h : month < 10) (hstart : monthStart month ≤ dayOfYear)
    (hnext : dayOfYear < monthStart (month + 1)) :
    Date.Valid ⟨year, month + 3, dayOfYear - monthStart month + 1⟩ := by
  have hsucc := monthStart_succ year h
  constructor
  · simp only
    omega
  · simp only
    omega

theorem valid_january {dayOfYear : Nat} (hnext : dayOfYear < 337) :
    Date.Valid ⟨year, 1, dayOfYear - 306 + 1⟩ := by
  have hlength : monthLength year 1 = 31 := rfl
  exact ⟨by simp, by simp only; omega⟩

theorem valid_february {dayOfYear : Nat} (hbound : dayOfYear < 366)
    (hleap : dayOfYear = 365 → IsLeap year) : Date.Valid ⟨year, 2, dayOfYear - 337 + 1⟩ := by
  have hlength : monthLength year 2 = if IsLeap year then 29 else 28 := rfl
  refine ⟨by simp, by simp, ?_⟩
  by_cases hlast : dayOfYear = 365
  · rw [if_pos (hleap hlast)] at hlength
    simp only
    omega
  · have hshort : 28 ≤ monthLength year 2 := by
      rw [hlength]
      split <;> omega
    simp only
    omega

theorem valid_ofDay (day : Int) : (Date.ofDay day).Valid := by
  have hlt : ((day + epochOffset) % daysPerEra).toNat < 146097 := by
    simp only [daysPerEra]
    omega
  have hbound := (yearOfEra_spec hlt).2.1
  have hleap hlast := isLeap_of_yearOfEra hlt hlast ((day + epochOffset) / daysPerEra)
  simp only [Date.ofDay]
  generalize yearOfEra ((day + epochOffset) % daysPerEra).toNat = y at *
  have hstart := monthStart_le y.2
  have hnext := lt_monthStart_succ y.2
  generalize hm : (5 * y.2 + 2) / 153 = m at *
  obtain hmonth | rfl | rfl : m < 10 ∨ m = 10 ∨ m = 11 := by omega
  · have hlate : ¬ m + 3 ≤ 2 := by omega
    simp only [hmonth, hlate, if_true, if_false]
    exact valid_fromMarch hmonth hstart hnext
  · exact valid_january hnext
  · exact valid_february hbound hleap

theorem number_ofDay (day : Int) : (Date.ofDay day).number = day := by
  rw [(valid_ofDay day).number_eq_toDay, toDay_ofDay]

end ChatSpace.Calendar
