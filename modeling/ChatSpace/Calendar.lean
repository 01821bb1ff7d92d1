import ChatSpace.Text.Decimal

namespace ChatSpace.Calendar

structure Date where
  year : Int
  month : Nat
  day : Nat
deriving DecidableEq, Repr

def epochOffset : Int := 719468

def daysPerEra : Int := 146097

def yearOfEra (day : Nat) : Nat × Nat :=
  let century := min (day / 36524) 3
  let dayOfCentury := day - century * 36524
  let cycle := dayOfCentury / 1461
  let dayOfCycle := dayOfCentury % 1461
  let year := min (dayOfCycle / 365) 3
  (century * 100 + cycle * 4 + year, dayOfCycle - year * 365)

def monthStart (month : Nat) : Nat :=
  (153 * month + 2) / 5

def Date.ofDay (day : Int) : Date :=
  let shifted := day + epochOffset
  let era := shifted / daysPerEra
  let (year, dayOfYear) := yearOfEra (shifted % daysPerEra).toNat
  let month := (5 * dayOfYear + 2) / 153
  let civilMonth := if month < 10 then month + 3 else month - 9
  { year := era * 400 + year + (if civilMonth ≤ 2 then 1 else 0)
    month := civilMonth
    day := dayOfYear - monthStart month + 1 }

def Date.toDay (d : Date) : Int :=
  let year := if d.month ≤ 2 then d.year - 1 else d.year
  let era := year / 400
  let yearOfEra := year % 400
  let month := if d.month ≤ 2 then d.month + 9 else d.month - 3
  era * daysPerEra + (yearOfEra * 365 + yearOfEra / 4 - yearOfEra / 100)
    + (monthStart month + d.day - 1 : Nat) - epochOffset

def weekday (day : Int) : Nat :=
  ((day + 4) % 7).toNat

def weekdayName (weekday : Nat) : String :=
  match weekday with
  | 0 => "Sun"
  | 1 => "Mon"
  | 2 => "Tue"
  | 3 => "Wed"
  | 4 => "Thu"
  | 5 => "Fri"
  | _ => "Sat"

def monthName (month : Nat) : String :=
  match month with
  | 1 => "Jan"
  | 2 => "Feb"
  | 3 => "Mar"
  | 4 => "Apr"
  | 5 => "May"
  | 6 => "Jun"
  | 7 => "Jul"
  | 8 => "Aug"
  | 9 => "Sep"
  | 10 => "Oct"
  | 11 => "Nov"
  | _ => "Dec"

structure Moment where
  date : Date
  hour : Nat
  minute : Nat
  second : Nat
  offset : Int
deriving DecidableEq, Repr

def Moment.ofInstant (instant offset : Int) : Moment :=
  let wall := instant + offset
  let second := (wall % 86400).toNat
  { date := Date.ofDay (wall / 86400)
    hour := second / 3600
    minute := second / 60 % 60
    second := second % 60
    offset := offset }

theorem yearOfEra_spec {day : Nat} (h : day < 146097) :
    (yearOfEra day).1 < 400 ∧ (yearOfEra day).2 < 366 ∧
      (yearOfEra day).1 * 365 + (yearOfEra day).1 / 4 - (yearOfEra day).1 / 100
        + (yearOfEra day).2 = day := by
  simp only [yearOfEra]
  generalize hc : min (day / 36524) 3 = c
  generalize hr : day - c * 36524 = r
  generalize hq : r / 1461 = q
  generalize hs : r % 1461 = s
  generalize hy : min (s / 365) 3 = y
  have hr' : r ≤ 36524 := by omega
  have hy' : y ≤ 3 := by omega
  have hq' : q ≤ 24 := by omega
  have h4 : (c * 100 + q * 4 + y) / 4 = c * 25 + q := by omega
  have h100 : (c * 100 + q * 4 + y) / 100 = c := by omega
  rw [h4, h100]
  omega

theorem monthStart_le (dayOfYear : Nat) :
    monthStart ((5 * dayOfYear + 2) / 153) ≤ dayOfYear := by
  simp only [monthStart]
  omega

theorem toDay_ofDay (day : Int) : (Date.ofDay day).toDay = day := by
  obtain ⟨n, hn⟩ : ∃ n : Nat, (n : Int) = (day + epochOffset) % daysPerEra :=
    ⟨((day + epochOffset) % daysPerEra).toNat, by simp [daysPerEra]; omega⟩
  have hlt : n < 146097 := by simp [daysPerEra] at hn; omega
  have hdiv := Int.mul_ediv_add_emod (day + epochOffset) daysPerEra
  obtain ⟨hy, hd, hday⟩ := yearOfEra_spec hlt
  simp only [Date.ofDay, Date.toDay, ← hn, Int.toNat_natCast]
  generalize (yearOfEra n).1 = y at *
  generalize (yearOfEra n).2 = d at *
  generalize (day + epochOffset) / daysPerEra = era at *
  have hstart := monthStart_le d
  generalize hm : (5 * d + 2) / 153 = m at *
  have hm' : m ≤ 11 := by omega
  have hera : (era * 400 + (y : Int)) / 400 = era := by omega
  have hyear : (era * 400 + (y : Int)) % 400 = y := by omega
  simp only [daysPerEra, epochOffset] at *
  by_cases hlow : m < 10
  · have hback : m + 3 - 3 = m := by omega
    have hnot : ¬ m + 3 ≤ 2 := by omega
    simp only [hlow, hnot, if_true, if_false, hback, Int.add_zero, hera, hyear]
    omega
  · have hback : m - 9 + 9 = m := by omega
    have hle : m - 9 ≤ 2 := by omega
    simp only [hlow, hle, if_true, if_false, hback, Int.add_sub_cancel, hera, hyear]
    omega

def yearText (year : Int) : List Char :=
  let digits := Decimal.padded 4 year.natAbs
  if year < 0 then '-' :: digits
  else if year > 9999 then '+' :: digits
  else digits

def zoneText (offset : Int) : List Char :=
  let minutes := offset.natAbs / 60
  (if offset < 0 then '-' else '+') :: Decimal.padded 2 (minutes / 60)
    ++ Decimal.padded 2 (minutes % 60)

def Moment.text (m : Moment) : String :=
  let time := Decimal.padded 2 m.hour ++ ':' :: Decimal.padded 2 m.minute
    ++ ':' :: Decimal.padded 2 m.second
  String.ofList ((weekdayName (weekday m.date.toDay)).toList ++ ' ' ::
    (monthName m.date.month).toList ++ ' ' :: Decimal.digits m.date.day ++ ' ' :: time ++ ' ' ::
    yearText m.date.year ++ ' ' :: zoneText m.offset)

end ChatSpace.Calendar
