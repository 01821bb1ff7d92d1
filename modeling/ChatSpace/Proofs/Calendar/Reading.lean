import ChatSpace.Proofs.Calendar.Days
import ChatSpace.Proofs.Text.Digits
import ChatSpace.Text.Fields

namespace ChatSpace.Calendar

def weekdayNames : List String :=
  ["Sun", "Mon", "Tue", "Wed", "Thu", "Fri", "Sat"]

def monthNames : List String :=
  ["Jan", "Feb", "Mar", "Apr", "May", "Jun", "Jul", "Aug", "Sep", "Oct", "Nov", "Dec"]

structure Reading extends Moment where
  weekday : Nat
deriving DecidableEq, Repr

namespace Reading

def number? (field : List Char) : Option Nat :=
  Decimal.unsigned? (Utf8.encode (String.ofList field))

def year? (field : List Char) : Option Int :=
  Decimal.signed? (Utf8.encode (String.ofList field))

def weekday? (field : List Char) : Option Nat :=
  weekdayNames.idxOf? (String.ofList field)

def month? (field : List Char) : Option Nat :=
  (monthNames.idxOf? (String.ofList field)).map (· + 1)

def clock? (field : List Char) : Option (Nat × Nat × Nat) :=
  match Fields.split ':' field with
  | [hour, minute, second] => do
      return (← number? hour, ← number? minute, ← number? second)
  | _ => none

def shift? (field : List Char) : Option Nat :=
  (number? field).map fun n => (n / 100 * 60 + n % 100) * 60

def zone? : List Char → Option Int
  | '+' :: shift => (shift? shift).map Int.ofNat
  | '-' :: shift => (shift? shift).map fun n => -(Int.ofNat n)
  | _ => none

def ofText? (text : String) : Option Reading :=
  match Fields.split ' ' text.toList with
  | [weekday, month, day, clock, year, zone] => do
      let (hour, minute, second) ← clock? clock
      return {
        weekday := ← weekday? weekday
        date := { year := ← year? year, month := ← month? month, day := ← number? day }
        hour := hour
        minute := minute
        second := second
        offset := ← zone? zone }
  | _ => none

structure Valid (r : Reading) : Prop where
  date : r.date.Valid
  hour : r.hour < 24
  minute : r.minute < 60
  second : r.second < 60
  weekday : (r.weekday : Int) = (r.date.number + 4) % 7

def instant (r : Reading) : Int :=
  r.date.number * 86400 + r.hour * 3600 + r.minute * 60 + r.second - r.offset

theorem number?_digits (n : Nat) : number? (Decimal.digits n) = some n := by
  rw [number?, Decimal.encode_digits, Decimal.unsigned?_digits]

theorem number?_padded (width n : Nat) : number? (Decimal.padded width n) = some n :=
  Decimal.unsigned?_padded width n

theorem year?_yearText (year : Int) : year? (yearText year) = some year := by
  have hdigits := Decimal.unsigned?_padded 4 year.natAbs
  unfold year? yearText
  split
  · next hneg =>
    rw [Decimal.signed?_minus_chars, hdigits]
    exact congrArg some (by simp only [Int.ofNat_eq_natCast]; omega)
  · next hpos =>
    have hvalue : (year.natAbs : Int) = year := by omega
    split
    · rw [Decimal.signed?_plus_chars, hdigits]
      exact congrArg some hvalue
    · have hall : (Utf8.encode (String.ofList (Decimal.padded 4 year.natAbs))).all
          Decimal.isDigit = true :=
        List.all_eq_true.mpr (Decimal.unsigned?_eq_some_iff.mp hdigits).isDigit_of_mem
      rw [Decimal.signed?_of_all_isDigit hall, hdigits]
      exact congrArg some hvalue

theorem weekday?_weekdayName {weekday : Nat} (h : weekday < 7) :
    weekday? (weekdayName weekday).toList = some weekday := by
  interval_cases weekday <;> decide

theorem month?_monthName {month : Nat} (h : 1 ≤ month ∧ month ≤ 12) :
    month? (monthName month).toList = some month := by
  obtain ⟨hlow, hhigh⟩ := h
  interval_cases month <;> decide

theorem shift?_pair {hours minutes : Nat} (hhours : hours < 100) (hminutes : minutes < 100) :
    shift? (Decimal.padded 2 hours ++ Decimal.padded 2 minutes) =
      some ((hours * 60 + minutes) * 60) := by
  have hdiv : (hours * 100 + minutes) / 100 = hours := by omega
  have hmod : (hours * 100 + minutes) % 100 = minutes := by omega
  rw [shift?, number?, Decimal.unsigned?_pair hhours hminutes, Option.map_some, hdiv, hmod]

theorem zone?_zoneText {offset : Int} (hwhole : 60 ∣ offset) (h : offset.natAbs < 360000) :
    zone? (zoneText offset) = some offset := by
  have hhours : offset.natAbs / 60 / 60 < 100 := by omega
  have hminutes : offset.natAbs / 60 % 60 < 100 := by omega
  have hread := shift?_pair hhours hminutes
  have hvalue : (offset.natAbs / 60 / 60 * 60 + offset.natAbs / 60 % 60) * 60 = offset.natAbs := by
    omega
  unfold zoneText
  split
  · next hneg =>
    rw [List.cons_append, zone?, hread, hvalue]
    exact congrArg some (by simp only [Int.ofNat_eq_natCast]; omega)
  · next hpos =>
    rw [List.cons_append, zone?, hread, hvalue]
    exact congrArg some (Int.natAbs_of_nonneg (Int.not_lt.mp hpos))

theorem clock?_padded (hour minute second : Nat) :
    clock? (Decimal.padded 2 hour ++ ':' :: Decimal.padded 2 minute ++
      ':' :: Decimal.padded 2 second) = some (hour, minute, second) := by
  have hplain (n : Nat) : ':' ∉ Decimal.padded 2 n := fun hmem =>
    absurd (Decimal.isDigit_of_mem_padded hmem) (by decide)
  rw [clock?, List.append_assoc, List.cons_append,
    Fields.split_append_of_not_mem _ _ _ (hplain hour),
    Fields.split_append_of_not_mem _ _ _ (hplain minute),
    Fields.split_of_not_mem _ _ (hplain second)]
  simp [number?_padded]

end Reading

def Moment.fields (m : Moment) : List (List Char) :=
  [(weekdayName (weekday m.date.toDay)).toList, (monthName m.date.month).toList,
    Decimal.digits m.date.day,
    Decimal.padded 2 m.hour ++ ':' :: Decimal.padded 2 m.minute ++ ':' :: Decimal.padded 2 m.second,
    yearText m.date.year, zoneText m.offset]

theorem Moment.toList_text (m : Moment) : m.text.toList = Fields.join ' ' m.fields := by
  simp [text, fields, Fields.join]

theorem space_not_mem_of_isDigit {chars : List Char} (h : ∀ c ∈ chars, c.isDigit) :
    ' ' ∉ chars := fun hmem =>
  absurd (h ' ' hmem) (by decide)

theorem Moment.space_not_mem_fields {m : Moment} {field : List Char} (h : field ∈ m.fields) :
    ' ' ∉ field := by
  have hpadded (width n : Nat) : ' ' ∉ Decimal.padded width n :=
    space_not_mem_of_isDigit fun _ => Decimal.isDigit_of_mem_padded
  have hdigits (n : Nat) : ' ' ∉ Decimal.digits n :=
    space_not_mem_of_isDigit fun _ => Decimal.isDigit_of_mem_digits
  simp only [fields, List.mem_cons, List.not_mem_nil, or_false] at h
  rcases h with rfl | rfl | rfl | rfl | rfl | rfl
  · unfold weekdayName
    split <;> decide
  · unfold monthName
    split <;> decide
  · exact hdigits _
  · simp [hpadded]
  · unfold yearText
    split
    · simp [hpadded]
    · split <;> simp [hpadded]
  · unfold zoneText
    split <;> simp [hpadded]

def Moment.reading (m : Moment) : Reading :=
  { m with weekday := weekday m.date.toDay }

theorem Reading.ofText?_text {m : Moment} (hmonth : 1 ≤ m.date.month ∧ m.date.month ≤ 12)
    (hwhole : 60 ∣ m.offset) (hoffset : m.offset.natAbs < 360000) :
    ofText? m.text = some m.reading := by
  have hweekday : Calendar.weekday m.date.toDay < 7 := by unfold Calendar.weekday; omega
  have hclock := clock?_padded m.hour m.minute m.second
  rw [ofText?, Moment.toList_text, Fields.split_join _ _ (by simp [Moment.fields])
    fun _ => Moment.space_not_mem_fields]
  simp only [Moment.fields, hclock, weekday?_weekdayName hweekday, month?_monthName hmonth,
    year?_yearText, number?_digits, zone?_zoneText hwhole hoffset]
  rfl

namespace Moment

theorem valid_reading_ofInstant (instant offset : Int) :
    (ofInstant instant offset).reading.Valid := by
  have hsecond : ((instant + offset) % 86400).toNat < 86400 := by omega
  simp only [ofInstant, reading]
  generalize ((instant + offset) % 86400).toNat = second at hsecond
  constructor
  case date => exact valid_ofDay _
  case hour => simp only; omega
  case minute => exact Nat.mod_lt _ (by decide)
  case second => exact Nat.mod_lt _ (by decide)
  case weekday =>
    simp only [toDay_ofDay, number_ofDay, weekday]
    omega

theorem instant_reading_ofInstant (instant offset : Int) :
    (ofInstant instant offset).reading.instant = instant := by
  simp only [ofInstant, reading, Reading.instant, number_ofDay]
  omega

end Moment

end ChatSpace.Calendar
