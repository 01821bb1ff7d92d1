import ChatSpace.Calendar

namespace ChatSpace

structure Timestamp where
  time : Int
  offset : Int
deriving DecidableEq, Repr, Inhabited

namespace Timestamp

/-- Seconds east of Greenwich. An offset of a day or more counts as none. -/
def zone (t : Timestamp) : Int :=
  if -86400 < t.offset * 60 ∧ t.offset * 60 < 86400 then t.offset * 60 else 0

/-- Seconds since 1970. A time that the calendar has no date for counts as 0. -/
def instant (t : Timestamp) : Int :=
  if -8334601228800 ≤ t.time ∧ t.time ≤ 8210266876799 then t.time else 0

def moment (t : Timestamp) : Calendar.Moment :=
  Calendar.Moment.ofInstant t.instant t.zone

def text (t : Timestamp) : String :=
  t.moment.text

def magnitude (hhmm : UInt32) : UInt32 :=
  hhmm / 100 * 60 + hhmm % 100

def signedMinutes (hhmm : Int32) : Int32 :=
  let size := (magnitude hhmm.abs.toUInt32).toInt32
  if hhmm < 0 then -size else size

def offsetOf (text : String) : Int :=
  match Decimal.int32? text with
  | none => 0
  | some n => (signedMinutes (Int32.ofInt n)).toInt

def offsetText (minutes : Int) : List Char :=
  (if minutes < 0 then '-' else '+') :: Decimal.padded 2 (minutes.natAbs / 60)
    ++ Decimal.padded 2 (minutes.natAbs % 60)

end Timestamp

end ChatSpace
