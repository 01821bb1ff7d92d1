import ChatSpace.Commit.Timestamp
import ChatSpace.Proofs.Calendar.Reading

namespace ChatSpace.Timestamp

open Calendar

variable {t u : Timestamp}

structure IsShown (t : Timestamp) : Prop where
  offset : -86400 < t.offset * 60 ∧ t.offset * 60 < 86400
  time : -8334601228800 ≤ t.time ∧ t.time ≤ 8210266876799

theorem IsShown.zone_eq (h : t.IsShown) : t.zone = t.offset * 60 :=
  if_pos h.offset

theorem IsShown.instant_eq (h : t.IsShown) : t.instant = t.time :=
  if_pos h.time

theorem zone_whole (t : Timestamp) : 60 ∣ t.zone := by
  unfold zone
  split <;> omega

theorem zone_lt (t : Timestamp) : t.zone.natAbs < 86400 := by
  unfold zone
  split <;> omega

theorem ofText?_text (t : Timestamp) : Reading.ofText? t.text = some t.moment.reading :=
  Reading.ofText?_text (valid_ofDay _).month t.zone_whole (Nat.lt_trans t.zone_lt (by decide))

theorem zone_instant_of_text (h : t.text = u.text) : t.zone = u.zone ∧ t.instant = u.instant := by
  have hread : some t.moment.reading = some u.moment.reading := by
    rw [← ofText?_text, ← ofText?_text, h]
  have hreading := Option.some.inj hread
  constructor
  · exact congrArg (fun r => r.offset) hreading
  · calc
      t.instant = t.moment.reading.instant := (Moment.instant_reading_ofInstant _ _).symm
      _ = u.moment.reading.instant := by rw [hreading]
      _ = u.instant := Moment.instant_reading_ofInstant _ _

theorem text_denotes (t : Timestamp) :
    (∃ r, Reading.ofText? t.text = some r ∧ r.Valid ∧
      r.offset = (if -86400 < t.offset * 60 ∧ t.offset * 60 < 86400 then t.offset * 60 else 0) ∧
      60 ∣ r.offset ∧
      r.instant =
        (if -8334601228800 ≤ t.time ∧ t.time ≤ 8210266876799 then t.time else 0)) ∧
    ∀ u : Timestamp, t.IsShown → u.IsShown → t.text = u.text →
      t.time = u.time ∧ t.offset = u.offset := by
  constructor
  · exact ⟨t.moment.reading, ofText?_text t, Moment.valid_reading_ofInstant _ _, rfl, t.zone_whole,
      Moment.instant_reading_ofInstant _ _⟩
  · intro u ht hu htext
    obtain ⟨hzone, hinstant⟩ := zone_instant_of_text htext
    rw [ht.zone_eq, hu.zone_eq] at hzone
    rw [ht.instant_eq, hu.instant_eq] at hinstant
    exact ⟨hinstant, by omega⟩

theorem text_denotes_zones :
    let west : Timestamp := { time := 0, offset := -180 }
    let east : Timestamp := { time := 0, offset := 180 }
    west.IsShown ∧ east.IsShown ∧ west.text = "Wed Dec 31 21:00:00 1969 -0300" ∧
      west.text ≠ east.text := by
  intro west east
  have hwest : west.IsShown := ⟨by decide, by decide⟩
  have heast : east.IsShown := ⟨by decide, by decide⟩
  refine ⟨hwest, heast, by decide, fun htext => ?_⟩
  have hoffset := ((text_denotes west).2 east hwest heast htext).2
  exact absurd hoffset (by decide)

end ChatSpace.Timestamp
