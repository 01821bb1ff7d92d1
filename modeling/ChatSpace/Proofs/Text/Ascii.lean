import ChatSpace.Text.Utf8

namespace ChatSpace

@[simp] theorem toString_string (text : String) : toString text = text := rfl

namespace Utf8

theorem toNat_of_mem_encodeChar {b : UInt8} {c : Char} (h : b ∈ String.utf8EncodeChar c) :
    b.toNat = c.toNat ∨ 128 ≤ b.toNat := by
  rw [String.utf8EncodeChar.eq_1] at h
  have hval : c.val.toNat = c.toNat := rfl
  rw [hval] at h
  generalize c.toNat = n at h
  split at h
  · obtain rfl := List.mem_singleton.mp h
    rw [UInt8.toNat_ofNat']
    omega
  -- every octet of a longer spelling is 128 or more
  · right
    repeat' split at h
    all_goals
      simp only [List.mem_cons, List.not_mem_nil, or_false] at h
      rcases h with rfl | rfl | rfl | rfl <;> rw [UInt8.toNat_ofNat'] <;> omega

theorem eq_of_mem_encodeChar {b : UInt8} {c : Char} (h : b ∈ String.utf8EncodeChar c)
    (hb : b.toNat < 128) : c = Char.ofNat b.toNat := by
  have hsame : b.toNat = c.toNat := (toNat_of_mem_encodeChar h).resolve_right (by omega)
  rw [hsame, Char.ofNat_toNat]

theorem mem_toList_of_mem_encode {b : UInt8} {text : String} (h : b ∈ encode text)
    (hb : b.toNat < 128) : Char.ofNat b.toNat ∈ text.toList := by
  obtain ⟨c, hc, hmem⟩ := List.mem_flatMap.mp h
  exact eq_of_mem_encodeChar hmem hb ▸ hc

theorem newline_not_mem_encode {text : String} (h : '\n' ∉ text.toList) :
    Bytes.newline ∉ encode text := fun hmem => h (mem_toList_of_mem_encode hmem (by decide))

structure IsPlain (c : Char) : Prop where
  pos : 0 < c.toNat
  lt : c.toNat < 128

theorem eq_toNat_of_ofNat_eq {n : Nat} {c : Char} (h : Char.ofNat n = c) (hc : IsPlain c) :
    n = c.toNat := by
  by_cases hvalid : n.isValidChar
  · have hchar : Char.ofNat n = Char.ofNatAux n hvalid := dif_pos hvalid
    rw [hchar] at h
    exact congrArg Char.toNat h
  · have hchar : Char.ofNat n = '\x00' := dif_neg hvalid
    rw [hchar] at h
    exact absurd (h ▸ hc.pos) (by decide)

theorem not_isPlain_replacement : ¬ IsPlain replacement :=
  fun h => absurd h.lt (by decide)

structure Pending.IsWide (p : Pending) : Prop where
  low_le : 128 ≤ p.low.toNat
  two_le : 2 ≤ p.value * 64 + (p.low.toNat - 128)
  last : p.owed ≤ 1 → 128 ≤ p.value * 64 + (p.low.toNat - 128)

theorem isWide_of_lead {b : UInt8} {p : Pending} (h : lead b = .opens p) : p.IsWide := by
  unfold lead at h
  simp only [UInt8.lt_iff_toNat_lt, ← UInt8.toNat_inj, UInt8.reduceToNat] at h
  repeat' split at h
  all_goals cases h
  all_goals refine ⟨?_, ?_, ?_⟩ <;> simp only [UInt8.reduceToNat] <;> omega

theorem isWide_of_more {p q : Pending} {b : UInt8} (hp : p.IsWide) (haccept : p.accepts b)
    (h : p.advance b = .more q) : q.IsWide := by
  have hle : p.low.toNat ≤ b.toNat := by
    simp only [Pending.accepts, Bool.and_eq_true, decide_eq_true_eq] at haccept
    exact UInt8.le_iff_toNat_le.mp haccept.1
  have htwo := hp.two_le
  have hlow := hp.low_le
  simp only [Pending.advance] at h
  split at h
  · cases h
  · cases h
    have hnew : (0x80 : UInt8).toNat = 128 := rfl
    constructor <;> simp only [hnew] <;> omega

theorem not_isPlain_of_complete {p : Pending} {b : UInt8} {c : Char} (hp : p.IsWide)
    (haccept : p.accepts b) (h : p.advance b = .complete c) : ¬ IsPlain c := by
  have hle : p.low.toNat ≤ b.toNat := by
    simp only [Pending.accepts, Bool.and_eq_true, decide_eq_true_eq] at haccept
    exact UInt8.le_iff_toNat_le.mp haccept.1
  have hlow := hp.low_le
  intro hc
  simp only [Pending.advance] at h
  split at h
  · next howed =>
    have hlast := hp.last howed
    have hnumber := eq_toNat_of_ofNat_eq (Advance.complete.inj h) hc
    have hlt := hc.lt
    omega
  · cases h

structure Decoder.Faithful (bytes : Bytes) (d : Decoder) : Prop where
  done : ∀ c ∈ d.done, IsPlain c → ∃ b ∈ bytes, b.toNat = c.toNat
  pending : ∀ p ∈ d.pending, p.IsWide

theorem Decoder.Faithful.start {bytes : Bytes} {d : Decoder} {b : UInt8}
    (hdone : ∀ c ∈ d.done, IsPlain c → ∃ b ∈ bytes, b.toNat = c.toNat) :
    (d.start b).Faithful (bytes ++ [b]) := by
  have hmore : ∀ c ∈ d.done, IsPlain c → ∃ b' ∈ bytes ++ [b], b'.toNat = c.toNat := by
    intro c hmem hc
    obtain ⟨b', hb', heq⟩ := hdone c hmem hc
    exact ⟨b', by simp [hb'], heq⟩
  unfold Decoder.start
  split
  · refine ⟨?_, by simp⟩
    intro c hmem hc
    rcases List.mem_cons.mp hmem with heq | hmem
    · exact ⟨b, by simp, eq_toNat_of_ofNat_eq heq.symm hc⟩
    · exact hmore c hmem hc
  · next p hlead => exact ⟨hmore, by simpa using isWide_of_lead hlead⟩
  · refine ⟨?_, by simp⟩
    intro c hmem hc
    rcases List.mem_cons.mp hmem with rfl | hmem
    · exact absurd hc not_isPlain_replacement
    · exact hmore c hmem hc

theorem Decoder.Faithful.step {bytes : Bytes} {d : Decoder} (h : d.Faithful bytes) (b : UInt8) :
    (d.step b).Faithful (bytes ++ [b]) := by
  have hmore : ∀ c ∈ d.done, IsPlain c → ∃ b' ∈ bytes ++ [b], b'.toNat = c.toNat := by
    intro c hmem hc
    obtain ⟨b', hb', heq⟩ := h.done c hmem hc
    exact ⟨b', by simp [hb'], heq⟩
  unfold Decoder.step
  split
  · exact .start h.done
  · next p hp =>
    have hwide := h.pending p (by simp [hp])
    split
    · next haccept =>
      split
      · next c hcomplete =>
        refine ⟨?_, by simp⟩
        intro c' hmem hc
        rcases List.mem_cons.mp hmem with rfl | hmem
        · exact absurd hc (not_isPlain_of_complete hwide haccept hcomplete)
        · exact hmore c' hmem hc
      · next q hq => exact ⟨hmore, by simpa using isWide_of_more hwide haccept hq⟩
    · apply Faithful.start
      intro c hmem hc
      rcases List.mem_cons.mp hmem with rfl | hmem
      · exact absurd hc not_isPlain_replacement
      · exact h.done c hmem hc

theorem Decoder.Faithful.foldl {bytes : Bytes} {d : Decoder} (h : d.Faithful bytes) (more : Bytes) :
    (more.foldl Decoder.step d).Faithful (bytes ++ more) := by
  induction more generalizing bytes d with
  | nil => simpa using h
  | cons b more ih => simpa using ih (h.step b)

theorem faithful_foldl (bytes : Bytes) :
    (bytes.foldl Decoder.step ⟨[], none⟩).Faithful bytes := by
  have hstart : Decoder.Faithful [] ⟨[], none⟩ := ⟨by simp, by simp⟩
  exact hstart.foldl bytes

theorem exists_mem_of_mem_lossy {bytes : Bytes} {c : Char} (h : c ∈ (lossy bytes).toList)
    (hc : IsPlain c) : ∃ b ∈ bytes, b.toNat = c.toNat := by
  rw [lossy, String.toList_ofList, Decoder.finish] at h
  apply (faithful_foldl bytes).done c _ hc
  split at h
  · simpa using h
  · rw [List.mem_reverse] at h
    rcases List.mem_cons.mp h with rfl | h
    · exact absurd hc not_isPlain_replacement
    · exact h

theorem newline_mem_of_mem_lossy {bytes : Bytes} (h : '\n' ∈ (lossy bytes).toList) :
    Bytes.newline ∈ bytes := by
  obtain ⟨b, hb, heq⟩ := exists_mem_of_mem_lossy h ⟨by decide, by decide⟩
  obtain rfl : b = Bytes.newline := UInt8.toNat_inj.mp heq
  exact hb

def Decoder.after (d : Decoder) (before : List Char) : Decoder :=
  ⟨d.done ++ before, d.pending⟩

theorem Decoder.start_after (d : Decoder) (before : List Char) (b : UInt8) :
    (d.after before).start b = (d.start b).after before := by
  unfold Decoder.start
  split <;> rfl

theorem Decoder.step_after (d : Decoder) (before : List Char) (b : UInt8) :
    (d.after before).step b = (d.step b).after before := by
  unfold Decoder.step
  rw [show (d.after before).pending = d.pending from rfl]
  split
  · exact d.start_after before b
  · split
    · split <;> rfl
    · exact Decoder.start_after ⟨replacement :: d.done, none⟩ before b

theorem Decoder.foldl_step_after (bytes : Bytes) (d : Decoder) (before : List Char) :
    bytes.foldl step (d.after before) = (bytes.foldl step d).after before := by
  induction bytes generalizing d with
  | nil => rfl
  | cons b bytes ih => rw [List.foldl_cons, step_after, ih, List.foldl_cons]

theorem Decoder.finish_after (d : Decoder) (before : List Char) :
    (d.after before).finish = before.reverse ++ d.finish := by
  unfold Decoder.finish
  rw [show (d.after before).pending = d.pending from rfl]
  split <;> simp [Decoder.after]

theorem lead_of_lt {b : UInt8} (h : b.toNat < 128) : lead b = .ascii :=
  if_pos (UInt8.lt_iff_toNat_lt.mpr h)

def charOf (b : UInt8) : Char :=
  Char.ofNat b.toNat

theorem Decoder.step_of_lt {d : Decoder} {b : UInt8} (hd : ∀ p ∈ d.pending, p.IsWide)
    (hb : b.toNat < 128) :
    d.step b = (⟨[], none⟩ : Decoder).after (charOf b :: d.finish.reverse) := by
  unfold Decoder.step Decoder.finish
  split
  · simp [Decoder.start, lead_of_lt hb, after, charOf]
  · next p hp =>
    -- an unfinished character takes no octet below 128
    have hrefused : p.accepts b = false := by
      have hlow := (hd p (by simp [hp])).low_le
      simp only [Pending.accepts, Bool.and_eq_false_iff, decide_eq_false_iff_not,
        UInt8.le_iff_toNat_le]
      omega
    simp [Decoder.start, lead_of_lt hb, hrefused, after, charOf]

theorem lossy_append_cons {b : UInt8} (hb : b.toNat < 128) (front rest : Bytes) :
    (lossy (front ++ b :: rest)).toList =
      (lossy front).toList ++ charOf b :: (lossy rest).toList := by
  have hstep := Decoder.step_of_lt (faithful_foldl front).pending hb
  simp only [lossy, String.toList_ofList, List.foldl_append, List.foldl_cons, hstep,
    Decoder.foldl_step_after, Decoder.finish_after]
  simp

theorem lossy_append_left {lead : Bytes} (h : ∀ b ∈ lead, b.toNat < 128) (rest : Bytes) :
    (lossy (lead ++ rest)).toList = lead.map charOf ++ (lossy rest).toList := by
  induction lead with
  | nil => rfl
  | cons b lead ih =>
      have hcut := lossy_append_cons (h b (by simp)) [] (lead ++ rest)
      rw [List.nil_append] at hcut
      rw [List.cons_append, hcut, ih fun b hb => h b (by simp [hb])]
      rfl

theorem lossy_append_right (front : Bytes) {trail : Bytes} (h : ∀ b ∈ trail, b.toNat < 128) :
    (lossy (front ++ trail)).toList = (lossy front).toList ++ trail.map charOf := by
  cases trail with
  | nil => simp
  | cons b trail =>
      have hrest := lossy_append_left (fun b hb => h b (List.mem_cons_of_mem _ hb)) []
      rw [List.append_nil] at hrest
      rw [lossy_append_cons (h b (by simp)), hrest, List.map_cons]
      simp [lossy, Decoder.finish]

theorem eq_nil_of_lossy {bytes : Bytes} (h : (lossy bytes).toList = []) : bytes = [] := by
  rcases List.eq_nil_or_concat bytes with rfl | ⟨front, b, rfl⟩
  · rfl
  · have hstart (d : Decoder) : (d.start b).finish ≠ [] := by
      unfold Decoder.start
      split <;> simp [Decoder.finish]
    exfalso
    rw [lossy, String.toList_ofList, List.concat_eq_append, List.foldl_append, List.foldl_cons,
      List.foldl_nil] at h
    revert h
    generalize front.foldl Decoder.step ⟨[], none⟩ = d
    unfold Decoder.step
    split
    · exact hstart d
    · split
      · split <;> simp [Decoder.finish]
      · exact hstart _

theorem not_mem_lossy_of_forall_le {bytes : Bytes} (h : ∀ b ∈ bytes, 128 ≤ b.toNat) {c : Char}
    (hc : IsPlain c) : c ∉ (lossy bytes).toList := by
  intro hmem
  obtain ⟨b, hb, heq⟩ := exists_mem_of_mem_lossy hmem hc
  have hle := h b hb
  have hlt := hc.lt
  omega

theorem exists_cut_of_lossy {c : Char} (hc : IsPlain c) {bytes : Bytes} {front rest : List Char}
    (h : (lossy bytes).toList = front ++ c :: rest) :
    ∃ before b after, bytes = before ++ b :: after ∧ b.toNat = c.toNat ∧
      (lossy before).toList = front ∧ (lossy after).toList = rest := by
  induction hlength : bytes.length using Nat.strongRecOn generalizing bytes front with
  | ind n ih =>
    subst hlength
    cases hfind : bytes.find? (·.toNat < 128) with
    | none =>
        have hhigh : ∀ b ∈ bytes, 128 ≤ b.toNat := by simpa using hfind
        exact absurd (h ▸ by simp) (not_mem_lossy_of_forall_le hhigh hc)
    | some b =>
        obtain ⟨hlow, before, after, rfl, hbefore⟩ := List.find?_eq_some_iff_append.mp hfind
        have hb : b.toNat < 128 := by simpa using hlow
        have hhigh : ∀ b ∈ before, 128 ≤ b.toNat := by simpa using hbefore
        rw [lossy_append_cons hb] at h
        rcases List.append_eq_append_iff.mp h with ⟨gap, hfront, hrest⟩ | ⟨gap, hbefore, hrest⟩
        · cases gap with
          | nil =>
              obtain ⟨hchar, hrest⟩ := List.cons.inj hrest
              exact ⟨before, b, after, rfl, eq_toNat_of_ofNat_eq hchar hc,
                by simpa using hfront.symm, hrest⟩
          | cons d gap =>
              obtain ⟨rfl, hafter⟩ := List.cons.inj hrest
              obtain ⟨middle, b', after, rfl, hb', hmiddle, hafter⟩ :=
                ih _ (by simp; omega) hafter rfl
              refine ⟨before ++ b :: middle, b', after, by simp, hb', ?_, hafter⟩
              rw [lossy_append_cons hb, hmiddle, hfront]
        · cases gap with
          | nil =>
              obtain ⟨hchar, hrest⟩ := List.cons.inj hrest
              exact ⟨before, b, after, rfl, eq_toNat_of_ofNat_eq hchar.symm hc,
                by simpa using hbefore, hrest.symm⟩
          | cons d gap =>
              obtain ⟨rfl, -⟩ := List.cons.inj hrest
              exact absurd (hbefore ▸ by simp) (not_mem_lossy_of_forall_le hhigh hc)

end Utf8

end ChatSpace
