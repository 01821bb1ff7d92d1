import ChatSpace.Proofs.Batch.Parts
import ChatSpace.Proofs.ObjectId
import ChatSpace.Proofs.Text.Digits

namespace ChatSpace.Batch

structure Delimiter.IsHex (d : Delimiter) : Prop where
  length_token : (Utf8.encode d.token).length = 16
  isSome_nibble : ∀ b ∈ Utf8.encode d.token, (Hex.nibble? b).isSome

namespace Summary

def IsInner (field : Bytes) : Prop :=
  Bytes.space ∉ field ∧ Bytes.newline ∉ field

theorem isInner_of_nibble {field : Bytes} (h : ∀ b ∈ field, (Hex.nibble? b).isSome) :
    IsInner field := by
  constructor
  · intro hmem
    exact absurd (h _ hmem) (by decide)
  · intro hmem
    exact absurd (h _ hmem) (by decide)

theorem isInner_digits (n : Nat) : IsInner (Utf8.encode (String.ofList (Decimal.digits n))) := by
  rw [Decimal.encode_digits]
  have hdigit := List.all_eq_true.mp (Decimal.all_isDigit_octets n)
  constructor
  · intro hmem
    exact absurd (hdigit _ hmem) (by decide)
  · intro hmem
    exact absurd (hdigit _ hmem) (by decide)

variable {d : Delimiter}

theorem isInner_of_mem (hd : d.IsHex) (s : Summary) {field : Bytes}
    (h : field ∈ [Utf8.encode d.token, s.oid.encode, expectedType,
      Utf8.encode (String.ofList (Decimal.digits s.size))]) : IsInner field := by
  simp only [List.mem_cons, List.not_mem_nil, or_false] at h
  rcases h with rfl | rfl | rfl | rfl
  · exact isInner_of_nibble hd.isSome_nibble
  · exact isInner_of_nibble (ObjectId.named_encode s.oid).isSome_nibble
  · exact ⟨by decide, by decide⟩
  · exact isInner_digits s.size

theorem parse_encode (hd : d.IsHex) (s : Summary) (hs : s.size < limit) :
    parse d (encode d s) = .ok s := by
  have hsize : Decimal.unsignedUpTo? (limit - 1)
      (Utf8.encode (String.ofList (Decimal.digits s.size))) = some s.size := by
    rw [Decimal.encode_digits, Decimal.unsignedUpTo?_eq, Decimal.unsigned?_digits]
    simp [Option.filter, Nat.le_sub_one_of_lt hs]
  rw [parse, encode, Fields.split_join _ _ (by simp) fun field h => (isInner_of_mem hd s h).1]
  simp [ofFields, ObjectId.ofHex_encode, hsize]

theorem newline_not_mem_encode (hd : d.IsHex) (s : Summary) : Bytes.newline ∉ encode d s := by
  have hinner := fun field => (@isInner_of_mem _ hd s field · |>.2)
  simp only [List.mem_cons, List.not_mem_nil, or_false, forall_eq_or_imp, forall_eq] at hinner
  simpa [encode, Fields.join, hinner] using by decide

theorem length_encode_le (hd : d.IsHex) (s : Summary) (hs : s.size < limit) :
    (encode d s).length ≤ maxLength := by
  have hoid : s.oid.encode.length = 40 := by simp [ObjectId.encode, s.oid.length_bytes]
  have hsize : (Decimal.digits s.size).length ≤ 20 :=
    (Nat.length_toDigits_le_iff (by decide) (by decide)).mpr (Nat.lt_trans hs (by decide))
  have htype : expectedType.length = 6 := by decide
  simp only [encode, Fields.join, List.flatMap_cons, List.flatMap_nil, List.length_append,
    List.length_cons, List.length_nil, hd.length_token, hoid, htype, Decimal.encode_digits,
    List.length_map, maxLength]
  omega

end Summary

namespace Object

def encode (d : Delimiter) (o : Object) : Bytes :=
  Summary.encode d ⟨o.oid, o.content.length⟩ ++ Bytes.newline :: o.content ++ [Bytes.newline]

def Fits (d : Delimiter) (o : Object) : Prop :=
  (o.encode d).length < Summary.limit

def arrived (d : Delimiter) : Nat → List Object → List Object
  | _, [] => []
  | count, o :: os =>
      if (o.encode d).length ≤ count then o :: arrived d (count - (o.encode d).length) os else []

variable {d : Delimiter} {o : Object}

theorem announces_encode (hd : d.IsHex) (ho : o.Fits d) :
    Announces d (Summary.encode d ⟨o.oid, o.content.length⟩) o := by
  have hlen : (Summary.encode d ⟨o.oid, o.content.length⟩).length + 1 + o.content.length <
      Summary.limit := by
    simp only [Fits, encode, List.length_append, List.length_cons, List.length_nil] at ho
    omega
  exact ⟨Summary.newline_not_mem_encode hd _, Summary.parse_encode hd _ (by simp only; omega), hlen⟩

theorem records_encode (hd : d.IsHex) (ho : o.Fits d) {tail rest : Bytes} {os : List Object}
    (h : Records d tail os rest) : Records d (o.encode d ++ tail) (o :: os) rest := by
  simpa [encode] using Records.next (announces_encode hd ho) h

theorem take_of_lt_encode (hd : d.IsHex) (ho : o.Fits d) {bytes more tail : Bytes}
    (h : bytes ++ more = o.encode d ++ tail) (hlt : bytes.length < (o.encode d).length) :
    take d bytes = .ok none := by
  have hline := announces_encode hd ho
  have hshort := Summary.length_encode_le hd ⟨o.oid, o.content.length⟩
    (by have := hline.fits; simp only; omega)
  simp only [encode, List.append_assoc, List.cons_append, List.length_append, List.length_cons,
    List.length_nil] at h hlt
  generalize Summary.encode d ⟨o.oid, o.content.length⟩ = line at *
  by_cases hmem : Bytes.newline ∈ bytes
  · obtain ⟨line', rest, rfl, hline'⟩ := mem_newline_iff.mp hmem
    rw [List.append_assoc, List.cons_append] at h
    obtain ⟨rfl, -⟩ := line_inj hline' hline.unbroken h
    have hnone : rest.drop o.content.length = [] := by
      rw [List.drop_eq_nil_iff]
      simp only [List.length_append, List.length_cons] at hlt
      omega
    rw [take_line hline', hline.parsed]
    simp [cut, Nat.not_le.mpr hline.fits, hnone]
  · have hle : bytes.length ≤ line.length := by
      rcases List.append_eq_append_iff.mp h with ⟨late, rfl, -⟩ | ⟨late, rfl, hlate⟩
      · simp
      · cases late with
        | nil => simp
        | cons b late =>
            rw [List.cons_append, List.cons.injEq] at hlate
            exact absurd (by simp [hlate.1]) hmem
    rw [take_of_not_mem hmem, if_neg (by omega)]

theorem records_arrived (hd : d.IsHex) {os : List Object} (hos : ∀ o ∈ os, o.Fits d)
    {bytes more : Bytes} (h : bytes ++ more = os.flatMap (encode d)) :
    ∃ rest, Records d bytes (arrived d bytes.length os) rest ∧ take d rest = .ok none ∧
      (more = [] → rest = [] ∧ arrived d bytes.length os = os) := by
  induction os generalizing bytes with
  | nil =>
      have hnil : bytes = [] := (List.append_eq_nil_iff.mp h).1
      subst hnil
      exact ⟨[], .done, Framer.take_nil d, fun _ => ⟨rfl, rfl⟩⟩
  | cons o os ih =>
      have ho := hos o (by simp)
      rw [List.flatMap_cons] at h
      by_cases hle : (o.encode d).length ≤ bytes.length
      · obtain ⟨late, rfl⟩ : ∃ late, bytes = o.encode d ++ late := by
          rcases List.append_eq_append_iff.mp h with ⟨late, heq, -⟩ | ⟨late, heq, -⟩
          · have hlate : late = [] := by
              have := congrArg List.length heq
              simp only [List.length_append] at this
              exact List.length_eq_zero_iff.mp (by omega)
            exact ⟨[], by simpa [hlate] using heq.symm⟩
          · exact ⟨late, heq⟩
        rw [List.append_assoc, List.append_cancel_left_eq] at h
        obtain ⟨rest, hrec, hnone, hall⟩ := ih (fun o ho => hos o (by simp [ho])) h
        have hcount : arrived d (o.encode d ++ late).length (o :: os) =
            o :: arrived d late.length os := by simp [arrived]
        rw [hcount]
        refine ⟨rest, records_encode hd ho hrec, hnone, ?_⟩
        intro hmore
        obtain ⟨rfl, harrived⟩ := hall hmore
        exact ⟨rfl, by rw [harrived]⟩
      · have hnil : arrived d bytes.length (o :: os) = [] := by simp [arrived, hle]
        rw [hnil]
        refine ⟨bytes, .done, take_of_lt_encode hd ho h (by omega), ?_⟩
        rintro rfl
        have := congrArg List.length h
        simp only [List.append_nil, List.length_append] at this
        omega

theorem records_flatMap_encode (hd : d.IsHex) {os : List Object} (hos : ∀ o ∈ os, o.Fits d) :
    Records d (os.flatMap (encode d)) os [] := by
  obtain ⟨rest, hrec, -, hall⟩ := records_arrived hd hos (List.append_nil _)
  obtain ⟨rfl, harrived⟩ := hall rfl
  rwa [harrived] at hrec

theorem brief_flatMap_encode (hd : d.IsHex) {os : List Object} (hos : ∀ o ∈ os, o.Fits d) :
    Brief d (os.flatMap (encode d)) := by
  induction os with
  | nil => exact .of_exhausted (Framer.exhausted_of_none (Framer.take_nil d)) (by simp)
  | cons o os ih =>
      have ho := hos o (by simp)
      have hline := announces_encode hd ho
      have hshort := Summary.length_encode_le hd ⟨o.oid, o.content.length⟩
        (by have := hline.fits; simp only; omega)
      simpa [encode] using hline.brief hshort (ih fun o ho => hos o (by simp [ho]))

end Object

namespace Framer

variable {d : Delimiter} {os : List Object} {parts : List Bytes}

theorem run_take (parts : List Bytes) (f : Framer) (h : (f.run parts).fault = none) (k : Nat) :
    (f.run (parts.take k)).deliveries = (f.run parts).deliveries.take k ∧
      (f.run (parts.take k)).fault = none := by
  induction parts generalizing f k with
  | nil => simp [run]
  | cons part parts ih =>
      cases k with
      | zero => simp [run]
      | succ k =>
          rw [run] at h
          rw [List.take_succ_cons, run, run]
          cases hfault : (f.extend part).drain.fault with
          | some e => simp [hfault] at h
          | none =>
              simp only [hfault] at h ⊢
              obtain ⟨hdeliv, hnone⟩ := ih _ h k
              exact ⟨by rw [hdeliv, List.take_succ_cons], hnone⟩

theorem length_deliveries (parts : List Bytes) (f : Framer) (h : (f.run parts).fault = none) :
    (f.run parts).deliveries.length = parts.length := by
  induction parts generalizing f with
  | nil => rfl
  | cons part parts ih =>
      rw [run] at h ⊢
      cases hfault : (f.extend part).drain.fault with
      | some e => simp [hfault] at h
      | none =>
          simp only [hfault] at h ⊢
          simpa using ih _ h

theorem fault_run_encode (hd : d.IsHex) (hos : ∀ o ∈ os, o.Fits d)
    (h : parts.flatten = os.flatMap (Object.encode d)) :
    ((holding d []).run parts).fault = none := by
  obtain ⟨unread, hrun, htake, -⟩ := run_holding_records d parts
  obtain ⟨front, hdump, hfront⟩ := hrun.exists_front
  rw [h, ← List.append_assoc] at hdump
  obtain ⟨rest, hrec, hnone, -⟩ := Object.records_arrived hd hos hdump.symm
  obtain ⟨-, rfl⟩ := hrec.unique (hfront _) (exhausted_of_none hnone)
    (exhausted_of_take htake)
  rw [hnone] at htake
  cases hfault : ((holding d []).run parts).fault with
  | none => rfl
  | some e =>
      rw [hfault] at htake
      cases htake

theorem deliveries_run_encode (hd : d.IsHex) (hos : ∀ o ∈ os, o.Fits d)
    (h : parts.flatten = os.flatMap (Object.encode d)) (k : Nat) :
    (((holding d []).run parts).deliveries.take k).flatten =
      Object.arrived d (parts.take k).flatten.length os := by
  obtain ⟨hdeliv, hfault⟩ := run_take parts (holding d []) (fault_run_encode hd hos h) k
  obtain ⟨unread, hrun, htake, hunread⟩ := run_holding_records d (parts.take k)
  rw [hunread hfault, List.append_nil, hdeliv] at hrun
  have hsplit : (parts.take k).flatten ++ (parts.drop k).flatten =
      os.flatMap (Object.encode d) := by
    rw [← List.flatten_append, List.take_append_drop, h]
  obtain ⟨rest, hrec, hnone, -⟩ := Object.records_arrived hd hos hsplit
  exact (hrun.unique hrec (exhausted_of_take htake)
    (exhausted_of_none hnone)).1

theorem buffer_run_encode (hd : d.IsHex) (hos : ∀ o ∈ os, o.Fits d)
    (h : parts.flatten = os.flatMap (Object.encode d)) :
    ((holding d []).run parts).deliveries.flatten = os ∧
      ((holding d []).run parts).framer.buffer = [] := by
  obtain ⟨unread, hrun, htake, hunread⟩ := run_holding_records d parts
  rw [hunread (fault_run_encode hd hos h), List.append_nil] at hrun
  obtain ⟨rest, hrec, hnone, hall⟩ := Object.records_arrived hd hos ((List.append_nil _).trans h)
  obtain ⟨hos', hbuffer⟩ := hrun.unique hrec (exhausted_of_take htake)
    (exhausted_of_none hnone)
  exact ⟨hos'.trans (hall rfl).2, hbuffer.trans (hall rfl).1⟩

theorem run_encode (hd : d.IsHex) (hos : ∀ o ∈ os, o.Fits d)
    (h : parts.flatten = os.flatMap (Object.encode d)) :
    ((holding d []).run parts).deliveries.length = parts.length ∧
      ((holding d []).run parts).deliveries.flatten = os ∧
      (∀ k, (((holding d []).run parts).deliveries.take k).flatten =
        Object.arrived d (parts.take k).flatten.length os) ∧
      ((holding d []).run parts).fault = none ∧
      ((holding d []).run parts).framer.finish = .ok () ∧
      ((holding d []).run parts).framer.buffered = 0 := by
  have hfault := fault_run_encode hd hos h
  obtain ⟨hdeliv, hbuffer⟩ := buffer_run_encode hd hos h
  refine ⟨length_deliveries parts _ hfault, hdeliv, deliveries_run_encode hd hos h, hfault, ?_, ?_⟩
  · rw [finish_eq, if_pos hbuffer]
  · rw [← length_buffer, hbuffer]
    rfl

def lookalikes : List Object :=
  [⟨.zero, Object.encode ⟨"0123456789abcdef"⟩ ⟨.zero, []⟩⟩, ⟨.zero, [0xFF, 0x00, 0x0A]⟩]

theorem run_encode_lookalikes :
    Delimiter.IsHex ⟨"0123456789abcdef"⟩ ∧
      (∀ o ∈ lookalikes, o.Fits ⟨"0123456789abcdef"⟩) ∧
      ∀ n, let dump := lookalikes.flatMap (Object.encode ⟨"0123456789abcdef"⟩)
        ((holding ⟨"0123456789abcdef"⟩ []).run [dump.take n, dump.drop n]).deliveries.flatten =
          lookalikes := by
  have hd : Delimiter.IsHex ⟨"0123456789abcdef"⟩ := ⟨by decide, by decide +kernel⟩
  have hos : ∀ o ∈ lookalikes, o.Fits ⟨"0123456789abcdef"⟩ := by
    unfold Object.Fits
    decide +kernel
  exact ⟨hd, hos, fun n => (run_encode hd hos (by simp)).2.1⟩

end Framer

end ChatSpace.Batch
