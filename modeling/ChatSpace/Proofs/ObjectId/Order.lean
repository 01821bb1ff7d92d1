import ChatSpace.Proofs.ObjectId.Digits
import Mathlib.Data.List.Lex

namespace ChatSpace

namespace Bytes

variable {a b c : Bytes}

theorem le_iff : le a b ↔ a = b ∨ List.Lex (· < ·) a b := by
  induction a generalizing b with
  | nil =>
      cases b with
      | nil => exact iff_of_true rfl (.inl rfl)
      | cons y b => exact iff_of_true rfl (.inr .nil)
  | cons x a ih =>
      cases b with
      | nil => exact iff_of_false Bool.false_ne_true (by simp)
      | cons y b =>
          rw [le, Bool.or_eq_true, Bool.and_eq_true, decide_eq_true_iff, decide_eq_true_iff, ih,
            List.cons.injEq, List.cons_lex_cons_iff]
          tauto

theorem lex_irrefl (a : Bytes) : ¬ List.Lex (· < ·) a a :=
  List.lt_irrefl a

theorem le_trans (hab : le a b) (hbc : le b c) : le a c := by
  rcases le_iff.mp hab with rfl | hlt
  · exact hbc
  · rcases le_iff.mp hbc with rfl | hlt'
    · exact hab
    · exact le_iff.mpr (.inr (List.lt_trans (α := UInt8) hlt hlt'))

theorem le_total (a b : Bytes) : (le a b || le b a) = true := by
  have : Std.Trichotomous fun x y : UInt8 => x < y :=
    ⟨fun _ _ hxy hyx => UInt8.le_antisymm (UInt8.not_lt.mp hyx) (UInt8.not_lt.mp hxy)⟩
  rw [Bool.or_eq_true, le_iff, le_iff]
  rcases trichotomous_of (List.Lex (· < ·)) a b with hlt | rfl | hlt
  · exact .inl (.inr hlt)
  · exact .inl (.inl rfl)
  · exact .inr (.inr hlt)

theorem le_antisymm (hab : le a b) (hba : le b a) : a = b := by
  refine (le_iff.mp hab).resolve_right fun hlt => ?_
  rcases le_iff.mp hba with rfl | hlt'
  · exact lex_irrefl _ hlt
  · exact lex_irrefl _ (List.lt_trans (α := UInt8) hlt hlt')

end Bytes

namespace ObjectId

variable {a b : ObjectId} {ids : List ObjectId}

def Before (a b : ObjectId) : Prop :=
  a.le b ∧ a ≠ b

theorem before_iff : a.Before b ↔ List.Lex (· < ·) (Utf8.encode a.hex) (Utf8.encode b.hex) := by
  rw [encode_hex, encode_hex, encode, encode, Hex.lex_encode_iff, Before, le, Bytes.le_iff]
  constructor
  · rintro ⟨hle, hne⟩
    exact hle.resolve_left fun heq => hne (ext_bytes heq)
  · intro hlt
    refine ⟨.inr hlt, ?_⟩
    rintro rfl
    exact Bytes.lex_irrefl _ hlt

theorem eq_iff_hex : a = b ↔ a.hex = b.hex := by
  constructor
  · exact congrArg hex
  · intro h
    have hread := congrArg (fun text => ofHex (Utf8.encode text)) h
    simp only [encode_hex, ofHex_encode] at hread
    exact Except.ok.inj hread

theorem mem_dropRepeats : a ∈ dropRepeats ids ↔ a ∈ ids := by
  fun_induction dropRepeats ids with
  | case1 => rfl
  | case2 => rfl
  | case3 b rest ih =>
      rw [ih, List.mem_cons, List.mem_cons, List.mem_cons]
      tauto
  | case4 b c rest hne ih => simp only [List.mem_cons, ih]

theorem pairwise_dropRepeats (h : ids.Pairwise fun a b => a.le b) :
    (dropRepeats ids).Pairwise Before := by
  fun_induction dropRepeats ids with
  | case1 => exact .nil
  | case2 a => exact List.pairwise_singleton _ a
  | case3 a rest ih => exact ih h.of_cons
  | case4 a b rest hne ih =>
      rw [List.pairwise_cons] at h
      refine List.pairwise_cons.mpr ⟨fun c hc => ⟨h.1 c (mem_dropRepeats.mp hc), ?_⟩, ih h.2⟩
      rintro rfl
      have hfirst : a.le b := h.1 b (by simp)
      rcases List.mem_cons.mp (mem_dropRepeats.mp hc) with rfl | hrest
      · exact hne rfl
      · have hlast : b.le a := (List.pairwise_cons.mp h.2).1 a hrest
        exact hne (ext_bytes (Bytes.le_antisymm hfirst hlast))

theorem mem_sortDistinct : a ∈ sortDistinct ids ↔ a ∈ ids :=
  mem_dropRepeats.trans List.mem_mergeSort

theorem pairwise_sortDistinct (ids : List ObjectId) : (sortDistinct ids).Pairwise Before := by
  have htrans (a b c : ObjectId) (hab : a.le b) (hbc : b.le c) : a.le c := Bytes.le_trans hab hbc
  have htotal (a b : ObjectId) : (a.le b || b.le a) = true := Bytes.le_total a.bytes b.bytes
  exact pairwise_dropRepeats (List.pairwise_mergeSort htrans htotal ids)

theorem sortDistinct_hex :
    (∀ a b : ObjectId,
      (a.Before b ↔ List.Lex (· < ·) (Utf8.encode a.hex) (Utf8.encode b.hex)) ∧
      (a = b ↔ a.hex = b.hex)) ∧
    ∀ ids, ((sortDistinct ids).map hex).Pairwise
        (fun s t => List.Lex (· < ·) (Utf8.encode s) (Utf8.encode t)) ∧
      ∀ text, ((sortDistinct ids).map hex).count text = if text ∈ ids.map hex then 1 else 0 := by
  refine ⟨fun a b => ⟨before_iff, eq_iff_hex⟩, fun ids => ?_⟩
  have hsorted : ((sortDistinct ids).map hex).Pairwise
      (fun s t => List.Lex (· < ·) (Utf8.encode s) (Utf8.encode t)) := by
    rw [List.pairwise_map]
    exact (pairwise_sortDistinct ids).imp before_iff.mp
  have hnodup : ((sortDistinct ids).map hex).Nodup := by
    apply hsorted.imp
    rintro s _ hlt rfl
    exact Bytes.lex_irrefl _ hlt
  refine ⟨hsorted, fun text => ?_⟩
  rw [hnodup.count]
  simp only [List.mem_map, mem_sortDistinct]

end ObjectId

end ChatSpace
