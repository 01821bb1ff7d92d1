import ChatSpace.Proofs.Text.Ascii
import ChatSpace.Text.Blank
import Mathlib.Data.List.SplitBy

namespace ChatSpace

structure Trims {α : Type} (blank : α → Bool) (whole core : List α) : Prop where
  around : ∃ lead trail, whole = lead ++ core ++ trail ∧ (∀ a ∈ lead, blank a) ∧
    ∀ a ∈ trail, blank a
  first : ∀ a ∈ core.head?, blank a = false
  last : ∀ a ∈ core.getLast?, blank a = false

namespace Trims

variable {α : Type} {blank : α → Bool} {whole core : List α}

theorem dropWhile_of_head? (h : ∀ a ∈ core.head?, blank a = false) :
    core.dropWhile blank = core := by
  cases core with
  | nil => rfl
  | cons a core => simp [h a rfl]

theorem eq_core (h : Trims blank whole core) :
    ((whole.dropWhile blank).reverse.dropWhile blank).reverse = core := by
  obtain ⟨⟨lead, trail, rfl, hlead, htrail⟩, hfirst, hlast⟩ := h
  rw [List.append_assoc, List.dropWhile_append_of_pos hlead]
  by_cases hnil : core = []
  · have hdrop : (trail ++ []).dropWhile blank = [] := List.dropWhile_append_of_pos htrail
    rw [List.append_nil] at hdrop
    simp [hnil, hdrop]
  · have hstart : (core ++ trail).dropWhile blank = core ++ trail := by
      apply dropWhile_of_head?
      rwa [List.head?_append_of_ne_nil _ hnil]
    have hend : core.reverse.dropWhile blank = core.reverse :=
      dropWhile_of_head? (by simpa using hlast)
    rw [hstart, List.reverse_append, List.dropWhile_append_of_pos (by simpa using htrail), hend,
      List.reverse_reverse]

theorem unique {other : List α} (h : Trims blank whole core) (h' : Trims blank whole other) :
    core = other :=
  h.eq_core.symm.trans h'.eq_core

theorem exists_dropWhile (blank : α → Bool) (whole : List α) :
    ∃ lead, whole = lead ++ whole.dropWhile blank ∧ (∀ a ∈ lead, blank a) ∧
      ∀ a ∈ (whole.dropWhile blank).head?, blank a = false := by
  refine ⟨whole.takeWhile blank, List.takeWhile_append_dropWhile.symm,
    List.all_eq_true.mp List.all_takeWhile, ?_⟩
  intro a ha
  have hnot := List.head?_dropWhile_not blank whole
  rw [Option.mem_def.mp ha] at hnot
  simpa using hnot

theorem of_dropWhile (blank : α → Bool) (whole : List α) :
    Trims blank whole ((whole.dropWhile blank).reverse.dropWhile blank).reverse := by
  obtain ⟨lead, hwhole, hlead, hfirst⟩ := exists_dropWhile blank whole
  generalize whole.dropWhile blank = back at hwhole hfirst ⊢
  obtain ⟨trail, hback, htrail, hlast⟩ := exists_dropWhile blank back.reverse
  generalize back.reverse.dropWhile blank = core at hback hlast ⊢
  obtain rfl : back = core.reverse ++ trail.reverse := by
    rw [← List.reverse_append, ← hback, List.reverse_reverse]
  refine ⟨⟨lead, trail.reverse, ?_, hlead, by simpa using htrail⟩, ?_, by simpa using hlast⟩
  · rw [hwhole, List.append_assoc]
  · intro a ha
    apply hfirst
    rw [List.head?_append, Option.mem_def.mp ha]
    rfl

end Trims

theorem Bytes.trims_iff {bytes core : Bytes} : Trims isBlank bytes core ↔ trim bytes = core := by
  constructor
  · exact Trims.eq_core
  · rintro rfl
    exact .of_dropWhile isBlank bytes

namespace Blank

theorem isPlain_of_isAscii {c : Char} (h : isAscii c) : Utf8.IsPlain c := by
  simp only [isAscii, Bool.or_eq_true, decide_eq_true_eq] at h
  rcases h with (((rfl | rfl) | rfl) | rfl) | rfl <;> exact ⟨by decide, by decide⟩

theorem isBlank_of_isAscii {b : UInt8} {c : Char} (h : isAscii c) (heq : b.toNat = c.toNat) :
    Bytes.isBlank b := by
  obtain rfl : b = UInt8.ofNat c.toNat := by rw [← heq, UInt8.ofNat_toNat]
  simp only [isAscii, Bool.or_eq_true, decide_eq_true_eq] at h
  rcases h with (((rfl | rfl) | rfl) | rfl) | rfl <;> rfl

theorem isAscii_of_isBlank {b : UInt8} (h : Bytes.isBlank b) :
    b.toNat < 128 ∧ isAscii (Char.ofNat b.toNat) := by
  simp only [Bytes.isBlank, Bool.or_eq_true, decide_eq_true_eq] at h
  rcases h with (((rfl | rfl) | rfl) | rfl) | rfl <;> exact ⟨by decide, rfl⟩

theorem head?_lossy_iff {bytes : Bytes} :
    (∀ c ∈ (Utf8.lossy bytes).toList.head?, isAscii c = false) ↔
      ∀ b ∈ bytes.head?, Bytes.isBlank b = false := by
  simp only [← Bool.not_eq_true]
  constructor
  · intro h b hb hblank
    obtain ⟨rest, rfl⟩ := List.head?_eq_some_iff.mp hb
    obtain ⟨hlt, hascii⟩ := isAscii_of_isBlank hblank
    have hcut := Utf8.lossy_append_cons hlt [] rest
    exact h _ (List.head?_eq_some_iff.mpr ⟨_, hcut⟩) hascii
  · intro h c hc hascii
    obtain ⟨rest, hlossy⟩ := List.head?_eq_some_iff.mp hc
    rw [← List.nil_append (c :: rest)] at hlossy
    obtain ⟨before, b, after, rfl, heq, hbefore, -⟩ :=
      Utf8.exists_cut_of_lossy (isPlain_of_isAscii hascii) hlossy
    obtain rfl := Utf8.eq_nil_of_lossy hbefore
    exact h b rfl (isBlank_of_isAscii hascii heq)

theorem getLast?_lossy_iff {bytes : Bytes} :
    (∀ c ∈ (Utf8.lossy bytes).toList.getLast?, isAscii c = false) ↔
      ∀ b ∈ bytes.getLast?, Bytes.isBlank b = false := by
  simp only [← Bool.not_eq_true]
  constructor
  · intro h b hb hblank
    obtain ⟨front, rfl⟩ := List.getLast?_eq_some_iff.mp hb
    obtain ⟨hlt, hascii⟩ := isAscii_of_isBlank hblank
    have hcut := Utf8.lossy_append_cons hlt front []
    exact h _ (List.getLast?_eq_some_iff.mpr ⟨_, hcut⟩) hascii
  · intro h c hc hascii
    obtain ⟨front, hlossy⟩ := List.getLast?_eq_some_iff.mp hc
    obtain ⟨before, b, after, rfl, heq, -, hafter⟩ :=
      Utf8.exists_cut_of_lossy (isPlain_of_isAscii hascii) hlossy
    obtain rfl := Utf8.eq_nil_of_lossy hafter
    exact h b (by simp) (isBlank_of_isAscii hascii heq)

structure IsTrimmed (text : String) : Prop where
  first : ∀ c ∈ text.toList.head?, isAscii c = false
  last : ∀ c ∈ text.toList.getLast?, isAscii c = false

theorem isTrimmed_iff {text : String} :
    IsTrimmed text ↔
      text.toList.head?.all (!isAscii ·) ∧ text.toList.getLast?.all (!isAscii ·) := by
  simp only [Option.all_eq_true, Bool.not_eq_true']
  constructor
  · rintro ⟨hfirst, hlast⟩
    exact ⟨hfirst, hlast⟩
  · rintro ⟨hfirst, hlast⟩
    exact ⟨hfirst, hlast⟩

instance (text : String) : Decidable (IsTrimmed text) :=
  decidable_of_iff _ isTrimmed_iff.symm

theorem trim_encode_append {text : String} (h : IsTrimmed text) {pad : Bytes}
    (hpad : ∀ b ∈ pad, Bytes.isBlank b) :
    Bytes.trim (Utf8.encode text ++ pad) = Utf8.encode text := by
  have hlossy := Utf8.lossy_encode text
  refine Bytes.trims_iff.mp ⟨⟨[], pad, rfl, by simp, hpad⟩, ?_, ?_⟩
  · exact head?_lossy_iff.mp (hlossy.symm ▸ h.first)
  · exact getLast?_lossy_iff.mp (hlossy.symm ▸ h.last)

end Blank

theorem Trims.lossy {bytes core : Bytes} (h : Trims Bytes.isBlank bytes core) :
    Trims Blank.isAscii (Utf8.lossy bytes).toList (Utf8.lossy core).toList := by
  obtain ⟨⟨lead, trail, rfl, hlead, htrail⟩, hfirst, hlast⟩ := h
  refine ⟨?_, Blank.head?_lossy_iff.mpr hfirst, Blank.getLast?_lossy_iff.mpr hlast⟩
  have hlow {pad : Bytes} (hpad : ∀ b ∈ pad, Bytes.isBlank b) : ∀ b ∈ pad, b.toNat < 128 :=
    fun b hb => (Blank.isAscii_of_isBlank (hpad b hb)).1
  have hascii {pad : Bytes} (hpad : ∀ b ∈ pad, Bytes.isBlank b) :
      ∀ c ∈ pad.map Utf8.charOf, Blank.isAscii c := by
    intro c hc
    obtain ⟨b, hb, rfl⟩ := List.mem_map.mp hc
    exact (Blank.isAscii_of_isBlank (hpad b hb)).2
  refine ⟨lead.map Utf8.charOf, trail.map Utf8.charOf, ?_, hascii hlead, hascii htrail⟩
  rw [Utf8.lossy_append_right _ (hlow htrail), Utf8.lossy_append_left (hlow hlead)]

namespace Blank

theorem isAscii_of_isDigit {c : Char} (h : c.isDigit) : isAscii c = false := by
  apply Bool.eq_false_iff.mpr
  intro hblank
  simp only [isAscii, Bool.or_eq_true, decide_eq_true_eq] at hblank
  rcases hblank with (((rfl | rfl) | rfl) | rfl) | rfl <;> exact absurd h (by decide)

def IsWord (word : List Char) : Prop :=
  word ≠ [] ∧ ∀ c ∈ word, isAscii c = false

inductive Words : List Char → List (List Char) → Prop
  | done {gap} : (∀ c ∈ gap, isAscii c) → Words gap []
  | word {gap word rest words} : (∀ c ∈ gap, isAscii c) → IsWord word →
      (∀ c ∈ rest.head?, isAscii c) → Words rest words →
      Words (gap ++ word ++ rest) (word :: words)

theorem asciiWords_append {front rest : List Char}
    (h : ∀ a ∈ front.getLast?, ∀ b ∈ rest.head?, isAscii a ≠ isAscii b) :
    asciiWords (String.ofList (front ++ rest)) =
      asciiWords (String.ofList front) ++ asciiWords (String.ofList rest) := by
  unfold asciiWords
  simp only [String.toList_ofList]
  rw [List.splitBy_append fun a ha b hb => by simpa using h a ha b hb, List.filterMap_append]

theorem splitBy_of_forall {blank : Bool} {run : List Char} (hne : run ≠ [])
    (h : ∀ c ∈ run, isAscii c = blank) :
    run.splitBy (fun a b => isAscii a = isAscii b) = [run] := by
  apply List.splitBy_of_isChain hne
  apply List.Pairwise.isChain
  apply List.pairwise_of_forall_mem_list
  intro a ha b hb
  simp [h a ha, h b hb]

theorem asciiWords_gap {gap : List Char} (h : ∀ c ∈ gap, isAscii c) :
    asciiWords (String.ofList gap) = [] := by
  unfold asciiWords
  rw [String.toList_ofList]
  cases gap with
  | nil => rfl
  | cons c gap =>
      rw [splitBy_of_forall (by simp) h]
      simp [h c]

theorem asciiWords_word {word : List Char} (h : IsWord word) :
    asciiWords (String.ofList word) = [String.ofList word] := by
  obtain ⟨hne, hplain⟩ := h
  unfold asciiWords
  rw [String.toList_ofList, splitBy_of_forall hne hplain]
  obtain ⟨c, chars, rfl⟩ := List.exists_cons_of_ne_nil hne
  simp [hplain c]

theorem asciiWords_of_words {text : List Char} {words : List (List Char)} (h : Words text words) :
    asciiWords (String.ofList text) = words.map String.ofList := by
  induction h with
  | done hgap => exact asciiWords_gap hgap
  | @word gap word rest words hgap hword hrest _ ih =>
      have hend : ∀ a ∈ (gap ++ word).getLast?, ∀ b ∈ rest.head?, isAscii a ≠ isAscii b := by
        intro a ha b hb
        rw [List.getLast?_append_of_ne_nil _ hword.1] at ha
        simp [hword.2 a (List.mem_of_getLast? ha), hrest b hb]
      have hstart : ∀ a ∈ gap.getLast?, ∀ b ∈ word.head?, isAscii a ≠ isAscii b := by
        intro a ha b hb
        simp [hgap a (List.mem_of_getLast? ha), hword.2 b (List.mem_of_mem_head? hb)]
      rw [asciiWords_append hend, asciiWords_append hstart, asciiWords_gap hgap,
        asciiWords_word hword, ih]
      rfl

theorem exists_words (text : List Char) : ∃ words, Words text words := by
  induction hlength : text.length using Nat.strongRecOn generalizing text with
  | ind n ih =>
    obtain ⟨gap, htext, hgap, hfirst⟩ := Trims.exists_dropWhile isAscii text
    generalize text.dropWhile isAscii = back at htext hfirst
    obtain ⟨word, hback, hword, hend⟩ := Trims.exists_dropWhile (!isAscii ·) back
    generalize back.dropWhile (!isAscii ·) = rest at hback hend
    subst htext hback
    cases word with
    | nil =>
        cases rest with
        | nil => exact ⟨[], by simpa using Words.done hgap⟩
        | cons c rest => exact absurd (hfirst c rfl) (by simpa using hend c rfl)
    | cons c word =>
        obtain ⟨words, hrest⟩ := ih rest.length (by simp at hlength; omega) rest rfl
        have hplain : IsWord (c :: word) := ⟨by simp, by simpa using hword⟩
        refine ⟨(c :: word) :: words, ?_⟩
        rw [← List.append_assoc]
        exact .word hgap hplain (by simpa using hend) hrest

theorem asciiWords_eq_iff {text : String} {words : List (List Char)} :
    asciiWords text = words.map String.ofList ↔ Words text.toList words := by
  have hread {words : List (List Char)} (h : Words text.toList words) :
      asciiWords text = words.map String.ofList := by
    rw [← asciiWords_of_words h, String.ofList_toList]
  constructor
  · intro h
    obtain ⟨found, hfound⟩ := exists_words text.toList
    have hsame := (hread hfound).symm.trans h
    rw [List.map_inj_right fun _ _ => String.ofList_inj.mp] at hsame
    exact hsame ▸ hfound
  · exact hread

theorem asciiWords_flatMap {words : List (List Char)} (h : ∀ word ∈ words, IsWord word) :
    asciiWords (String.ofList (words.flatMap (' ' :: ·))) = words.map String.ofList := by
  apply asciiWords_of_words
  induction words with
  | nil => exact .done (by simp)
  | cons word words ih =>
      have hrest := ih fun w hw => h w (by simp [hw])
      have hgap : ∀ c ∈ [' '], isAscii c := by simp [isAscii]
      refine .word hgap (h word (by simp)) ?_ hrest
      cases words <;> simp [isAscii]

end Blank

end ChatSpace
