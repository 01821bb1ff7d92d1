
namespace ChatSpace.Fields

variable {α : Type} [DecidableEq α]

def extend (sep c : α) : List (List α) → List (List α)
  | [] => if c = sep then [[], []] else [[c]]
  | field :: fields => if c = sep then [] :: field :: fields else (c :: field) :: fields

def split (sep : α) (l : List α) : List (List α) :=
  l.foldr (extend sep) [[]]

def join (sep : α) : List (List α) → List α
  | [] => []
  | field :: fields => field ++ fields.flatMap (sep :: ·)

@[simp] theorem split_nil (sep : α) : split sep [] = [[]] := rfl

theorem split_cons (sep c : α) (l : List α) : split sep (c :: l) = extend sep c (split sep l) := rfl

theorem extend_ne_nil (sep c : α) (fields : List (List α)) : extend sep c fields ≠ [] := by
  cases fields <;> simp only [extend] <;> split <;> simp

theorem split_ne_nil (sep : α) (l : List α) : split sep l ≠ [] := by
  cases l with
  | nil => simp
  | cons c l => exact extend_ne_nil sep c _

theorem join_split (sep : α) (l : List α) : join sep (split sep l) = l := by
  induction l with
  | nil => rfl
  | cons c l ih =>
      rw [split_cons]
      cases h : split sep l with
      | nil => exact absurd h (split_ne_nil sep l)
      | cons field fields =>
          rw [h] at ih
          by_cases hc : c = sep
          · subst hc
            simpa [extend, join] using ih
          · simpa [extend, join, hc] using ih

theorem not_mem_of_mem_split (sep : α) (l field : List α) (h : field ∈ split sep l) :
    sep ∉ field := by
  induction l generalizing field with
  | nil => simp_all
  | cons c l ih =>
      rw [split_cons] at h
      cases hs : split sep l with
      | nil => exact absurd hs (split_ne_nil sep l)
      | cons first fields =>
          rw [hs] at h ih
          by_cases hc : c = sep
          · simp only [extend, hc, if_true, List.mem_cons] at h
            rcases h with rfl | h
            · simp
            · exact ih field (by simpa using h)
          · simp only [extend, hc, if_false, List.mem_cons] at h
            rcases h with rfl | h
            · have := ih first (by simp)
              simpa [this] using Ne.symm hc
            · exact ih field (by simp [h])

theorem split_append_of_not_mem (sep : α) (field l : List α) (h : sep ∉ field) :
    split sep (field ++ sep :: l) = field :: split sep l := by
  induction field with
  | nil =>
      rw [List.nil_append, split_cons]
      cases hs : split sep l with
      | nil => exact absurd hs (split_ne_nil sep l)
      | cons first fields => simp [extend]
  | cons c field ih =>
      simp only [List.mem_cons, not_or] at h
      rw [List.cons_append, split_cons, ih h.2]
      simp [extend, Ne.symm h.1]

theorem split_of_not_mem (sep : α) (field : List α) (h : sep ∉ field) :
    split sep field = [field] := by
  induction field with
  | nil => rfl
  | cons c field ih =>
      simp only [List.mem_cons, not_or] at h
      rw [split_cons, ih h.2]
      simp [extend, Ne.symm h.1]

theorem split_join (sep : α) (fields : List (List α)) (hne : fields ≠ [])
    (h : ∀ field ∈ fields, sep ∉ field) : split sep (join sep fields) = fields := by
  induction fields with
  | nil => exact absurd rfl hne
  | cons field fields ih =>
      cases fields with
      | nil => simpa [join] using split_of_not_mem sep field (h field (by simp))
      | cons next rest =>
          have hrest := ih (by simp) (fun f hf => h f (by simp [hf]))
          have heq :
              join sep (field :: next :: rest) = field ++ sep :: join sep (next :: rest) := by
            simp [join]
          rw [heq, split_append_of_not_mem sep field _ (h field (by simp)), hrest]

end ChatSpace.Fields
