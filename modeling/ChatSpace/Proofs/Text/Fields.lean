import ChatSpace.Text.Fields
import Mathlib.Data.List.TakeWhile

namespace ChatSpace.Fields

variable {α : Type} [DecidableEq α] {sep : α} {field : List α}

theorem takeWhile_append_cons (h : sep ∉ field) (rest : List α) :
    (field ++ sep :: rest).takeWhile (· ≠ sep) = field := by
  have hinner : ∀ a ∈ field, decide (a ≠ sep) = true := by
    intro a ha
    simpa using ne_of_mem_of_not_mem ha h
  rw [List.takeWhile_append_of_pos hinner]
  simp

theorem dropWhile_append_cons (h : sep ∉ field) (rest : List α) :
    (field ++ sep :: rest).dropWhile (· ≠ sep) = sep :: rest := by
  have hinner : ∀ a ∈ field, decide (a ≠ sep) = true := by
    intro a ha
    simpa using ne_of_mem_of_not_mem ha h
  rw [List.dropWhile_append_of_pos hinner]
  simp

theorem append_cons_inj {field' rest rest' : List α} (h : sep ∉ field) (h' : sep ∉ field')
    (heq : field ++ sep :: rest = field' ++ sep :: rest') : field = field' ∧ rest = rest' := by
  have htake := congrArg (List.takeWhile (· ≠ sep)) heq
  rw [takeWhile_append_cons h, takeWhile_append_cons h'] at htake
  subst htake
  exact ⟨rfl, by simpa using heq⟩

theorem dropWhile_of_not_mem (h : sep ∉ field) : field.dropWhile (· ≠ sep) = [] := by
  rw [List.dropWhile_eq_nil_iff]
  intro a ha
  simpa using ne_of_mem_of_not_mem ha h

theorem split_flatMap {fields : List (List α)} (h : ∀ field ∈ fields, sep ∉ field)
    (rest : List α) :
    split sep (fields.flatMap (· ++ [sep]) ++ rest) = fields ++ split sep rest := by
  induction fields with
  | nil => rfl
  | cons field fields ih =>
      have hfield : (field :: fields).flatMap (· ++ [sep]) ++ rest =
          field ++ sep :: (fields.flatMap (· ++ [sep]) ++ rest) := by simp
      rw [hfield, split_append_of_not_mem sep field _ (h field (by simp)),
        ih fun f hf => h f (by simp [hf])]
      rfl

end ChatSpace.Fields
