import ChatSpace.Proofs.Text.Fields
import ChatSpace.Text.Lines

namespace ChatSpace.Lines

inductive IsFirst : List Char → List Char → Prop
  | only {line} : '\n' ∉ line → IsFirst line line
  | feed {line rest} : '\n' ∉ line → line.getLast? ≠ some '\r' →
      IsFirst (line ++ '\n' :: rest) line
  | returned {line rest} : '\n' ∉ line → IsFirst (line ++ '\r' :: '\n' :: rest) line

variable {text line other : List Char}

theorem IsFirst.ne_nil (h : IsFirst text line) (hne : text ≠ [])
    (hhead : ∀ c ∈ text.head?, c ≠ '\n' ∧ c ≠ '\r') : line ≠ [] := by
  rintro rfl
  cases h with
  | only => exact hne rfl
  | feed => exact (hhead '\n' rfl).1 rfl
  | returned => exact (hhead '\r' rfl).2 rfl

theorem IsFirst.unique (h : IsFirst text line) (h' : IsFirst text other) : line = other := by
  have hjoined (line rest : List Char) : line ++ '\r' :: '\n' :: rest =
      (line ++ ['\r']) ++ '\n' :: rest := List.append_cons line '\r' _
  have hreturn {line : List Char} (hline : '\n' ∉ line) : '\n' ∉ line ++ ['\r'] := by
    simpa using hline
  generalize htext : text = whole at h'
  cases h with
  | only hline =>
      cases h' with
      | only => exact htext
      | feed => exact absurd (htext ▸ by simp) hline
      | returned => exact absurd (htext ▸ by simp) hline
  | feed hline hlast =>
      cases h' with
      | only hother => exact absurd (htext ▸ by simp) hother
      | feed hother _ => exact (Fields.append_cons_inj hline hother htext).1
      | returned hother =>
          rw [hjoined] at htext
          obtain ⟨rfl, -⟩ := Fields.append_cons_inj hline (hreturn hother) htext
          exact absurd List.getLast?_concat hlast
  | returned hline =>
      rw [hjoined] at htext
      cases h' with
      | only hother => exact absurd (htext ▸ by simp) hother
      | feed hother hlast =>
          obtain ⟨rfl, -⟩ := Fields.append_cons_inj (hreturn hline) hother htext
          exact absurd List.getLast?_concat hlast
      | returned hother =>
          rw [hjoined] at htext
          exact List.append_cancel_right
            (Fields.append_cons_inj (hreturn hline) (hreturn hother) htext).1

theorem isFirst_dropReturn (hline : '\n' ∉ line) (rest : List Char) :
    IsFirst (line ++ '\n' :: rest) (dropReturn line) := by
  unfold dropReturn
  split
  · next hreturn =>
    obtain ⟨front, rfl⟩ := List.getLast?_eq_some_iff.mp hreturn
    rw [List.dropLast_concat, List.append_assoc]
    exact .returned fun hmem => hline (List.mem_append_left _ hmem)
  · next hplain => exact .feed hline hplain

theorem isFirst_headD (text : List Char) : IsFirst text ((ofChars text).headD []) := by
  by_cases hmem : '\n' ∈ text
  · obtain ⟨line, rest, rfl, hline⟩ := List.eq_append_cons_of_mem hmem
    have hparts : Fields.split '\n' (line ++ '\n' :: rest) = line :: Fields.split '\n' rest :=
      Fields.split_append_of_not_mem '\n' line rest hline
    have hrest := Fields.split_ne_nil '\n' rest
    rw [ofChars, hparts, List.dropLast_cons_of_ne_nil hrest]
    exact isFirst_dropReturn hline rest
  · rw [ofChars, Fields.split_of_not_mem '\n' text hmem]
    cases text with
    | nil => exact .only hmem
    | cons c text => exact .only hmem

theorem isFirst_first (text : String) : IsFirst text.toList (first text).toList := by
  have hfirst : (first text).toList = (ofChars text.toList).headD [] := by
    unfold first ofText
    cases ofChars text.toList with
    | nil => rfl
    | cons line lines => exact String.toList_ofList
  rw [hfirst]
  exact isFirst_headD text.toList

end ChatSpace.Lines
