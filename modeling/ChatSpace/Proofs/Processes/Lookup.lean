import ChatSpace.Processes.Lookup
import ChatSpace.Proofs.Files.Following
import ChatSpace.Proofs.Text.Ascii

namespace ChatSpace.Processes.Lookup

open Files

variable {t : Tree} {here : Location} {searchPath name found : Bytes} {elements : List Bytes}

theorem hasSeparator_iff : hasSeparator name = true ↔ Path.slash ∈ name := by
  rw [hasSeparator, List.contains_iff_mem]
  constructor
  · intro h
    obtain ⟨b, hb, heq⟩ := Utf8.exists_mem_of_mem_lossy h ⟨by decide, by decide⟩
    obtain rfl : b = Path.slash := UInt8.toNat_inj.mp heq
    exact hb
  · intro h
    obtain ⟨front, rest, rfl⟩ := List.append_of_mem h
    rw [Utf8.lossy_append_cons (by decide)]
    exact List.mem_append_right _ List.mem_cons_self

structure Spells (searchPath : Bytes) (elements : List Bytes) : Prop where
  ne_nil : elements ≠ []
  separator_not_mem : ∀ element ∈ elements, separator ∉ element
  joined : Fields.join separator elements = searchPath

theorem spells_iff : Spells searchPath elements ↔ Fields.split separator searchPath = elements := by
  constructor
  · rintro ⟨hne, hplain, rfl⟩
    exact Fields.split_join separator elements hne hplain
  · rintro rfl
    exact ⟨Fields.split_ne_nil _ _, Fields.not_mem_of_mem_split _ _, Fields.join_split _ _⟩

inductive IsSought : Program → Bytes → Prop
  | engine : IsSought .engine (Utf8.encode "git")
  | named {name : Bytes} : Path.slash ∉ name → IsSought (.named name) name

theorem find?_of_isSought {program : Program} (h : IsSought program name)
    (searchPath : Option Bytes) :
    find? t here searchPath program = search t here searchPath name := by
  cases h with
  | engine => rfl
  | named hname => exact if_neg (mt hasSeparator_iff.mp hname)

theorem find?_of_slash (h : Path.slash ∈ name) (searchPath : Option Bytes) :
    find? t here searchPath (.named name) = some name :=
  if_pos (hasSeparator_iff.mpr h)

theorem exists_isSought_or_slash (program : Program) :
    (∃ name, IsSought program name) ∨ ∃ name, program = .named name ∧ Path.slash ∈ name := by
  cases program with
  | engine => exact .inl ⟨_, .engine⟩
  | named name =>
      by_cases h : Path.slash ∈ name
      · exact .inr ⟨name, rfl, h⟩
      · exact .inl ⟨name, .named h⟩

def IsFirst (t : Tree) (here : Location) (elements : List Bytes) (name found : Bytes) : Prop :=
  ∃ before element after, elements = before ++ element :: after ∧
    found = Path.join element name ∧ t.RunsAt here found ∧
    ∀ other ∈ before, ¬ t.RunsAt here (Path.join other name)

theorem search_eq_some_iff_isFirst (h : Spells searchPath elements) :
    search t here (some searchPath) name = some found ↔ IsFirst t here elements name found := by
  have hcandidates : candidates searchPath name = elements.map (Path.join · name) := by
    rw [candidates, spells_iff.mp h]
  rw [search_eq_some_iff, hcandidates]
  constructor
  · rintro ⟨before, after, hsplit, hruns, hbefore⟩
    obtain ⟨before, rest, rfl, rfl, hrest⟩ := List.map_eq_append_iff.mp hsplit
    obtain ⟨element, after, rfl, rfl, rfl⟩ := List.map_eq_cons_iff.mp hrest
    refine ⟨before, element, after, rfl, rfl, Tree.isRunnable_iff.mp hruns, ?_⟩
    intro other hother hruns'
    have hnot := hbefore _ (List.mem_map_of_mem hother)
    rw [Tree.isRunnable_iff.mpr hruns'] at hnot
    cases hnot
  · rintro ⟨before, element, after, rfl, rfl, hruns, hbefore⟩
    refine ⟨before.map (Path.join · name), after.map (Path.join · name), by simp,
      Tree.isRunnable_iff.mpr hruns, ?_⟩
    intro path hpath
    obtain ⟨other, hother, rfl⟩ := List.mem_map.mp hpath
    exact Bool.eq_false_iff.mpr (mt Tree.isRunnable_iff.mp (hbefore other hother))

theorem search_eq_none_iff (h : Spells searchPath elements) :
    search t here (some searchPath) name = none ↔
      ∀ element ∈ elements, ¬ t.RunsAt here (Path.join element name) := by
  rw [search, List.find?_eq_none, candidates, spells_iff.mp h, List.forall_mem_map]
  simp only [Tree.isRunnable_iff]

inductive Answers (t : Tree) (here : Location) : Option Bytes → Program → Option Bytes → Prop
  | literal (searchPath : Option Bytes) {name : Bytes} : Path.slash ∈ name →
      Answers t here searchPath (.named name) (some name)
  | unset {program : Program} {name : Bytes} : IsSought program name →
      Answers t here none program none
  | first {text : Bytes} {elements : List Bytes} {program : Program} {name found : Bytes} :
      IsSought program name → Spells text elements → IsFirst t here elements name found →
      Answers t here (some text) program (some found)
  | nowhere {text : Bytes} {elements : List Bytes} {program : Program} {name : Bytes} :
      IsSought program name → Spells text elements →
      (∀ element ∈ elements, ¬ t.RunsAt here (Path.join element name)) →
      Answers t here (some text) program none

theorem find?_of_answers {searchPath : Option Bytes} {program : Program} {found : Option Bytes}
    (h : Answers t here searchPath program found) : find? t here searchPath program = found := by
  cases h with
  | literal _ hname => exact find?_of_slash hname searchPath
  | unset hsought => exact find?_of_isSought hsought none
  | first hsought hspells hfirst =>
      rw [find?_of_isSought hsought, search_eq_some_iff_isFirst hspells]
      exact hfirst
  | nowhere hsought hspells hnone =>
      rw [find?_of_isSought hsought, search_eq_none_iff hspells]
      exact hnone

theorem answers_find? (searchPath : Option Bytes) (program : Program) :
    Answers t here searchPath program (find? t here searchPath program) := by
  rcases exists_isSought_or_slash program with ⟨name, hsought⟩ | ⟨name, rfl, hname⟩
  · rw [find?_of_isSought hsought]
    cases searchPath with
    | none => exact .unset hsought
    | some text =>
        have hspells : Spells text (Fields.split separator text) := spells_iff.mpr rfl
        cases hfound : search t here (some text) name with
        | none => exact .nowhere hsought hspells ((search_eq_none_iff hspells).mp hfound)
        | some found =>
            exact .first hsought hspells ((search_eq_some_iff_isFirst hspells).mp hfound)
  · rw [find?_of_slash hname]
    exact .literal searchPath hname

theorem find?_answers (t : Tree) (here : Location) (searchPath : Option Bytes)
    (program : Program) :
    (∀ found, find? t here searchPath program = found ↔ Answers t here searchPath program found) ∧
      ∀ name text before element after, IsSought program name → searchPath = some text →
        Spells text (before ++ element :: after) →
        (∀ other ∈ before, t.Unfit here (Path.join other name)) →
        t.RunsAt here (Path.join element name) →
        find? t here searchPath program = some (Path.join element name) := by
  refine ⟨fun found => ⟨fun h => h ▸ answers_find? searchPath program, find?_of_answers⟩, ?_⟩
  rintro name text before element after hsought rfl hspells hbefore hruns
  refine find?_of_answers (.first hsought hspells ⟨before, element, after, rfl, rfl, hruns, ?_⟩)
  intro other hother
  exact Tree.not_runsAt_of_unfit (hbefore other hother)

end ChatSpace.Processes.Lookup
