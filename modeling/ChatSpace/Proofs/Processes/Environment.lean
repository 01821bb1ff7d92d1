import ChatSpace.Processes.Executor
import ChatSpace.Proofs.ObjectId.Order
import Mathlib.Data.List.Nodup
import Mathlib.Data.List.Sort

namespace ChatSpace

namespace Bytes

variable {a b : Bytes}

theorem lex_of_le_of_ne (hle : le a b) (hne : a ≠ b) : List.Lex (· < ·) a b :=
  (le_iff.mp hle).resolve_left hne

theorem lex_of_not_le (h : ¬ le a b) : List.Lex (· < ·) b a := by
  have hle : le b a := by simpa [h] using le_total a b
  apply lex_of_le_of_ne hle
  rintro rfl
  exact h hle

end Bytes

namespace Processes

namespace Environment

variable {env other : Environment} {name value : Bytes} {pairs : List (Bytes × Bytes)}

def Increasing (pairs : List (Bytes × Bytes)) : Prop :=
  pairs.Pairwise fun a b => List.Lex (· < ·) a.1 b.1

def Ordered (env : Environment) : Prop :=
  Increasing env.bindings

theorem mem_insertInto {pair : Bytes × Bytes} (h : pair ∈ insertInto name value pairs) :
    pair = (name, value) ∨ pair ∈ pairs := by
  induction pairs with
  | nil => exact .inl (List.mem_singleton.mp h)
  | cons first rest ih =>
      obtain ⟨other, held⟩ := first
      unfold insertInto at h
      split at h
      · rcases List.mem_cons.mp h with h | h
        · exact .inl h
        · exact .inr (List.mem_cons_of_mem _ h)
      · split at h
        · exact List.mem_cons.mp h
        · rcases List.mem_cons.mp h with rfl | h
          · exact .inr List.mem_cons_self
          · exact (ih h).imp_right (List.mem_cons_of_mem _)

theorem increasing_insertInto (h : Increasing pairs) (name value : Bytes) :
    Increasing (insertInto name value pairs) := by
  induction pairs with
  | nil => exact List.pairwise_singleton _ _
  | cons first rest ih =>
      obtain ⟨other, held⟩ := first
      obtain ⟨hfirst, hrest⟩ := List.pairwise_cons.mp h
      unfold insertInto
      split
      · next hsame =>
        subst hsame
        exact List.pairwise_cons.mpr ⟨hfirst, hrest⟩
      · next hne =>
        split
        · next hle =>
          have hlt : List.Lex (· < ·) name other := Bytes.lex_of_le_of_ne hle hne
          refine List.pairwise_cons.mpr ⟨fun pair hpair => ?_, h⟩
          rcases List.mem_cons.mp hpair with rfl | hpair
          · exact hlt
          · exact List.lt_trans (α := UInt8) hlt (hfirst pair hpair)
        · next hle =>
          refine List.pairwise_cons.mpr ⟨fun pair hpair => ?_, ih hrest⟩
          rcases mem_insertInto hpair with rfl | hpair
          · exact Bytes.lex_of_not_le hle
          · exact hfirst pair hpair

theorem ordered_empty : Ordered empty :=
  .nil

theorem Ordered.insert (h : env.Ordered) (name value : Bytes) : (env.insert name value).Ordered :=
  increasing_insertInto h name value

theorem Ordered.extend (h : env.Ordered) (pairs : List (Bytes × Bytes)) :
    (env.extend pairs).Ordered := by
  induction pairs generalizing env with
  | nil => exact h
  | cons pair pairs ih => exact ih (h.insert pair.1 pair.2)

theorem ordered_ofPairs (pairs : List (Bytes × Bytes)) : (ofPairs pairs).Ordered :=
  ordered_empty.extend pairs

theorem ordered_merge (parent : List (Bytes × Bytes)) (overrides : Environment) :
    (merge parent overrides).Ordered :=
  (ordered_ofPairs parent).extend overrides.bindings

def IsLast (pairs : List (Bytes × Bytes)) (name value : Bytes) : Prop :=
  ∃ before after, pairs = before ++ (name, value) :: after ∧ name ∉ after.map Prod.fst

theorem lookup_reverse_eq_some_iff :
    pairs.reverse.lookup name = some value ↔ IsLast pairs name value := by
  rw [List.lookup_eq_some_iff]
  constructor
  · rintro ⟨after, before, hsplit, hother⟩
    refine ⟨before.reverse, after.reverse, by simpa using congrArg List.reverse hsplit, ?_⟩
    intro hmem
    obtain ⟨pair, hpair, rfl⟩ := List.mem_map.mp hmem
    simpa using hother pair (List.mem_reverse.mp hpair)
  · rintro ⟨before, after, rfl, hother⟩
    refine ⟨after.reverse, before.reverse, by simp, fun pair hpair => ?_⟩
    have hne : name ≠ pair.1 := by
      rintro rfl
      exact hother (List.mem_map_of_mem (List.mem_reverse.mp hpair))
    simpa using hne

theorem lookup_reverse_eq_none_iff :
    pairs.reverse.lookup name = none ↔ name ∉ pairs.map Prod.fst := by
  rw [List.lookup_eq_none_iff]
  constructor
  · rintro hother hmem
    obtain ⟨pair, hpair, rfl⟩ := List.mem_map.mp hmem
    simpa using hother pair (List.mem_reverse.mpr hpair)
  · intro hfree pair hpair
    have hne : name ≠ pair.1 := by
      rintro rfl
      exact hfree (List.mem_map_of_mem (List.mem_reverse.mp hpair))
    simpa using hne

theorem Increasing.nodup (h : Increasing pairs) : (pairs.map Prod.fst).Nodup := by
  rw [List.Nodup, List.pairwise_map]
  apply h.imp
  rintro a b hlt heq
  rw [heq] at hlt
  exact Bytes.lex_irrefl _ hlt

theorem lookup_eq_some_iff_mem (h : (pairs.map Prod.fst).Nodup) :
    pairs.lookup name = some value ↔ (name, value) ∈ pairs := by
  constructor
  · intro hlookup
    obtain ⟨before, after, rfl, -⟩ := List.lookup_eq_some_iff.mp hlookup
    simp
  · intro hmem
    have hfound : (pairs.lookup name).isSome :=
      List.lookup_isSome_iff.mpr ⟨(name, value), hmem, by simp⟩
    obtain ⟨held, hheld⟩ := Option.isSome_iff_exists.mp hfound
    obtain ⟨before, after, hsplit, -⟩ := List.lookup_eq_some_iff.mp hheld
    have hsame := List.inj_on_of_nodup_map h hmem (hsplit ▸ by simp : (name, held) ∈ pairs) rfl
    rw [hheld, (Prod.mk.inj hsame).2]

theorem Increasing.lookup_reverse (h : Increasing pairs) (name : Bytes) :
    pairs.reverse.lookup name = pairs.lookup name := by
  have hreverse : (pairs.reverse.map Prod.fst).Nodup := by
    rw [List.map_reverse, List.nodup_reverse]
    exact h.nodup
  apply Option.ext
  intro value
  rw [lookup_eq_some_iff_mem hreverse, lookup_eq_some_iff_mem h.nodup, List.mem_reverse]

theorem Ordered.get?_eq_some_iff (h : env.Ordered) :
    env.get? name = some value ↔ (name, value) ∈ env.bindings :=
  lookup_eq_some_iff_mem h.nodup

theorem Ordered.eq_of_get? (h : env.Ordered) (hother : other.Ordered)
    (hsame : ∀ name, env.get? name = other.get? name) : env = other := by
  have : Std.Irrefl fun a b : Bytes × Bytes => List.Lex (· < ·) a.1 b.1 :=
    ⟨fun a => Bytes.lex_irrefl a.1⟩
  have : Std.Antisymm fun a b : Bytes × Bytes => List.Lex (· < ·) a.1 b.1 :=
    ⟨fun a b hab hba => absurd (List.lt_trans (α := UInt8) hab hba) (Bytes.lex_irrefl a.1)⟩
  have hbindings : env.bindings = other.bindings := by
    apply List.Pairwise.eq_of_mem_iff h hother
    rintro ⟨name, value⟩
    rw [← h.get?_eq_some_iff, hsame, hother.get?_eq_some_iff]
  cases env
  cases other
  exact congrArg mk hbindings

theorem get?_extend (env : Environment) (pairs : List (Bytes × Bytes)) (name : Bytes) :
    (env.extend pairs).get? name = (pairs.reverse.lookup name).or (env.get? name) := by
  induction pairs generalizing env with
  | nil => rfl
  | cons pair pairs ih =>
      have hextend : env.extend (pair :: pairs) = (env.insert pair.1 pair.2).extend pairs := rfl
      rw [hextend, ih, get?_insert, List.reverse_cons, List.lookup_append, List.lookup_singleton,
        Option.or_assoc]
      by_cases hname : name = pair.1 <;> simp [hname]

theorem get?_ofPairs (pairs : List (Bytes × Bytes)) (name : Bytes) :
    (ofPairs pairs).get? name = pairs.reverse.lookup name := by
  have hempty : empty.get? name = none := rfl
  rw [ofPairs, get?_extend, hempty, Option.or_none]

theorem get?_merge {overrides : Environment} (h : overrides.Ordered)
    (parent : List (Bytes × Bytes)) (name : Bytes) :
    (merge parent overrides).get? name =
      (overrides.get? name).or (parent.reverse.lookup name) := by
  rw [merge, get?_extend, get?_ofPairs, h.lookup_reverse]
  rfl

section Again

variable {first second : Environment}

theorem get?_merge_bindings (henv : env.Ordered) (h : first.Ordered) (name : Bytes) :
    (merge env.bindings first).get? name = (first.get? name).or (env.get? name) := by
  rw [get?_merge h, henv.lookup_reverse]
  rfl

theorem merge_merge_self (h : first.Ordered) (parent : List (Bytes × Bytes)) :
    merge (merge parent first).bindings first = merge parent first := by
  apply (ordered_merge _ first).eq_of_get? (ordered_merge parent first)
  intro name
  rw [get?_merge_bindings (ordered_merge parent first) h, get?_merge h, ← Option.or_assoc,
    Option.or_self]

theorem merge_merge (h : first.Ordered) (h' : second.Ordered) (parent : List (Bytes × Bytes)) :
    merge (merge parent first).bindings second =
      merge parent (merge first.bindings second) := by
  apply (ordered_merge _ second).eq_of_get? (ordered_merge parent _)
  intro name
  rw [get?_merge_bindings (ordered_merge parent first) h', get?_merge h,
    get?_merge (ordered_merge _ second), get?_merge_bindings h h', Option.or_assoc]

end Again

end Environment

namespace Spec

def setVariables (s : Spec) (calls : List (Bytes × Bytes)) : Spec :=
  calls.foldl (fun s call => s.setVariable call.1 call.2) s

theorem overrides_setVariables (s : Spec) (calls : List (Bytes × Bytes)) :
    (s.setVariables calls).overrides = s.overrides.extend calls := by
  induction calls generalizing s with
  | nil => rfl
  | cons call calls ih => exact ih (s.setVariable call.1 call.2)

theorem overrides_ofProgram (program : Program) (calls : List (Bytes × Bytes)) :
    ((ofProgram program).setVariables calls).overrides = .ofPairs calls :=
  overrides_setVariables _ calls

end Spec

namespace Environment

variable {σ : Type}

theorem merge_overrides (w : World σ) (program : Program) (path : Bytes)
    (calls : List (Bytes × Bytes)) :
    let described := (Spec.ofProgram program).setVariables calls
    let environment := (Executor.commandOf w described path).environment
    environment.bindings.Pairwise (fun a b => List.Lex (· < ·) a.1 b.1) ∧
    (∀ name, name ∈ environment.bindings.map Prod.fst ↔
      name ∈ calls.map Prod.fst ∨ name ∈ w.environment.pairs.map Prod.fst) ∧
    (∀ name value, (name, value) ∈ environment.bindings ↔
      IsLast calls name value ∨ name ∉ calls.map Prod.fst ∧ IsLast w.environment.pairs name value) ∧
    merge environment.bindings described.overrides = environment ∧
    ∀ more, let later := ((Spec.ofProgram program).setVariables more).overrides
      merge environment.bindings later =
        merge w.environment.pairs (merge described.overrides.bindings later) := by
  intro described environment
  have hoverrides : described.overrides = ofPairs calls := Spec.overrides_ofProgram program calls
  have hordered : described.overrides.Ordered := hoverrides ▸ ordered_ofPairs calls
  have hget (name : Bytes) : environment.get? name =
      (calls.reverse.lookup name).or (w.environment.pairs.reverse.lookup name) := by
    rw [← get?_ofPairs calls, ← hoverrides]
    exact get?_merge hordered w.environment.pairs name
  have hmerged : environment.Ordered := ordered_merge w.environment.pairs described.overrides
  refine ⟨hmerged, fun name => ?_, fun name value => ?_, merge_merge_self hordered _,
    fun more => ?_⟩
  · rw [← not_iff_not, not_or, ← lookup_reverse_eq_none_iff, hmerged.lookup_reverse,
      ← lookup_reverse_eq_none_iff, ← lookup_reverse_eq_none_iff, ← Option.or_eq_none_iff, ← hget]
    rfl
  · rw [← hmerged.get?_eq_some_iff, hget, Option.or_eq_some_iff, lookup_reverse_eq_some_iff,
      lookup_reverse_eq_some_iff, lookup_reverse_eq_none_iff]
  · apply merge_merge hordered
    rw [Spec.overrides_ofProgram]
    exact ordered_ofPairs more

end Environment

end Processes

end ChatSpace
