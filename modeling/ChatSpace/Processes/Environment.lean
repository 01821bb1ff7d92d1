import ChatSpace.Text.Bytes

namespace ChatSpace

namespace Processes

structure Environment where
  bindings : List (Bytes × Bytes)
deriving DecidableEq, Repr

namespace Environment

def empty : Environment := ⟨[]⟩

def insertInto (name value : Bytes) : List (Bytes × Bytes) → List (Bytes × Bytes)
  | [] => [(name, value)]
  | (other, held) :: rest =>
      if name = other then (name, value) :: rest
      else if Bytes.le name other then (name, value) :: (other, held) :: rest
      else (other, held) :: insertInto name value rest

def insert (env : Environment) (name value : Bytes) : Environment :=
  ⟨insertInto name value env.bindings⟩

def extend (env : Environment) (pairs : List (Bytes × Bytes)) : Environment :=
  pairs.foldl (fun env pair => env.insert pair.1 pair.2) env

def ofPairs (pairs : List (Bytes × Bytes)) : Environment :=
  empty.extend pairs

def get? (env : Environment) (name : Bytes) : Option Bytes :=
  env.bindings.lookup name

def merge (parent : List (Bytes × Bytes)) (overrides : Environment) : Environment :=
  (ofPairs parent).extend overrides.bindings

end Environment

/-- The variables of a process in the order of the system, where a name may come more than once. -/
structure Variables where
  pairs : List (Bytes × Bytes)
deriving DecidableEq, Repr

namespace Variables

def ofSettings (settings : List (Bytes × Bytes)) : Variables :=
  ⟨(Environment.ofPairs settings).bindings⟩

instance : Coe (List (Bytes × Bytes)) Variables := ⟨ofSettings⟩

def get? (v : Variables) (name : Bytes) : Option Bytes :=
  v.pairs.lookup name

end Variables

namespace Environment

theorem lookup_insertInto (name value other : Bytes) (pairs : List (Bytes × Bytes)) :
    (insertInto name value pairs).lookup other
      = if other = name then some value else pairs.lookup other := by
  have cons_lookup (k v : Bytes) (rest : List (Bytes × Bytes)) :
      ((k, v) :: rest).lookup other = if other = k then some v else rest.lookup other := by
    by_cases h : other = k
    · simp [h]
    · have hb : (other == k) = false := by simpa using h
      simp [List.lookup_cons, hb, h]
  induction pairs with
  | nil => simp only [insertInto, cons_lookup]
  | cons pair rest ih =>
      obtain ⟨first, held⟩ := pair
      unfold insertInto
      split
      · next h =>
        subst h
        simp only [cons_lookup]
        split <;> rfl
      · next h =>
        split
        · simp only [cons_lookup]
        · simp only [cons_lookup, ih]
          by_cases ho : other = first
          · subst ho
            simp [Ne.symm h]
          · simp [ho]

theorem get?_insert (env : Environment) (name value other : Bytes) :
    (env.insert name value).get? other = if other = name then some value else env.get? other :=
  lookup_insertInto name value other env.bindings

end Environment

end Processes

end ChatSpace
