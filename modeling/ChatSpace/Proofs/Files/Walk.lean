import ChatSpace.Files.Tree

namespace ChatSpace.Files

structure Path.IsPlain (name : Name) : Prop where
  length_le : name.length ≤ Tree.maxName
  ne_dot : name ≠ dot
  ne_dotDot : name ≠ dotDot

instance (name : Name) : Decidable (Path.IsPlain name) :=
  decidable_of_iff (name.length ≤ Tree.maxName ∧ name ≠ Path.dot ∧ name ≠ Path.dotDot) <| by
    constructor
    · rintro ⟨hle, hdot, hdotDot⟩
      exact ⟨hle, hdot, hdotDot⟩
    · rintro ⟨hle, hdot, hdotDot⟩
      exact ⟨hle, hdot, hdotDot⟩

structure Path.IsDirect (path : Bytes) : Prop where
  isAbsolute : isAbsolute path
  no_nul : path.contains 0 = false
  length_lt : path.length < Tree.maxPath
  isPlain : ∀ name ∈ steps path, IsPlain name

instance (path : Bytes) : Decidable (Path.IsDirect path) :=
  decidable_of_iff
    (Path.isAbsolute path ∧ path.contains 0 = false ∧ path.length < Tree.maxPath ∧
      ∀ name ∈ Path.steps path, Path.IsPlain name)
    ⟨fun ⟨habsolute, hnul, hlt, hplain⟩ => ⟨habsolute, hnul, hlt, hplain⟩,
      fun ⟨habsolute, hnul, hlt, hplain⟩ => ⟨habsolute, hnul, hlt, hplain⟩⟩

theorem Path.IsDirect.isEmpty_eq_false {path : Bytes} (hpath : IsDirect path) :
    path.isEmpty = false := by
  cases path with
  | nil => cases hpath.isAbsolute
  | cons b rest => rfl

theorem Path.IsDirect.isPlain_of_mem_names {path : Bytes} {name : Name} (hpath : IsDirect path)
    (hname : name ∈ names path) : IsPlain name :=
  hpath.isPlain name (List.mem_append_left _ hname)

theorem Entry.descend_cons_eq_some {entry found : Entry} {name : Name} {rest : Location}
    (h : entry.descend (name :: rest) = some found) :
    ∃ entries child, entry = .directory entries ∧ entries.lookup name = some child ∧
      child.descend rest = some found := by
  cases entry with
  | file mode content => cases h
  | link target => cases h
  | directory entries =>
      rw [descend, Option.bind_eq_some_iff] at h
      obtain ⟨child, hlookup, hrest⟩ := h
      exact ⟨entries, child, rfl, hlookup, hrest⟩

theorem Entry.not_link_of_descend {child found : Entry} {rest : Location}
    (h : child.descend rest = some found) (hlink : ∀ target, found ≠ .link target)
    (target : Bytes) : child ≠ .link target := by
  rintro rfl
  cases rest with
  | nil => exact hlink target (Option.some.inj h).symm
  | cons name rest => cases h

namespace Tree

variable {t : Tree} {found : Entry} {names : List Name}

section Step

variable {links : Nat} {here : Place} {entries : List (Name × Entry)} {name : Name}
  {rest : List Name}

theorem walk_dot (hdir : here.entry = some (.directory entries)) :
    t.walk links here (Path.dot :: rest) = t.walk links here rest := by
  rw [walk, hdir]
  rfl

theorem walk_dotDot (hdir : here.entry = some (.directory entries)) :
    t.walk links here (Path.dotDot :: rest) = t.walk links (t.place here.trail.tail) rest := by
  rw [walk, hdir]
  rfl

theorem walk_missing (hdir : here.entry = some (.directory entries)) (hname : Path.IsPlain name)
    (hlookup : entries.lookup name = none) :
    t.walk links here (name :: rest) =
      if rest.isEmpty then .ok ⟨name :: here.trail, none⟩ else .error .notFound := by
  rw [walk, hdir]
  simp only [Nat.not_lt.mpr hname.length_le, hname.ne_dot, hname.ne_dotDot, hlookup, if_false]

theorem walk_link {target : Bytes} (hdir : here.entry = some (.directory entries))
    (hname : Path.IsPlain name) (hlookup : entries.lookup name = some (.link target)) :
    t.walk (links + 1) here (name :: rest) =
      if target.isEmpty then .error .notFound
      else
        t.walk links (if Path.isAbsolute target then t.place [] else here)
          (Path.steps target ++ rest) := by
  rw [walk, hdir]
  simp only [Nat.not_lt.mpr hname.length_le, hname.ne_dot, hname.ne_dotDot, hlookup, if_false]

theorem walk_entry {entry : Entry} (hdir : here.entry = some (.directory entries))
    (hname : Path.IsPlain name) (hlookup : entries.lookup name = some entry)
    (hlink : ∀ target, entry ≠ .link target) :
    t.walk links here (name :: rest) = t.walk links ⟨name :: here.trail, some entry⟩ rest := by
  rw [walk, hdir]
  simp only [Nat.not_lt.mpr hname.length_le, hname.ne_dot, hname.ne_dotDot, hlookup, if_false]

end Step

theorem walk_append_of_descend (links : Nat) (here : Place) {entry : Entry} (rest : List Name)
    (hhere : here.entry = some entry) (hfound : entry.descend names = some found)
    (hplain : ∀ name ∈ names, Path.IsPlain name) (hlink : ∀ target, found ≠ .link target) :
    t.walk links here (names ++ rest) =
      t.walk links ⟨names.reverse ++ here.trail, some found⟩ rest := by
  induction names generalizing here entry with
  | nil =>
      rw [Entry.descend] at hfound
      rw [← hfound, ← hhere]
      rfl
  | cons name names ih =>
      obtain ⟨entries, child, rfl, hlookup, hrest⟩ := Entry.descend_cons_eq_some hfound
      have hname := hplain name List.mem_cons_self
      have hchild := Entry.not_link_of_descend hrest hlink
      have hnext : t.walk links ⟨name :: here.trail, some child⟩ (names ++ rest) =
          t.walk links ⟨names.reverse ++ name :: here.trail, some found⟩ rest := by
        apply ih _ rfl hrest
        intro other hother
        exact hplain other (List.mem_cons_of_mem name hother)
      rw [List.cons_append, walk_entry hhere hname hlookup hchild, hnext, List.reverse_cons,
        List.append_assoc, List.singleton_append]

theorem walk_of_descend (links : Nat) (here : Place) {entry : Entry}
    (hhere : here.entry = some entry) (hfound : entry.descend names = some found)
    (hplain : ∀ name ∈ names, Path.IsPlain name) (hlink : ∀ target, found ≠ .link target) :
    t.walk links here names = .ok ⟨names.reverse ++ here.trail, some found⟩ := by
  have hwalk := walk_append_of_descend (t := t) links here [] hhere hfound hplain hlink
  rwa [List.append_nil, walk] at hwalk

theorem startOf_of_isDirect (here : Location) {path : Bytes} (hpath : Path.IsDirect path) :
    t.startOf here path = ⟨[], some t.root⟩ := by
  rw [startOf, if_pos hpath.isAbsolute]
  rfl

theorem locate_of_isDirect (here : Location) {path : Bytes} (hpath : Path.IsDirect path) :
    t.locate here path = t.walk maxLinks ⟨[], some t.root⟩ (Path.steps path) := by
  simp only [locate, hpath.isEmpty_eq_false, hpath.no_nul, Nat.not_le.mpr hpath.length_lt,
    startOf_of_isDirect here hpath, if_false, Bool.false_eq_true]

theorem resolve_of_descend (here : Location) {path : Bytes} (hpath : Path.IsDirect path)
    (hfound : t.root.descend (Path.steps path) = some found)
    (hlink : ∀ target, found ≠ .link target) :
    t.resolve here path = .ok (Path.steps path, found) := by
  rw [resolve, locate_of_isDirect here hpath,
    walk_of_descend maxLinks ⟨[], some t.root⟩ rfl hfound hpath.isPlain hlink]
  simp only [Place.location, List.append_nil, List.reverse_reverse]

section Missing

variable {path : Bytes} {front : Location} {name : Name} {entries : List (Name × Entry)}

theorem locate_of_missing (here : Location) (hpath : Path.IsDirect path) {rest : List Name}
    (hsteps : Path.steps path = front ++ name :: rest)
    (hdir : t.root.descend front = some (.directory entries))
    (hmissing : entries.lookup name = none) :
    t.locate here path =
      if rest.isEmpty then .ok ⟨name :: front.reverse, none⟩ else .error .notFound := by
  have hplain : ∀ other ∈ front ++ name :: rest, Path.IsPlain other := hsteps ▸ hpath.isPlain
  rw [locate_of_isDirect here hpath, hsteps,
    walk_append_of_descend maxLinks ⟨[], some t.root⟩ _ rfl hdir
      (fun other hother => hplain other (List.mem_append_left _ hother)) nofun,
    walk_missing rfl (hplain name (by simp)) hmissing, List.append_nil]

theorem not_present_of_missing (here : Location) (hpath : Path.IsDirect path) {rest : List Name}
    (hsteps : Path.steps path = front ++ name :: rest)
    (hdir : t.root.descend front = some (.directory entries))
    (hmissing : entries.lookup name = none) : t.present here path = false := by
  rw [present, resolve, locate_of_missing here hpath hsteps hdir hmissing]
  split
  · rfl
  · next hplace =>
    split at hplace <;> cases hplace
    rfl

theorem write_of_missing (here : Location) (hpath : Path.IsDirect path) (content : Bytes)
    (hsteps : Path.steps path = front ++ [name])
    (hdir : t.root.descend front = some (.directory entries))
    (hmissing : entries.lookup name = none) :
    t.write here path content = .ok (t.put (front ++ [name]) (.file defaultMode content)) := by
  rw [write, locate_of_missing here hpath hsteps hdir hmissing]
  simp [Place.location]

end Missing

theorem resolve_root {t : Tree} {entries : List (Name × Entry)} (here : Location)
    (hroot : t.root = .directory entries) :
    t.resolve here (Path.ofLocation []) = .ok ([], t.root) := by
  have hwalk : t.walk maxLinks (t.place []) [Path.dot] = .ok (t.place []) := by
    have hplace : (t.place []).entry = some (.directory entries) := by
      rw [← hroot]
      rfl
    rw [walk_dot hplace, walk]
  have hlocate : t.locate here (Path.ofLocation []) = t.walk maxLinks (t.place []) [Path.dot] :=
    rfl
  rw [resolve, hlocate, hwalk]
  rfl

end Tree

end ChatSpace.Files
