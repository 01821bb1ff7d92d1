import ChatSpace.Proofs.Files.Growth
import ChatSpace.Proofs.Files.Walk

namespace ChatSpace

theorem Fields.split_append_cons {α : Type} [DecidableEq α] (sep : α) (front back : List α) :
    split sep (front ++ sep :: back) = split sep front ++ split sep back := by
  induction front with
  | nil =>
      rw [List.nil_append, split_cons]
      cases h : split sep back with
      | nil => exact absurd h (split_ne_nil sep back)
      | cons field fields => simp [extend]
  | cons c front ih =>
      rw [List.cons_append, split_cons, split_cons, ih]
      cases h : split sep front with
      | nil => exact absurd h (split_ne_nil sep front)
      | cons field fields =>
          simp only [List.cons_append, extend]
          split <;> rfl

namespace Files

namespace Path

variable {base rest : Bytes}

theorem names_append_slash (front back : Bytes) :
    names (front ++ slash :: back) = names front ++ names back := by
  rw [names, Fields.split_append_cons, List.filter_append]
  rfl

theorem join_of_isAbsolute (hbase : isAbsolute base) (hrest : isAbsolute rest = false) :
    join base rest =
      if base.getLast? = some slash then base ++ rest else base ++ slash :: rest := by
  cases base with
  | nil => cases hbase
  | cons b base => simp [join, hrest]

theorem isAbsolute_join (hbase : isAbsolute base) (hrest : isAbsolute rest = false) :
    isAbsolute (join base rest) := by
  rw [join_of_isAbsolute hbase hrest]
  cases base with
  | nil => cases hbase
  | cons b base => split <;> exact hbase

theorem names_join (hbase : isAbsolute base) (hrest : isAbsolute rest = false) :
    names (join base rest) = names base ++ names rest := by
  rw [join_of_isAbsolute hbase hrest]
  split
  · next hlast =>
    obtain ⟨front, rfl⟩ := List.getLast?_eq_some_iff.mp hlast
    rw [List.append_assoc, List.singleton_append, names_append_slash, names_append_slash]
    simp [names]
  · exact names_append_slash base rest

theorem steps_join (hbase : isAbsolute base) (hrest : isAbsolute rest = false) (hne : rest ≠ []) :
    steps (join base rest) = names base ++ steps rest := by
  have hlast : (join base rest).getLast? = rest.getLast? := by
    obtain ⟨front, last, rfl⟩ := (List.eq_nil_or_concat rest).resolve_left hne
    rw [join_of_isAbsolute hbase hrest]
    split <;> simp [List.getLast?_append, List.getLast?_cons]
  rw [steps, steps, names_join hbase hrest, hlast, List.append_assoc]

end Path

namespace Tree

variable {t t' : Tree} {here : Location} {path : Bytes}

theorem makeDirectory_eq_ok (h : t.makeDirectory here path = .ok t') :
    ∃ name parent entries, (Path.names path).getLast? = some name ∧
      t.walk maxLinks (t.startOf here path) (Path.names path).dropLast = .ok parent ∧
      parent.entry = some (.directory entries) ∧ entries.lookup name = none ∧
      t' = t.put (parent.location ++ [name]) (.directory []) := by
  unfold makeDirectory at h
  split at h
  · cases h
  · split at h
    · cases h
    · split at h
      · split at h <;> cases h
      · next name hlast =>
        split at h
        · cases h
        · next parent hwalk =>
          split at h
          · cases h
          · next entries hdir =>
            split at h
            · cases h
            · split at h
              · cases h
              · split at h
                · cases h
                · next hlookup =>
                  cases h
                  have hlookup := Option.not_isSome_iff_eq_none.mp hlookup
                  exact ⟨name, parent, entries, hlast, hwalk, hdir, hlookup, rfl⟩
          · cases h

theorem makeDirectory_ne_notFound {name : Name} {parent : Place} {entries : List (Name × Entry)}
    (hlast : (Path.names path).getLast? = some name)
    (hwalk : t.walk maxLinks (t.startOf here path) (Path.names path).dropLast = .ok parent)
    (hdir : parent.entry = some (.directory entries)) :
    t.makeDirectory here path ≠ .error .notFound := by
  intro h
  unfold makeDirectory at h
  simp only [hlast, hwalk, hdir] at h
  repeat' split at h
  all_goals cases h

theorem grows_makeDirectory (h : t.makeDirectory here path = .ok t') : t.Grows t' := by
  obtain ⟨name, parent, entries, -, hwalk, hdir, hlookup, rfl⟩ := makeDirectory_eq_ok h
  have hparent := (entry_eq_of_walk (stands_place t _) hwalk).symm.trans hdir
  apply grows_put
  rw [entry?_concat hparent, hlookup]
  trivial

section Missing

variable {front : Location} {name : Name} {entries : List (Name × Entry)}

theorem makeDirectory_of_missing (here : Location) (hpath : Path.IsDirect path)
    (hnames : Path.names path = front ++ [name])
    (hdir : t.root.descend front = some (.directory entries))
    (hmissing : entries.lookup name = none) :
    t.makeDirectory here path = .ok (t.put (front ++ [name]) (.directory [])) := by
  have hplain : ∀ other ∈ front ++ [name], Path.IsPlain other := fun other hother =>
    hpath.isPlain_of_mem_names (hnames ▸ hother)
  have hname := hplain name (by simp)
  have hnul : 0 ∉ path := by simpa using hpath.no_nul
  have hwalk : t.walk maxLinks ⟨[], some t.root⟩ front =
      .ok ⟨front.reverse ++ [], some (.directory entries)⟩ :=
    walk_of_descend maxLinks _ rfl hdir
      (fun other hother => hplain other (List.mem_append_left _ hother)) (by simp)
  simp [makeDirectory, hnames, startOf_of_isDirect here hpath, hwalk, hnul,
    Nat.not_le.mpr hpath.length_lt, hname.ne_dot, hname.ne_dotDot, Nat.not_lt.mpr hname.length_le,
    hmissing, Place.location]

theorem makeDirectory_of_orphan (here : Location) (hpath : Path.IsDirect path) {last : Name}
    (hnames : Path.names path = front ++ [name, last])
    (hdir : t.root.descend front = some (.directory entries))
    (hmissing : entries.lookup name = none) :
    t.makeDirectory here path = .error .notFound := by
  have hplain : ∀ other ∈ front ++ [name, last], Path.IsPlain other := fun other hother =>
    hpath.isPlain_of_mem_names (hnames ▸ hother)
  have hnul : 0 ∉ path := by simpa using hpath.no_nul
  have hwalk : t.walk maxLinks ⟨[], some t.root⟩ (front ++ [name]) =
      .ok ⟨name :: (front.reverse ++ []), none⟩ := by
    rw [walk_append_of_descend maxLinks ⟨[], some t.root⟩ [name] rfl hdir
      (fun other hother => hplain other (List.mem_append_left _ hother)) (by simp),
      walk_missing rfl (hplain name (by simp)) hmissing]
    rfl
  simp [makeDirectory, hnames, startOf_of_isDirect here hpath, hwalk, hnul,
    Nat.not_le.mpr hpath.length_lt]

theorem makeDirectories_of_missing (here : Location) (hpath : Path.IsDirect path)
    (hnames : Path.names path = front ++ [name])
    (hdir : t.root.descend front = some (.directory entries))
    (hmissing : entries.lookup name = none) :
    t.makeDirectories here path = .ok (t.put (front ++ [name]) (.directory [])) := by
  rw [makeDirectories, makeDirectoriesAt, makeDirectory_of_missing here hpath hnames hdir hmissing]
  simp [hpath.isEmpty_eq_false]

end Missing

theorem makeDirectories_of_parent {front : Bytes} {made : Tree}
    (hfront : Path.ofNames (Path.isAbsolute path) (Path.normalNames path).dropLast = front)
    (hne : path.isEmpty = false) (hfrontne : front.isEmpty = false)
    (hnames : Path.normalNames path ≠ [])
    (hmissing : t.makeDirectory here path = .error .notFound)
    (hparent : t.makeDirectory here front = .ok made)
    (hlast : made.makeDirectory here path = .ok t') : t.makeDirectories here path = .ok t' := by
  have hmade : t.makeDirectoriesAt here front (Path.isAbsolute path)
      (Path.normalNames path).dropLast = .ok made := by
    rw [makeDirectoriesAt, hparent]
    simp [hfrontne]
  rw [makeDirectories, makeDirectoriesAt, hmissing]
  simp only [hne, hnames, hfront, hmade, ensureDirectory, hlast]
  rfl

section Relates

variable {R : Tree → Tree → Prop} (hrefl : ∀ t, R t t)
  (htrans : ∀ {t t' t''}, R t t' → R t' t'' → R t t'')
  (hmake : ∀ {t t' path}, t.makeDirectory here path = .ok t' → R t t')

include hrefl hmake

theorem relates_ensureDirectory (h : t.ensureDirectory here path = .ok t') : R t t' := by
  unfold ensureDirectory at h
  split at h
  · next hmade =>
    cases h
    exact hmake hmade
  · split at h <;> cases h
    exact hrefl t

include htrans

theorem relates_makeDirectories (t : Tree) (path : Bytes) :
    R t (after (t.makeDirectories here path)) := by
  unfold makeDirectories
  fun_induction t.makeDirectoriesAt here path (Path.isAbsolute path) (Path.normalNames path) with
  | case1 => exact hrefl t
  | case2 _ _ _ made hmade => exact hmake hmade
  | case3 => exact hrefl t
  | case4 _ _ _ _ _ _ _ hmade ih => exact hmade ▸ ih
  | case5 path _ _ _ _ _ made hmade ih =>
      rw [hmade] at ih
      cases hlast : made.ensureDirectory here path with
      | ok => exact htrans ih (relates_ensureDirectory hrefl hmake hlast)
      | error => exact ih
  | case6 => exact hrefl t
  | case7 => exact hrefl t

end Relates

theorem grows_makeDirectories (t : Tree) (here : Location) (path : Bytes) :
    t.Grows (after (t.makeDirectories here path)) :=
  relates_makeDirectories Grows.refl Grows.trans grows_makeDirectory t path

theorem walk_append (t : Tree) (links : Nat) (start : Place) (names : List Name) :
    ∃ left, ∀ more found, more ≠ [] → (t.walk links start (names ++ more) = .ok found ↔
      ∃ mid, t.walk links start names = .ok mid ∧ t.walk left mid more = .ok found) := by
  fun_induction t.walk links start names with
  | case1 links here => exact ⟨links, fun more found _ => by simp⟩
  | case2 links here name rest entries hdir hlong =>
      refine ⟨links, fun more found _ => ?_⟩
      rw [List.cons_append, walk, hdir]
      simp [hlong]
  | case3 links here rest entries hdir hlong ih =>
      obtain ⟨left, ih⟩ := ih
      refine ⟨left, fun more found hmore => ?_⟩
      rw [← ih more found hmore, List.cons_append, walk_dot hdir]
  | case4 links here rest entries hdir hlong hdot ih =>
      obtain ⟨left, ih⟩ := ih
      refine ⟨left, fun more found hmore => ?_⟩
      rw [← ih more found hmore, List.cons_append, walk_dotDot hdir]
  | case5 links here name rest entries hdir hlong hdot hdotDot hlookup hrest =>
      refine ⟨links, fun more found hmore => ?_⟩
      obtain rfl := List.isEmpty_iff.mp hrest
      obtain ⟨next, more, rfl⟩ := List.exists_cons_of_ne_nil hmore
      have hname : Path.IsPlain name := ⟨Nat.le_of_not_lt hlong, hdot, hdotDot⟩
      -- both sides are false: nothing is there from which to go on
      rw [List.cons_append, walk_missing hdir hname hlookup]
      simp [walk]
  | case6 links here name rest entries hdir hlong hdot hdotDot hlookup hrest =>
      refine ⟨links, fun more found hmore => ?_⟩
      have hname : Path.IsPlain name := ⟨Nat.le_of_not_lt hlong, hdot, hdotDot⟩
      rw [List.cons_append, walk_missing hdir hname hlookup]
      simp [hmore]
  | case7 here name rest entries hdir hlong hdot hdotDot target hlookup =>
      refine ⟨0, fun more found hmore => ?_⟩
      rw [List.cons_append, walk, hdir]
      simp [hlong, hdot, hdotDot, hlookup]
  | case8 here name rest entries hdir hlong hdot hdotDot target hlookup links hempty =>
      refine ⟨links, fun more found hmore => ?_⟩
      have hname : Path.IsPlain name := ⟨Nat.le_of_not_lt hlong, hdot, hdotDot⟩
      rw [List.cons_append, walk_link hdir hname hlookup, if_pos hempty]
      simp
  | case9 here name rest entries hdir hlong hdot hdotDot target hlookup links hempty ih =>
      obtain ⟨left, ih⟩ := ih
      refine ⟨left, fun more found hmore => ?_⟩
      have hname : Path.IsPlain name := ⟨Nat.le_of_not_lt hlong, hdot, hdotDot⟩
      have hnext := ih more found hmore
      rw [List.append_assoc] at hnext
      rw [List.cons_append, walk_link hdir hname hlookup, if_neg hempty]
      simpa only [dite_eq_ite] using hnext
  | case10 links here name rest entries hdir hlong hdot hdotDot entry hentry hlookup ih =>
      obtain ⟨left, ih⟩ := ih
      refine ⟨left, fun more found hmore => ?_⟩
      have hname : Path.IsPlain name := ⟨Nat.le_of_not_lt hlong, hdot, hdotDot⟩
      rw [← ih more found hmore, List.cons_append, walk_entry hdir hname hlookup hentry]
  | case11 links here name rest hnot =>
      refine ⟨links, fun more found hmore => ?_⟩
      rw [List.cons_append, walk]
      split
      · next entries hdir => exact absurd hdir (hnot entries)
      · simp

theorem walk_of_isDirectory {base : Bytes} (hbase : Path.isAbsolute base)
    (h : t.isDirectory here base) :
    ∃ parent entries, t.walk maxLinks (t.place []) (Path.names base) = .ok parent ∧
      parent.entry = some (.directory entries) := by
  obtain ⟨found, entries, hfound, hdir⟩ := isDirectory_iff.mp h
  have hwalk := walk_of_locate hfound
  rw [startOf, if_pos hbase, Path.steps] at hwalk
  split at hwalk
  · obtain ⟨left, happend⟩ := t.walk_append maxLinks (t.place []) (Path.names base)
    obtain ⟨parent, hparent, hlast⟩ := (happend _ found (List.cons_ne_nil _ _)).mp hwalk
    rw [walk] at hlast
    split at hlast
    · next entries hentry => exact ⟨parent, entries, hparent, hentry⟩
    · cases hlast
  · rw [List.append_nil] at hwalk
    exact ⟨found, entries, hwalk, hdir⟩

section Below

variable {base below beyond : Bytes} {dir file : Name}

theorem entry_of_walk_new {links : Nat} {start found : Place} {entries : List (Name × Entry)}
    (hdir : Path.IsPlain dir) (hfile : Path.IsPlain file)
    (hstart : start.entry = some (.directory entries))
    (hnew : entries.lookup dir = some (.directory []))
    (h : t.walk links start [dir, file] = .ok found) : found.entry = none := by
  rw [walk_entry hstart hdir hnew (by simp), walk_missing rfl hfile rfl] at h
  cases h
  rfl

theorem after_makeDirectories_cases (hbase : Path.isAbsolute base) (hdir : t.isDirectory here base)
    (hrest : Path.isAbsolute below = false) (hbelow : Path.names below = [dir]) :
    let t' := after (t.makeDirectories here (Path.join base below))
    t' = t ∨ ∃ parent entries, t.walk maxLinks (t.place []) (Path.names base) = .ok parent ∧
      parent.entry = some (.directory entries) ∧ entries.lookup dir = none ∧
      t' = t.put (parent.location ++ [dir]) (.directory []) := by
  intro t'
  obtain ⟨parent, entries, hwalk, hparent⟩ := walk_of_isDirectory hbase hdir
  have hstart : t.startOf here (Path.join base below) = t.place [] := by
    rw [startOf, if_pos (Path.isAbsolute_join hbase hrest)]
  have hjoin : Path.names (Path.join base below) = Path.names base ++ [dir] := by
    rw [Path.names_join hbase hrest, hbelow]
  have hlast : (Path.names (Path.join base below)).getLast? = some dir := by
    rw [hjoin, List.getLast?_concat]
  have hfront : t.walk maxLinks (t.startOf here (Path.join base below))
      (Path.names (Path.join base below)).dropLast = .ok parent := by
    rw [hstart, hjoin, List.dropLast_concat, hwalk]
  simp only [t', makeDirectories]
  unfold makeDirectoriesAt
  split
  · exact .inl rfl
  · split
    · next made hmake =>
      obtain ⟨name, parent', entries', hlast', hfront', hparent', hlookup, rfl⟩ :=
        makeDirectory_eq_ok hmake
      obtain rfl := Option.some.inj (hlast.symm.trans hlast')
      obtain rfl := Except.ok.inj (hfront.symm.trans hfront')
      exact .inr ⟨parent, entries', hwalk, hparent', hlookup, rfl⟩
    · next hmake =>
      -- no parent is missing, so none is made
      exact absurd hmake (makeDirectory_ne_notFound hlast hfront hparent)
    · split <;> exact .inl rfl

theorem present_of_makeDirectories (hbase : Path.isAbsolute base) (hdir : t.isDirectory here base)
    (hbelow : Path.isAbsolute below = false) (hnames : Path.names below = [dir])
    (hbeyond : Path.isAbsolute beyond = false) (hsteps : Path.steps beyond = [dir, file])
    (hplain : ∀ name ∈ [dir, file], Path.IsPlain name)
    (hpresent : (after (t.makeDirectories here (Path.join base below))).present here
      (Path.join base beyond)) :
    t.present here (Path.join base beyond) := by
  have hgrows := t.grows_makeDirectories here (Path.join base below)
  have hcases := after_makeDirectories_cases hbase hdir hbelow hnames
  simp only at hcases
  generalize after (t.makeDirectories here (Path.join base below)) = t' at hpresent hgrows hcases
  rcases hcases with rfl | ⟨parent, entries, hwalk, hparent, hlookup, hput⟩
  · exact hpresent
  · obtain ⟨found, hfound, hsome⟩ := present_iff.mp hpresent
    have hstands := (entry_eq_of_walk (stands_place t []) hwalk)
    have hne : beyond ≠ [] := by
      rintro rfl
      cases hsteps
    have hwalk' := walk_of_locate hfound
    rw [startOf, if_pos (Path.isAbsolute_join hbase hbeyond), Path.steps_join hbase hbeyond hne,
      hsteps] at hwalk'
    obtain ⟨left, happend⟩ := t'.walk_append maxLinks (t'.place []) (Path.names base)
    obtain ⟨mid, hmid, hlast⟩ := (happend _ found (List.cons_ne_nil dir [file])).mp hwalk'
    have hsame : t'.walk maxLinks (t'.place []) (Path.names base) = .ok (t'.place parent.trail) :=
      walk_of_grows hgrows (stands_place t []) hwalk fun _ hnone => by simp [hparent] at hnone
    obtain rfl := Except.ok.inj (hmid.symm.trans hsame)
    obtain ⟨entries', hplace⟩ := hgrows.place_directory hstands hparent
    have hnew : entries'.lookup dir = some (.directory []) := by
      rw [← entry?_concat hplace, hput]
      exact Entry.descend_put (hstands.symm.trans hparent) dir
    have hnone := entry_of_walk_new (hplain dir (by simp)) (hplain file (by simp)) hplace hnew hlast
    exact absurd hnone hsome

end Below

end Tree

end Files

end ChatSpace
