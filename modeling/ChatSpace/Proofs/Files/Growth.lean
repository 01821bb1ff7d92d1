import ChatSpace.Proofs.Files.Walk

namespace ChatSpace.Files

inductive Kind where
  | file
  | directory
  | link (target : Bytes)
deriving DecidableEq, Repr

namespace Entry

def kind : Entry → Kind
  | file _ _ => .file
  | directory _ => .directory
  | link target => .link target

variable {entry old new : Entry} {k : Kind} {location other : Location} {name : Name}

theorem exists_of_kind_eq_directory (h : entry.kind = .directory) :
    ∃ entries, entry = .directory entries := by
  cases entry with
  | directory entries => exact ⟨entries, rfl⟩
  | _ => cases h

theorem kind_eq_link_iff {target : Bytes} : entry.kind = .link target ↔ entry = .link target := by
  cases entry <;> simp [kind]

def Replaces (new : Entry) : Option Entry → Prop
  | none => True
  | some old => (∃ mode content, old = .file mode content) ∧ new.kind = .file

theorem lookup_filter_ne {other : Name} (h : other ≠ name) (entries : List (Name × Entry)) :
    (entries.filter (·.1 ≠ name)).lookup other = entries.lookup other := by
  induction entries with
  | nil => rfl
  | cons first rest ih =>
      obtain ⟨n, e⟩ := first
      by_cases hn : n = name
      · subst hn
        rw [List.filter_cons_of_neg (by simp), ih]
        simp only [List.lookup_cons, beq_eq_false_iff_ne.mpr h]
      · rw [List.filter_cons_of_pos (by simpa using hn), List.lookup_cons,
          List.lookup_cons, ih]

theorem kind_descend_put (hnew : new.Replaces (entry.descend location))
    (h : (entry.descend other).map kind = some k) :
    ((put new entry location).descend other).map kind = some k := by
  induction location generalizing entry other with
  | nil =>
      obtain ⟨⟨mode, content, rfl⟩, hkind⟩ : (∃ mode content, entry = .file mode content) ∧
        new.kind = .file := hnew
      cases other with
      | nil =>
          cases h
          rw [put, descend, Option.map_some, hkind]
          rfl
      | cons name rest => cases h
  | cons name rest ih =>
      cases entry with
      | file mode content => exact h
      | link target => exact h
      | directory entries =>
          cases other with
          | nil => exact h
          | cons other deeper =>
              rw [put, descend, List.lookup_cons]
              rw [descend] at h hnew
              by_cases hother : other = name
              · subst hother
                simp only [beq_self_eq_true, Option.bind_some]
                cases hchild : entries.lookup other with
                | none => simp [hchild] at h
                | some child =>
                    rw [hchild] at h hnew
                    exact ih hnew h
              · simp only [beq_eq_false_iff_ne.mpr hother, lookup_filter_ne hother]
                exact h

theorem descend_put {entries : List (Name × Entry)}
    (h : entry.descend location = some (.directory entries)) (name : Name) :
    (put new entry (location ++ [name])).descend (location ++ [name]) = some new := by
  induction location generalizing entry with
  | nil =>
      obtain rfl := Option.some.inj h
      simp [put, descend]
  | cons first rest ih =>
      obtain ⟨siblings, child, rfl, hlookup, hrest⟩ := descend_cons_eq_some h
      rw [List.cons_append, put, descend, hlookup]
      simp only [List.lookup_cons_self, Option.getD_some, Option.bind_some]
      exact ih hrest

end Entry

namespace Tree

variable {t t' t'' : Tree}

def kind? (t : Tree) (location : Location) : Option Kind :=
  Option.map Entry.kind <| t.entry? location

def Grows (t t' : Tree) : Prop :=
  ∀ location k, t.kind? location = some k → t'.kind? location = some k

theorem Grows.refl (t : Tree) : t.Grows t :=
  fun _ _ h => h

theorem Grows.trans (h : t.Grows t') (h' : t'.Grows t'') : t.Grows t'' :=
  fun location k hk => h' location k (h location k hk)

theorem grows_put {location : Location} {entry : Entry}
    (h : entry.Replaces <| t.entry? location) : t.Grows (t.put location entry) :=
  fun _ _ hk => Entry.kind_descend_put h hk

theorem Grows.directory {location : Location} {entries : List (Name × Entry)} (h : t.Grows t')
    (hdir : t.entry? location = some (.directory entries)) :
    ∃ entries', t'.entry? location = some (.directory entries') := by
  have hkind := h location .directory (by simp [kind?, hdir, Entry.kind])
  obtain ⟨entry, hentry, hkind⟩ := Option.map_eq_some_iff.mp hkind
  obtain ⟨entries', rfl⟩ := Entry.exists_of_kind_eq_directory hkind
  exact ⟨entries', hentry⟩

theorem Grows.place_directory {here : Place} {entries : List (Name × Entry)} (h : t.Grows t')
    (hhere : here.Stands t) (hdir : here.entry = some (.directory entries)) :
    ∃ entries', (t'.place here.trail).entry = some (.directory entries') :=
  h.directory (hhere.symm.trans hdir)

theorem entry?_concat {location : Location} {entries : List (Name × Entry)}
    (hdir : t.entry? location = some (.directory entries)) (name : Name) :
    t.entry? (location ++ [name]) = entries.lookup name := by
  have hroot : t.root.descend location = some (.directory entries) := hdir
  unfold entry?
  rw [Entry.descend_append, hroot]
  cases h : entries.lookup name <;> simp [Entry.descend, h]

theorem place_cons {here : Place} {entries : List (Name × Entry)}
    (hdir : (t.place here.trail).entry = some (.directory entries)) (name : Name) :
    t.place (name :: here.trail) = ⟨name :: here.trail, entries.lookup name⟩ := by
  rw [place, List.reverse_cons, ← entry?_concat hdir name]

theorem Grows.link {location : Location} {target : Bytes} (h : t.Grows t')
    (hlink : t.entry? location = some (.link target)) :
    t'.entry? location = some (.link target) := by
  have hkind := h location (.link target) (by simp [kind?, hlink, Entry.kind])
  obtain ⟨entry, hentry, hkind⟩ := Option.map_eq_some_iff.mp hkind
  rw [hentry, Entry.kind_eq_link_iff.mp hkind]

theorem Grows.not_link {location : Location} {entry : Entry} (h : t.Grows t')
    (hentry : t.entry? location = some entry) (hlink : ∀ target, entry ≠ .link target) :
    ∃ entry', t'.entry? location = some entry' ∧ ∀ target, entry' ≠ .link target := by
  have hkind := h location entry.kind (by simp [kind?, hentry])
  obtain ⟨entry', hentry', hkind⟩ := Option.map_eq_some_iff.mp hkind
  refine ⟨entry', hentry', fun target heq => ?_⟩
  rw [heq, Entry.kind, eq_comm, Entry.kind_eq_link_iff] at hkind
  exact hlink target hkind

theorem walk_of_grows {links : Nat} {here found : Place} {names : List Name} (h : t.Grows t')
    (hhere : here.Stands t) (hwalk : t.walk links here names = .ok found)
    (hlink : ∀ target, found.entry = none → t'.entry? found.location ≠ some (.link target)) :
    t'.walk links (t'.place here.trail) names = .ok (t'.place found.trail) := by
  fun_induction t.walk links here names with
  | case1 links here =>
      cases hwalk
      rw [walk]
  | case2 => cases hwalk
  | case3 links here rest entries hdir hlong ih =>
      obtain ⟨entries', hplace⟩ := h.place_directory hhere hdir
      rw [walk_dot hplace]
      exact ih hhere hwalk
  | case4 links here rest entries hdir hlong hdot ih =>
      obtain ⟨entries', hplace⟩ := h.place_directory hhere hdir
      rw [walk_dotDot hplace]
      exact ih (stands_place t _) hwalk
  | case5 links here name rest entries hdir hlong hdot hdotDot hlookup hrest =>
      cases hwalk
      obtain ⟨entries', hplace⟩ := h.place_directory hhere hdir
      obtain rfl := List.isEmpty_iff.mp hrest
      have hname : Path.IsPlain name := ⟨Nat.le_of_not_lt hlong, hdot, hdotDot⟩
      have hlast := place_cons hplace name
      rw [hlast]
      cases hfound : entries'.lookup name with
      | none =>
          rw [walk_missing hplace hname hfound]
          rfl
      | some entry =>
          have hnotLink (target : Bytes) : entry ≠ .link target := by
            rintro rfl
            exact hlink target rfl ((congrArg Place.entry hlast).trans hfound)
          rw [walk_entry hplace hname hfound hnotLink, walk]
          rfl
  | case6 => cases hwalk
  | case7 => cases hwalk
  | case8 => cases hwalk
  | case9 here name rest entries hdir hlong hdot hdotDot target hlookup links hempty ih =>
      obtain ⟨entries', hplace⟩ := h.place_directory hhere hdir
      have hname : Path.IsPlain name := ⟨Nat.le_of_not_lt hlong, hdot, hdotDot⟩
      have hlookup' : entries'.lookup name = some (.link target) := by
        rw [← entry?_concat hplace name]
        apply h.link
        exact (entry?_concat (hhere.symm.trans hdir) name).trans hlookup
      rw [walk_link hplace hname hlookup', if_neg hempty]
      by_cases habsolute : Path.isAbsolute target
      · simp only [habsolute, if_true, dite_true] at hwalk ih ⊢
        exact ih (stands_place t []) hwalk
      · simp only [habsolute] at hwalk ih ⊢
        exact ih hhere hwalk
  | case10 links here name rest entries hdir hlong hdot hdotDot entry hentry hlookup ih =>
      obtain ⟨entries', hplace⟩ := h.place_directory hhere hdir
      have hname : Path.IsPlain name := ⟨Nat.le_of_not_lt hlong, hdot, hdotDot⟩
      have hnext := stands_of_lookup hhere hdir name
      rw [hlookup] at hnext
      obtain ⟨entry', hentry', hlink'⟩ := h.not_link hnext.symm hentry
      have hlookup' : entries'.lookup name = some entry' := by
        rw [← entry?_concat hplace name, ← hentry']
        simp [Place.location]
      rw [walk_entry hplace hname hlookup' hlink', ← ih hnext hwalk, place_cons hplace name,
        hlookup']
      rfl
  | case11 => cases hwalk

theorem parent_ne_none {here : Place} (hhere : here.Stands t) (hsome : here.entry ≠ none) :
    (t.place here.trail.tail).entry ≠ none := by
  cases htrail : here.trail with
  | nil => exact Option.some_ne_none _
  | cons name trail =>
      intro hnone
      have hnone : t.root.descend trail.reverse = none := hnone
      apply hsome
      rw [hhere, Place.location, htrail, List.reverse_cons, entry?, Entry.descend_append, hnone]
      rfl

theorem parent_of_walk {links : Nat} {here found : Place} {names : List Name}
    (hhere : here.Stands t) (hsome : here.entry ≠ none)
    (hwalk : t.walk links here names = .ok found) (hnone : found.entry = none) :
    ∃ name trail entries, found.trail = name :: trail ∧
      t.entry? trail.reverse = some (.directory entries) := by
  fun_induction t.walk links here names with
  | case1 links here =>
      cases hwalk
      exact absurd hnone hsome
  | case2 => cases hwalk
  | case3 links here rest entries hdir hlong ih => exact ih hhere hsome hwalk
  | case4 links here rest entries hdir hlong hdot ih =>
      exact ih (stands_place t _) (parent_ne_none hhere hsome) hwalk
  | case5 links here name rest entries hdir hlong hdot hdotDot hlookup hrest =>
      cases hwalk
      exact ⟨name, here.trail, entries, rfl, hhere.symm.trans hdir⟩
  | case6 => cases hwalk
  | case7 => cases hwalk
  | case8 => cases hwalk
  | case9 here name rest entries hdir hlong hdot hdotDot target hlookup links hempty ih =>
      by_cases habsolute : Path.isAbsolute target
      · simp only [habsolute, if_true, dite_true] at hwalk ih
        exact ih (stands_place t []) (Option.some_ne_none _) hwalk
      · simp only [habsolute] at hwalk ih
        exact ih hhere hsome hwalk
  | case10 links here name rest entries hdir hlong hdot hdotDot entry hentry hlookup ih =>
      have hnext := stands_of_lookup hhere hdir name
      rw [hlookup] at hnext
      exact ih hnext (Option.some_ne_none _) hwalk
  | case11 => cases hwalk

theorem walk_of_locate {here : Location} {path : Bytes} {found : Place}
    (h : t.locate here path = .ok found) :
    t.walk maxLinks (t.startOf here path) (Path.steps path) = .ok found := by
  unfold locate at h
  split at h
  · cases h
  · split at h
    · cases h
    · split at h
      · cases h
      · exact h

theorem locate_of_grows {here : Location} {path : Bytes} {found : Place} (h : t.Grows t')
    (hfound : t.locate here path = .ok found)
    (hlink : ∀ target, found.entry = none → t'.entry? found.location ≠ some (.link target)) :
    t'.locate here path = .ok (t'.place found.trail) := by
  have hwalk := walk_of_grows h (stands_place t _) (walk_of_locate hfound) hlink
  unfold locate at hfound ⊢
  split at hfound
  · cases hfound
  · split at hfound
    · cases hfound
    · split at hfound
      · cases hfound
      · next hempty hnul hlong =>
        rw [if_neg hempty, if_neg hnul, if_neg hlong]
        exact hwalk

theorem entry_of_locate {here : Location} {path : Bytes} {found : Place}
    (h : t.locate here path = .ok found) : found.entry = t.entry? found.location :=
  entry_eq_of_walk (stands_place t _) (walk_of_locate h)

theorem present_iff {here : Location} {path : Bytes} :
    t.present here path ↔ ∃ found, t.locate here path = .ok found ∧ found.entry ≠ none := by
  unfold present resolve
  cases t.locate here path with
  | error e => simp [Except.isOk, Except.toBool]
  | ok found => cases hentry : found.entry <;> simp [Except.isOk, Except.toBool, hentry]

theorem isDirectory_iff {here : Location} {path : Bytes} :
    t.isDirectory here path ↔ ∃ found entries, t.locate here path = .ok found ∧
      found.entry = some (.directory entries) := by
  unfold isDirectory resolve
  cases t.locate here path with
  | error e => simp
  | ok found =>
      cases hentry : found.entry with
      | none => simp [hentry]
      | some entry => cases entry <;> simp [hentry]

theorem present_of_grows {here : Location} {path : Bytes} (h : t.Grows t')
    (hpresent : t.present here path) : t'.present here path := by
  obtain ⟨found, hfound, hsome⟩ := present_iff.mp hpresent
  have hlocate := locate_of_grows h hfound fun _ hnone => absurd hnone hsome
  refine present_iff.mpr ⟨_, hlocate, ?_⟩
  obtain ⟨entry, hentry⟩ := Option.ne_none_iff_exists'.mp hsome
  have hkind := h found.location entry.kind (by simp [kind?, ← entry_of_locate hfound, hentry])
  obtain ⟨entry', hentry', -⟩ := Option.map_eq_some_iff.mp hkind
  intro hnone
  exact Option.some_ne_none _ (hentry'.symm.trans hnone)

theorem isDirectory_of_grows {here : Location} {path : Bytes} (h : t.Grows t')
    (hdir : t.isDirectory here path) : t'.isDirectory here path := by
  obtain ⟨found, entries, hfound, hentry⟩ := isDirectory_iff.mp hdir
  have hlocate := locate_of_grows h hfound (by simp [hentry])
  obtain ⟨entries', hdir'⟩ := h.directory ((entry_of_locate hfound).symm.trans hentry)
  exact isDirectory_iff.mpr ⟨_, entries', hlocate, hdir'⟩

theorem locate_of_isAbsolute {path : Bytes} (h : Path.isAbsolute path) (here other : Location) :
    t.locate here path = t.locate other path := by
  rw [locate, locate, startOf, startOf, if_pos h, if_pos h]

theorem present_of_isAbsolute {path : Bytes} (h : Path.isAbsolute path) (here other : Location) :
    t.present here path = t.present other path := by
  rw [present, present, resolve, resolve, locate_of_isAbsolute h here other]

theorem isDirectory_of_isAbsolute {path : Bytes} (h : Path.isAbsolute path)
    (here other : Location) : t.isDirectory here path = t.isDirectory other path := by
  rw [isDirectory, isDirectory, resolve, resolve, locate_of_isAbsolute h here other]

theorem write_eq_ok {here : Location} {path content : Bytes}
    (h : t.write here path content = .ok t') :
    ∃ found mode, t.locate here path = .ok found ∧
      t' = t.put found.location (.file mode content) ∧
      (Entry.file mode content).Replaces found.entry := by
  unfold write at h
  split at h
  · cases h
  · next found hfound =>
    split at h <;> cases h
    · next hnone => exact ⟨found, defaultMode, hfound, rfl, by rw [hnone]; trivial⟩
    · next mode old hold => exact ⟨found, mode, hfound, rfl, by rw [hold]; exact ⟨⟨_, _, rfl⟩, rfl⟩⟩

theorem grows_write {here : Location} {path content : Bytes}
    (h : t.write here path content = .ok t') : t.Grows t' := by
  obtain ⟨found, mode, hfound, rfl, hreplaces⟩ := write_eq_ok h
  exact grows_put (entry_of_locate hfound ▸ hreplaces)

theorem present_of_write {here : Location} {path content : Bytes}
    (habsolute : Path.isAbsolute path) (h : t.write here path content = .ok t') :
    t'.present here path := by
  have hgrows := grows_write h
  obtain ⟨found, mode, hfound, rfl, hreplaces⟩ := write_eq_ok h
  cases hentry : found.entry with
  | some entry => exact present_of_grows hgrows (present_iff.mpr ⟨found, hfound, by simp [hentry]⟩)
  | none =>
      have hstart : t.startOf here path = t.place [] := by rw [startOf, if_pos habsolute]
      have hwalk := walk_of_locate hfound
      rw [hstart] at hwalk
      obtain ⟨name, trail, entries, htrail, hparent⟩ :=
        parent_of_walk (stands_place t []) (Option.some_ne_none _) hwalk hentry
      have hlocation : found.location = trail.reverse ++ [name] := by
        rw [Place.location, htrail, List.reverse_cons]
      have hput : Tree.entry? (t.put found.location (.file mode content)) found.location =
          some (.file mode content) := by
        rw [hlocation]
        exact Entry.descend_put hparent name
      have hlocate := locate_of_grows hgrows hfound (by simp [hput])
      refine present_iff.mpr ⟨_, hlocate, ?_⟩
      intro hnone
      exact Option.some_ne_none _ (hput.symm.trans hnone)

end Tree

end ChatSpace.Files
