import ChatSpace.Proofs.Files.Walk

namespace ChatSpace.Files

namespace Tree

structure Journey where
  here : Place
  ahead : List Name

/-- The journeys from one place to another, with the number of links that are followed. What a link
says is gone through from the directory of the link, or from the root. -/
inductive Goes (t : Tree) : Nat → Journey → Journey → Prop
  | still (j : Journey) : Goes t 0 j j
  | stay {n here entries rest j} : here.entry = some (.directory entries) →
      Goes t n ⟨here, rest⟩ j → Goes t n ⟨here, Path.dot :: rest⟩ j
  | up {n here entries rest j} : here.entry = some (.directory entries) →
      Goes t n ⟨t.place here.trail.tail, rest⟩ j → Goes t n ⟨here, Path.dotDot :: rest⟩ j
  | down {n here entries name rest entry j} : here.entry = some (.directory entries) →
      Path.IsPlain name → entries.lookup name = some entry → (∀ target, entry ≠ .link target) →
      Goes t n ⟨⟨name :: here.trail, some entry⟩, rest⟩ j → Goes t n ⟨here, name :: rest⟩ j
  | follow {n here entries name rest target j} : here.entry = some (.directory entries) →
      Path.IsPlain name → entries.lookup name = some (.link target) → target ≠ [] →
      Goes t n
        ⟨if Path.isAbsolute target then t.place [] else here, Path.steps target ++ rest⟩ j →
      Goes t (n + 1) ⟨here, name :: rest⟩ j

variable {t : Tree} {n m links : Nat} {a b c : Journey}

namespace Goes

theorem trans (h : t.Goes n a b) (h' : t.Goes m b c) : t.Goes (n + m) a c := by
  induction h with
  | still => rwa [Nat.zero_add]
  | stay hdir _ ih => exact .stay hdir (ih h')
  | up hdir _ ih => exact .up hdir (ih h')
  | down hdir hname hlookup hlink _ ih => exact .down hdir hname hlookup hlink (ih h')
  | follow hdir hname hlookup hne _ ih =>
      rw [Nat.add_right_comm]
      exact .follow hdir hname hlookup hne (ih h')

theorem append (h : t.Goes n a b) (more : List Name) :
    t.Goes n ⟨a.here, a.ahead ++ more⟩ ⟨b.here, b.ahead ++ more⟩ := by
  induction h with
  | still => exact .still _
  | stay hdir _ ih => exact .stay hdir ih
  | up hdir _ ih => exact .up hdir ih
  | down hdir hname hlookup hlink _ ih => exact .down hdir hname hlookup hlink ih
  | follow hdir hname hlookup hne _ ih =>
      rw [List.append_assoc] at ih
      exact .follow hdir hname hlookup hne ih

theorem iterate {here : Place} {names more : List Name}
    (h : t.Goes n ⟨here, names⟩ ⟨here, names ++ more⟩) (turns : Nat) :
    ∃ ahead, t.Goes (n * turns) ⟨here, names⟩ ⟨here, names ++ ahead⟩ := by
  induction turns with
  | zero =>
      refine ⟨[], ?_⟩
      rw [List.append_nil]
      exact .still _
  | succ turns ih =>
      obtain ⟨ahead, hturns⟩ := ih
      refine ⟨more ++ ahead, ?_⟩
      rw [← List.append_assoc]
      exact hturns.trans (h.append ahead)

end Goes

theorem walk_link_zero {here : Place} {entries : List (Name × Entry)} {name : Name}
    {rest : List Name} {target : Bytes} (hdir : here.entry = some (.directory entries))
    (hname : Path.IsPlain name) (hlookup : entries.lookup name = some (.link target)) :
    t.walk 0 here (name :: rest) = .error .tooManyLinks := by
  rw [walk, hdir]
  simp only [Nat.not_lt.mpr hname.length_le, hname.ne_dot, hname.ne_dotDot, hlookup, if_false]

theorem walk_of_goes (h : t.Goes n a b) (more : Nat) :
    t.walk (n + more) a.here a.ahead = t.walk more b.here b.ahead := by
  induction h with
  | still => rw [Nat.zero_add]
  | stay hdir _ ih => rw [walk_dot hdir, ih]
  | up hdir _ ih => rw [walk_dotDot hdir, ih]
  | down hdir hname hlookup hlink _ ih => rw [walk_entry hdir hname hlookup hlink, ih]
  | follow hdir hname hlookup hne _ ih =>
      rw [Nat.add_right_comm, walk_link hdir hname hlookup,
        if_neg (mt List.isEmpty_iff.mp hne), ih]

theorem walk_of_goes_of_lt (h : t.Goes n a b) (hlt : links < n) :
    t.walk links a.here a.ahead = .error .tooManyLinks := by
  induction h generalizing links with
  | still => exact absurd hlt (Nat.not_lt_zero links)
  | stay hdir _ ih => rw [walk_dot hdir, ih hlt]
  | up hdir _ ih => rw [walk_dotDot hdir, ih hlt]
  | down hdir hname hlookup hlink _ ih => rw [walk_entry hdir hname hlookup hlink, ih hlt]
  | follow hdir hname hlookup hne _ ih =>
      cases links with
      | zero => exact walk_link_zero hdir hname hlookup
      | succ links =>
          rw [walk_link hdir hname hlookup, if_neg (mt List.isEmpty_iff.mp hne),
            ih (Nat.lt_of_succ_lt_succ hlt)]

theorem exists_goes_of_walk {here found : Place} {names : List Name} {entry : Entry}
    (hentry : found.entry = some entry) (h : t.walk links here names = .ok found) :
    ∃ n ≤ links, t.Goes n ⟨here, names⟩ ⟨found, []⟩ := by
  fun_induction t.walk links here names with
  | case1 =>
      cases h
      exact ⟨0, Nat.zero_le _, .still _⟩
  | case2 => cases h
  | case3 _ _ _ _ hdir _ ih =>
      obtain ⟨n, hle, hgoes⟩ := ih h
      exact ⟨n, hle, .stay hdir hgoes⟩
  | case4 _ _ _ _ hdir _ _ ih =>
      obtain ⟨n, hle, hgoes⟩ := ih h
      exact ⟨n, hle, .up hdir hgoes⟩
  | case5 =>
      cases h
      cases hentry
  | case6 => cases h
  | case7 => cases h
  | case8 => cases h
  | case9 here name rest entries hdir hlong hdot hdotDot target hlookup links hne ih =>
      obtain ⟨n, hle, hgoes⟩ := ih h
      exact ⟨n + 1, Nat.succ_le_succ hle,
        .follow hdir ⟨Nat.le_of_not_lt hlong, hdot, hdotDot⟩ hlookup
          (mt List.isEmpty_iff.mpr hne) hgoes⟩
  | case10 links here name rest entries hdir hlong hdot hdotDot entry hlink hlookup ih =>
      obtain ⟨n, hle, hgoes⟩ := ih h
      exact ⟨n, hle, .down hdir ⟨Nat.le_of_not_lt hlong, hdot, hdotDot⟩ hlookup hlink hgoes⟩
  | case11 => cases h

end Tree

structure Path.IsWalkable (path : Bytes) : Prop where
  ne_nil : path ≠ []
  no_nul : 0 ∉ path
  length_lt : path.length < Tree.maxPath

namespace Tree

variable {t : Tree} {here location : Location} {path : Bytes} {entry : Entry}

def journey (t : Tree) (here : Location) (path : Bytes) : Journey :=
  ⟨t.startOf here path, Path.steps path⟩

structure Leads (t : Tree) (here : Location) (path : Bytes) (location : Location) (entry : Entry) :
    Prop where
  isWalkable : Path.IsWalkable path
  goes : ∃ n ≤ maxLinks, t.Goes n (t.journey here path) ⟨⟨location.reverse, some entry⟩, []⟩

theorem locate_of_isWalkable (h : Path.IsWalkable path) :
    t.locate here path =
      t.walk maxLinks (t.journey here path).here (t.journey here path).ahead := by
  have hempty : path.isEmpty = false := by simpa using h.ne_nil
  have hnul : path.contains 0 = false := by simpa using h.no_nul
  rw [locate, hempty, hnul]
  simp only [Nat.not_le.mpr h.length_lt, if_false, Bool.false_eq_true]
  rfl

theorem isWalkable_of_locate {found : Place} (h : t.locate here path = .ok found) :
    Path.IsWalkable path := by
  unfold locate at h
  split at h
  · cases h
  · next hempty =>
    split at h
    · cases h
    · next hnul =>
      split at h
      · cases h
      · next hlong =>
        exact ⟨by simpa using hempty, by simpa using hnul, Nat.lt_of_not_le hlong⟩

theorem locate_eq_ok_iff {found : Place} (hfound : found.entry = some entry) :
    t.locate here path = .ok found ↔
      Path.IsWalkable path ∧ ∃ n ≤ maxLinks, t.Goes n (t.journey here path) ⟨found, []⟩ := by
  constructor
  · intro h
    have hpath := isWalkable_of_locate h
    rw [locate_of_isWalkable hpath] at h
    exact ⟨hpath, exists_goes_of_walk hfound h⟩
  · rintro ⟨hpath, n, hle, hgoes⟩
    rw [locate_of_isWalkable hpath, ← Nat.add_sub_cancel' hle, walk_of_goes hgoes, walk]

theorem resolve_eq_ok_iff :
    t.resolve here path = .ok (location, entry) ↔ t.Leads here path location entry := by
  have hplace : t.resolve here path = .ok (location, entry) ↔
      t.locate here path = .ok ⟨location.reverse, some entry⟩ := by
    unfold resolve
    split
    · next e he => simp [he]
    · next place hlocate =>
      obtain ⟨trail, held⟩ := place
      rw [hlocate]
      cases held with
      | none => simp
      | some held => simp [Place.location, List.reverse_eq_iff]
  rw [hplace, locate_eq_ok_iff rfl]
  constructor
  · rintro ⟨hpath, hgoes⟩
    exact ⟨hpath, hgoes⟩
  · rintro ⟨hpath, hgoes⟩
    exact ⟨hpath, hgoes⟩

end Tree

def SomeExecute (mode : Nat) : Prop :=
  mode.testBit 6 ∨ mode.testBit 3 ∨ mode.testBit 0

theorem someExecute_iff {mode : Nat} : mode &&& 0o111 ≠ 0 ↔ SomeExecute mode := by
  constructor
  · intro h
    obtain ⟨i, hbit⟩ := Nat.exists_testBit_of_ne_zero h
    rw [Nat.testBit_and, Bool.and_eq_true] at hbit
    obtain ⟨hmode, hmask⟩ := hbit
    have hlt : i < 7 := by
      apply Nat.lt_of_not_le
      intro hle
      have hsmall : 0o111 < 2 ^ i :=
        Nat.lt_of_lt_of_le (by decide : 0o111 < 2 ^ 7) (Nat.pow_le_pow_right (by decide) hle)
      rw [Nat.testBit_lt_two_pow hsmall] at hmask
      cases hmask
    have hbits : ∀ i < 7, (0o111 : Nat).testBit i = true → i = 6 ∨ i = 3 ∨ i = 0 := by decide
    rcases hbits i hlt hmask with rfl | rfl | rfl
    · exact .inl hmode
    · exact .inr (.inl hmode)
    · exact .inr (.inr hmode)
  · intro h hzero
    have hclear (i : Nat) (hmask : (0o111 : Nat).testBit i = true) : mode.testBit i = false := by
      have hand := congrArg (Nat.testBit · i) hzero
      simpa [hmask] using hand
    rcases h with h | h | h
    · rw [hclear 6 (by decide)] at h
      cases h
    · rw [hclear 3 (by decide)] at h
      cases h
    · rw [hclear 0 (by decide)] at h
      cases h

namespace Tree

variable {t : Tree} {here : Location} {path : Bytes}

def RunsAt (t : Tree) (here : Location) (path : Bytes) : Prop :=
  ∃ location mode content, t.Leads here path location (.file mode content) ∧ SomeExecute mode

theorem isRunnable_iff : t.isRunnable here path = true ↔ t.RunsAt here path := by
  constructor
  · intro h
    unfold isRunnable at h
    split at h
    · next location entry hresolve =>
      cases entry with
      | file mode content =>
          refine ⟨location, mode, content, resolve_eq_ok_iff.mp hresolve, ?_⟩
          exact someExecute_iff.mp (of_decide_eq_true h)
      | directory => cases h
      | link => cases h
    · cases h
  · rintro ⟨location, mode, content, hleads, hmode⟩
    rw [isRunnable, resolve_eq_ok_iff.mpr hleads]
    exact decide_eq_true (someExecute_iff.mpr hmode)

inductive Unfit (t : Tree) (here : Location) (path : Bytes) : Prop
  | directory {location entries} : t.Leads here path location (.directory entries) →
      Unfit t here path
  | plain {location mode content} : t.Leads here path location (.file mode content) →
      ¬ SomeExecute mode → Unfit t here path
  | dangling {n parent entries name rest} : t.Goes n (t.journey here path) ⟨parent, name :: rest⟩ →
      parent.entry = some (.directory entries) → Path.IsPlain name →
      entries.lookup name = none → Unfit t here path
  | cyclic {n m j more} : t.Goes n (t.journey here path) j →
      t.Goes (m + 1) j ⟨j.here, j.ahead ++ more⟩ → Unfit t here path

theorem Leads.unique {location location' : Location} {entry entry' : Entry}
    (h : t.Leads here path location entry) (h' : t.Leads here path location' entry') :
    entry = entry' := by
  have hsame := (resolve_eq_ok_iff.mpr h).symm.trans (resolve_eq_ok_iff.mpr h')
  exact (Prod.mk.inj (Except.ok.inj hsame)).2

theorem not_leads_of_dangling {n : Nat} {parent : Place} {entries : List (Name × Entry)}
    {name : Name} {rest : List Name}
    (hgoes : t.Goes n (t.journey here path) ⟨parent, name :: rest⟩)
    (hdir : parent.entry = some (.directory entries)) (hname : Path.IsPlain name)
    (hlookup : entries.lookup name = none) (location : Location) (entry : Entry) :
    ¬ t.Leads here path location entry := by
  intro h
  have hlocate : t.locate here path = .ok ⟨location.reverse, some entry⟩ :=
    (locate_eq_ok_iff rfl).mpr ⟨h.isWalkable, h.goes⟩
  rw [locate_of_isWalkable h.isWalkable] at hlocate
  by_cases hle : n ≤ maxLinks
  · rw [← Nat.add_sub_cancel' hle, walk_of_goes hgoes, walk_missing hdir hname hlookup] at hlocate
    split at hlocate
    · exact nomatch congrArg Place.entry (Except.ok.inj hlocate)
    · cases hlocate
  · rw [walk_of_goes_of_lt hgoes (Nat.lt_of_not_le hle)] at hlocate
    cases hlocate

theorem not_leads_of_cyclic {n m : Nat} {j : Journey} {more : List Name}
    (hgoes : t.Goes n (t.journey here path) j)
    (hround : t.Goes (m + 1) j ⟨j.here, j.ahead ++ more⟩) (location : Location) (entry : Entry) :
    ¬ t.Leads here path location entry := by
  intro h
  have hlocate : t.locate here path = .ok ⟨location.reverse, some entry⟩ :=
    (locate_eq_ok_iff rfl).mpr ⟨h.isWalkable, h.goes⟩
  obtain ⟨ahead, hturns⟩ := hround.iterate (maxLinks + 1)
  have hlt : maxLinks < n + (m + 1) * (maxLinks + 1) := by
    rw [Nat.succ_mul]
    omega
  rw [locate_of_isWalkable h.isWalkable, walk_of_goes_of_lt (hgoes.trans hturns) hlt] at hlocate
  cases hlocate

theorem not_runsAt_of_unfit (h : t.Unfit here path) : ¬ t.RunsAt here path := by
  rintro ⟨location, mode, content, hleads, hmode⟩
  cases h with
  | directory hdir => cases hdir.unique hleads
  | plain hplain hmode' =>
      cases hplain.unique hleads
      exact hmode' hmode
  | dangling hgoes hdir hname hlookup =>
      exact not_leads_of_dangling hgoes hdir hname hlookup location _ hleads
  | cyclic hgoes hround => exact not_leads_of_cyclic hgoes hround location _ hleads

end Tree

end ChatSpace.Files
