import ChatSpace.Proofs.Files.Making

namespace ChatSpace.Files

namespace Entry

variable {entry leaf : Entry} {location other : Location} {entries : List (Name × Entry)}
  {name : Name}

theorem descend_put_directory_iff (hparent : entry.descend location = some (.directory entries))
    (hfree : entries.lookup name = none) (hleaf : leaf.kind ≠ .directory) :
    (put (.directory []) entry (location ++ [name])).descend other = some leaf ↔
      entry.descend other = some leaf := by
  have hroot {children : List (Name × Entry)} : some (Entry.directory children) ≠ some leaf := by
    rintro ⟨⟩
    exact hleaf rfl
  induction location generalizing entry other with
  | nil =>
      obtain rfl := Option.some.inj hparent
      rw [List.nil_append, put]
      cases other with
      | nil => simp only [descend, hroot]
      | cons first rest =>
          simp only [descend, List.lookup_cons]
          by_cases hfirst : first = name
          · subst hfirst
            simp only [hfree, put, beq_self_eq_true, Option.bind_some, Option.bind_none,
              reduceCtorEq, iff_false]
            cases rest with
            | nil => exact hroot
            | cons => simp [descend]
          · simp only [beq_eq_false_iff_ne.mpr hfirst, lookup_filter_ne hfirst]
  | cons step location ih =>
      obtain ⟨siblings, child, rfl, hchild, hbelow⟩ := descend_cons_eq_some hparent
      rw [List.cons_append, put, hchild]
      cases other with
      | nil => simp only [descend, hroot]
      | cons first rest =>
          simp only [descend, List.lookup_cons]
          by_cases hfirst : first = step
          · subst hfirst
            simpa only [hchild, beq_self_eq_true, Option.bind_some, Option.getD_some]
              using ih hbelow
          · simp only [beq_eq_false_iff_ne.mpr hfirst, lookup_filter_ne hfirst]

end Entry

namespace Tree

variable {t t' t'' : Tree} {here : Location} {path : Bytes}

structure AddsDirectories (t t' : Tree) : Prop where
  grows : t.Grows t'
  leaves : ∀ location entry, entry.kind ≠ .directory →
    (t'.entry? location = some entry ↔ t.entry? location = some entry)

theorem AddsDirectories.refl (t : Tree) : t.AddsDirectories t :=
  ⟨.refl t, fun _ _ _ => .rfl⟩

theorem AddsDirectories.trans (h : t.AddsDirectories t') (h' : t'.AddsDirectories t'') :
    t.AddsDirectories t'' where
  grows := h.grows.trans h'.grows
  leaves location entry hleaf :=
    (h'.leaves location entry hleaf).trans (h.leaves location entry hleaf)

theorem adds_makeDirectory (h : t.makeDirectory here path = .ok t') : t.AddsDirectories t' := by
  refine ⟨grows_makeDirectory h, fun location entry hleaf => ?_⟩
  obtain ⟨name, parent, entries, -, hwalk, hdir, hlookup, rfl⟩ := makeDirectory_eq_ok h
  have hparent := (entry_eq_of_walk (stands_place t _) hwalk).symm.trans hdir
  exact Entry.descend_put_directory_iff hparent hlookup hleaf

theorem adds_makeDirectories (t : Tree) (here : Location) (path : Bytes) :
    t.AddsDirectories (after (t.makeDirectories here path)) :=
  relates_makeDirectories AddsDirectories.refl AddsDirectories.trans adds_makeDirectory t path

def opened (t : Tree) (here : Location) (path : Bytes) : Tree :=
  if t.present here path then t else after (t.makeDirectories here path)

theorem adds_opened (t : Tree) (here : Location) (path : Bytes) :
    t.AddsDirectories (t.opened here path) := by
  unfold opened
  split
  · exact .refl t
  · exact t.adds_makeDirectories here path

end Tree

end ChatSpace.Files
