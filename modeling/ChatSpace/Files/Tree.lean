import ChatSpace.Files.Path
import ChatSpace.SystemError

namespace ChatSpace.Files

inductive Entry where
  | file (mode : Nat) (content : Bytes)
  | directory (entries : List (Name × Entry))
  | link (target : Bytes)

namespace Entry

def isRunnable : Entry → Bool
  | file mode _ => mode &&& 0o111 ≠ 0
  | _ => false

def descend : Entry → Location → Option Entry
  | entry, [] => some entry
  | directory entries, name :: rest => (entries.lookup name).bind (·.descend rest)
  | _, _ :: _ => none

def put (new : Entry) : Entry → Location → Entry
  | _, [] => new
  | directory entries, name :: rest =>
      directory
        ((name, put new ((entries.lookup name).getD (directory [])) rest)
          :: entries.filter (·.1 ≠ name))
  | entry, _ :: _ => entry

theorem descend_append (entry : Entry) (first rest : Location) :
    entry.descend (first ++ rest) = (entry.descend first).bind (·.descend rest) := by
  induction first generalizing entry with
  | nil => rfl
  | cons name first ih =>
      cases entry with
      | directory entries =>
          simp only [List.cons_append, descend]
          cases entries.lookup name with
          | none => rfl
          | some child => exact ih child
      | file => rfl
      | link => rfl

end Entry

structure Tree where
  root : Entry

namespace Tree

def empty : Tree := ⟨.directory []⟩

def entry? (t : Tree) (location : Location) : Option Entry :=
  t.root.descend location

def put (t : Tree) (location : Location) (entry : Entry) : Tree :=
  ⟨entry.put t.root location⟩

def ofList (entries : List (Location × Entry)) : Tree :=
  entries.foldl (fun t (location, entry) => t.put location entry) empty

structure Place where
  trail : List Name
  entry : Option Entry

def Place.location (p : Place) : Location :=
  p.trail.reverse

def place (t : Tree) (trail : List Name) : Place :=
  ⟨trail, t.entry? trail.reverse⟩

def maxName : Nat := 255

def walk (t : Tree) (links : Nat) (here : Place) (names : List Name) : Except SystemError Place :=
  match names with
  | [] => .ok here
  | name :: rest =>
      match here.entry with
      | some (.directory entries) =>
          if maxName < name.length then .error .nameTooLong
          else if name = Path.dot then t.walk links here rest
          else if name = Path.dotDot then t.walk links (t.place here.trail.tail) rest
          else
            match entries.lookup name with
            | none =>
                if rest.isEmpty then .ok ⟨name :: here.trail, none⟩ else .error .notFound
            | some (.link target) =>
                match links with
                | 0 => .error .tooManyLinks
                | links + 1 =>
                    if target.isEmpty then .error .notFound
                    else
                      t.walk links (if Path.isAbsolute target then t.place [] else here)
                        (Path.steps target ++ rest)
            | some entry => t.walk links ⟨name :: here.trail, some entry⟩ rest
      | _ => .error .notDirectory
termination_by (links, names.length)

def Place.Stands (t : Tree) (p : Place) : Prop :=
  p.entry = t.entry? p.location

theorem stands_place (t : Tree) (trail : List Name) : (t.place trail).Stands t := rfl

theorem stands_of_lookup {t : Tree} {here : Place} {entries : List (Name × Entry)}
    (hhere : here.Stands t) (hdir : here.entry = some (.directory entries)) (name : Name) :
    Place.Stands t ⟨name :: here.trail, entries.lookup name⟩ := by
  have hroot : t.root.descend here.trail.reverse = some (.directory entries) :=
    hhere.symm.trans hdir
  unfold Place.Stands Place.location entry?
  rw [List.reverse_cons, Entry.descend_append, hroot]
  cases hl : entries.lookup name <;> simp [Entry.descend, hl]

theorem entry_eq_of_walk {t : Tree} {links : Nat} {here found : Place} {names : List Name}
    (hhere : here.Stands t) (h : t.walk links here names = .ok found) :
    found.entry = t.entry? found.location := by
  fun_induction t.walk links here names with
  | case1 => exact Except.ok.inj h ▸ hhere
  | case2 => cases h
  | case3 _ _ _ _ _ _ ih => exact ih hhere h
  | case4 _ _ _ _ _ _ _ ih => exact ih (stands_place t _) h
  | case5 _ here name _ entries hdir _ _ _ hl =>
      have hnext := stands_of_lookup hhere hdir name
      rw [hl] at hnext
      exact Except.ok.inj h ▸ hnext
  | case6 => cases h
  | case7 => cases h
  | case8 => cases h
  | case9 _ _ _ _ _ _ _ _ _ _ _ _ ih =>
      refine ih ?_ h
      split
      · exact stands_place t []
      · exact hhere
  | case10 _ here name _ entries hdir _ _ _ entry _ hl ih =>
      have hnext := stands_of_lookup hhere hdir name
      rw [hl] at hnext
      exact ih hnext h
  | case11 => cases h

def maxLinks : Nat := 40

def maxPath : Nat := 4096

def startOf (t : Tree) (here : Location) (path : Bytes) : Place :=
  t.place (if Path.isAbsolute path then [] else here.reverse)

def locate (t : Tree) (here : Location) (path : Bytes) : Except SystemError Place :=
  if path.isEmpty then .error .notFound
  else if path.contains 0 then .error .nulInPath
  else if maxPath ≤ path.length then .error .nameTooLong
  else t.walk maxLinks (t.startOf here path) (Path.steps path)

def resolve (t : Tree) (here : Location) (path : Bytes) : Except SystemError (Location × Entry) :=
  match t.locate here path with
  | .error e => .error e
  | .ok place =>
      match place.entry with
      | none => .error .notFound
      | some entry => .ok (place.location, entry)

def present (t : Tree) (here : Location) (path : Bytes) : Bool :=
  (t.resolve here path).isOk

def isDirectory (t : Tree) (here : Location) (path : Bytes) : Bool :=
  match t.resolve here path with
  | .ok (_, .directory _) => true
  | _ => false

def isRunnable (t : Tree) (here : Location) (path : Bytes) : Bool :=
  match t.resolve here path with
  | .ok (_, entry) => entry.isRunnable
  | _ => false

def read (t : Tree) (here : Location) (path : Bytes) : Except SystemError Bytes :=
  match t.resolve here path with
  | .error e => .error e
  | .ok (_, .file _ content) => .ok content
  | .ok (_, .directory _) => .error .isDirectory
  | .ok (_, .link _) => .error .tooManyLinks

def defaultMode : Nat := 0o644

def write (t : Tree) (here : Location) (path content : Bytes) : Except SystemError Tree :=
  match t.locate here path with
  | .error e => .error e
  | .ok place =>
      match place.entry with
      | none => .ok (t.put place.location (.file defaultMode content))
      | some (.file mode _) => .ok (t.put place.location (.file mode content))
      | some (.directory _) => .error .isDirectory
      | some (.link _) => .error .tooManyLinks

def makeDirectory (t : Tree) (here : Location) (path : Bytes) : Except SystemError Tree :=
  if path.contains 0 then .error .nulInPath
  else if maxPath ≤ path.length then .error .nameTooLong
  else
    match (Path.names path).getLast? with
    | none => if path.isEmpty then .error .notFound else .error .exists
    | some last =>
        match t.walk maxLinks (t.startOf here path) (Path.names path).dropLast with
        | .error e => .error e
        | .ok parent =>
            match parent.entry with
            | none => .error .notFound
            | some (.directory entries) =>
                if last = Path.dot ∨ last = Path.dotDot then .error .exists
                else if maxName < last.length then .error .nameTooLong
                else if (entries.lookup last).isSome then .error .exists
                else .ok (t.put (parent.location ++ [last]) (.directory []))
            | some _ => .error .notDirectory

def ensureDirectory (t : Tree) (here : Location) (path : Bytes) : Except SystemError Tree :=
  match t.makeDirectory here path with
  | .ok t => .ok t
  | .error e => if t.isDirectory here path then .ok t else .error e

def after : Except (SystemError × Tree) Tree → Tree
  | .ok t => t
  | .error (_, t) => t

/-- Makes a directory and those above it. A missing parent is made first, and stays if the directory
cannot be made. -/
def makeDirectoriesAt (t : Tree) (here : Location) (path : Bytes) (absolute : Bool)
    (names : List Name) : Except (SystemError × Tree) Tree :=
  if path.isEmpty then .ok t
  else
    match t.makeDirectory here path with
    | .ok t => .ok t
    | .error .notFound =>
        if h : names = [] then .error (.other "failed to create whole tree", t)
        else
          have := List.length_pos_iff.mpr h
          match t.makeDirectoriesAt here (Path.ofNames absolute names.dropLast) absolute
            names.dropLast with
          | .error e => .error e
          | .ok t => (t.ensureDirectory here path).mapError (·, t)
    | .error e => if t.isDirectory here path then .ok t else .error (e, t)
termination_by names.length
decreasing_by
  simp only [List.length_dropLast]
  omega

def makeDirectories (t : Tree) (here : Location) (path : Bytes) :
    Except (SystemError × Tree) Tree :=
  t.makeDirectoriesAt here path (Path.isAbsolute path) (Path.normalNames path)

end Tree

end ChatSpace.Files
