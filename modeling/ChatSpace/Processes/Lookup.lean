import ChatSpace.Files.Tree
import ChatSpace.Processes.Spec

namespace ChatSpace.Processes.Lookup

open Files

def separator : UInt8 := 0x3A

/-- The paths at which a name is looked for. An empty directory stands for the working directory. -/
def candidates (searchPath name : Bytes) : List Bytes :=
  (Fields.split separator searchPath).map fun directory => Path.join directory name

def search (t : Tree) (here : Location) (searchPath : Option Bytes) (name : Bytes) :
    Option Bytes :=
  match searchPath with
  | none => none
  | some searchPath => (candidates searchPath name).find? fun path => t.isRunnable here path

def hasSeparator (name : Bytes) : Bool :=
  (Utf8.lossy name).toList.contains '/'

def find? (t : Tree) (here : Location) (searchPath : Option Bytes) : Program → Option Bytes
  | .engine => search t here searchPath (Utf8.encode engineName)
  | .named name =>
      if hasSeparator name then some name else search t here searchPath name

theorem search_eq_some_iff {t : Tree} {here : Location} {searchPath name path : Bytes} :
    search t here (some searchPath) name = some path ↔
      ∃ before after, candidates searchPath name = before ++ path :: after ∧
        t.isRunnable here path ∧ ∀ other ∈ before, t.isRunnable here other = false := by
  simp only [search, List.find?_eq_some_iff_append]
  constructor
  · rintro ⟨hrun, before, after, hsplit, hbefore⟩
    exact ⟨before, after, hsplit, hrun, fun other h => by simpa using hbefore other h⟩
  · rintro ⟨before, after, hsplit, hrun, hbefore⟩
    exact ⟨hrun, before, after, hsplit, fun other h => by simp [hbefore other h]⟩

theorem search_of_head {t : Tree} {here place : Location} {searchPath name path content : Bytes}
    {after : List Bytes} {mode : Nat} (hfirst : candidates searchPath name = path :: after)
    (hfile : t.resolve here path = .ok (place, .file mode content))
    (hrun : (Entry.file mode content).isRunnable) :
    search t here (some searchPath) name = some path := by
  refine search_eq_some_iff.mpr ⟨[], after, hfirst, ?_, fun other hother => nomatch hother⟩
  rwa [Tree.isRunnable, hfile]

end ChatSpace.Processes.Lookup
