import GoReach.Disk.Basic
import GoReach.Sorted

/-!
# Searching a directory for Go files

All Go files below a directory, in the order of their paths.  Directories can be left out by name,
wherever they are below the first one.  Tests are left out unless they are asked for.  Links are
not followed.
-/

namespace GoReach

/-- What to search for. -/
structure SearchOptions where
  /-- Names of directories to leave out. -/
  ignored : List String := [".git"]
  includeTests : Bool := false
deriving BEq, DecidableEq, Repr, Inhabited

namespace SearchOptions

/-- Leave out directories of a name as well. -/
def ignoring (o : SearchOptions) (name : String) : SearchOptions :=
  if o.ignored.contains name then o else { o with ignored := o.ignored ++ [name] }

/-- Whether a file of the given name is searched for. -/
def selects (o : SearchOptions) (name : String) : Bool :=
  Path.extension? name == some "go" &&
    (o.includeTests || !"_test.go".toList.isSuffixOf name.toList)

end SearchOptions

namespace Disk

/-- The files searched for among the entries of a directory and below them. -/
def filesBelow (o : SearchOptions) (directory : Path) : List (String × Entry) → List Path
  | [] => []
  | (name, .file _) :: rest =>
    let more := filesBelow o directory rest
    if o.selects name then directory.join ⟨name⟩ :: more else more
  | (name, .directory entries) :: rest =>
    let more := filesBelow o directory rest
    if o.ignored.contains name then more
    else filesBelow o (directory.join ⟨name⟩) entries ++ more
  | (_, .link _) :: rest => filesBelow o directory rest

/-- The files searched for in a directory.  If the path leads to a file instead, that file; if it
leads to a link, what is in the directory behind the link. -/
def search (d : Disk) (o : SearchOptions) (root : Path) : Except Error (List Path) :=
  match d.find root false with
  | .error fault => .error (.search root fault)
  | .ok (_, .file _) => .ok (if root.fileName?.any o.selects then [root] else [])
  | .ok (_, .directory entries) => .ok (Sorted.sort Path.compare (filesBelow o root entries))
  | .ok (_, .link _) =>
    match d.find root true with
    | .error fault => .error (.search root fault)
    | .ok (_, .directory entries) => .ok (Sorted.sort Path.compare (filesBelow o root entries))
    | .ok (_, _) => .ok []

end Disk

end GoReach
