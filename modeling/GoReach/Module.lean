import GoReach.Declaration
import GoReach.Error

/-!
# Modules

Every directory is a module: the files in it share their names.  A module is named after its
directory, below the name of the module at the project's root.
-/

namespace GoReach

/-- The path of a file below the root. -/
def relativePath (file root : Path) : Except Error Path :=
  match file.below? root with
  | some p => .ok p
  | none => .error (.outsideRoot file root)

namespace Declaration

/-- The name of a declaration with its file as seen from the root. -/
def displayName (d : Declaration) (root : Path) : Except Error String :=
  (relativePath d.file root).map fun p => d.nameIn p.text

end Declaration

namespace Module

/-- A module name without slashes at its end. -/
def trimSlashes (s : String) : String :=
  String.ofList (s.toList.reverse.dropWhile (· == '/')).reverse

/-- The name of the module in a directory below the root. -/
def nameBelow (rootModule : String) (directory : List Path.Component) : String :=
  (directory.filterMap Path.Component.name?).foldl (fun m s => m ++ "/" ++ s)
    (trimSlashes rootModule)

/-- The name of the module that a file belongs to. -/
def ofFile (root : Path) (rootModule : String) (file : Path) : Except Error String :=
  (relativePath file root).map fun p => nameBelow rootModule p.directory

end Module

end GoReach
