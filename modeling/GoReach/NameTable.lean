import Std.Data.HashMap
import GoReach.Go.SourceFile
import GoReach.Module

/-!
# The names of all modules

A table of the declarations of a project, by module and name.  Where two files of a module declare
the same name, the later file wins, and the collision is recorded.
-/

namespace GoReach

/-- Two files of one module declare the same name. -/
structure Collision where
  module : String
  name : String
  kept : Declaration
  replaced : Declaration
deriving DecidableEq, Repr, Inhabited

/-- What to warn of. -/
def Collision.warning (c : Collision) : String :=
  "declaration name collides within module; keeping the later file module=" ++ c.module ++
    " name=" ++ c.name ++ " kept=" ++ c.kept.file.text ++ " replaced=" ++ c.replaced.file.text

structure NameTable where
  modules : Std.HashMap String (Std.HashMap String Declaration) := ∅
  /-- In the order in which they were met. -/
  collisions : Array Collision := #[]
deriving Inhabited

namespace NameTable

/-- The declaration of a name in a module. -/
def lookup (t : NameTable) (module name : String) : Option Declaration :=
  t.modules[module]?.bind fun names => names[name]?

/-- The names of all modules, sorted. -/
def moduleNames (t : NameTable) : List String :=
  Sorted.sort (fun a b => compareOfLessAndEq a b) t.modules.keys

/-- The names of a module, and the collisions found while they were put together. -/
structure Namespace where
  names : Std.HashMap String Declaration
  collisions : Array Collision

/-- Add a declaration to the names of a module. -/
def Namespace.add (module : String) (n : Namespace) (d : Declaration) : Namespace :=
  { names := n.names.insert d.name d
    collisions := match n.names[d.name]? with
      | none => n.collisions
      | some replaced =>
        if replaced.same d then n.collisions
        else n.collisions.push ⟨module, d.name, d, replaced⟩ }

/-- Add the declarations of a file to the names of its module. -/
def addFile (t : NameTable) (module : String) (f : Go.SourceFile) : NameTable :=
  let n := f.declarations.foldl (Namespace.add module) ⟨t.modules.getD module ∅, t.collisions⟩
  { modules := t.modules.insert module n.names, collisions := n.collisions }

/-- The table of files below a root, in the order of the files. -/
def ofFiles (root : Path) (rootModule : String) (files : List Go.SourceFile) :
    Except Error NameTable :=
  files.foldlM
    (fun t f => (Module.ofFile root rootModule f.path).map fun module => t.addFile module f) {}

end NameTable

end GoReach
