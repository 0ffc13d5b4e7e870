/-!
# Imports
-/

namespace GoReach

/-- A module that a file uses, and the name by which it does so. -/
structure Import where
  name : String
  path : String
deriving BEq, DecidableEq, Repr, Inhabited

namespace Import

/-- What stands after the last slash. -/
def lastSegment (path : String) : String :=
  String.ofList (path.toList.reverse.takeWhile (· != '/')).reverse

/-- Unless it is given a name, a module goes by the last part of its path. -/
def ofPath (path : String) (name : Option String) : Import :=
  ⟨name.getD (lastSegment path), path⟩

def compare (a b : Import) : Ordering :=
  (compareOfLessAndEq a.name b.name).then (compareOfLessAndEq a.path b.path)

end Import

end GoReach
