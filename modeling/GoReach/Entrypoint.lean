import GoReach.Declaration
import GoReach.Text.Letter

/-!
# Entrypoints

Entrypoints are declarations that are used without being referred to: the code of a file outside of
all declarations, `init`, `main` in the package `main`, and test functions.
-/

namespace GoReach

/-- `Test`, followed by an upper-case letter. -/
def isTestFunction (name : String) : Bool :=
  let start := "Test".toList
  start.isPrefixOf name.toList && (name.toList[start.length]?).any Text.isUppercase

/-- Whether a declaration in a file of the given package is an entrypoint. -/
def Declaration.isEntrypoint (d : Declaration) (package : String) : Bool :=
  match d.kind with
  | .fileRoot => true
  | .function =>
    d.name == "init" || (package == "main" && d.name == "main") || isTestFunction d.name
  | _ => false

end GoReach
