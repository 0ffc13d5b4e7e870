import GoReach.Analysis

/-!
# The plain listing

One line for each declaration that no entrypoint reaches.
-/

namespace GoReach

namespace Analysis

/-- The names of all unreachable declarations as seen from the root, sorted. -/
def unreachableNames (a : Analysis) : Except Error (List String) :=
  (a.unreachable.mapM fun (d : Declaration) => d.displayName a.root).map
    (Sorted.sort fun x y => compareOfLessAndEq x y)

/-- The names, each on a line of its own. -/
def listing (a : Analysis) : Except Error String :=
  a.unreachableNames.map fun names => String.join (names.map (· ++ "\n"))

end Analysis

end GoReach
