/-!
# Places in a text
-/

namespace GoReach

/-- A place in a text: the line, and the byte within the line, both counted from one. -/
structure Position where
  line : Nat
  column : Nat
deriving BEq, DecidableEq, Repr, Inhabited

end GoReach
