/-!
# Paths

A path is kept as the text that was given.  What it *means* is its list of components: repeated and
trailing slashes do not count, and neither does a `.`, unless it begins a relative path.  Paths are
compared by their components.  `..` is a component like any other; it is never resolved here.
-/

namespace GoReach

structure Path where
  text : String
deriving BEq, DecidableEq, Repr, Inhabited, Hashable

namespace Path

/-- A part of a path. -/
inductive Component where
  /-- The slash at the beginning. -/
  | root
  /-- The dot at the beginning of a relative path. -/
  | current
  | parent
  | name (s : String)
deriving BEq, ReflBEq, LawfulBEq, DecidableEq, Repr, Inhabited, Hashable

namespace Component

/-- The root comes first, then the current directory, the parent directory, and names. -/
def rank : Component → Nat
  | .root => 0
  | .current => 1
  | .parent => 2
  | .name _ => 3

/-- Names come in the order of their bytes, which is the order of their characters. -/
def compare : Component → Component → Ordering
  | .name a, .name b => compareOfLessAndEq a b
  | a, b => Ord.compare a.rank b.rank

/-- The name, if it is one. -/
def name? : Component → Option String
  | .name s => some s
  | _ => none

end Component

/-! ## Taking a path apart -/

/-- The parts of a text between slashes.  There is always at least one. -/
def segments : List Char → List (List Char)
  | [] => [[]]
  | c :: rest =>
    if c = '/' then [] :: segments rest
    else
      match segments rest with
      | s :: more => (c :: s) :: more
      | [] => [[c]]

/-- A segment that is no component. -/
def isVoid (s : List Char) : Bool := s == [] || s == ['.']

/-- The component that a segment is. -/
def component? (s : List Char) : Option Component :=
  if isVoid s then none
  else if s == ['.', '.'] then some .parent
  else some (.name (String.ofList s))

/-- Where a path starts, and the segments from there on. -/
structure Parts where
  /-- The root or the current directory, if the path names it. -/
  anchor : Option Component
  body : List (List Char)

def partsOf : List Char → Parts
  | '/' :: rest => ⟨some .root, segments rest⟩
  | ['.'] => ⟨some .current, [[]]⟩
  | '.' :: '/' :: rest => ⟨some .current, [] :: segments rest⟩
  | cs => ⟨none, segments cs⟩

def parts (p : Path) : Parts := partsOf p.text.toList

def components (p : Path) : List Component :=
  p.parts.anchor.toList ++ p.parts.body.filterMap component?

/-! ## Comparing paths -/

def compareComponents : List Component → List Component → Ordering
  | [], [] => .eq
  | [], _ :: _ => .lt
  | _ :: _, [] => .gt
  | a :: as, b :: bs => (a.compare b).then (compareComponents as bs)

/-- Paths come in the order of their components; what another path begins with comes before it. -/
def compare (p q : Path) : Ordering := compareComponents p.components q.components

/-- Two spellings of one path. -/
def same (p q : Path) : Bool := p.components == q.components

/-! ## Parts of a path -/

/-- Leave out segments at the end that are no components. -/
def trimEnd (body : List (List Char)) : List (List Char) :=
  (body.reverse.dropWhile isVoid).reverse

/-- Put segments together again. -/
def joinSegments : List (List Char) → List Char
  | [] => []
  | [s] => s
  | s :: t :: rest => s ++ '/' :: joinSegments (t :: rest)

/-- Leave out the segments up to the `n`-th component. -/
def dropComponents : Nat → List (List Char) → List (List Char)
  | 0, body => body
  | _ + 1, [] => []
  | n + 1, s :: rest =>
    if isVoid s then dropComponents (n + 1) rest else dropComponents n rest

def anchorText : Option Component → List Char
  | some .root => ['/']
  | some .current => ['.']
  | _ => []

/-- The rest of a path below another one.  Its text is as given, but for what is no component at
both ends. -/
def below? (p base : Path) : Option Path :=
  let own := p.parts
  let start := base.components
  if start.isPrefixOf p.components then
    let rest :=
      if start.isEmpty then anchorText own.anchor ++ joinSegments (trimEnd own.body)
      else
        let count := start.length - own.anchor.toList.length
        joinSegments (trimEnd ((dropComponents count own.body).dropWhile isVoid))
    some ⟨String.ofList rest⟩
  else none

/-- The components of the directory that holds a path. -/
def directory (p : Path) : List Component := p.components.dropLast

/-- The last component, if it is a name. -/
def fileName? (p : Path) : Option String := p.components.getLast?.bind Component.name?

def isAbsolute (p : Path) : Bool := p.text.toList.head? == some '/'

/-- A path within a directory.  An absolute path stays as it is. -/
def join (base p : Path) : Path :=
  if p.isAbsolute || base.text.isEmpty then p
  else if base.text.toList.getLast? == some '/' then ⟨base.text ++ p.text⟩
  else ⟨base.text ++ "/" ++ p.text⟩

/-- The path that leads from the root along names. -/
def ofTrail (trail : List String) : Path := ⟨"/" ++ "/".intercalate trail⟩

/-! ## File names -/

/-- What stands after the last dot of a name, if that dot is not its first character. -/
def extension? (name : String) : Option String :=
  let cs := name.toList.reverse
  let after := cs.takeWhile (· != '.')
  let before := (cs.dropWhile (· != '.')).drop 1
  if before.isEmpty then none else some (String.ofList after.reverse)

end Path

end GoReach
