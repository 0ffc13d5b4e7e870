import Std.Data.HashMap
import GoReach.Grammar.Pattern

/-!
# Character classes

The patterns of a grammar tell apart only a few dozen kinds of characters.  An `Alphabet` cuts the
code points into segments on which no set of the grammar changes its mind, and gives every segment
the number of its class: two segments have one class exactly when the same sets hold them.  After
that a set of characters is a set of classes, kept as the bits of a number.
-/

namespace GoReach.Grammar

open GoReach.Text

structure Alphabet where
  /-- The first code point of every segment, ascending. -/
  starts : Array Nat
  /-- The class of every segment. -/
  classes : Array Nat
  /-- One code point of every class. -/
  samples : Array Nat
deriving Inhabited

namespace Alphabet

/-- Number of classes. -/
def size (a : Alphabet) : Nat := a.samples.size

/-- Drop neighbours that are equal. -/
def distinct : List Nat → List Nat
  | a :: b :: rest => if a = b then distinct (b :: rest) else a :: distinct (b :: rest)
  | l => l

/-- Where some set begins or ends. -/
def cuts (sets : List CharSet) : List Nat :=
  let ends := sets.flatMap fun s => s.ranges.toList.flatMap fun (lo, hi) => [lo, hi + 1]
  distinct ((0 :: ends.filter (· ≤ CharSet.maxCode)).mergeSort)

/-- Which of the sets hold the code point, as the bits of a number. -/
def signature (sets : List CharSet) (code : Nat) : Nat :=
  sets.foldr (fun s bits => 2 * bits + if s.containsCode code then 1 else 0) 0

/-- The alphabet that the given sets need. -/
def ofSets (sets : List CharSet) : Alphabet :=
  let starts := cuts sets
  let (classes, samples, _) := starts.foldl
    (fun (classes, samples, seen) code =>
      let key := signature sets code
      match seen[key]? with
      | some c => (classes.push c, samples, seen)
      | none => (classes.push samples.size, samples.push code, seen.insert key samples.size))
    ((#[], #[], ∅) : Array Nat × Array Nat × Std.HashMap Nat Nat)
  { starts := starts.toArray, classes, samples }

/-- The last segment in `[lo, hi)` that does not start after `code`, or `lo`. -/
def segment (starts : Array Nat) (code lo hi : Nat) : Nat :=
  if lo + 1 < hi then
    let mid := (lo + hi) / 2
    if starts.getD mid 0 ≤ code then segment starts code mid hi else segment starts code lo mid
  else lo
termination_by hi - lo

def classOf (a : Alphabet) (code : Nat) : Nat :=
  a.classes.getD (segment a.starts code 0 a.starts.size) 0

/-- The classes of a set's characters, as the bits of a number. -/
def encode (a : Alphabet) (s : CharSet) : Nat :=
  a.samples.toList.foldr (fun code bits => 2 * bits + if s.containsCode code then 1 else 0) 0

end Alphabet

end GoReach.Grammar
