/-!
# Sets of characters

A set of characters is a list of ranges of code points, both ends included, ascending and with a
gap between any two of them.  The classes of a standard (letters that may start a name, upper case
letters, blanks) have hundreds of ranges, so membership is decided by halving the table, not by
walking through it.
-/

namespace GoReach.Text

/-- A set of characters: ascending ranges of code points, both ends included. -/
structure CharSet where
  ranges : Array (Nat × Nat)
deriving BEq, Hashable, Repr, Inhabited

namespace CharSet

/-- The largest code point. -/
def maxCode : Nat := 0x10FFFF

def empty : CharSet := ⟨#[]⟩

def single (c : Char) : CharSet := ⟨#[(c.toNat, c.toNat)]⟩

def range (first last : Char) : CharSet := ⟨#[(first.toNat, last.toNat)]⟩

/-- Join ranges that touch; the list is ascending by the lower end. -/
def coalesce : List (Nat × Nat) → List (Nat × Nat)
  | [] => []
  | r :: rest =>
    match coalesce rest with
    | [] => [r]
    | s :: joined =>
      if s.1 ≤ r.2 + 1 then (r.1, max r.2 s.2) :: joined else r :: s :: joined

/-- The set of all code points in any of the given ranges. -/
def ofRanges (ranges : List (Nat × Nat)) : CharSet :=
  ⟨(coalesce (ranges.mergeSort fun a b => a.1 ≤ b.1)).toArray⟩

def ofChars (cs : List Char) : CharSet :=
  ofRanges (cs.map fun c => (c.toNat, c.toNat))

def union (a b : CharSet) : CharSet :=
  ofRanges (a.ranges.toList ++ b.ranges.toList)

instance : Append CharSet := ⟨union⟩

/-- The gaps between ranges, from the code point `next` on. -/
def gaps (next : Nat) : List (Nat × Nat) → List (Nat × Nat)
  | [] => if next ≤ maxCode then [(next, maxCode)] else []
  | (lo, hi) :: rest =>
    if next < lo then (next, lo - 1) :: gaps (hi + 1) rest else gaps (hi + 1) rest

/-- Every code point that is not in the set. -/
def complement (s : CharSet) : CharSet :=
  ⟨(gaps 0 s.ranges.toList).toArray⟩

/-- Whether a range with index in `[lo, hi)` holds the code point. -/
def search (ranges : Array (Nat × Nat)) (code lo hi : Nat) : Bool :=
  if lo < hi then
    let mid := (lo + hi) / 2
    match ranges[mid]? with
    | none => false
    | some (first, last) =>
      if code < first then search ranges code lo mid
      else if last < code then search ranges code (mid + 1) hi
      else true
  else false
termination_by hi - lo

def containsCode (s : CharSet) (code : Nat) : Bool :=
  search s.ranges code 0 s.ranges.size

def contains (s : CharSet) (c : Char) : Bool :=
  s.containsCode c.toNat

end CharSet

end GoReach.Text
