import GoReach.Parse.Reduce

/-!
# Which version is better

Versions are compared by cost.  A version that has lost its way gives way to one that has not; of
two others the dearer one is given up as soon as the difference, times the growth of the cheaper
one since its last error, is large enough.
-/

namespace GoReach.Parse

structure Standing where
  cost : Nat
  growth : Nat
  weight : Int
  /-- The version has lost its way. -/
  lost : Bool
deriving Inhabited

inductive Preference where
  /-- The first is better, and the second is to be given up. -/
  | onlyFirst
  | first
  | neither
  | second
  | onlySecond
deriving BEq, DecidableEq, Repr, Inhabited

/-- The difference in cost, times growth, at which a version is given up. -/
def patience : Nat := 1600

namespace Standing

/-- A version at cost `a.cost`, which is less than `cost`, leaves no hope for the other one. -/
def outruns (a : Standing) (cost : Nat) : Bool := (cost - a.cost) * (1 + a.growth) > patience

def compare (a b : Standing) : Preference :=
  if !a.lost && b.lost then (if a.cost < b.cost then .onlyFirst else .first)
  else if a.lost && !b.lost then (if b.cost < a.cost then .onlySecond else .second)
  else if a.cost < b.cost then (if a.outruns b.cost then .onlyFirst else .first)
  else if b.cost < a.cost then (if b.outruns a.cost then .onlySecond else .second)
  else if a.weight > b.weight then .first
  else if b.weight > a.weight then .second
  else .neither

end Standing

namespace Machine

def standing (m : Machine) (v : Nat) : Standing :=
  let paused := (m.head v).status.isPaused
  let top := m.top v
  { cost := m.cost v + if paused then costOfTree else 0
    growth := m.growth v
    weight := top.weight
    lost := paused || top.state == 0 }

/-- Whether one of the given versions is better than version `v` would be with the given
standing. -/
def anyBetter (v : Nat) (s : Standing) : List Nat → Machine → Bool × Machine
  | [], m => (false, m)
  | w :: rest, m =>
    if w == v || !(m.head w).status.isActive || (m.top w).place < (m.top v).place then
      anyBetter v s rest m
    else
      let m := m.measureAnew w
      match s.compare (m.standing w) with
      | .onlySecond => (true, m)
      | .second => if m.canMerge w v then (true, m) else anyBetter v s rest m
      | _ => anyBetter v s rest m

/-- Whether version `v` has no prospect at the given cost, since something better exists. -/
def hopeless (m : Machine) (v cost : Nat) : Bool × Machine :=
  if m.finished.any (·.cost ≤ cost) then (true, m)
  else
    let m := m.measureAnew v
    anyBetter v ⟨cost, m.growth v, (m.top v).weight, false⟩ (List.range m.versions) m

end Machine

end GoReach.Parse
