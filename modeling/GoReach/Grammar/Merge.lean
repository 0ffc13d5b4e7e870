import GoReach.Grammar.Automaton

/-!
# Joining states

States with the same items differ only in the terminals that come after the items.  Joining such
states makes the automaton small.  It is allowed where the joint state does nothing that either
state would not do: no terminal may have two different entries, no terminal may come in beside one
that it could be mistaken for, and the states after joint states must be joined as well.
-/

namespace GoReach.Grammar

/-- A division of states into groups. -/
structure Grouping where
  groups : Array (List Nat)
  groupOf : Array Nat
deriving Inhabited

namespace Grouping

def ofKeys (keys : Array Nat) : Grouping where
  groups := keys.zipIdx.foldl
    (fun (groups : Array (List Nat)) (key, state) =>
      let groups := if key < groups.size then groups else groups.push []
      groups.modify key (· ++ [state]))
    #[]
  groupOf := keys

def of (g : Grouping) (state : Nat) : Nat := g.groupOf.getD state 0

end Grouping

/-- The members that stay with the first one, those that stay with the next one that stays, and so
on; and all that have to leave, in the order in which that was found. -/
def separate (apart : Nat → Nat → Bool) : Nat → List Nat → List Nat × List Nat
  | 0, l => (l, [])
  | _, [] => ([], [])
  | fuel + 1, first :: rest =>
    let (out, kept) := rest.partition (apart first)
    let (stay, leave) := separate apart fuel kept
    (first :: stay, out ++ leave)

namespace Grouping

/-- Split every group from number `i` on; what leaves a group forms a new one at the end. -/
def splitFrom (apart : Grouping → Nat → Nat → Bool) : Nat → Nat → Grouping → Grouping
  | 0, _, g => g
  | fuel + 1, i, g =>
    match g.groups[i]? with
    | none => g
    | some members =>
      match separate (apart g) members.length members with
      | (_, []) => splitFrom apart fuel (i + 1) g
      | (stay, leave) =>
        let fresh := g.groups.size
        splitFrom apart fuel (i + 1)
          { groups := (g.groups.setIfInBounds i stay).push leave
            groupOf := leave.foldl (fun a s => a.setIfInBounds s fresh) g.groupOf }

/-- Split as long as that changes anything. -/
def refine (apart : Grouping → Nat → Nat → Bool) : Nat → Grouping → Grouping
  | 0, g => g
  | fuel + 1, g =>
    let h := g.splitFrom apart (2 * g.groupOf.size + 2) 0
    if h.groups.size == g.groups.size then h else refine apart fuel h

end Grouping

/-! ## Which states cannot be joined -/

/-- The terminals with an action in a row, as bits. -/
def Row.terminals (r : Row) : Nat :=
  r.actions.foldr (fun actions bits => 2 * bits + if actions.isEmpty then 0 else 1) 0

/-- Whether two entries agree up to the grouping of states. -/
def sameEntry (g : Grouping) : List Action → List Action → Bool
  | [], [] => true
  | .shift s r :: as, .shift t q :: bs => g.of s == g.of t && r == q && sameEntry g as bs
  | a :: as, b :: bs => a == b && sameEntry g as bs
  | _, _ => false

/-- A state while states are being joined. -/
structure Candidate where
  row : Row
  /-- The terminals with an action. -/
  terminals : Nat
  /-- The terminals that could be mistaken for one of those. -/
  mistakable : Nat
  /-- The states after each terminal and each nonterminal; zero for none. -/
  targets : Array Nat
deriving Inhabited

/-- Whether two states clash in an entry, or in a terminal that only one of them has. -/
def entriesClash (states : Array Candidate) (g : Grouping) (a b : Nat) : Bool :=
  let s := states.getD a default
  let t := states.getD b default
  let onlyS := s.terminals &&& (s.terminals ^^^ t.terminals)
  let onlyT := t.terminals &&& (s.terminals ^^^ t.terminals)
  onlyS &&& t.mistakable != 0 || onlyT &&& s.mistakable != 0 ||
    s.row.actions.size.any fun i _ =>
      let x := s.row.actions.getD i []
      let y := t.row.actions.getD i []
      !x.isEmpty && !y.isEmpty && !sameEntry g x y

/-- Whether two states lead to states of different groups. -/
def successorsDiffer (states : Array Candidate) (g : Grouping) (a b : Nat) : Bool :=
  let s := (states.getD a default).targets
  let t := (states.getD b default).targets
  s.size.any fun k _ =>
    let i := s.getD k 0
    let j := t.getD k 0
    i != 0 && j != 0 && g.of i != g.of j

/-- The state after an entry that takes the token; zero if it does not. -/
def shiftTarget (actions : List Action) : Nat :=
  match actions.getLast? with
  | some (.shift s _) => s
  | _ => 0

/-! ## Joint rows -/

/-- Send every state that a row mentions through a function. -/
def Row.mapStates (f : Nat → Nat) (r : Row) : Row where
  actions := r.actions.map fun actions => actions.map fun
    | .shift s q => .shift (f s) q
    | a => a
  gotos := r.gotos.map fun s => if s == 0 then 0 else f s

/-- All states that a row mentions. -/
def Row.mentions (r : Row) : List Nat :=
  (r.actions.toList.flatMap fun actions => actions.filterMap fun
    | .shift s _ => some s
    | _ => none) ++ r.gotos.toList.filter (· != 0)

/-- The row of two states together. -/
def Row.join (r q : Row) : Row where
  actions := (r.actions.zip q.actions).map fun (a, b) => if b.isEmpty then a else b
  gotos := (r.gotos.zip q.gotos).map fun (a, b) => if b == 0 then a else b

/-- One row for each group of states, given which terminals could be mistaken for which. -/
def joinStates (rows : Array Row) (cores : Array Nat) (mistakable : Array Nat) : Array Row :=
  let states := rows.map fun row =>
    let terminals := row.terminals
    { row, terminals
      mistakable := mistakable.zipIdx.foldl
        (fun bits (m, i) => if terminals.testBit i then bits ||| m else bits) 0
      targets := row.actions.map shiftTarget ++ row.gotos : Candidate }
  let start := (Grouping.ofKeys cores).splitFrom (entriesClash states) (2 * rows.size + 2) 0
  let g := start.refine (successorsDiffer states) (rows.size + 1)
  g.groups.map fun members =>
    let joint := match members with
      | [] => default
      | first :: rest =>
        rest.foldl (fun (r : Row) s => r.join (rows.getD s default)) (rows.getD first default)
    joint.mapStates g.of

end GoReach.Grammar
