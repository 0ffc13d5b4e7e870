import GoReach.Grammar.Item

/-!
# The automaton of a grammar

A state is a set of items, each with the terminals that may come after it.  From a state and a
terminal the automaton has a list of actions; there are several where the grammar is ambiguous and
rank and leaning do not decide, and all of them are then pursued.

State 0 is the state of a reader that has lost its way, and state 1 the one at the start.
-/

namespace GoReach.Grammar

inductive Action where
  /-- Take the token and go to a state.  In the middle of a repetition the same step is also
  reached by first closing the repetition; it is then marked and not taken. -/
  | shift (state : Nat) (inRepetition : Bool)
  /-- Take a token that may stand anywhere. -/
  | skip
  | reduce (r : Reduction)
  | accept
  /-- Look for a way to go on after an error. -/
  | recover
deriving BEq, Hashable, Repr, Inhabited

/-- The actions of one state, by terminal, and the states after its nonterminals; zero for none. -/
structure Row where
  actions : Array (List Action)
  gotos : Array Nat
deriving Inhabited

/-! ## The actions of one state -/

/-- What is known about a terminal in a state while its actions are collected. -/
structure Entry where
  actions : List Action := []
  /-- The rank of the reductions, which is the same for all of them, and their leanings. -/
  rank : Option Int := none
  leans : List (Option Assoc) := []
deriving Inhabited

/-- Compare ranks; no rank counts as zero. -/
def compareRank (a b : Option Int) : Ordering := compare (a.getD 0) (b.getD 0)

/-- Add a reduction; one of lower rank gives way to one of higher rank. -/
def Entry.addReduction (e : Entry) (action : Action) (rank : Option Int) (assoc : Option Assoc) :
    Entry :=
  if e.actions.isEmpty then ⟨[action], rank, [assoc]⟩
  else
    match compareRank rank e.rank with
    | .gt => ⟨[action], rank, [assoc]⟩
    | .eq => ⟨e.actions ++ [action], rank, assoc :: e.leans⟩
    | .lt => e

/-- Decide between taking a token and the reductions that also are possible: by the ranks of the
items that would take it, then by the leaning of the reductions.  What is not decided stays. -/
def Entry.decide (e : Entry) (shift : Action) (ranks : List (Option Int)) : List Action :=
  let orders := ranks.map (compareRank · e.rank)
  match orders.contains .gt, orders.contains .lt with
  | true, false => [shift]
  | false, true => e.actions
  | true, true => e.actions ++ [shift]
  | false, false =>
    if e.leans.all (· == some .left) then e.actions
    else if e.leans.all (· == some .right) then [shift]
    else e.actions ++ [shift]

namespace ItemTable

variable (t : ItemTable)

/-- The members of a closure with the terminals after them. -/
def present (set : Array Nat) : List (Item × Nat) :=
  (List.range set.size).filterMap fun i =>
    let ahead := set.getD i 0
    if ahead == 0 then none else t.items[i]?.map (·, ahead)

end ItemTable

/-- Add an item to a set of items that is ascending by item. -/
def insertItem (item ahead : Nat) : List (Nat × Nat) → List (Nat × Nat)
  | [] => [(item, ahead)]
  | (i, a) :: rest =>
    if item < i then (item, ahead) :: (i, a) :: rest
    else if item == i then (i, a ||| ahead) :: rest
    else (i, a) :: insertItem item ahead rest

/-- A set of items without those that only follow from others. -/
abbrev Kernel := List (Nat × Nat)

/-- The sets of items after each terminal and after each nonterminal. -/
structure Successors where
  terminals : Array Kernel
  nonterminals : Array Kernel

def Successors.of (terminals nonterminals : Nat) (present : List (Item × Nat)) : Successors :=
  present.foldl
    (fun s (item, ahead) =>
      match item.next with
      | some (.terminal i, after) =>
        { s with terminals := s.terminals.modify i (insertItem after ahead) }
      | some (.nonterminal i, after) =>
        { s with nonterminals := s.nonterminals.modify i (insertItem after ahead) }
      | none => s)
    ⟨Array.replicate terminals [], Array.replicate nonterminals []⟩

/-- The reductions of a state by terminal. -/
def reductionEntries (size : Nat) (present : List (Item × Nat)) : Array Entry :=
  present.foldl
    (fun entries (item, ahead) =>
      match item.next with
      | some _ => entries
      | none =>
        let action := match item.reduction with
          | some r => .reduce r
          | none => .accept
        (List.range size).foldl
          (fun (entries : Array Entry) i =>
            if ahead.testBit i then
              entries.modify i (·.addReduction action item.rank item.assoc)
            else entries)
          entries)
    (Array.replicate size {})

/-- All actions for a terminal: the reductions, and perhaps the step to the state `target`. -/
def combine (n : Normal) (firsts : Array Nat) (present : List (Item × Nat)) (terminal : Nat)
    (e : Entry) (target : Option Nat) : List Action :=
  match target with
  | none => e.actions
  | some state =>
    if e.actions.isEmpty then [.shift state false]
    else
      -- the items that want the token, and those that are complete before it
      let taking := present.filter fun (item, _) =>
        item.started && match item.next with
          | some (s, _) => (bitsOf firsts s).testBit terminal
          | none => false
      let closing := present.filter fun (item, ahead) =>
        item.next.isNone && ahead.testBit terminal
      let heads := withoutCopies ((taking ++ closing).filterMap fun (item, _) =>
        item.reduction.map (·.head))
      match heads with
      | [head] =>
        if n.isRepetition head then e.actions ++ [.shift state true]
        else e.decide (.shift state false) (taking.map (·.1.rank))
      | _ => e.decide (.shift state false) (taking.map (·.1.rank))

/-! ## All states -/

/-- States found so far, and the rows of those that have been worked out. -/
structure Automaton where
  kernels : Array Kernel := #[]
  ids : Std.HashMap Kernel Nat := ∅
  /-- For each state the number of its set of items without the terminals after them. -/
  cores : Array Nat := #[]
  coreIds : Std.HashMap (List Nat) Nat := ∅
  rows : Array Row := #[]
deriving Inhabited

namespace Automaton

/-- The number of a state, which is new if its set of items is. -/
def intern (a : Automaton) (kernel : Kernel) : Automaton × Nat :=
  match a.ids[kernel]? with
  | some id => (a, id)
  | none =>
    let id := a.kernels.size
    let core := kernel.map (·.1)
    let coreId := a.coreIds.getD core a.coreIds.size
    ({ a with
        kernels := a.kernels.push kernel
        ids := a.ids.insert kernel id
        cores := a.cores.push coreId
        coreIds := a.coreIds.insert core coreId }, id)

/-- Number the states after a state; empty sets have none. -/
def internAll (a : Automaton) (kernels : Array Kernel) : Automaton × Array (Option Nat) :=
  kernels.foldl
    (fun (a, ids) kernel =>
      if kernel.isEmpty then (a, ids.push none)
      else
        let (a, id) := a.intern kernel
        (a, ids.push (some id)))
    (a, #[])

/-- Work out the actions of the next state. -/
def addRow (n : Normal) (firsts : Array Nat) (t : ItemTable) (a : Automaton) : Automaton :=
  let size := n.tokens.size + 1
  let present := t.present (t.closure (a.kernels.getD a.rows.size []))
  let entries := reductionEntries size present
  let after := Successors.of size n.nonterminals.size present
  let (a, shifts) := a.internAll after.terminals
  let (a, gotos) := a.internAll after.nonterminals
  let actions := (entries.zip shifts).zipIdx.map fun ((e, target), i) =>
    combine n firsts present i e target
  let actions := n.extras.foldl
    (fun (actions : Array (List Action)) i =>
      actions.modify i fun l => if l.isEmpty then [.skip] else l)
    actions
  { a with rows := a.rows.push { actions, gotos := gotos.map (·.getD 0) } }

/-- Work out states until none is left. -/
def complete (n : Normal) (firsts : Array Nat) (t : ItemTable) : Nat → Automaton → Automaton
  | 0, a => a
  | fuel + 1, a =>
    if a.rows.size < a.kernels.size then complete n firsts t fuel (a.addRow n firsts t) else a

/-- More states than any grammar of this size has. -/
def stateLimit : Nat := 1000000

def build (n : Normal) (t : ItemTable) : Automaton :=
  let (a, _) := Automaton.intern {} []
  let (a, _) := a.intern [(t.initial, 1 <<< n.endOfInput)]
  complete n n.firsts t stateLimit a

end Automaton

end GoReach.Grammar
