import Std.Data.HashMap
import GoReach.Grammar.Production

/-!
# Items

An item is a production with a dot in it: what stands before the dot has been read, what stands
after it is still to come.  Items that differ only in symbols already read lead to the same
continuations and the same node, so they are one item here: `Trace` is what an item still
remembers of its production.

Sets of terminals are the bits of a number; bit `i` is the terminal `i`, and the bit after the last
terminal is the end of the input.
-/

namespace GoReach.Grammar

/-- How the children of a node of a production are named: names given to children, by place, and
the fields, each with its places and whether the child passes on a field of its own. -/
structure Layout where
  names : List (Option String) := []
  fields : List (String × List (Nat × Bool)) := []
deriving BEq, Hashable, Repr, Inhabited

/-- To put the last `size` trees under a node. -/
structure Reduction where
  head : Nat
  size : Nat
  weight : Int
  /-- The number of the layout. -/
  layout : Nat
deriving BEq, Hashable, Repr, Inhabited

/-- What an item remembers of its production. -/
structure Trace where
  dot : Nat
  head : Nat
  weight : Int
  length : Nat
  /-- A child already read passes fields on, so that its symbol matters. -/
  inherits : Bool
  rank : Option Int
  assoc : Option Assoc
  read : List (Option String × Option String × Option Symbol)
  unread : List Step
deriving BEq, Hashable, Inhabited

structure Item where
  head : Nat
  /-- Something has been read. -/
  started : Bool
  /-- The rank and leaning of the step before the dot. -/
  rank : Option Int
  assoc : Option Assoc
  /-- The next symbol, and the item after it. -/
  next : Option (Symbol × Nat)
  /-- The terminals that can follow the next symbol inside the production; `none` if it is the
  last one. -/
  follow : Option Nat
  /-- What to do at the end; `none` for the item that accepts the input. -/
  reduction : Option Reduction
deriving Inhabited

/-- A production of a nonterminal. -/
structure Line where
  head : Nat
  production : Production
deriving Inhabited

namespace Normal

variable (n : Normal)

/-- The productions of all nonterminals, in order, and last the one that accepts the input. -/
def lines : List Line :=
  let own := n.nonterminals.toList.zipIdx.flatMap fun (v, i) => v.productions.map (⟨i, ·⟩)
  own ++ [⟨n.nonterminals.size, ⟨0, [{ symbol := .nonterminal 0 }]⟩⟩]

def endOfInput : Nat := n.tokens.size

/-- Whether nodes of the nonterminal are left out of the tree. -/
def hidden (v : Nat) : Bool :=
  match n.nonterminals[v]? with
  | some x => x.shape != .node
  | none => false

def isRepetition (v : Nat) : Bool :=
  match n.nonterminals[v]? with
  | some x => x.shape == .repetition
  | none => false

/-- Repeat a step until nothing changes, at most `fuel` times. -/
def settle {α : Type} [BEq α] (step : α → α) : Nat → α → α
  | 0, a => a
  | fuel + 1, a =>
    let b := step a
    if b == a then a else settle step fuel b

/-- For each nonterminal the bits of `pick` over the chosen symbols of its productions, closed under
reference. -/
def closureBits (pick : List Step → Option Step) : Array Nat :=
  let step (sets : Array Nat) : Array Nat :=
    n.nonterminals.zipIdx.map fun (v, i) =>
      v.productions.foldl
        (fun bits (p : Production) =>
          match (pick p.steps).map Step.symbol with
          | some (.terminal t) => bits ||| 1 <<< t
          | some (.nonterminal w) => bits ||| sets.getD w 0
          | none => bits)
        (sets.getD i 0)
  settle step (n.nonterminals.size + 1) (Array.replicate n.nonterminals.size 0)

/-- The terminals with which each nonterminal can begin. -/
def firsts : Array Nat := n.closureBits List.head?

/-- The terminals with which each nonterminal can end. -/
def lasts : Array Nat := n.closureBits List.getLast?

/-- The fields that each hidden nonterminal passes on to the node around it. -/
def passedFields : Array (List String) :=
  let step (sets : Array (List String)) : Array (List String) :=
    n.nonterminals.zipIdx.map fun (v, i) =>
      v.productions.foldl
        (fun found p => p.steps.foldl
          (fun found s =>
            let inner := match s.symbol with
              | .nonterminal w => if n.hidden w then sets.getD w [] else []
              | .terminal _ => []
            withoutCopies (found ++ s.field.toList ++ inner)) found)
        (sets.getD i [])
  settle step (n.nonterminals.size + 1) (Array.replicate n.nonterminals.size [])

end Normal

/-- The bits of a set for a symbol. -/
def bitsOf (sets : Array Nat) : Symbol → Nat
  | .terminal t => 1 <<< t
  | .nonterminal v => sets.getD v 0

/-- The members of a set of numbers below `bound`. -/
def members (bound bits : Nat) : List Nat :=
  (List.range bound).filter bits.testBit

/-! ## Layouts -/

def dropTrailing : List (Option String) → List (Option String)
  | [] => []
  | a :: rest =>
    match a, dropTrailing rest with
    | none, [] => []
    | a, tail => a :: tail

/-- Add a place to a field, keeping fields in the order of their names. -/
def addPlace (field : String) (place : Nat × Bool) :
    List (String × List (Nat × Bool)) → List (String × List (Nat × Bool))
  | [] => [(field, [place])]
  | (f, places) :: rest =>
    if field < f then (field, [place]) :: (f, places) :: rest
    else if field == f then (f, places ++ [place]) :: rest
    else (f, places) :: addPlace field place rest

/-- The fields that a step passes on from a hidden node. -/
def Step.passes (n : Normal) (passed : Array (List String)) (s : Step) : List String :=
  match s.symbol with
  | .nonterminal v => if n.hidden v then passed.getD v [] else []
  | .terminal _ => []

def Production.layout (n : Normal) (passed : Array (List String)) (p : Production) : Layout where
  names := dropTrailing (p.steps.map (·.name))
  fields := p.steps.zipIdx.foldl
    (fun fields (s, i) =>
      let own := match s.field with
        | some f => addPlace f (i, false) fields
        | none => fields
      (s.passes n passed).foldl (fun fields f => addPlace f (i, true) fields) own)
    []

/-! ## All items of a grammar -/

structure ItemTable where
  items : Array Item
  /-- For each nonterminal the items at the start of its productions. -/
  starts : Array (List Nat)
  /-- For each nonterminal the items that it brings into a set of items: the item, terminals that
  can follow its nonterminal there, and whether also what follows the outer nonterminal can. -/
  additions : Array (List (Nat × Nat × Bool))
  layouts : Array Layout
  /-- The item that begins the whole input. -/
  initial : Nat
deriving Inhabited

namespace Trace

/-- The trace of a production with the dot after `dot` steps. -/
def of (n : Normal) (passed : Array (List String)) (l : Line) (dot : Nat) : Trace :=
  let steps := l.production.steps
  let before := steps.take dot
  let inherits := before.any fun s => !(s.passes n passed).isEmpty
  let last := before.getLast?
  { dot, head := l.head, weight := l.production.weight, length := steps.length, inherits
    rank := last.bind (·.rank), assoc := last.bind (·.assoc)
    read := before.map fun s => (s.name, s.field, if inherits then some s.symbol else none)
    unread := steps.drop dot }

/-- Order of optional ranks: none first. -/
def rankKey : Option Int → Int × Int
  | none => (0, 0)
  | some r => (1, r)

def assocKey : Option Assoc → Nat
  | none => 0
  | some .left => 1
  | some .right => 2

/-- The order in which items are considered: shorter ones first, then by nonterminal and weight. -/
def before (a b : Trace) : Bool :=
  let c := (compare a.dot b.dot).then <| (compare a.head b.head).then <|
    (compare a.weight b.weight).then <| (compare a.length b.length).then <|
    (compare (rankKey a.rank).1 (rankKey b.rank).1).then <|
    (compare (rankKey a.rank).2 (rankKey b.rank).2).then <|
    compare (assocKey a.assoc) (assocKey b.assoc)
  c != .gt

end Trace

namespace ItemTable

/-- All terminals that can follow each nonterminal at the beginning of nonterminal `v`, and whether
it can also be followed by what follows `v`.  `pending` holds what is still to be passed on. -/
def spread (firsts : Array Nat) (productions : Array (List Production)) :
    Nat → List (Nat × Nat × Bool) → Std.HashMap Nat (Nat × Bool) → Std.HashMap Nat (Nat × Bool)
  | 0, _, found => found
  | _, [], found => found
  | fuel + 1, (v, bits, passes) :: rest, found =>
    let (old, oldPasses) := found.getD v (0, false)
    let changed := if passes then !oldPasses else (old ||| bits) != old
    if changed then
      let found := found.insert v (if passes then (old, true) else (old ||| bits, oldPasses))
      let next := (productions.getD v []).filterMap fun p =>
        match p.steps with
        | ⟨.nonterminal w, _, _, _, _⟩ :: [] => some (w, bits, passes)
        | ⟨.nonterminal w, _, _, _, _⟩ :: s :: _ => some (w, bitsOf firsts s.symbol, false)
        | _ => none
      spread firsts productions fuel (next ++ rest) found
    else spread firsts productions fuel rest (found.insert v (old, oldPasses))

/-- Number distinct values in order of first appearance. -/
def number {α : Type} [BEq α] [Hashable α] (l : List α) : Array α × Std.HashMap α Nat :=
  l.foldl
    (fun (distinct, ids) a =>
      if ids.contains a then (distinct, ids) else (distinct.push a, ids.insert a distinct.size))
    (#[], ∅)

def ofNormal (n : Normal) : ItemTable :=
  let firsts := n.firsts
  let passed := n.passedFields
  let lines := n.lines
  let (layouts, layoutIds) := number ({} :: lines.map fun l => l.production.layout n passed)
  let traces := lines.map fun l =>
    (l, (List.range (l.production.steps.length + 1)).map (Trace.of n passed l))
  let sorted := (number (traces.flatMap (·.2))).1.toList.mergeSort Trace.before
  let ids := (number sorted).2
  let id (t : Trace) : Nat := ids.getD t 0
  let layoutOf : Std.HashMap Trace Nat := traces.foldl
    (fun m (l, ts) => ts.foldl
      (fun m t => m.insertIfNew t (layoutIds.getD (l.production.layout n passed) 0)) m) ∅
  let after : Std.HashMap Trace Nat := traces.foldl
    (fun m (_, ts) => (ts.zip (ts.drop 1)).foldl (fun m (t, u) => m.insertIfNew t (id u)) m) ∅
  let items := sorted.map fun t =>
    { head := t.head, started := t.dot > 0, rank := t.rank, assoc := t.assoc
      next := t.unread.head?.map fun s => (s.symbol, after.getD t 0)
      follow := (t.unread.drop 1).head?.map fun s => bitsOf firsts s.symbol
      reduction :=
        if t.head == n.nonterminals.size then none
        else some ⟨t.head, t.length, t.weight, layoutOf.getD t 0⟩ : Item }
  let startsOf (v : Nat) : List Nat :=
    withoutCopies ((traces.filter fun (l, _) => l.head == v).filterMap fun (_, ts) =>
      ts.head?.map id)
  let starts := (Array.range n.nonterminals.size).map startsOf
  let productions := n.nonterminals.map (·.productions)
  let additions := (Array.range n.nonterminals.size).map fun v =>
    let found := spread firsts productions 1000000 [(v, 0, true)] ∅
    found.toList.flatMap fun (w, bits, passes) => (starts.getD w []).map fun i => (i, bits, passes)
  { items := items.toArray, starts, additions, layouts
    initial := ((startsOf n.nonterminals.size).head?).getD 0 }

/-- The items that a set of items stands for, as the terminals after each item; zero for items that
are not in it. -/
def closure (t : ItemTable) (kernel : List (Nat × Nat)) : Array Nat :=
  kernel.foldl
    (fun (set : Array Nat) (i, ahead) =>
      let set := set.modify i (· ||| ahead)
      match t.items[i]? with
      | some { next := some (.nonterminal v, _), follow, .. } =>
        let outer := follow.getD ahead
        (t.additions.getD v []).foldl
          (fun set (j, bits, passes) =>
            set.modify j fun old => old ||| bits ||| if passes then outer else 0)
          set
      | _ => set)
    (Array.replicate t.items.size 0)

end ItemTable

end GoReach.Grammar
