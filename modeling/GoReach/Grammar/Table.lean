import GoReach.Grammar.Lexicon
import GoReach.Grammar.Merge

/-!
# Tables

The automaton of a grammar in the form that a reader uses.

* **Keywords** look like the grammar's word.  They are found by reading a word first and comparing
  its text, so that a keyword is one only where the state has an action for it.
* **Modes.**  Every state looks for the terminals that it has an action for.  States whose terminals
  do not get into each other's way share a mode, which looks for the terminals of all of them.
* **Unit reductions** of hidden nodes change nothing in the tree, so states that only perform one
  are passed over.
-/

namespace GoReach.Grammar

structure Table where
  rows : Array Row
  /-- For each state its mode. -/
  modes : Array Nat
  /-- For each mode the terminals that it looks for, as bits. -/
  modeTerminals : Array Nat
  /-- For each state the terminals that no other terminal of the state touches. -/
  settled : Array Nat
  keywords : List Nat
deriving Inhabited

/-! ## Facts about terminals -/

/-- For each terminal those that may follow it. -/
def followingTerminals (n : Normal) : Array Nat :=
  let firsts := n.firsts
  let lasts := n.lasts
  let size := n.tokens.size
  let direct := n.lines.foldl
    (fun table (l : Line) =>
      (l.production.steps.zip (l.production.steps.drop 1)).foldl
        (fun (table : Array Nat) (s, t) =>
          let after := bitsOf firsts t.symbol
          let before := bitsOf lasts s.symbol
          table.zipIdx.map fun (bits, i) => if before.testBit i then bits ||| after else bits)
        table)
    (Array.replicate size 0)
  let all := 1 <<< size - 1
  direct.zipIdx.map fun (bits, i) =>
    if n.extras.contains i then all else n.extras.foldl (fun bits e => bits ||| 1 <<< e) bits

/-- For each terminal those with which it shares a state. -/
def sharingStates (size : Nat) (rows : Array Row) : Array Nat :=
  rows.foldl
    (fun (table : Array Nat) row =>
      let bits := row.terminals
      table.zipIdx.map fun (old, i) => if bits.testBit i then old ||| bits else old)
    (Array.replicate size 0)

/-- What is known about the terminals of an automaton. -/
structure TerminalFacts where
  size : Nat
  word : Nat
  overlaps : OverlapTable
  companions : Array Nat
deriving Inhabited

namespace TerminalFacts

variable (f : TerminalFacts)

def companion (i j : Nat) : Bool := (f.companions.getD i 0).testBit j

def indices : List Nat := List.range f.size

/-- The terminals `j` for which a test of `i` and `j` holds, as bits. -/
def bitsWhere (test : Nat → Bool) : Nat :=
  f.indices.foldr (fun j bits => 2 * bits + if test j then 1 else 0) 0

/-- Terminals that win over the word, and match nothing that is no word. -/
def keywordCandidates : List Nat :=
  f.indices.filter fun i =>
    (f.overlaps.get i f.word).wins && !(f.overlaps.get i f.word).differs

/-- The candidates that can be read as a word first: no other candidate looks the same, and beside
every terminal that shares a state with it where there is no word, the word does what it does. -/
def keywords (rows : Array Row) (candidates : List Nat) : List Nat :=
  let wordless := sharingStates f.size (rows.filter fun row => (row.actions.getD f.word []).isEmpty)
  (candidates.filter fun i =>
    !candidates.any fun j => j != i && (f.overlaps.get j i).wins).filter fun i =>
      f.indices.all fun j =>
        candidates.contains j || !(wordless.getD i 0).testBit j ||
          f.overlaps.get i j == f.overlaps.get f.word j

/-- For each terminal those that could be mistaken for it; a keyword is not mistaken for a word. -/
def mistakable (keywords : List Nat) : Array Nat :=
  (Array.range f.size).map fun i =>
    f.bitsWhere fun j =>
      !(i == f.word && keywords.contains j) && !(j == f.word && keywords.contains i) &&
        (f.overlaps.get j i).conflicts

/-- The first terminal matches more or less text than the second, at its place. -/
def crosses (i j : Nat) : Bool :=
  let o := f.overlaps.get i j
  (o.goesOnValidly || o.isBlank) && !(f.overlaps.get j i).isBlank

/-- The terminals that a reader that has lost its way looks for: those that cross no other terminal,
and those that do not conflict with these. -/
def recoverable (keywords : List Nat) : List Nat :=
  let free := f.indices.filter fun i =>
    !f.indices.any fun j => j != i && !f.companion i j && f.crosses i j
  f.indices.filter fun i =>
    free.contains i || keywords.contains i || i == f.word ||
      !free.any fun j => !f.companion i j && (f.overlaps.get i j).conflicts

/-- For each terminal those beside which it cannot be looked for where it has no action. -/
def exclusive : Array Nat :=
  (Array.range f.size).map fun i =>
    f.bitsWhere fun j =>
      let o := f.overlaps.get i j
      o.conflicts || o.cutsOff ||
        !f.companion i j && (o.touches || (f.overlaps.get j i).touches)

/-- For each terminal those that touch it. -/
def touchedBy : Array Nat :=
  (Array.range f.size).map fun i => f.bitsWhere fun j => (f.overlaps.get j i).touches

end TerminalFacts

/-! ## The state of a reader that has lost its way -/

/-- Give the first row an action for each terminal that can help. -/
def withRecovery (terminals : List Nat) (rows : Array Row) : Array Row :=
  rows.modify 0 fun row =>
    let actions := terminals.foldl
      (fun (a : Array (List Action)) i =>
        a.modify i fun l => if l.isEmpty then [.recover] else l)
      row.actions
    { row with actions }

/-! ## Unit reductions -/

/-- The hidden nonterminal to which a state reduces one child whatever comes next, if that is all
the state does. -/
def unitNonterminal? (silent : Nat → Bool) (row : Row) : Option Nat :=
  let actions := row.actions.toList.flatten.filter (· != .skip)
  match actions with
  | .reduce r :: _ =>
    let isUnit : Action → Bool
      | .reduce q => q.size == 1 && q.layout == 0 && q.head == r.head
      | _ => false
    if silent r.head && actions.all isUnit then some r.head else none
  | _ => none

/-- Pass over states that only perform a unit reduction, as often as there are such states. -/
def passOver (units : Array (Option Nat)) : Nat → Row → Row
  | 0, row => row
  | fuel + 1, row =>
    passOver units fuel <| row.mapStates fun s =>
      match units.getD s none with
      | none => s
      | some v =>
        let target := row.gotos.getD v 0
        if target == 0 then s else target

/-- Whether reductions to the nonterminal leave no mark in any tree. -/
def Normal.silent (n : Normal) (v : Nat) : Bool :=
  let renamedAnywhere := n.nonterminals.any fun x => x.productions.any fun p =>
    p.steps.any fun s => s.symbol == .nonterminal v && s.name.isSome
  let shape := (n.nonterminals.getD v default).shape
  (shape == .group || shape == .repetition) && !renamedAnywhere &&
    !n.renamed.any fun (s, _) => s == .nonterminal v

/-! ## Modes -/

/-- Whether two sets of terminals can be looked for in one mode. -/
def compatible (exclusive : Array Nat) (a b : Nat) : Bool :=
  exclusive.zipIdx.all fun (bad, i) =>
    match a.testBit i, b.testBit i with
    | true, false => b &&& bad == 0
    | false, true => a &&& bad == 0
    | _, _ => true

/-- Put a set of terminals into the first mode that it fits; the mode's number is returned too. -/
def placeMode (exclusive : Array Nat) (terminals : Nat) (modes : Array Nat) : Array Nat × Nat :=
  match modes.findIdx? fun m => compatible exclusive m terminals with
  | some i => (modes.modify i (· ||| terminals), i)
  | none => (modes.push terminals, modes.size)

/-! ## The whole table -/

namespace Table

/-- Drop states that nothing leads to, and put states with more entries first; the first two states
keep their places. -/
def arrange (rows : Array Row) : Array Row :=
  let used := rows.foldl
    (fun (used : Array Bool) row =>
      row.mentions.foldl (fun used s => used.setIfInBounds s true) used)
    ((Array.range rows.size).map (· < 2))
  let entries (i : Nat) : Nat :=
    let row := rows.getD i default
    (row.actions.filter (!·.isEmpty)).size + (row.gotos.filter (· != 0)).size
  let sized := ((List.range rows.size).filter (used.getD · false)).map fun i => (i, entries i)
  let order := (sized.mergeSort fun (i, m) (j, n) => i < 2 || (!(j < 2) && n ≤ m)).map (·.1)
  let place := order.zipIdx.foldl
    (fun (a : Array Nat) (old, new) => a.setIfInBounds old new) (Array.replicate rows.size 0)
  (order.map fun i => (rows.getD i default).mapStates (place.getD · 0)).toArray

/-- Whether a token of the terminal can only be lost or found again as it is. -/
def settledBits (touchedBy : Array Nat) (row : Row) : Nat :=
  let valid := row.terminals
  (row.actions.zipIdx).foldr
    (fun (actions, i) bits =>
      let fixed := !actions.isEmpty && actions != [.recover] && touchedBy.getD i 0 &&& valid == 0
      2 * bits + if fixed then 1 else 0)
    0

/-- The table of a grammar. -/
def build (n : Normal) (lx : Lexicon) (items : ItemTable) : Table :=
  let automaton := Automaton.build n items
  let rows := automaton.rows
  let size := n.tokens.size
  let following := followingTerminals n
  let facts : TerminalFacts :=
    { size, word := n.word
      overlaps := .build lx fun i => members size (following.getD i 0)
      companions := sharingStates size rows }
  let keywords := facts.keywords rows facts.keywordCandidates
  let rows := withRecovery (facts.recoverable keywords ++ [n.endOfInput]) rows
  let joint := joinStates rows automaton.cores (facts.mistakable keywords)
  let units := joint.map (unitNonterminal? n.silent)
  let rows := arrange (joint.map (passOver units (units.filter Option.isSome).size))
  let exclusive := facts.exclusive
  let lookedFor (row : Row) : Nat :=
    let bits := row.terminals
    keywords.foldl
      (fun b k => if b.testBit k then (b ^^^ 1 <<< k) ||| 1 <<< n.word else b) bits
  let (modeTerminals, modes) := rows.foldl
    (fun (terminals, modes) row =>
      let (terminals, i) := placeMode exclusive (lookedFor row) terminals
      (terminals, modes.push i))
    ((#[], #[]) : Array Nat × Array Nat)
  { rows, modes, modeTerminals, keywords
    settled := rows.map (settledBits facts.touchedBy) }

end Table

end GoReach.Grammar
