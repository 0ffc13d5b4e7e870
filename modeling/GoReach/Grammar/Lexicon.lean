import GoReach.Grammar.Alphabet
import GoReach.Grammar.Production

/-!
# Recognising several terminals at once

A text is matched against several terminals at a time.  Each one that is still in the race is a
`Thread`: the terminal, what is left of its pattern, and whether the blanks before the token are
still being skipped.  Reading a character moves all threads at once, and the threads that survive
say which terminals are still possible.

Two terminals are *told apart* by exploring this race for the pair of them: `Overlap` records in
which ways the one can get into the other's way.  Tables use it to decide which terminals may be
looked for in one place.
-/

namespace GoReach.Grammar

/-- The terminals of a grammar over character classes.  NUL has a class of its own. -/
structure Lexicon where
  terminals : Array Terminal
  patterns : Array (Pattern Nat)
  alphabet : Alphabet
  /-- The classes of the characters that may stand before a token. -/
  blanks : Nat
deriving Inhabited

/-- A terminal that is still in the race. -/
structure Thread where
  terminal : Nat
  /-- No character of the token has been read yet. -/
  leading : Bool
  rest : Pattern Nat
deriving BEq, Hashable, Inhabited

/-- What reading a character does to all threads. -/
structure Move where
  threads : List Thread
  /-- The character is a blank before the token, for every thread that survives. -/
  skips : Bool
  /-- The highest precedence among the threads that survive. -/
  precedence : Nat
deriving BEq, Inhabited

namespace Lexicon

def ofGrammar (g : Grammar) (n : Normal) : Lexicon :=
  let terminals := n.tokens.map (·.terminal)
  let sets := terminals.toList.flatMap fun t => t.pattern.sets
  let alphabet := Alphabet.ofSets (withoutCopies (.single (Char.ofNat 0) :: g.blanks :: sets))
  { terminals
    patterns := terminals.map fun t => t.pattern.map alphabet.encode
    alphabet
    blanks := alphabet.encode g.blanks }

variable (lx : Lexicon)

def size : Nat := lx.terminals.size

def terminal (i : Nat) : Terminal := lx.terminals.getD i default

/-- All of the given terminals, at the place where the text begins. -/
def start (terminals : List Nat) : List Thread :=
  terminals.map fun i => ⟨i, !(lx.terminal i).immediate, lx.patterns.getD i .empty⟩

/-- Where one thread can go with a character of the given class: the new thread, whether the
character was a blank before the token, and the precedence of the step. -/
def advance (cls : Nat) (t : Thread) : List (Thread × Bool × Nat) :=
  let inside := (t.rest.residuals (·.testBit cls)).map fun rest =>
    (⟨t.terminal, false, rest⟩, false, (lx.terminal t.terminal).precedence)
  if t.leading && lx.blanks.testBit cls then (t, true, 0) :: inside else inside

/-- Where all threads go with a character of the given class. -/
def move? (threads : List Thread) (cls : Nat) : Option Move :=
  match threads.flatMap (lx.advance cls) with
  | [] => none
  | steps => some {
      threads := withoutCopies (steps.map (·.1))
      skips := steps.all (·.2.1)
      precedence := steps.foldl (fun p s => max p s.2.2) 0 }

/-- Moves with all characters, one for each class that some thread can go on with. -/
def moves (threads : List Thread) : List (Nat × Move) :=
  (List.range lx.alphabet.size).filterMap fun cls => (lx.move? threads cls).map (cls, ·)

/-- Terminals that are complete. -/
def completed (threads : List Thread) : List Nat :=
  threads.filterMap fun t => if t.rest.nullable then some t.terminal else none

/-- Whether the threads are still before the token. -/
def leading (threads : List Thread) : Bool := threads.any (·.leading)

/-- Of two terminals that are complete at the same character, is it the first one that counts? -/
def prefers (a b : Nat) : Bool :=
  let s := lx.terminal a
  let t := lx.terminal b
  if s.precedence != t.precedence then s.precedence > t.precedence
  else if s.closeness != t.closeness then s.closeness > t.closeness
  else a < b

/-- The terminal that counts among those that are complete. -/
def winner? (threads : List Thread) : Option Nat :=
  (completed threads).foldl
    (fun best t =>
      match best with
      | none => some t
      | some b => if lx.prefers b t then some b else some t)
    none

/-- Whether to read on although the terminal `done` is complete. -/
def readsOn (done : Nat) (leading : Bool) (m : Move) : Bool :=
  let own := (lx.terminal done).precedence
  own < m.precedence ||
    own == m.precedence && !m.skips &&
      !(leading && !m.threads.any fun t => t.terminal == done)

/-- The classes of characters that a token of the terminal can begin with. -/
def firstClasses (i : Nat) : Nat :=
  (lx.patterns.getD i .empty).firsts.foldl (· ||| ·) 0

end Lexicon

/-! ## How two terminals get into each other's way -/

/-- What can happen to one terminal beside another one. -/
structure Overlap where
  /-- It is complete, and the other one is not pursued any further. -/
  cutsOff : Bool := false
  /-- It reads on where the other one is complete. -/
  goesOn : Bool := false
  /-- It reads on, with a character that may follow the other one. -/
  goesOnValidly : Bool := false
  /-- It is complete where blanks before the other one are still being skipped. -/
  isBlank : Bool := false
  /-- It wins a text that both match. -/
  wins : Bool := false
  /-- It matches a text that the other one does not match. -/
  differs : Bool := false
deriving BEq, Inhabited

namespace Overlap

def join (a b : Overlap) : Overlap where
  cutsOff := a.cutsOff || b.cutsOff
  goesOn := a.goesOn || b.goesOn
  goesOnValidly := a.goesOnValidly || b.goesOnValidly
  isBlank := a.isBlank || b.isBlank
  wins := a.wins || b.wins
  differs := a.differs || b.differs

/-- The first terminal can take text away from the second. -/
def conflicts (o : Overlap) : Bool := o.goesOnValidly || o.isBlank || o.wins

/-- The first terminal can be seen where the second one stands. -/
def touches (o : Overlap) : Bool := o.isBlank || o.cutsOff || o.wins || o.goesOn

end Overlap

/-- Overlaps of both terminals of a pair, in the order of the pair. -/
structure Pair where
  first : Overlap := {}
  second : Overlap := {}
deriving Inhabited

namespace Pair

def join (p q : Pair) : Pair := ⟨p.first.join q.first, p.second.join q.second⟩

/-- The overlap of one terminal of the pair `(i, _)`. -/
def of (i t : Nat) (o : Overlap) : Pair := if t == i then ⟨o, {}⟩ else ⟨{}, o⟩

end Pair

namespace Lexicon

variable (lx : Lexicon)

/-- What the completed terminals of a state say about the pair `(i, _)`. -/
def completionOverlap (i : Nat) (threads : List Thread) : Pair :=
  let done := completed threads
  let blank : Pair :=
    if leading threads then
      done.foldl (fun (p : Pair) t => p.join (.of i t { isBlank := true })) default
    else default
  match lx.winner? threads with
  | some w => if done.any (· != w) then blank.join (.of i w { wins := true }) else blank
  | none => blank

/-- What one move says about the pair `(i, j)`; `follows` gives the classes of the characters that
may follow a terminal. -/
def moveOverlap (follows : Nat → Nat) (i j : Nat) (threads : List Thread) (cls : Nat) (m : Move) :
    Pair :=
  match lx.winner? threads with
  | none => default
  | some done =>
    if m.threads.any fun t => t.terminal == done then default
    else
      let other := if done == i then j else i
      if lx.readsOn done (leading threads) m then
        .of i other { goesOn := true, goesOnValidly := (follows done).testBit cls }
      else .of i done { cutsOff := true }

/-- Explore all states that the race of the pair `(i, j)` can reach.  A state in which one of the
two is alone is not pursued. -/
def explore (follows : Nat → Nat) (i j : Nat) :
    Nat → List (List Thread) → List (List Thread) → Pair → Pair
  | 0, _, _, found => found
  | _, [], _, found => found
  | fuel + 1, threads :: rest, seen, found =>
    match threads with
    | [] => explore follows i j fuel rest seen found
    | t :: _ =>
      if threads.all fun u => u.terminal == t.terminal then
        explore follows i j fuel rest seen (found.join (.of i t.terminal { differs := true }))
      else
        let moves := lx.moves threads
        let found := moves.foldl
          (fun (p : Pair) (cls, m) => p.join (lx.moveOverlap follows i j threads cls m))
          (found.join (lx.completionOverlap i threads))
        let next := moves.foldl
          (fun l (_, m) => if seen.contains m.threads || l.contains m.threads then l
            else m.threads :: l) []
        explore follows i j fuel (next ++ rest) (next ++ seen) found

/-- How two terminals get into each other's way. -/
def overlap (follows : Nat → Nat) (i j : Nat) : Pair :=
  lx.explore follows i j 10000 [lx.start [i, j]] [] default

end Lexicon

/-- Overlaps of all pairs of terminals. -/
structure OverlapTable where
  size : Nat
  entries : Array Overlap
deriving Inhabited

namespace OverlapTable

def get (t : OverlapTable) (i j : Nat) : Overlap := t.entries.getD (i * t.size + j) {}

/-- Fill the table, given the terminals that may follow each terminal. -/
def build (lx : Lexicon) (following : Nat → List Nat) : OverlapTable :=
  let n := lx.size
  let firsts := (Array.range n).map lx.firstClasses
  let follows := (Array.range n).map fun i =>
    (following i).foldl (fun bits t => bits ||| firsts.getD t 0) 0
  let pairs := (List.range n).flatMap fun i => (List.range i).map fun j => (i, j)
  let entries := pairs.foldl
    (fun (a : Array Overlap) (i, j) =>
      let p := lx.overlap (follows.getD · 0) i j
      (a.setIfInBounds (i * n + j) p.first).setIfInBounds (j * n + i) p.second)
    (Array.replicate (n * n) {})
  { size := n, entries }

end OverlapTable

end GoReach.Grammar
