import GoReach.Grammar.Lexicon

/-!
# Scanning

For every mode the race of its terminals is worked out once, as an automaton over character
classes.  A scan follows it as far as it goes and gives the last terminal that was complete on the
way.

Two rules concern the character NUL, which also stands for what lies behind the end of the input.
A set that is given by what it leaves out does not take it.  And a mode that does not look for the
end of the input may find a token made of a NUL there, which then is empty.
-/

namespace GoReach.Grammar

structure ScanState where
  /-- The terminal that is complete here. -/
  complete : Option Nat
  /-- The end of the input counts as a token here. -/
  atEnd : Bool
  /-- By class: the next state, and whether the character is a blank before the token. -/
  moves : Array (Option (Nat × Bool))
deriving Inhabited

structure Scanner where
  states : Array ScanState
  /-- For each mode the state in which a scan begins. -/
  starts : Array Nat
  alphabet : Alphabet
  /-- The number of terminals, which stands for the end of the input. -/
  endOfInput : Nat
deriving Inhabited

/-- A point in the race: the threads, and whether the end of the input counts. -/
structure ScanPoint where
  threads : List Thread
  atEnd : Bool
deriving BEq, Hashable, Inhabited

/-- Points found so far, and the states of those that have been worked out. -/
structure ScanBuilder where
  points : Array ScanPoint := #[]
  ids : Std.HashMap ScanPoint Nat := ∅
  states : Array ScanState := #[]
deriving Inhabited

namespace ScanBuilder

def intern (b : ScanBuilder) (p : ScanPoint) : ScanBuilder × Nat :=
  match b.ids[p]? with
  | some id => (b, id)
  | none =>
    let id := b.points.size
    ({ b with points := b.points.push p, ids := b.ids.insert p id }, id)

/-- The moves that are made at a point, by class. -/
def allowedMoves (lx : Lexicon) (p : ScanPoint) : Array (Option Move) :=
  let done := lx.winner? p.threads
  let isLeading := Lexicon.leading p.threads
  let all := (Array.range lx.alphabet.size).map (lx.move? p.threads)
  let nul := lx.alphabet.classOf 0
  let widest := all.getD (lx.alphabet.classOf Text.CharSet.maxCode) none
  all.zipIdx.map fun (m, cls) =>
    match m with
    | none => none
    | some m =>
      if cls == nul && some m == widest then none
      else match done with
        | some t => if lx.readsOn t isLeading m then some m else none
        | none => some m

/-- Work out the next point. -/
def addState (lx : Lexicon) (b : ScanBuilder) : ScanBuilder :=
  let p := b.points.getD b.states.size default
  let (b, moves) := (allowedMoves lx p).foldl
    (fun (b, moves) m =>
      match m with
      | none => (b, moves.push none)
      | some m =>
        let (b, id) := b.intern ⟨m.threads, p.atEnd && m.skips⟩
        (b, moves.push (some (id, m.skips))))
    ((b, #[]) : ScanBuilder × Array (Option (Nat × Bool)))
  { b with states := b.states.push { complete := lx.winner? p.threads, atEnd := p.atEnd, moves } }

def complete (lx : Lexicon) : Nat → ScanBuilder → ScanBuilder
  | 0, b => b
  | fuel + 1, b =>
    if b.states.size < b.points.size then complete lx fuel (b.addState lx) else b

end ScanBuilder

namespace Scanner

/-- More points than the terminals of any grammar of this size have. -/
def pointLimit : Nat := 100000

/-- The scanner for modes that look for the given terminals. -/
def build (lx : Lexicon) (modes : Array (List Nat)) : Scanner :=
  let size := lx.size
  let (b, starts) := modes.foldl
    (fun (b, starts) terminals =>
      let point := ⟨lx.start (terminals.filter (· < size)), terminals.contains size⟩
      let (b, id) := b.intern point
      (b, starts.push id))
    (({}, #[]) : ScanBuilder × Array Nat)
  { states := (b.complete lx pointLimit).states, starts, alphabet := lx.alphabet
    endOfInput := size }

end Scanner

/-- What a scan finds. -/
structure Scan where
  terminal : Option Nat
  /-- Where the token begins, after the blanks before it, and where it ends. -/
  start : Nat
  stop : Nat
  /-- How far the scan has read. -/
  reach : Nat
deriving Inhabited

namespace Scanner

variable (sc : Scanner) (classes : Array Nat)

/-- Follow the automaton from a state on; `best` is the last complete terminal and its end. -/
def follow : Nat → Nat → Nat → Nat → Option (Nat × Nat) → Scan
  | 0, _, pos, start, best => ⟨best.map (·.1), start, (best.map (·.2)).getD pos, pos⟩
  | fuel + 1, state, pos, start, best =>
    let s := sc.states.getD state default
    let best := match s.complete with
      | some t => some (t, pos)
      | none => best
    if pos ≥ classes.size && s.atEnd then ⟨some sc.endOfInput, start, pos, pos⟩
    else
      let cls := classes.getD pos (sc.alphabet.classOf 0)
      match s.moves.getD cls none with
      | none => ⟨best.map (·.1), start, (best.map (·.2)).getD pos, pos⟩
      | some (next, skips) =>
        let pos := if pos < classes.size then pos + 1 else pos
        follow fuel next pos (if skips then pos else start) best

/-- Scan in a mode from a place on. -/
def scan (mode pos : Nat) : Scan :=
  sc.follow classes (classes.size - pos + 2) (sc.starts.getD mode 0) pos pos none

end Scanner

end GoReach.Grammar
