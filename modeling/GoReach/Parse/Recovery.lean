import GoReach.Parse.Standing

/-!
# Going on after an error

When no version can take the next token, the best one goes on in one of three ways:

* a token that is missing is made up, if what comes next then fits;
* the trees since an earlier state are put into an error, if what comes next fits that state;
* the next token is passed over.

Costs decide later between what comes of them.
-/

namespace GoReach.Parse

open GoReach.Grammar

/-- What can happen in a state before one of several terminals. -/
structure Options where
  /-- One of the terminals can be taken. -/
  takes : Bool := false
  /-- The reductions, one for each nonterminal and size. -/
  reductions : List Reduction := []

def Options.add (o : Options) : Action → Options
  | .shift _ inRepetition => { o with takes := o.takes || !inRepetition }
  | .recover => { o with takes := true }
  | .reduce a =>
    if a.size == 0 || o.reductions.any (fun b => b.head == a.head && b.size == a.size) then o
    else { o with reductions := o.reductions ++ [a] }
  | _ => o

/-- What can happen in a state before the given terminals. -/
def Reader.options (r : Reader) (state : Nat) (terminals : List Nat) : Options :=
  terminals.foldl
    (fun o t => (r.language.actions state (.symbol (.terminal t))).foldl Options.add o) {}

namespace Machine

/-! ## All reductions -/

/-- More steps than `reduceAll` takes: the number of versions is bounded. -/
def reductionFuel : Nat := 10000

/-- Go on with version `v` and those after it.  `first` is the number of versions at the beginning,
`steps` the number of steps so far, and `fits` whether one of the terminals can be taken. -/
def reduceFrom (r : Reader) (only : Option Nat) (start first : Nat) :
    Nat → Nat → Nat → Bool → Machine → Bool × Machine
  | 0, _, _, fits, m => (fits, m)
  | fuel + 1, steps, v, fits, m =>
    let count := m.versions
    if v ≥ count then (fits, m)
    else
      match m.joinFirst v ((List.range v).drop first) with
      | some m => reduceFrom r only start first fuel (steps + 1) v fits m
      | none =>
        let terminals := (only.map ([·])).getD r.language.trialOrder
        let o := r.options (m.top v).state terminals
        let (m, reduced) := o.reductions.foldl (fun (m, _) a => m.reduce r v a) (m, none)
        let next := if v == start then count else v + 1
        if o.takes then reduceFrom r only start first fuel (steps + 1) next true m
        else
          match reduced.filter fun _ => steps < versionLimit with
          | some w => reduceFrom r only start first fuel (steps + 1) v fits (m.renumber w v)
          | none =>
            let m := if only.isSome then m.removeVersion v else m
            reduceFrom r only start first fuel (steps + 1) next fits m

/-- Carry out all reductions that are possible in a version, before one terminal or before any,
and say whether the terminal, or some terminal, can then be taken.  Versions in which the one
terminal cannot be taken are given up. -/
def reduceAll (r : Reader) (m : Machine) (v : Nat) (only : Option Nat) : Bool × Machine :=
  reduceFrom r only v m.versions reductionFuel 0 v false m

/-! ## Back to an earlier state -/

/-- If the top tree is an error, take it off.  Its children are returned. -/
def popError (m : Machine) (v : Nat) : List Tree × Machine :=
  if (m.top v).links.any fun l => l.tree.any (·.isError) then
    match m.wayOverError? v with
    | none => ([], m)
    | some w => ((w.trees.headD default).children, (m.fork v w.node).renumber m.versions v)
  else ([], m)

/-- Put the trees above a version into an error. -/
def pushError (r : Reader) (m : Machine) (v state : Nat) (trees : List Tree) : Machine :=
  let (earlier, m) := m.popError v
  let (children, extras) := splitExtras (earlier ++ trees)
  let m :=
    if children.isEmpty then m
    else
      let error := r.node .error children 0 0
      m.push v (some (error.mapRoot fun root => { root with extra := true })) state
  m.pushAll v state extras

/-- Take trees off a version until it is in the given state again. -/
def recoverTo (r : Reader) (m : Machine) (v depth state : Nat) : Bool × Machine :=
  let groups := groupByNode (m.waysOver v depth)
  let first := m.versions
  let forked := groups.foldl (fun m g => m.fork v g.1) m
  let (done, m, _) := groups.foldl
    (fun (done, m, w) g =>
      if (m.top w).state == state then
        (true, m.pushError r w state (g.2.headD []), w + 1)
      else (done, m.halt w, w + 1))
    (false, forked, first)
  (done, m)

/-- Try the states below a version, as recorded.  `place`, `cost` and `grown` are those of the
version, and `count` is the number of versions. -/
def recoverBelow (r : Reader) (v : Nat) (lookAhead : Label) (count place cost : Nat)
    (grown : Bool) : List Below → Machine → Bool × Machine
  | [], m => (false, m)
  | b :: rest, m =>
    let taken := (List.range count).any fun w =>
      (m.top w).state == b.state && (m.top w).place == place
    if b.state == 0 || b.place == place || taken then
      recoverBelow r v lookAhead count place cost grown rest m
    else
      match m.hopeless v (cost + b.depth * costOfTree + r.costBetween b.place place) with
      | (true, m) => (false, m)
      | (false, m) =>
        let depth := if grown then b.depth + 1 else b.depth
        let (done, m) :=
          if (r.language.actions b.state lookAhead).isEmpty then (false, m)
          else m.recoverTo r v depth b.state
        if done then (true, m) else recoverBelow r v lookAhead count place cost grown rest m

/-! ## Passing over a token -/

/-- Remove versions that are not active, from a number on. -/
def removeInactive (m : Machine) (first : Nat) : Machine :=
  { m with heads := m.heads.extract 0 first ++
      (m.heads.extract first m.heads.size).filter (·.status.isActive) }

/-- Pass over a token.  What has been passed over before is taken together with it. -/
def passToken (r : Reader) (m : Machine) (v : Nat) (grown : Bool) (token : Tree) : Machine :=
  let single := r.node .passed [token] 0 0
  let (m, tree) :=
    if grown then
      match groupByNode (m.waysOver v 1) with
      | [] => (m, single)
      | (node, choices) :: _ =>
        let first := m.versions
        ((m.fork v node).renumber first v, r.node .passed (choices.headD [] ++ [single]) 0 0)
    else (m, single)
  m.push v (some tree) 0

/-- Go on with a version that has lost its way. -/
def recover (r : Reader) (m : Machine) (v : Nat) (lookAhead : Tree) : Machine :=
  let l := r.language
  let count := m.versions
  let place := (m.top v).place
  let m := m.measureAnew v
  let grown := m.growth v > 0
  let cost := m.cost v
  let below := if lookAhead.isError then [] else (m.head v).below.getD []
  let (done, m) := recoverBelow r v lookAhead.label count place cost grown below m
  let m := m.removeInactive count
  if done && m.versions > versionLimit then m.halt v
  else if lookAhead.label == .symbol (.terminal l.endOfInput) then
    (m.push v (some (r.node .error [] 0 place)) 1).accept r v lookAhead
  else
    let t := lookAhead.root
    match m.hopeless v (cost + costOfTree + r.costBetween t.origin t.stop) with
    | (true, m) => m.halt v
    | (false, m) =>
      let isExtra := match (l.actions 1 t.label).getLast? with
        | some .skip => true
        | _ => false
      let token := lookAhead.mapRoot fun t => { t with extra := t.extra || isExtra }
      m.passToken r v grown token

/-! ## Missing tokens -/

/-- Try to make up one of the given tokens in version `v`, before the look-ahead. -/
def insertMissing (r : Reader) (v place lookAhead : Nat) : List Nat → Machine → Bool × Machine
  | [], m => (false, m)
  | t :: rest, m =>
    let l := r.language
    let state := (m.top v).state
    let next := l.nextState state (.symbol (.terminal t))
    let reduces := match (l.actions next (.symbol (.terminal lookAhead))).head? with
      | some (.reduce _) => true
      | _ => false
    if next == 0 || next == state || !reduces then insertMissing r v place lookAhead rest m
    else
      let w := m.versions
      let copy := { m.head v with below := none }
      let m := { m with heads := m.heads.push copy }
      let m := m.push w (some (Reader.missingToken t place)) next
      let only := if lookAhead == l.endOfInput then none else some lookAhead
      match m.reduceAll r w only with
      | (true, m) => (true, m)
      | (false, m) => insertMissing r v place lookAhead rest m

/-- Mark the given versions as lost, after trying to make up a token in them until one fits. -/
def loseWay (r : Reader) (place : Nat) (lookAhead : Tree) : List Nat → Bool → Machine → Machine
  | [], _, m => m
  | v :: rest, inserted, m =>
    let (inserted, m) := match inserted, lookAhead.label with
      | false, .symbol (.terminal t) => insertMissing r v place t r.language.trialOrder m
      | _, _ => (inserted, m)
    loseWay r place lookAhead rest inserted (m.push v none 0)

/-- Begin recovery in a version that cannot take the look-ahead. -/
def handleError (r : Reader) (m : Machine) (v : Nat) (lookAhead : Tree) : Machine :=
  let first := m.versions
  let (_, m) := m.reduceAll r v none
  let others := (List.range m.versions).drop first
  let m := loseWay r (m.top v).place lookAhead (v :: others) false m
  let m := others.foldl (fun m _ => (m.merge? v first).getD m) m
  (m.recordBelow v).recover r v lookAhead

end Machine

end GoReach.Parse
