import GoReach.Parse.Token

/-!
# Putting trees together

A reduction takes the trees of a production from a version and puts one tree in their place.  Where
versions have been joined there are several ways down the stack; those that lead to the same node
are readings of the same text, of which the best is kept, and every other node makes a version of
its own.
-/

namespace GoReach.Parse

open GoReach.Grammar

/-- The trees, and the extra trees at their end. -/
def splitExtras (trees : List Tree) : List Tree × List Tree :=
  let extras := (trees.reverse.takeWhile (·.extra)).reverse
  (trees.take (trees.length - extras.length), extras)

/-- The most versions that are kept. -/
def versionLimit : Nat := 6
/-- How many more there may be for a while. -/
def versionOverflow : Nat := 4

/-- The better of a tree and another choice of its children.  Choices are compared without the
names that the production gives. -/
def Reader.prefer (r : Reader) (layout place : Nat) (best : Tree × List Tree) (trees : List Tree) :
    Tree × List Tree :=
  let label := best.1.label
  let (children, extras) := splitExtras trees
  if prefersSecond r.language best.1 (r.node label children 0 place) then
    (r.node label children layout place, extras)
  else best

namespace Machine

/-- Join a version to the first of the given ones with which that is possible. -/
def joinFirst (m : Machine) (w : Nat) : List Nat → Option Machine
  | [] => none
  | v :: rest => match m.merge? v w with
    | some m => some m
    | none => joinFirst m w rest

def pushAll (m : Machine) (v state : Nat) (trees : List Tree) : Machine :=
  trees.foldl (fun m t => m.push v (some t) state) m

/-- Carry out a reduction in the new version `w`, which stands on the node below the given choices
of trees.  The second result is the number of the version after it. -/
def reduceIn (r : Reader) (v : Nat) (a : Reduction) (m : Machine) (w : Nat)
    (choices : List (List Tree)) : Machine × Nat :=
  if w > versionLimit + versionOverflow then (m.removeVersion w, w)
  else
    let label := Label.symbol (.nonterminal a.head)
    let top := m.top w
    let (children, extras) := splitExtras (choices.headD [])
    let first := (r.node label children a.layout top.place, extras)
    let (tree, extras) := choices.tail.foldl (r.prefer a.layout top.place) first
    let tree := tree.mapRoot fun root => { root with weight := root.weight + a.weight }
    let state := r.language.nextState top.state label
    let m := (m.push w (some tree) state).pushAll w state extras
    match m.joinFirst w ((List.range w).filter (· != v)) with
    | some m => (m, w)
    | none => (m, w + 1)

/-- Carry out a reduction in all ways in which version `v` admits it.  Each makes a new version; the
first one's number is returned. -/
def reduce (r : Reader) (m : Machine) (v : Nat) (a : Reduction) : Machine × Option Nat :=
  let groups := groupByNode (m.waysOver v a.size)
  let first := m.versions
  let forked := groups.foldl (fun m g => m.fork v g.1) m
  let (m, _) := groups.foldl (fun (m, w) g => reduceIn r v a m w g.2) (forked, first)
  (m, if m.versions > first then some first else none)

/-- The trees of a whole text under one root: the last that is not extra takes the others in. -/
def wholeTree (r : Reader) (trees : List Tree) : Option Tree :=
  let (trees, extras) := splitExtras trees
  trees.getLast?.map fun t =>
    r.node t.label (trees.dropLast ++ t.children ++ extras) t.root.layout 0

/-- Keep a reading of the whole text if it is better than the one there is. -/
def offer (r : Reader) (m : Machine) (tree : Tree) : Machine :=
  let better := match m.finished with
    | none => true
    | some old => prefersSecond r.language old tree
  { m with
    accepted := m.accepted + 1
    finished := if better then some tree else m.finished }

/-- A version has reached the end of the text. -/
def accept (r : Reader) (m : Machine) (v : Nat) (lookAhead : Tree) : Machine :=
  let m := m.push v (some lookAhead) 1
  let trees := (m.waysToBottom v).filterMap fun w => wholeTree r w.trees
  (trees.foldl (offer r) m).halt v

end Machine

end GoReach.Parse
