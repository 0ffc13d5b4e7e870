import GoReach.Parse.Recovery

/-!
# Reading a text

All versions go on token by token.  After each round the versions are put in order, the worse ones
are given up, and if none of them can take the next token, recovery begins.  Reading ends when a
reading of the whole text costs less than any version still under way.

`Reader.read` is the tree of a text.  Every text has one: what does not fit is put into errors.
-/

namespace GoReach.Parse

open GoReach.Grammar

namespace Machine

/-! ## One token -/

/-- What came of the actions for a token. -/
inductive Outcome where
  /-- The token has been dealt with. -/
  | done
  /-- There were reductions; the last one made this version. -/
  | reduced (v : Nat)
  /-- The token does not fit. -/
  | stuck

/-- Carry out the actions for a token one by one. -/
def perform (r : Reader) (v : Nat) (token : Tree) :
    List Action → Outcome → Machine → Outcome × Machine
  | [], o, m => (o, m)
  | a :: rest, o, m =>
    let take (state : Nat) (extra : Bool) :=
      m.push v (some (token.mapRoot fun t => { t with extra })) state
    match a with
    | .shift _ true => perform r v token rest o m
    | .shift state false => (.done, take state false)
    | .skip => (.done, take (m.top v).state true)
    | .accept => (.done, m.accept r v token)
    | .recover => (.done, m.recover r v token)
    | .reduce a =>
      match m.reduce r v a with
      | (m, some w) => perform r v token rest (.reduced w) m
      | (m, none) => perform r v token rest o m

/-- Set a version aside whose next token does not fit. -/
def pause (m : Machine) (v : Nat) (token : Tree) : Machine :=
  let size := (m.top v).size
  m.modifyHead v fun h => { h with status := .paused token, sizeAtError := size }

/-- Reduce a version as long as possible and take the token.  A keyword that does not fit is taken
for a word. -/
def take (r : Reader) (v : Nat) : Nat → Tree → Machine → Machine
  | 0, _, m => m.halt v
  | fuel + 1, token, m =>
    let l := r.language
    let state := (m.top v).state
    match perform r v token (l.actions state token.label) .stuck m with
    | (.done, m) => m
    | (.reduced w, m) => take r v fuel token (m.renumber w v)
    | (.stuck, m) =>
      let word : Label := .symbol (.terminal l.word)
      if token.root.keywordLike && token.label != word && !(l.actions state word).isEmpty then
        take r v fuel (token.mapRoot fun t => { t with label := word }) m
      else if state == 0 then m.recover r v token
      else m.pause v token

/-- Read one token in a version.  Between two tokens a version can reduce no more often than it has
trees, each at most once by every nonterminal. -/
def advance (r : Reader) (m : Machine) (v : Nat) : Machine :=
  let (token, m) := m.nextToken r v
  take r v ((m.nodes.size + 2) * (r.language.nonterminals.size + 2)) token m

/-! ## One round -/

/-- Advance a version until it has passed the place that versions have reached, `reached`. -/
def advanceBeyond (r : Reader) (v : Nat) : Nat → Nat → Machine → Nat × Machine
  | 0, reached, m => (reached, m)
  | fuel + 1, reached, m =>
    if (m.head v).status.isActive then
      let m := m.advance r v
      let place := (m.top v).place
      if place > reached || (v > 0 && place == reached) then (place, m)
      else advanceBeyond r v fuel reached m
    else (reached, m)

/-- Advance version `v` and all that come after it, with those that are added on the way. -/
def advanceAll (r : Reader) (limit : Nat) : Nat → Nat → Nat → Machine → Nat × Machine
  | 0, _, reached, m => (reached, m)
  | fuel + 1, v, reached, m =>
    if v < m.versions then
      let (reached, m) := advanceBeyond r v limit reached m
      advanceAll r limit fuel (v + 1) reached m
    else (reached, m)

/-! ## Putting versions in order -/

/-- Compare version `i`, which has the given standing, with the versions before it from `j` on.
The result is the number of the version after which to go on. -/
def settle (s : Standing) (i j : Nat) (m : Machine) : Nat × Machine :=
  if j < i then
    let m := m.measureAnew j
    match (m.standing j).compare s with
    | .onlyFirst => (i - 1, m.removeVersion i)
    | .onlySecond => settle s (i - 1) j (m.removeVersion j)
    | .second =>
      match m.merge? j i with
      | some m => (i - 1, m)
      | none => settle s i (j + 1) (m.swapVersions i j)
    | _ =>
      match m.merge? j i with
      | some m => (i - 1, m)
      | none => settle s i (j + 1) m
  else (i, m)
termination_by i - j

/-- Put the versions from `i` on into order.  `least` is the least cost of a version that has not
lost its way. -/
def sortFrom : Nat → Nat → Option Nat → Machine → Option Nat × Machine
  | 0, _, least, m => (least, m)
  | fuel + 1, i, least, m =>
    if i < m.versions then
      if (m.head i).status.isHalted then sortFrom fuel i least (m.removeVersion i)
      else
        let m := m.measureAnew i
        let s := m.standing i
        let least := if s.lost then least else some (min s.cost (least.getD s.cost))
        let (i, m) := settle s i 0 m
        sortFrom fuel (i + 1) least m
    else (least, m)

/-- Of `count` versions from `i` on, begin recovery in the first one if it is paused, and remove
the other paused ones. -/
def resume (r : Reader) : Nat → Nat → Bool → Option Nat → Machine → Option Nat × Machine
  | 0, _, _, least, m => (least, m)
  | count + 1, i, running, least, m =>
    match (m.head i).status with
    | .paused token =>
      if !running && m.accepted < versionLimit then
        let cost := m.cost i
        let m := m.modifyHead i fun h => { h with status := .active }
        resume r count (i + 1) true (some cost) (m.handleError r i token)
      else resume r count i running least (m.removeVersion i)
    | _ => resume r count (i + 1) true least m

/-- Order the versions and give up the worse ones.  The least cost of a version under way is
returned. -/
def condense (r : Reader) (m : Machine) : Option Nat × Machine :=
  let (least, m) := sortFrom m.versions 0 none m
  let m := { m with heads := m.heads.take versionLimit }
  resume r m.versions 0 false least m

/-! ## The whole text -/

/-- More than the versions that there ever are in a round. -/
def roundFuel : Nat := 1000

/-- Round after round, until no version is left or the finished tree is better than all. -/
def run (r : Reader) (limit : Nat) : Nat → Nat → Machine → Machine
  | 0, _, m => m
  | fuel + 1, reached, m =>
    let (reached, m) := advanceAll r limit roundFuel 0 reached m
    let count := m.versions
    let (least, m) := m.condense r
    let better := m.finished.any fun t => least.all (t.cost < ·)
    if better || count == 0 then m else run r limit fuel reached m

end Machine

/-- The tree of a text. -/
def Reader.read (r : Reader) : Tree :=
  let limit := 1000 * (r.source.size + 1)
  ((Machine.start 1).run r limit limit 0).finished.getD default

end GoReach.Parse
