import GoReach.Parse.Stack

/-!
# Reading tokens

A token is read for a state: the state's mode says which tokens are looked for.  Where none of them
is found, any token of the language will do, and what is not the beginning of one is put into a
token of its own, an error.

The word of a language is read first, and then found to be a keyword where the state has a place
for that keyword.
-/

namespace GoReach.Parse

open GoReach.Grammar

namespace Reader

variable (r : Reader)

/-- A mark that may stand at the very beginning of a text and is passed over there. -/
def byteOrderMark : Char := '\ufeff'

/-- Scan from a place on. -/
def scan (mode place : Nat) : Scan :=
  let marked := place == 0 && r.source.chars[0]? == some byteOrderMark
  r.language.scanner.scan r.classes mode (if marked then 1 else place)

/-- Pass over characters up to the beginning of a token, or the end: the token that is the error.
The error began at `start`, and what is known to belong to it ends at `stop`. -/
def passOver (origin start : Nat) : Nat → Nat → Root
  | 0, stop => { label := .error, origin, start, stop }
  | fuel + 1, stop =>
    let s := r.scan (r.language.mode 0) stop
    match s.terminal with
    | some _ => { label := .error, origin, start, stop }
    | none =>
      if s.reach != stop then passOver origin start fuel s.reach
      else if stop ≥ r.source.size then { label := .error, origin, start, stop }
      else passOver origin start fuel (stop + 1)

/-- The token that a scan has found, as it appears in a state. -/
def tokenOfScan (state origin terminal : Nat) (s : Scan) : Root :=
  let l := r.language
  let isWord := terminal == l.word
  let text := if isWord then r.source.slice s.start s.stop else ""
  let keyword := (if isWord then l.keywords.lookup text else none).filter fun k =>
    !(l.actions state (.symbol (.terminal k))).isEmpty
  { label := .symbol (.terminal (keyword.getD terminal)), origin, start := s.start, stop := s.stop
    extra := terminal == l.endOfInput
    keywordLike := isWord && l.keywords.any fun k => k.1.isPrefixOf text }

/-- Read the next token for a state. -/
def readToken (state origin : Nat) : Tree :=
  let l := r.language
  let first := r.scan (l.mode state) origin
  let s := if first.terminal.isNone && state != 0 then r.scan (l.mode 0) origin else first
  let root := match s.terminal with
    | some t => r.tokenOfScan state origin t s
    | none =>
      let fuel := 2 * (r.source.size - s.start) + 2
      if s.reach != s.start then r.passOver origin s.start fuel s.reach
      else if s.start ≥ r.source.size then
        { label := .error, origin, start := s.start, stop := s.start }
      else r.passOver origin s.start fuel (s.start + 1)
  .node { root with state } []

/-- Whether a token that was read for one state is what would be read for another one. -/
def canReuse (state : Nat) (token : Tree) : Bool :=
  let l := r.language
  let t := token.root
  match t.label with
  | .symbol (.terminal i) =>
    let sameMode := l.mode state == l.mode t.state
    !(l.actions state t.label).isEmpty &&
      ((sameMode && (i != l.word || (!t.keywordLike && t.state == state))) ||
        ((t.start != t.stop || i == l.endOfInput) && (l.table.settled.getD state 0).testBit i))
  | _ => false

end Reader

/-- The next token for a version.  The token read last is taken again where it would be the same. -/
def Machine.nextToken (r : Reader) (m : Machine) (v : Nat) : Tree × Machine :=
  let top := m.top v
  let last := m.lastToken.filter fun t =>
    t.root.origin == top.place && r.canReuse top.state t
  match last with
  | some t => (t, m)
  | none =>
    let t := r.readToken top.state top.place
    (t, { m with lastToken := some t })

end GoReach.Parse
