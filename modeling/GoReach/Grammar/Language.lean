import GoReach.Grammar.Scanner
import GoReach.Grammar.Table

/-!
# Languages

A `Language` is a grammar made ready for reading: its table, its scanner, and how its terminals and
nonterminals appear in a tree.
-/

namespace GoReach.Grammar

/-- What stands at the root of a tree. -/
inductive Label where
  | symbol (s : Symbol)
  /-- Text that fits nowhere. -/
  | error
  /-- Tokens that are being passed over. -/
  | passed
deriving BEq, Repr, DecidableEq, Inhabited

/-- How a label appears in the finished tree. -/
structure Appearance where
  name : String
  visible : Bool
  named : Bool
deriving Inhabited

structure Language where
  tokens : Array Token
  nonterminals : Array Nonterminal
  renamed : List (Symbol × String)
  layouts : Array Layout
  table : Table
  scanner : Scanner
  /-- The terminal that keywords look like. -/
  word : Nat
  /-- The keywords by their text. -/
  keywords : List (String × Nat)
deriving Inhabited

namespace Language

/-- Make a grammar ready for reading. -/
def ofGrammar (g : Grammar) : Language :=
  let n := g.normalize
  let lx := Lexicon.ofGrammar g n
  let items := ItemTable.ofNormal n
  let table := Table.build n lx items
  let modes := table.modeTerminals.map (members (n.tokens.size + 1))
  { tokens := n.tokens, nonterminals := n.nonterminals, renamed := n.renamed
    layouts := items.layouts, table, scanner := .build lx modes, word := n.word
    keywords := table.keywords.filterMap fun k =>
      (n.tokens.getD k default).terminal.literal.map (·, k) }

variable (l : Language)

/-- The terminal that stands for the end of the input. -/
def endOfInput : Nat := l.tokens.size

/-- All terminals but the end, the word first, in the order in which they are tried out. -/
def trialOrder : List Nat :=
  l.word :: (List.range l.tokens.size).filter (· != l.word)

def row (state : Nat) : Row := l.table.rows.getD state default

/-- The actions of a state for a label; only terminals have any. -/
def actions (state : Nat) : Label → List Action
  | .symbol (.terminal t) => (l.row state).actions.getD t []
  | _ => []

def mode (state : Nat) : Nat := l.table.modes.getD state 0

/-- The state after a tree with the given label; zero if the state has no place for it. -/
def nextState (state : Nat) : Label → Nat
  | .symbol (.terminal t) =>
    match ((l.row state).actions.getD t []).getLast? with
    | some (.shift s _) => s
    | some .skip => state
    | _ => 0
  | .symbol (.nonterminal v) => (l.row state).gotos.getD v 0
  | _ => 0

def appearance : Label → Appearance
  | .error => ⟨"ERROR", true, true⟩
  | .passed => ⟨"", false, false⟩
  | .symbol s =>
    match l.renamed.lookup s with
    | some name => ⟨name, true, true⟩
    | none =>
      match s with
      | .terminal t =>
        match l.tokens[t]? with
        | some token => ⟨token.name.getD "", token.name.isSome, token.named⟩
        | none => ⟨"", false, false⟩
      | .nonterminal v =>
        let x := l.nonterminals.getD v default
        ⟨x.name, x.shape == .node, x.shape == .node⟩

def visible (label : Label) : Bool := (l.appearance label).visible

def layout (i : Nat) : Layout := l.layouts.getD i {}

/-- Labels in the order by which equal readings are told apart. -/
def order : Label → Nat
  | .symbol (.terminal t) =>
    if t == l.endOfInput then 0 else if t == l.word then 1 else t + 2
  | .symbol (.nonterminal v) => l.tokens.size + 2 + v
  | .passed => l.tokens.size + 2 + l.nonterminals.size
  | .error => l.tokens.size + 3 + l.nonterminals.size

end Language

end GoReach.Grammar
