import GoReach.Grammar.Pattern

/-!
# Grammars

A grammar is a list of definitions, each a name and a rule.  A rule is built from terminals and
references to definitions by sequence, choice and repetition, and may carry notes: which field of
its node a part fills, under which name a part appears in the tree, how tightly a rule binds, and
how much a reading of an ambiguous text weighs.

The order of definitions, and of alternatives inside them, is part of a grammar: it numbers the
terminals and nonterminals, and those numbers decide between readings that are otherwise equal.
-/

namespace GoReach.Grammar

open GoReach.Text

/-- Which way a chain of equally binding operators leans. -/
inductive Assoc where
  | left
  | right
deriving BEq, Hashable, Repr, DecidableEq, Inhabited

/-- What is noted on a part of a rule. -/
inductive Note where
  /-- How tightly the part binds, and which way it leans. -/
  | rank (level : Int) (assoc : Option Assoc)
  /-- How much a reading with this part weighs against another reading of the same text. -/
  | weight (amount : Int)
  /-- The field that the part fills in its node. -/
  | field (name : String)
  /-- The name under which the part appears in the tree. -/
  | rename (name : String)
deriving BEq, Hashable, Repr, Inhabited

/-- A rule over leaves of type `α`. -/
inductive Rule (α : Type) where
  | empty
  | leaf (a : α)
  | seq (first second : Rule α)
  | either (left right : Rule α)
  /-- One or more repetitions. -/
  | many (body : Rule α)
  | noted (note : Note) (body : Rule α)
deriving BEq, Hashable, Repr, Inhabited

namespace Rule

variable {α β : Type}

instance : Append (Rule α) := ⟨.seq⟩

def map (f : α → β) : Rule α → Rule β
  | .empty => .empty
  | .leaf a => .leaf (f a)
  | .seq p q => .seq (p.map f) (q.map f)
  | .either p q => .either (p.map f) (q.map f)
  | .many p => .many (p.map f)
  | .noted n p => .noted n (p.map f)

/-- The leaves of a rule from left to right. -/
def leaves : Rule α → List α
  | .empty => []
  | .leaf a => [a]
  | .seq p q | .either p q => p.leaves ++ q.leaves
  | .many p | .noted _ p => p.leaves

def choice : List (Rule α) → Rule α
  | [] => .empty
  | [p] => p
  | p :: rest => .either p (choice rest)

def optional (p : Rule α) : Rule α := .either p .empty

/-- Any number of repetitions, none included. -/
def repeated (p : Rule α) : Rule α := .either (.many p) .empty

def field (name : String) (p : Rule α) : Rule α := .noted (.field name) p

def rename (name : String) (p : Rule α) : Rule α := .noted (.rename name) p

/-- Binds at the given level, without leaning to a side. -/
def rank (level : Int) (p : Rule α) : Rule α := .noted (.rank level none) p

def leaningLeft (level : Int) (p : Rule α) : Rule α := .noted (.rank level (some .left)) p

def leaningRight (level : Int) (p : Rule α) : Rule α := .noted (.rank level (some .right)) p

def weighing (amount : Int) (p : Rule α) : Rule α := .noted (.weight amount) p

end Rule

/-- A leaf of a written rule. -/
inductive Part where
  | terminal (t : Terminal)
  | ref (name : String)
deriving BEq, Repr, Inhabited

/-- How the nodes of a definition appear in the tree. -/
inductive Role where
  /-- As a node with the definition's name. -/
  | node
  /-- Not at all: its children take its place. -/
  | group
  /-- Like a group; it names a family of nodes, of which each stays a reading of its own. -/
  | family
  /-- Written out wherever it is referred to, before any table is made. -/
  | inline
deriving BEq, Repr, DecidableEq, Inhabited

structure Definition where
  name : String
  role : Role := .node
  body : Rule Part
deriving Repr, Inhabited

end GoReach.Grammar

namespace GoReach

/-- A grammar; its first definition is the start. -/
structure Grammar where
  definitions : List Grammar.Definition
  /-- Definitions, each a terminal, that may stand between any two tokens. -/
  extras : List String
  /-- Characters that may stand before any token. -/
  blanks : Text.CharSet
  /-- The definition of the terminal that keywords look like. -/
  word : String
deriving Inhabited

end GoReach
