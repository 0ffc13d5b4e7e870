import GoReach.Text.CharSet

/-!
# Regular patterns

The tokens of a language are described by regular patterns.  `Pattern σ` leaves open what stands
for a set of characters: a grammar is written with `CharSet`, and tokens are recognised over sets
of character classes, which are small numbers (see `GoReach.Grammar.Alphabet`).

A pattern is run by its *residuals*: what is left to match once one character has been read.  A
pattern has finitely many of them, so sets of residuals are the states of an automaton.
-/

namespace GoReach.Grammar

open GoReach.Text

/-- A regular pattern over sets of characters of type `σ`. -/
inductive Pattern (σ : Type) where
  /-- The empty text. -/
  | empty
  /-- One character of a set. -/
  | one (set : σ)
  | seq (first second : Pattern σ)
  | either (left right : Pattern σ)
  /-- Any number of repetitions, none included. -/
  | star (body : Pattern σ)
deriving BEq, Hashable, Repr, Inhabited

namespace Pattern

variable {σ τ : Type}

/-- One pattern after the other, the empty one left out. -/
def andThen : Pattern σ → Pattern σ → Pattern σ
  | .empty, q => q
  | p, .empty => p
  | p, q => .seq p q

instance : Append (Pattern σ) := ⟨andThen⟩

def oneOf : List (Pattern σ) → Pattern σ
  | [] => .empty
  | [p] => p
  | p :: rest => .either p (oneOf rest)

def optional (p : Pattern σ) : Pattern σ := .either p .empty

def plus (p : Pattern σ) : Pattern σ := p ++ .star p

/-- Exactly `n` repetitions. -/
def times : Nat → Pattern σ → Pattern σ
  | 0, _ => .empty
  | n + 1, p => p ++ times n p

def map (f : σ → τ) : Pattern σ → Pattern τ
  | .empty => .empty
  | .one s => .one (f s)
  | .seq p q => .seq (p.map f) (q.map f)
  | .either p q => .either (p.map f) (q.map f)
  | .star p => .star (p.map f)

/-- The sets that a pattern is built from. -/
def sets : Pattern σ → List σ
  | .empty => []
  | .one s => [s]
  | .seq p q | .either p q => p.sets ++ q.sets
  | .star p => p.sets

/-- Whether the pattern matches the empty text. -/
def nullable : Pattern σ → Bool
  | .empty => true
  | .one _ => false
  | .seq p q => p.nullable && q.nullable
  | .either p q => p.nullable || q.nullable
  | .star _ => true

/-- What may be left to match after one character, given which sets hold that character. -/
def residuals (holds : σ → Bool) : Pattern σ → List (Pattern σ)
  | .empty => []
  | .one s => if holds s then [.empty] else []
  | .seq p q =>
    (p.residuals holds).map (· ++ q) ++ if p.nullable then q.residuals holds else []
  | .either p q => p.residuals holds ++ q.residuals holds
  | .star p => (p.residuals holds).map (· ++ .star p)

/-- The sets of which a matching text's first character may be a member. -/
def firsts : Pattern σ → List σ
  | .empty => []
  | .one s => [s]
  | .seq p q => p.firsts ++ if p.nullable then q.firsts else []
  | .either p q => p.firsts ++ q.firsts
  | .star p => p.firsts

/-- Exactly the given characters, one after another. -/
def chars : List Char → Pattern CharSet
  | [] => .empty
  | c :: rest => .one (.single c) ++ chars rest

/-- Exactly the given text. -/
def text (s : String) : Pattern CharSet := chars s.toList

end Pattern

/-- A kind of token. -/
structure Terminal where
  pattern : Pattern CharSet
  /-- The text, for a terminal that is written in one way only. -/
  literal : Option String := none
  /-- An immediate terminal takes no blanks before it. -/
  immediate : Bool := false
  /-- Which of two terminals goes on where both could: the one of higher precedence. -/
  precedence : Nat := 0
deriving BEq, Repr, Inhabited

namespace Terminal

/-- The terminal written exactly so. -/
def word (s : String) : Terminal := { pattern := .text s, literal := some s }

/-- A literal text is a closer description than a pattern, and a token that must follow at once
closer than one that need not: of two terminals that match the same text, the closer one wins. -/
def closeness (t : Terminal) : Nat :=
  (if t.literal.isSome then 2 else 0) + if t.immediate then 1 else 0

end Terminal

end GoReach.Grammar
