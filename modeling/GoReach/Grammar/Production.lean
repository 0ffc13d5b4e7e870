import GoReach.Grammar.Rule

/-!
# Productions

A grammar in the form that tables are made from: a list of terminals, and a list of nonterminals,
each with its productions.

* Every terminal of the rules gets a number, in the order of first appearance.  A definition that
  is nothing but a terminal used nowhere else gives that terminal its name and is no nonterminal.
* A repetition becomes a nonterminal of its own, which is two of itself or the repeated rule once.
  Equal repetitions share one nonterminal.
* A rule becomes the list of its alternatives, each a sequence of steps.
* References to inline definitions are replaced by the productions of those.
-/

namespace GoReach.Grammar

/-- A terminal or a nonterminal, by number.  The end of the input is the terminal whose number is
the number of terminals. -/
inductive Symbol where
  | terminal (index : Nat)
  | nonterminal (index : Nat)
deriving BEq, Hashable, Repr, DecidableEq, Inhabited

/-- One step of a production: a symbol with all that is noted on it. -/
structure Step where
  symbol : Symbol
  rank : Option Int := none
  assoc : Option Assoc := none
  name : Option String := none
  field : Option String := none
deriving BEq, Hashable, Repr, Inhabited

structure Production where
  weight : Int
  steps : List Step
deriving BEq, Hashable, Repr, Inhabited

/-- How the nodes of a nonterminal appear in the tree. -/
inductive Shape where
  | node
  | group
  | family
  /-- A repetition. -/
  | repetition
deriving BEq, Repr, DecidableEq, Inhabited

structure Nonterminal where
  name : String
  shape : Shape
  productions : List Production
deriving Repr, Inhabited

/-- A terminal with its name in the tree, if it appears there. -/
structure Token where
  terminal : Terminal
  name : Option String
  /-- Named tokens have a definition; the others are known by their text. -/
  named : Bool
deriving Repr, Inhabited

/-- A grammar as terminals and productions. -/
structure Normal where
  tokens : Array Token
  nonterminals : Array Nonterminal
  /-- The terminals that may stand between any two tokens. -/
  extras : List Nat
  /-- The terminal that keywords look like. -/
  word : Nat
  /-- Symbols that appear under one other name wherever they appear. -/
  renamed : List (Symbol × String)
deriving Inhabited

/-! ## Terminals -/

def Part.terminal? : Part → Option Terminal
  | .terminal t => some t
  | .ref _ => none

/-- Every terminal leaf of the grammar, in order, repetitions included. -/
def terminalLeaves (g : Grammar) : List Terminal :=
  g.definitions.flatMap fun d => d.body.leaves.filterMap Part.terminal?

def terminals (g : Grammar) : List Terminal :=
  (g.terminalLeaves.foldl (fun seen t => if seen.contains t then seen else t :: seen) []).reverse

/-- The terminal that a definition names: its whole body, and used nowhere else.  The start is
always a nonterminal. -/
def namedTerminal? (leaves : List Terminal) (isStart : Bool) (d : Definition) : Option Terminal :=
  match d.body with
  | .leaf (.terminal t) => if !isStart && leaves.count t == 1 then some t else none
  | _ => none

/-! ## Repetitions -/

/-- Replace every repetition by a nonterminal numbered from `base` on.  The state lists the repeated
rules found so far, inner ones first. -/
def Rule.liftRepetitions (base : Nat) :
    Rule Symbol → StateM (Array (Rule Symbol)) (Rule Symbol)
  | .empty => pure .empty
  | .leaf s => pure (.leaf s)
  | .seq p q => return .seq (← p.liftRepetitions base) (← q.liftRepetitions base)
  | .either p q => return .either (← p.liftRepetitions base) (← q.liftRepetitions base)
  | .noted n p => return .noted n (← p.liftRepetitions base)
  | .many p => do
    let body ← p.liftRepetitions base
    let found ← get
    match found.findIdx? (· == body) with
    | some i => return .leaf (.nonterminal (base + i))
    | none =>
      set (found.push body)
      return .leaf (.nonterminal (base + found.size))

/-- The rule of a repetition: two of itself, or the repeated rule. -/
def Rule.repetition (self : Symbol) (body : Rule Symbol) : Rule Symbol :=
  .either (.seq (.leaf self) (.leaf self)) body

/-! ## Alternatives -/

/-- The heavier of two weights; the first of two equally heavy ones. -/
def heavier (a b : Int) : Int := if b.natAbs > a.natAbs then b else a

/-- The last step with another rank and leaning. -/
def relax (note : Note) (outer : Step) : List Step → List Step
  | [] => []
  | [s] =>
    match note with
    | .rank _ assoc =>
      [{ s with rank := outer.rank, assoc := if assoc.isSome then outer.assoc else s.assoc }]
    | _ => [s]
  | s :: rest => s :: relax note outer rest

/-- What a note does to the steps inside it. -/
def Step.under (outer : Step) : Note → Step
  | .rank level assoc =>
    { outer with rank := some level, assoc := if assoc.isSome then assoc else outer.assoc }
  | .weight _ => outer
  | .field f => { outer with field := some f }
  | .rename n => { outer with name := some n }

/-- The alternatives of a rule without repetitions.  `outer` holds what is noted around the rule;
a rank holds to the end of its part only where that part ends the whole production. -/
def Rule.alternatives (outer : Step) (atEnd : Bool) : Rule Symbol → List Production
  | .empty => [⟨0, []⟩]
  | .leaf s => [⟨0, [{ outer with symbol := s }]⟩]
  | .seq p q =>
    (p.alternatives outer false).flatMap fun x =>
      (q.alternatives outer atEnd).map fun y => ⟨heavier x.weight y.weight, x.steps ++ y.steps⟩
  | .either p q => p.alternatives outer atEnd ++ q.alternatives outer atEnd
  | .many p => p.alternatives outer atEnd
  | .noted note p =>
    (p.alternatives (outer.under note) atEnd).map fun x =>
      let steps := if atEnd then x.steps else relax note outer x.steps
      match note with
      | .weight amount => ⟨heavier amount x.weight, steps⟩
      | _ => ⟨x.weight, steps⟩

/-- The list without later copies of earlier members. -/
def withoutCopies {α : Type} [BEq α] (l : List α) : List α :=
  (l.foldl (fun seen a => if seen.contains a then seen else a :: seen) []).reverse

def Rule.productions (r : Rule Symbol) : List Production :=
  withoutCopies (r.alternatives { symbol := .terminal 0 } true)

/-! ## Names -/

/-- The name of a symbol that appears under other names only: the most frequent one, the first of
equally frequent ones. -/
def onlyName? (names : List (Option String)) : Option String :=
  if names.any Option.isNone then none
  else
    let given := names.filterMap id
    (withoutCopies given).foldl
      (fun best n =>
        match best with
        | none => some n
        | some b => if given.count n > given.count b then some n else some b)
      none

/-! ## Inline definitions -/

/-- A production of an inline definition in the place of a step that refers to it. -/
def Step.expand (s : Step) (steps : List Step) : List Step :=
  let own := steps.map fun t =>
    { t with name := s.name <|> t.name, field := s.field <|> t.field }
  match own.reverse with
  | [] => []
  | last :: before =>
    ({ last with rank := last.rank <|> s.rank, assoc := last.assoc <|> s.assoc } :: before).reverse

/-- What a step stands for: itself, or the productions of an inline definition.  An inline
definition refers to no other one. -/
def Step.options (inline : Symbol → Option (List Production)) (s : Step) : List Production :=
  match inline s.symbol with
  | none => [⟨0, [s]⟩]
  | some productions => productions.map fun p => ⟨p.weight, s.expand p.steps⟩

/-- All sequences that a sequence of steps stands for. -/
def expandSteps (inline : Symbol → Option (List Production)) : List Step → List Production
  | [] => [⟨0, []⟩]
  | s :: rest =>
    let tails := expandSteps inline rest
    (s.options inline).flatMap fun h =>
      tails.map fun t => ⟨heavier h.weight t.weight, h.steps ++ t.steps⟩

def Production.expand (inline : Symbol → Option (List Production)) (p : Production) :
    List Production :=
  (expandSteps inline p.steps).map fun q => ⟨heavier p.weight q.weight, q.steps⟩

/-! ## The whole grammar -/

/-- The terminals of a grammar, and which definition names which of them. -/
structure Vocabulary where
  terminals : List Terminal
  definitions : List (Definition × Option Terminal)

namespace Vocabulary

def ofGrammar (g : Grammar) : Vocabulary where
  terminals := g.terminals
  definitions :=
    let leaves := g.terminalLeaves
    g.definitions.mapIdx fun i d => (d, namedTerminal? leaves (i == 0) d)

/-- The definitions that are nonterminals. -/
def nonterminals (v : Vocabulary) : List Definition :=
  v.definitions.filterMap fun (d, t) => if t.isSome then none else some d

def terminalIndex (v : Vocabulary) (t : Terminal) : Nat := v.terminals.idxOf t

def symbol (v : Vocabulary) : Part → Symbol
  | .terminal t => .terminal (v.terminalIndex t)
  | .ref n =>
    match v.definitions.find? fun (d, _) => d.name == n with
    | some (_, some t) => .terminal (v.terminalIndex t)
    | _ => .nonterminal (v.nonterminals.findIdx fun d => d.name == n)

def token (v : Vocabulary) (t : Terminal) : Token :=
  match v.definitions.find? fun (_, t') => t' == some t with
  | some (d, _) =>
    let visible := d.role == Role.node
    { terminal := t, name := if visible then some d.name else none, named := visible }
  | none => { terminal := t, name := t.literal, named := false }

/-- The terminal that a definition names. -/
def namedIndex (v : Vocabulary) (name : String) : Option Nat :=
  match v.symbol (.ref name) with
  | .terminal t => some t
  | .nonterminal _ => none

end Vocabulary

/-- A nonterminal while the grammar is being put into normal form. -/
structure Draft where
  result : Nonterminal
  inline : Bool := false

def shapeOf : Role → Shape
  | .node => .node
  | .group | .inline => .group
  | .family => .family

/-- Nonterminals for all definitions, then for all repetitions. -/
def Vocabulary.drafts (v : Vocabulary) : List Draft :=
  let kept := v.nonterminals
  let base := kept.length
  let lifted : List (Rule Symbol) × Array (Rule Symbol) :=
    (kept.mapM fun (d : Definition) => (d.body.map v.symbol).liftRepetitions base).run #[]
  let define (d : Definition) (body : Rule Symbol) : Draft :=
    { result := { name := d.name, shape := shapeOf d.role, productions := body.productions }
      inline := d.role == Role.inline }
  let defined := List.zipWith define kept lifted.1
  let repeated := lifted.2.toList.mapIdx fun i body =>
    let rule := Rule.repetition (.nonterminal (base + i)) body
    { result := { name := "", shape := .repetition, productions := rule.productions } : Draft }
  defined ++ repeated

/-- The productions of inline definitions. -/
def inlineProductions (drafts : Array Draft) : Symbol → Option (List Production)
  | .terminal _ => none
  | .nonterminal i =>
    drafts[i]?.bind fun d => if d.inline then some d.result.productions else none

/-- All uses of symbols in productions, each with the name that it gives its symbol. -/
def usesOf (drafts : List Draft) : List (Symbol × Option String) :=
  drafts.flatMap fun d =>
    d.result.productions.flatMap fun p => p.steps.map fun s => (s.symbol, s.name)

/-- Symbols that appear under one other name wherever they appear. -/
def renamedSymbols (uses : List (Symbol × Option String)) : List (Symbol × String) :=
  (withoutCopies (uses.map (·.1))).filterMap fun s =>
    (onlyName? (uses.filterMap fun (s', n) => if s' == s then some n else none)).map (s, ·)

/-- The step without the name that its symbol has anyway. -/
def Step.forget (renamed : List (Symbol × String)) (s : Step) : Step :=
  match s.name with
  | none => s
  | some n => if renamed.contains (s.symbol, n) then { s with name := none } else s

def Draft.forget (renamed : List (Symbol × String)) (d : Draft) : Draft :=
  { d with result := { d.result with
      productions := d.result.productions.map fun p =>
        { p with steps := p.steps.map (Step.forget renamed) } } }

/-- The nonterminal with all inline definitions written out; inline ones are left empty. -/
def Draft.finish (inline : Symbol → Option (List Production)) (d : Draft) : Nonterminal :=
  { d.result with
    productions :=
      if d.inline then []
      else withoutCopies (d.result.productions.flatMap (Production.expand inline)) }

/-- The grammar as terminals and productions. -/
def normalize (g : Grammar) : Normal :=
  let v := Vocabulary.ofGrammar g
  let drafts := v.drafts
  let isInline (s : Symbol) := (inlineProductions drafts.toArray s).isSome
  let extras := g.extras.filterMap v.namedIndex
  let uses := extras.map (Symbol.terminal ·, none) ++
    (usesOf drafts).filter fun (s, _) => !isInline s
  let renamed := renamedSymbols uses
  let plain := drafts.map (Draft.forget renamed)
  let inline := inlineProductions plain.toArray
  { tokens := (v.terminals.map v.token).toArray
    nonterminals := (plain.map (Draft.finish inline)).toArray
    extras
    word := (v.namedIndex g.word).getD 0
    renamed }

end GoReach.Grammar
