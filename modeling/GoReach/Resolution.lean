import GoReach.Go.Reference
import GoReach.NameTable

/-!
# Resolving references

A name refers to the declaration of that name in the file's own module.  A member refers to a
declaration of an imported module, provided that the file's own module does not declare the name
before the dot.  What refers to nothing is passed over.
-/

namespace GoReach

/-- One declaration refers to another. -/
structure Reference where
  source : Declaration
  target : Declaration
deriving DecidableEq, Repr, Inhabited

/-- A project in which references are resolved. -/
structure Scope where
  root : Path
  rootModule : String
  table : NameTable

namespace Scope

open GoReach.Syntax (Node)

/-- What a reference in a file of the given module refers to. -/
def target? (s : Scope) (module : String) (f : Go.SourceFile) : Go.Shape → Option Declaration
  | .name name => s.table.lookup module name
  | .member object name =>
    if (s.table.lookup module object).isSome then none
    else (f.import? object).bind fun i => s.table.lookup i.path name

/-- The declarations that a node which introduces names stands for. -/
def originsOf (f : Go.SourceFile) (declaration : Node) :
    Except ExtractionFault (List Declaration) :=
  (Go.enclosingOf declaration).map fun
    | .declarations names => names.filterMap f.declaration?
    | _ => []

/-- What a walk through a file has gathered. -/
structure Progress where
  /-- The references so far, the latest one first. -/
  references : List Reference := []
  /-- What the declarations that have been met stand for, by the numbers of their nodes. -/
  origins : Std.HashMap Nat (List Declaration) := ∅

namespace Progress

/-- The declarations to which a node with the given ancestors belongs.  What an outermost
declaration stands for is found out once and kept. -/
def originsAt (p : Progress) (f : Go.SourceFile) (ancestors : List Node) :
    Except ExtractionFault (List Declaration × Progress) :=
  match Go.outermost? ancestors with
  | none => .ok ([.fileRoot f.path], p)
  | some declaration =>
    match p.origins[declaration.info.id]? with
    | some known => .ok (known, p)
    | none =>
      (originsOf f declaration).map fun found =>
        (found, { p with origins := p.origins.insert declaration.info.id found })

/-- Add the references of some declarations to a target.  A declaration does not refer to itself,
nor to one that shares its specification. -/
def add (p : Progress) (sources : List Declaration) (target : Declaration) : Progress :=
  if sources.any target.same then p
  else { p with references := (sources.map fun source => ⟨source, target⟩).reverse ++ p.references }

end Progress

/-- Look at a node with the given ancestors in a file of the given module. -/
def visit (s : Scope) (module : String) (f : Go.SourceFile) (p : Progress) (ancestors : List Node)
    (n : Node) : Except ExtractionFault Progress :=
  match Go.shape? n ancestors.getLast? with
  | none => .ok p
  | some shape =>
    (p.originsAt f ancestors).map fun (sources, p) =>
      match s.target? module f shape with
      | none => p
      | some target => p.add sources target

/-- All references of a file in the order of its text. -/
def resolve (s : Scope) (f : Go.SourceFile) : Except Error (List Reference) := do
  let module ← Module.ofFile s.root s.rootModule f.path
  let p ← (f.tree.walk (s.visit module f) {}).mapError (Error.extraction f.path)
  return p.references.reverse

end Scope

end GoReach
