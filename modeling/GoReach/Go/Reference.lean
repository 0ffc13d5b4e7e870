import GoReach.Go.SourceFile
import GoReach.Syntax.Cursor

/-!
# References in Go files

A reference is a name, or a member of something that has a name.  It belongs to the outermost
declaration around it, and to the file root if there is none.
-/

namespace GoReach.Go

open GoReach.Syntax (Node)

/-- What a reference looks like. -/
inductive Shape where
  | name (s : String)
  | member (object : String) (part : String)
deriving BEq, DecidableEq, Repr, Inhabited

def Shape.text : Shape → String
  | .name s => s
  | .member object part => object ++ "." ++ part

/-- The shape of a node, if it is a reference.  The parts of a qualified type are none of their
own. -/
def shape? (n : Node) (parent : Option Node) : Option Shape :=
  match n.kind with
  | "identifier" => plain
  | "type_identifier" => plain
  | "selector_expression" =>
    match n.childInField? "operand", n.childInField? "field" with
    | some object, some member =>
      if object.kind == "identifier" then some (.member object.text member.text) else none
    | _, _ => none
  | "qualified_type" =>
    match n.childInField? "package", n.childInField? "name" with
    | some object, some member => some (.member object.text member.text)
    | _, _ => none
  | _ => none
where
  /-- A name, unless it is half of a qualified one. -/
  plain : Option Shape :=
    if parent.any fun p => p.kind == "qualified_type" then none else some (.name n.text)

/-- What a node belongs to. -/
inductive Enclosing where
  /-- It stands outside of all declarations. -/
  | fileRoot
  /-- It stands in a declaration of these names. -/
  | declarations (names : List String)
  /-- It stands in a declaration without a name that could be used. -/
  | discarded
deriving BEq, DecidableEq, Repr, Inhabited

/-- The outermost declaration among ancestors, which come the root first. -/
def outermost? (ancestors : List Node) : Option Node := ancestors.find? isDeclaration

/-- What the parts of a declaration belong to. -/
def enclosingOf (declaration : Node) : Except ExtractionFault Enclosing :=
  (declaredNames declaration).map fun
    | none => .fileRoot
    | some (_, names) =>
      match names.filter (· != discard) with
      | [] => .discarded
      | names => .declarations names

/-- What a node with the given ancestors belongs to. -/
def enclosing (ancestors : List Node) : Except ExtractionFault Enclosing :=
  match outermost? ancestors with
  | some declaration => enclosingOf declaration
  | none => .ok .fileRoot

/-- A reference, where it stands, and what it belongs to. -/
structure Occurrence where
  place : Position
  shape : Shape
  enclosing : Enclosing
deriving BEq, DecidableEq, Repr, Inhabited

namespace SourceFile

/-- All references of a file in the order of its text. -/
def occurrences (f : SourceFile) : Except Error (List Occurrence) :=
  let visit (found : List Occurrence) (ancestors : List Node) (n : Node) :=
    match shape? n ancestors.getLast? with
    | none => .ok found
    | some shape =>
      match enclosing ancestors with
      | .ok e => .ok (⟨n.info.start, shape, e⟩ :: found)
      | .error fault => .error (.extraction f.path fault)
  (f.tree.walk visit []).map List.reverse

end SourceFile

end GoReach.Go
