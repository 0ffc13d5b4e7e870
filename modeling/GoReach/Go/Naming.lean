import GoReach.Declaration
import GoReach.Error
import GoReach.Syntax.Node

/-!
# The names that Go declarations introduce

A function, a type and an alias introduce one name, a method its name qualified by the type of its
receiver, and the specification of a variable or constant one or more names.
-/

namespace GoReach.Go

open GoReach.Syntax (Node)

/-- The name of what is declared not to be used. -/
def discard : String := "_"

/-- The kinds of nodes that introduce names. -/
def declarationKinds : List String :=
  ["function_declaration", "method_declaration", "type_spec", "type_alias", "var_spec",
    "const_spec"]

def isDeclaration (n : Node) : Bool := declarationKinds.contains n.kind

/-- The text of the first child in a field. -/
def fieldText? (n : Node) (field : String) : Option String := (n.childInField? field).map Node.text

/-! ## Receivers -/

/-- The type inside a pointer, a pair of parentheses or an instance of a generic type. -/
def innerType? (n : Node) : Option Node :=
  match n.kind with
  | "generic_type" => n.childInField? "type" <|> n.namedChildren.head?
  | "pointer_type" => n.namedChildren.head?
  | "parenthesized_type" => n.namedChildren.head?
  | _ => none

theorem mem_children_of_namedChildren_head? {n c : Node} (h : n.namedChildren.head? = some c) :
    c ∈ n.children :=
  (List.mem_filter.1 (List.mem_of_mem_head? h)).1

theorem mem_children_of_innerType? {n c : Node} (h : innerType? n = some c) :
    c ∈ n.children := by
  unfold innerType? at h
  split at h
  · cases hf : n.childInField? "type" with
    | some d =>
      rw [hf] at h
      simp only [Option.orElse_eq_orElse, Option.orElse_eq_or, Option.some_or,
        Option.some.injEq] at h
      exact h ▸ List.mem_of_find?_eq_some hf
    | none =>
      rw [hf] at h
      exact mem_children_of_namedChildren_head? (by simpa using h)
  · exact mem_children_of_namedChildren_head? h
  · exact mem_children_of_namedChildren_head? h
  · simp at h

/-- The name of a receiver's type, out of all that is around it. -/
def receiverType? (n : Node) : Option String :=
  if n.kind == "type_identifier" then some n.text
  else
    match _h : innerType? n with
    | some c => receiverType? c
    | none => none
termination_by n.size
decreasing_by exact Node.size_lt_of_mem (mem_children_of_innerType? _h)

/-- `Receiver::Method`. -/
def methodName (n : Node) : Except ExtractionFault String :=
  match fieldText? n "name" with
  | none => .error .methodWithoutName
  | some name =>
    let parameter := (n.childInField? "receiver").bind fun list =>
      list.namedChildren.find? fun c => c.kind == "parameter_declaration"
    match (parameter.bind (·.childInField? "type")).bind receiverType? with
    | some receiver => .ok (qualify [receiver, name])
    | none => .error (.receiver name)

/-! ## Declarations -/

/-- The names that a node introduces, and what they stand for; nothing if it introduces none. -/
def declaredNames (n : Node) :
    Except ExtractionFault (Option (Declaration.Kind × List String)) :=
  match n.kind with
  | "function_declaration" => .ok ((fieldText? n "name").map fun name => (.function, [name]))
  | "method_declaration" => (methodName n).map fun name => some (.method, [name])
  | "type_spec" => .ok ((fieldText? n "name").map fun name => (.type, [name]))
  | "type_alias" => .ok ((fieldText? n "name").map fun name => (.type, [name]))
  | "var_spec" => .ok (some (.value, valueNames n))
  | "const_spec" => .ok (some (.value, valueNames n))
  | _ => .ok none
where
  /-- The commas between the names stand in the same field as the names. -/
  valueNames (n : Node) : List String :=
    ((n.childrenInField "name").filter Node.isNamed).map Node.text

end GoReach.Go
