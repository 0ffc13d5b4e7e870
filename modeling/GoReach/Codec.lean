import GoReach.Declaration
import GoReach.Import
import GoReach.Json.Literal

/-!
# Declarations and imports as JSON

A record is written as an object of its fields in order.  It is read from such an object, in which
the order does not count and unknown members are passed over, or from an array of all fields.
-/

namespace GoReach

/-- The fields of a record, in order.  A field may be missing in an object, but not be there
twice. -/
def Literal.fields? (names : List String) : Literal → Option (List (Option Literal))
  | .array items => if items.length == names.length then some (items.map some) else none
  | .object members => do
    let members ← members.mapM fun (name, value) =>
      (Literal.text? (.string name)).map fun name => (name, value)
    names.mapM fun name =>
      match members.filter fun m => m.1 == name with
      | [] => some none
      | [(_, value)] => some (some value)
      | _ => none
  | _ => none

namespace Declaration

namespace Kind

def toJson (k : Kind) : Json := .str k.label

/-- A kind is written by its name, or by an object with nothing under its name. -/
def ofLiteral? : Literal → Option Kind
  | .object [(name, .null)] => (Literal.text? (.string name)).bind ofLabel?
  | l => l.text?.bind ofLabel?

end Kind

namespace Span

def fieldNames : List String := ["start_line", "start_column", "end_line", "end_column"]

def toJson (s : Span) : Json :=
  .obj (fieldNames.zip ([s.startLine, s.startColumn, s.endLine, s.endColumn].map .num))

def ofLiteral? (l : Literal) : Option Span :=
  match l.fields? fieldNames with
  | some [some a, some b, some c, some d] => do
    return ⟨← a.nat?, ← b.nat?, ← c.nat?, ← d.nat?⟩
  | _ => none

end Span

def fieldNames : List String := ["file_path", "name", "kind", "span"]

def toJson (d : Declaration) : Json :=
  let span := match d.span with
    | some s => s.toJson
    | none => .null
  .obj (fieldNames.zip [.str d.file.text, .str d.name, d.kind.toJson, span])

/-- A span that need not be there. -/
def optionalSpan? : Option Literal → Option (Option Span)
  | none => some none
  | some .null => some none
  | some l => (Span.ofLiteral? l).map some

def ofLiteral? (l : Literal) : Option Declaration :=
  match l.fields? fieldNames with
  | some [some file, some name, some kind, span] => do
    return {
      file := ⟨← file.text?⟩, name := ← name.text?, kind := ← Kind.ofLiteral? kind
      span := ← optionalSpan? span }
  | _ => none

end Declaration

namespace Import

def fieldNames : List String := ["alias", "path"]

def toJson (i : Import) : Json := .obj (fieldNames.zip [.str i.name, .str i.path])

def ofLiteral? (l : Literal) : Option Import :=
  match l.fields? fieldNames with
  | some [some name, some path] => do return ⟨← name.text?, ← path.text?⟩
  | _ => none

end Import

end GoReach
