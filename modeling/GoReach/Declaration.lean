import GoReach.Path.Basic

/-!
# Declarations

A declaration is a name that a file gives to something at its top level.  The file and the name are
its identity; what it is and where it stands are carried along.  Code outside of all named
declarations belongs to the *file root*, a declaration with an empty name.
-/

namespace GoReach

/-- What stands between a file and a name, and between a receiver and its method. -/
def qualifier : String := "::"

/-- Join names with the qualifier. -/
def qualify (parts : List String) : String := qualifier.intercalate parts

namespace Declaration

inductive Kind where
  | function
  | method
  | type
  | value
  | fileRoot
deriving BEq, DecidableEq, Repr, Inhabited

namespace Kind

def all : List Kind := [.function, .method, .type, .value, .fileRoot]

/-- The name of a kind in reports. -/
def label : Kind → String
  | .function => "Function"
  | .method => "Method"
  | .type => "Type"
  | .value => "Value"
  | .fileRoot => "FileRoot"

def ofLabel? (s : String) : Option Kind := all.find? fun k => k.label == s

end Kind

/-- The stretch of a text that a declaration covers; lines and columns count from one. -/
structure Span where
  startLine : Nat
  startColumn : Nat
  endLine : Nat
  endColumn : Nat
deriving BEq, DecidableEq, Repr, Inhabited

end Declaration

structure Declaration where
  file : Path
  name : String
  kind : Declaration.Kind := .function
  span : Option Declaration.Span := none
deriving DecidableEq, Repr, Inhabited

namespace Declaration

/-- What makes a declaration the one it is. -/
structure Key where
  file : List Path.Component
  name : String
deriving BEq, ReflBEq, LawfulBEq, DecidableEq, Repr, Inhabited, Hashable

def key (d : Declaration) : Key := ⟨d.file.components, d.name⟩

/-- Whether two declarations are the same one. -/
def same (a b : Declaration) : Bool := a.key == b.key

/-- Declarations come in the order of their files, and then of their names. -/
def compare (a b : Declaration) : Ordering :=
  (a.file.compare b.file).then (compareOfLessAndEq a.name b.name)

/-- The code of a file outside of all named declarations. -/
def fileRoot (file : Path) : Declaration := { file, name := "", kind := .fileRoot }

def isFileRoot (d : Declaration) : Bool := d.name.isEmpty

/-- The name of a declaration, qualified by the given text of its file. -/
def nameIn (d : Declaration) (file : String) : String :=
  if d.isFileRoot then file else qualify [file, d.name]

def qualifiedName (d : Declaration) : String := d.nameIn d.file.text

end Declaration

end GoReach
