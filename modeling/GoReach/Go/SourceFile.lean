import GoReach.Go.Naming
import GoReach.Import
import GoReach.Sorted

/-!
# Go files

What a Go file declares at its top level, and what it imports.
-/

namespace GoReach.Go

open GoReach.Syntax (Node)

/-- A way of reading Go: it gives every text a syntax tree. -/
abbrev Parser := String → Node

/-- The syntax tree of a text, in which every node has a number of its own. -/
def Parser.tree (parser : Parser) (text : String) : Node := (parser text).numberFrom 0

structure SourceFile where
  path : Path
  package : String := ""
  /-- Sorted by name; of several declarations of one name the last one. -/
  declarations : List Declaration := []
  /-- Sorted. -/
  imports : List Import := []
  tree : Node := default
deriving Inhabited

namespace SourceFile

/-- The declaration of a name. -/
def declaration? (f : SourceFile) (name : String) : Option Declaration :=
  f.declarations.find? fun d => d.name == name

/-- The first import that goes by a name. -/
def import? (f : SourceFile) (name : String) : Option Import :=
  f.imports.find? fun i => i.name == name

def compareNames (a b : Declaration) : Ordering := compareOfLessAndEq a.name b.name

def spanOf (n : Node) : Declaration.Span :=
  ⟨n.info.start.line, n.info.start.column, n.info.stop.line, n.info.stop.column⟩

/-- Add the declarations of the names that a node introduces. -/
def addDeclarations (f : SourceFile) (n : Node) : Except ExtractionFault SourceFile :=
  (declaredNames n).map fun
    | none => f
    | some (kind, names) =>
      let new := (names.filter (· != discard)).map fun name =>
        { file := f.path, name, kind, span := some (spanOf n) : Declaration }
      { f with declarations := new.foldl (fun ds d => Sorted.put compareNames d ds) f.declarations }

/-- Text without the given character at its ends. -/
def trimQuotes (quote : Char) (text : String) : String :=
  let cs := (text.toList.dropWhile (· == quote)).reverse
  String.ofList (cs.dropWhile (· == quote)).reverse

/-- The path that an import names. -/
def importPath (n : Node) : Except ExtractionFault String :=
  match n.childInField? "path" with
  | none => .error .importWithoutPath
  | some path =>
    match path.kind with
    | "interpreted_string_literal" => .ok (trimQuotes '"' path.text)
    | "raw_string_literal" => .ok (trimQuotes '\x60' path.text)
    | kind => .error (.importPath kind path.text)

/-- Add an import. -/
def addImport (f : SourceFile) (n : Node) : Except ExtractionFault SourceFile :=
  (importPath n).map fun path =>
    let new := Import.ofPath path (fieldText? n "name")
    { f with imports := Sorted.insert Import.compare new f.imports }

/-- The parts of a kind right below a declaration, or in a list below it. -/
def specs (n : Node) (kind : String) : List Node :=
  n.namedChildren.flatMap fun c =>
    if c.kind == kind then [c]
    else if "_list".toList.isSuffixOf c.kind.toList then
      c.namedChildren.filter fun s => s.kind == kind
    else []

/-- Add what a node at the top level declares or imports. -/
def addTopLevel (f : SourceFile) (n : Node) : Except ExtractionFault SourceFile :=
  match n.kind with
  | "package_clause" =>
    .ok (match n.childOfKind? "package_identifier" with
      | some name => { f with package := name.text }
      | none => f)
  | "import_declaration" => (specs n "import_spec").foldlM addImport f
  | "function_declaration" => f.addDeclarations n
  | "method_declaration" => f.addDeclarations n
  | "type_declaration" => (specs n "type_spec" ++ specs n "type_alias").foldlM addDeclarations f
  | "var_declaration" => (specs n "var_spec").foldlM addDeclarations f
  | "const_declaration" => (specs n "const_spec").foldlM addDeclarations f
  | _ => .ok f

/-- The file with the given syntax tree. -/
def ofTree (path : Path) (tree : Node) : Except ExtractionFault SourceFile :=
  tree.namedChildren.foldlM addTopLevel { path, tree }

/-- What is wrong with a text, by the first node of its tree that is. -/
def syntaxFault? (tree : Node) : Option SyntaxFault :=
  tree.firstFault?.map fun n =>
    if n.info.isMissing then .missing n.kind n.info.start else .unexpected n.info.start

/-- The file with the given syntax tree, if there is nothing wrong with it. -/
def check (path : Path) (tree : Node) : Except Error SourceFile :=
  match syntaxFault? tree with
  | some fault => .error (.syntactic path fault)
  | none => (ofTree path tree).mapError (.extraction path)

/-- The file with the given text. -/
def ofText (parser : Parser) (path : Path) (text : String) : Except Error SourceFile :=
  check path (parser.tree text)

end SourceFile

end GoReach.Go
