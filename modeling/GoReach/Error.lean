import GoReach.Path.Basic
import GoReach.Text.Position

/-!
# What can go wrong

Each cause of failure with its message.  A name that refers to nothing is not a failure.
-/

namespace GoReach

/-- Why a file could not be used. -/
inductive FileFault where
  | notFound
  | notDirectory
  | isDirectory
  | linkLoop
  /-- The bytes are not text. -/
  | notText
deriving BEq, DecidableEq, Repr, Inhabited

def FileFault.message : FileFault → String
  | .notFound => "No such file or directory (os error 2)"
  | .notDirectory => "Not a directory (os error 20)"
  | .isDirectory => "Is a directory (os error 21)"
  | .linkLoop => "Too many levels of symbolic links (os error 40)"
  | .notText => "stream did not contain valid UTF-8"

/-- Why a text is not accepted: something does not fit, or something of a kind is missing. -/
inductive SyntaxFault where
  | unexpected (place : Position)
  | missing (kind : String) (place : Position)
deriving BEq, DecidableEq, Repr, Inhabited

def SyntaxFault.message : SyntaxFault → String
  | .unexpected p => s!"syntax error at {p.line}:{p.column}"
  | .missing kind p => s!"missing {kind} at {p.line}:{p.column}"

inductive ManifestFault where
  | unreadable (fault : FileFault)
  | noDirective
deriving BEq, DecidableEq, Repr, Inhabited

def ManifestFault.message : ManifestFault → String
  | .unreadable fault => fault.message
  | .noDirective => "no module directive found"

/-- Why a declaration cannot be understood in a file that follows the grammar. -/
inductive ExtractionFault where
  | importWithoutPath
  | importPath (kind text : String)
  | methodWithoutName
  | receiver (method : String)
deriving BEq, DecidableEq, Repr, Inhabited

def ExtractionFault.message : ExtractionFault → String
  | .importWithoutPath => "import without a path"
  | .importPath kind text => s!"import path is not a string literal ({kind}): {text}"
  | .methodWithoutName => "method without a name"
  | .receiver method => s!"failed to get receiver name for {method}"

inductive Error where
  /-- A file could not be read or written. -/
  | file (path : Path) (fault : FileFault)
  /-- A directory could not be searched. -/
  | search (path : Path) (fault : FileFault)
  /-- A file does not follow the grammar. -/
  | syntactic (path : Path) (fault : SyntaxFault)
  | manifest (path : Path) (fault : ManifestFault)
  | outsideRoot (path root : Path)
  | extraction (path : Path) (fault : ExtractionFault)
deriving BEq, DecidableEq, Repr, Inhabited

namespace Error

/-- The text of a fault met in a directory search. -/
def searchMessage (path : Path) (fault : FileFault) : String :=
  "IO error for operation on " ++ path.text ++ ": " ++ fault.message

def message : Error → String
  | .file path fault => "failed to read " ++ path.text ++ ": " ++ fault.message
  | .search path fault => "failed to walk project directory: " ++ searchMessage path fault
  | .syntactic path fault => "failed to parse " ++ path.text ++ ": " ++ fault.message
  | .manifest path fault => "invalid go module manifest " ++ path.text ++ ": " ++ fault.message
  | .outsideRoot path root =>
    "file " ++ path.text ++ " does not start with root " ++ root.text
  | .extraction path fault =>
    "failed to extract declarations from " ++ path.text ++ ": " ++ fault.message

/-- The message, followed by those of the causes behind it. -/
def chain : Error → List String
  | .file path fault => [message (.file path fault), fault.message]
  | .search path fault =>
    [message (.search path fault), searchMessage path fault, fault.message]
  | e => [e.message]

end Error

end GoReach
