import GoReach.Go.Grammar
import GoReach.Parse.Visible

/-!
# Reading Go
-/

namespace GoReach.Go

open GoReach.Grammar (Language)
open GoReach.Syntax (Node)

/-- Go, made ready for reading. -/
def language : Language := Language.ofGrammar grammar

/-- The syntax tree of a Go file. -/
def parse (text : String) : Node := Parse.parse language text

end GoReach.Go
