import GoReach.Text.Letter

/-!
# Manifests

A project's manifest names its root module by a line `module <path>`.  The path may stand in quotes
or backquotes, and may then hold blanks.  What follows `//` on a line is a comment.
-/

namespace GoReach.Manifest

open GoReach.Text (isBlank)

/-- The name of the manifest in a project's root directory. -/
def fileName : String := "go.mod"

/-- The lines of a text.  A carriage return before the end of a line belongs to the end. -/
def lines : List Char → List (List Char)
  | [] => []
  | '\n' :: rest => [] :: lines rest
  | '\r' :: '\n' :: rest => [] :: lines rest
  | c :: rest =>
    match lines rest with
    | [] => [[c]]
    | line :: more => (c :: line) :: more

/-- A line without its comment. -/
def withoutComment : List Char → List Char
  | [] => []
  | '/' :: '/' :: _ => []
  | c :: rest => c :: withoutComment rest

/-- The text between two quotes, if nothing but blanks comes after them. -/
def quoted? (quote : Char) : List Char → Option (List Char)
  | [] => none
  | c :: rest =>
    let inside := rest.takeWhile (· != quote)
    match rest.dropWhile (· != quote) with
    | _ :: after =>
      if c == quote && !inside.isEmpty && after.all isBlank then some inside else none
    | [] => none

/-- The characters up to a blank, if nothing but blanks comes after them. -/
def bare? (cs : List Char) : Option (List Char) :=
  let word := cs.takeWhile fun c => !isBlank c
  if !word.isEmpty && (cs.drop word.length).all isBlank then some word else none

/-- The path that a line without comment gives to the module. -/
def directive? (line : List Char) : Option (List Char) :=
  let keyword := "module".toList
  let line := line.dropWhile isBlank
  if keyword.isPrefixOf line then
    let rest := line.drop keyword.length
    if rest.head?.any isBlank then
      let path := rest.dropWhile isBlank
      quoted? '"' path <|> quoted? '\x60' path <|> bare? path
    else none
  else none

/-- The path of the root module, from the first line that gives one. -/
def modulePath? (text : String) : Option String :=
  ((lines text.toList).findSome? fun line => directive? (withoutComment line)).map String.ofList

end GoReach.Manifest
