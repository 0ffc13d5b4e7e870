import GoReach.Error

/-!
# Disks

What is stored on a disk, as a value: directories with their entries, files with their bytes, and
symbolic links.  A path is followed through directories and links; it leads to an entry, or to a
free place in a directory, where a file could be written.

Names are Unicode text, and names that are not written alike are different names.  Every entry is in
one directory only and has one name there, so that only links lead from one place to another.
-/

namespace GoReach

namespace Disk

inductive Entry where
  | file (content : ByteArray)
  | directory (entries : List (String × Entry))
  /-- A link to a path, which counts from the link's directory. -/
  | link (target : String)
deriving Inhabited

namespace Entry

/-- The entry at the end of a trail of names. -/
def get? : Entry → List String → Option Entry
  | e, [] => some e
  | .directory entries, name :: rest => (entries.lookup name).bind fun e => e.get? rest
  | _, _ :: _ => none

/-- Replace the entry of a name, or add it. -/
def replace (name : String) (new : Entry) : List (String × Entry) → List (String × Entry)
  | [] => [(name, new)]
  | (n, e) :: rest => if n == name then (n, new) :: rest else (n, e) :: replace name new rest

/-- Put an entry at the end of a trail of names, in directories that are made if need be. -/
def put (new : Entry) : List String → Entry → Entry
  | [], _ => new
  | name :: rest, .directory entries =>
    .directory (replace name (put new rest ((entries.lookup name).getD (.directory []))) entries)
  | name :: rest, _ => .directory [(name, put new rest (.directory []))]

end Entry

end Disk

structure Disk where
  root : Disk.Entry := .directory []
  /-- The trail of names to the working directory. -/
  current : List String := []
deriving Inhabited

namespace Disk

/-- Where a path leads. -/
inductive Place where
  /-- To an entry, at the end of a trail of names from the root. -/
  | taken (trail : List String) (entry : Entry)
  /-- To a name that its directory does not have. -/
  | free (directory : List String) (name : String)

/-- The most links that are followed in one path. -/
def linkLimit : Nat := 40

def segmentsOf (text : String) : List String :=
  (Path.segments text.toList).map String.ofList

/-- Follow segments from a directory on.  A link at the very end is followed if `through` says
so. -/
def follow (root : Entry) (through : Bool) (links : Nat) (trail segments : List String) :
    Except FileFault Place :=
  match segments with
  | [] =>
    match root.get? trail with
    | some e => .ok (.taken trail e)
    | none => .error .notFound
  | s :: rest =>
    match root.get? trail with
    | some (.directory entries) =>
      if s == "" || s == "." then follow root through links trail rest
      else if s == ".." then follow root through links trail.dropLast rest
      else
        match entries.lookup s with
        | none => if rest.isEmpty then .ok (.free trail s) else .error .notFound
        | some (.link target) =>
          if rest.isEmpty && !through then .ok (.taken (trail ++ [s]) (.link target))
          else
            match links with
            | 0 => .error .linkLoop
            | links + 1 =>
              if target.isEmpty then .error .notFound
              else
                let start := if (Path.mk target).isAbsolute then [] else trail
                follow root through links start (segmentsOf target ++ rest)
        | some _ => follow root through links (trail ++ [s]) rest
    | some _ => .error .notDirectory
    | none => .error .notFound
termination_by (links, segments.length)

variable (d : Disk)

/-- Where a path leads; a link at its very end is followed if `through` says so. -/
def locate (p : Path) (through : Bool) : Except FileFault Place :=
  if p.text.isEmpty then .error .notFound
  else
    let start := if p.isAbsolute then [] else d.current
    follow d.root through linkLimit start (segmentsOf p.text)

/-- The entry to which a path leads, and the trail to it. -/
def find (p : Path) (through : Bool) : Except FileFault (List String × Entry) :=
  match d.locate p through with
  | .ok (.taken trail e) => .ok (trail, e)
  | .ok (.free _ _) => .error .notFound
  | .error fault => .error fault

/-- The path without links, dots and spare slashes that leads to the same entry. -/
def canonical (p : Path) : Except FileFault Path :=
  (d.find p true).map fun (trail, _) => .ofTrail trail

/-- The text of a file. -/
def readText (p : Path) : Except FileFault String :=
  match d.find p true with
  | .error fault => .error fault
  | .ok (_, .file content) =>
    match String.fromUTF8? content with
    | some text => .ok text
    | none => .error .notText
  | .ok (_, _) => .error .isDirectory

/-- Write a text to a file, which is made if need be. -/
def writeText (p : Path) (text : String) : Except FileFault Disk :=
  let store (trail : List String) : Disk :=
    { d with root := Entry.put (.file text.toUTF8) trail d.root }
  match d.locate p true with
  | .error fault => .error fault
  | .ok (.free directory name) => .ok (store (directory ++ [name]))
  | .ok (.taken trail (.file _)) => .ok (store trail)
  | .ok (.taken _ _) => .error .isDirectory

end Disk

end GoReach
