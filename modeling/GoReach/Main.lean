import GoReach.Command.Run

/-!
# The program

The parts of the disk that a command looks at are loaded into a `Disk`, the command is run on it,
and what it printed and wrote is printed and written.
-/

namespace GoReach

open Disk (Entry)

namespace Load

/-- The entry of a name in a directory; nothing if there is none.  A link names what it finally
leads to, and nothing if it leads nowhere. -/
def entryIn (directory name : String) : IO (Option Entry) := do
  try
    let path := (← IO.FS.realPath directory) / name
    match (← path.symlinkMetadata).type with
    | .dir => return some (.directory [])
    | .symlink =>
      try return some (.link (← IO.FS.realPath path).toString)
      catch _ => return some (.link "")
    | _ => return some (.file ByteArray.empty)
  catch _ => return none

/-- Load a directory and all that is below it; files are left empty. -/
partial def tree (path : String) : IO Entry := do
  let mut entries := []
  for item in ← (← IO.FS.realPath path).readDir do
    match ← entryIn path item.fileName with
    | some (.directory _) =>
      entries := (item.fileName, ← tree (path ++ "/" ++ item.fileName)) :: entries
    | some e => entries := (item.fileName, e) :: entries
    | none => pure ()
  return .directory entries

/-- Load what lies along a path, with what links on it lead to. -/
partial def along (d : Disk) (path : Path) : IO Disk := do
  let mut d := d
  let mut text := if path.isAbsolute then "/" else "."
  for s in Disk.segmentsOf path.text do
    text := text ++ "/" ++ s
    match d.locate ⟨text⟩ false with
    | .ok (.free directory name) =>
      match ← entryIn (Path.ofTrail directory).text name with
      | none => return d
      | some e =>
        d := { d with root := Entry.put e (directory ++ [name]) d.root }
        if let .link target := e then d ← along d ⟨target⟩
    | .ok (.taken _ (.link target)) => d ← along d ⟨target⟩
    | .ok (.taken _ _) => pure ()
    | .error _ => return d
  return d

/-- Load what lies along a path and below it. -/
def below (d : Disk) (path : Path) : IO Disk := do
  let d ← along d path
  match d.find path true with
  | .ok (trail, .directory _) =>
    let e ← tree (Path.ofTrail trail).text
    return { d with root := Entry.put e trail d.root }
  | _ => return d

/-- Load the contents of a file. -/
def content (d : Disk) (path : Path) : IO Disk := do
  let d ← along d path
  match d.find path true with
  | .ok (trail, .file _) =>
    let bytes ← IO.FS.readBinFile (Path.ofTrail trail).text
    return { d with root := Entry.put (.file bytes) trail d.root }
  | _ => return d

/-- The working directory, and what a request looks at. -/
def forRequest (q : Command.Request) : IO Disk := do
  let current := (Disk.segmentsOf (← IO.currentDir).toString).filter (!·.isEmpty)
  let start : Disk := { root := Entry.put (.directory []) current (.directory []), current }
  let mut d ← q.roots.foldlM below start
  if q.subcommand == .visualize then
    d ← along d q.outputDir
    for root in q.roots do
      if let .ok root := d.canonical root then
        d ← along d (q.outputDir.join ⟨(root.fileName?.getD "project") ++ ".dot"⟩)
  (q.reads d).foldlM content d

end Load

/-- Print what a run printed, and write what it wrote. -/
def deliver (o : Command.Outcome) : IO Unit := do
  for path in o.written do
    if let .ok text := o.disk.readText path then IO.FS.writeFile path.text text
  for message in o.messages do
    match message with
    | .output text => IO.print text
    | .notice text => IO.eprint text
    | .warning text => IO.eprintln ("WARN " ++ text)

end GoReach

open GoReach in
def main (arguments : List String) : IO UInt32 := do
  let outcome ← match Command.Request.ofArguments arguments with
    | .ok q => do pure (q.run Go.parse (← Load.forRequest q))
    | .error r => pure (r.outcome {})
  deliver outcome
  return UInt32.ofNat outcome.exitCode
