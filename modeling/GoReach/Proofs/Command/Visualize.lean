import GoReach.Command.Run
import GoReach.Proofs.Report.Dot

/-!
# What a run that draws graphs leaves behind

For each root, a run that is asked for drawings analyzes the project, draws its graph and writes the
drawing into a file that is named after the project (`Artifact.Made`).  Roots come one after
another, each on the disk that the ones before it have left (`Makes`).  A run succeeds exactly if
this can be done for all of them (`run_eq_of_makes`, `exists_makes_of_run`).

The name of the file is the last name of the root directory, so two roots can have one file between
them.  What a file holds in the end is the last drawing that was written to it (`Makes.readText`).
-/

namespace GoReach.Command

open Disk (Entry)

/-- The warnings of the collisions in a project. -/
def warnings (a : Analysis) : List Message :=
  a.table.collisions.toList.map fun c => .warning c.warning

/-- A drawing that was made for a root, and where it was written. -/
structure Artifact where
  root : Path
  analysis : Analysis
  path : Path
  text : String

namespace Artifact

/-- What is printed about a drawing: the collisions in the project, and the path of the file. -/
def messages (x : Artifact) : List Message :=
  warnings x.analysis ++ [.notice ("Generated " ++ x.path.text ++ "\n")]

/-- The drawing is that of the root's project as it is on the disk, and is written to the file that
is named after the project. -/
structure Made (parser : Go.Parser) (q : Request) (d : Disk) (x : Artifact) (d' : Disk) : Prop where
  analyzed : d.analyze parser (Session.searchOptions q) x.root = .ok x.analysis
  path_eq : x.path = q.outputDir.join ⟨x.analysis.projectName ++ ".dot"⟩
  drawn : Report.Dot.render .highlighted x.analysis = .ok x.text
  written : d.writeText x.path x.text = .ok d'

end Artifact

/-- Drawings are made one after another, each on the disk that the ones before it have left. -/
inductive Makes (parser : Go.Parser) (q : Request) : Disk → List Artifact → Disk → Prop where
  | nil (d : Disk) : Makes parser q d [] d
  | cons {d d₁ d' : Disk} {x : Artifact} {xs : List Artifact} (first : x.Made parser q d d₁)
      (rest : Makes parser q d₁ xs d') : Makes parser q d (x :: xs) d'

/-! ## The run -/

section Run

variable {parser : Go.Parser} {q : Request} {s s' : Session} {d d' : Disk} {xs : List Artifact}

/-- What a session has become after drawings. -/
def Session.after (s : Session) (xs : List Artifact) (d : Disk) : Session where
  disk := d
  messages := (xs.flatMap Artifact.messages).reverse ++ s.messages
  written := (xs.map Artifact.path).reverse ++ s.written

/-- A root is analyzed as the disk is now, and its collisions are warned of. -/
lemma analyze_eq_ok_iff {root : Path} {a : Analysis} :
    s.analyze parser q root = .ok (a, s') ↔
      s.disk.analyze parser (Session.searchOptions q) root = .ok a ∧
        s' = { s with messages := (warnings a).reverse ++ s.messages } := by
  have hwarn : ∀ (cs : List Collision) (s : Session),
      cs.foldl (fun s c => s.say (.warning c.warning)) s
        = { s with messages := (cs.map fun c => .warning c.warning).reverse ++ s.messages } := by
    intro cs
    induction cs with
    | nil => exact fun s => rfl
    | cons c cs ih =>
        intro s
        rw [List.foldl_cons, ih]
        simp [Session.say]
  rw [Session.analyze]
  cases s.disk.analyze parser (Session.searchOptions q) root with
  | error e => simp
  | ok b =>
      simp only [← Array.foldl_toList, hwarn, Except.ok.injEq, Prod.mk.injEq]
      constructor
      · rintro ⟨rfl, rfl⟩
        exact ⟨rfl, rfl⟩
      · rintro ⟨rfl, rfl⟩
        exact ⟨rfl, rfl⟩

/-- A drawing is written to the file that is named after the project. -/
lemma write_eq_ok_iff {a : Analysis} {directory path : Path} :
    Report.Dot.write d a directory = .ok (path, d') ↔
      ∃ text, Report.Dot.render .highlighted a = .ok text ∧
        path = directory.join ⟨a.projectName ++ ".dot"⟩ ∧ d.writeText path text = .ok d' := by
  simp only [Report.Dot.write, Report.Dot.fileName, bind_eq_ok_iff, mapError_eq_ok_iff, pure,
    Except.pure, Except.ok.injEq, Prod.mk.injEq]
  constructor
  · rintro ⟨text, htext, d₁, hd₁, rfl, rfl⟩
    exact ⟨text, htext, rfl, hd₁⟩
  · rintro ⟨text, htext, rfl, hd'⟩
    exact ⟨text, htext, d', hd', rfl, rfl⟩

/-- One root. -/
lemma handle_eq_ok_iff (hq : q.subcommand = .visualize) {root : Path} :
    Session.handle parser q s root = .ok s' ↔
      ∃ x d', x.root = root ∧ x.Made parser q s.disk d' ∧ s' = s.after [x] d' := by
  simp only [Session.handle, hq, bind_eq_ok_iff, mapError_eq_ok_iff, Prod.exists, analyze_eq_ok_iff,
    write_eq_ok_iff, pure, Except.pure, Except.ok.injEq]
  constructor
  · rintro ⟨a, s₁, ⟨ha, rfl⟩, path, d', ⟨text, htext, hpath, hd'⟩, rfl⟩
    refine ⟨⟨root, a, path, text⟩, d', rfl, ⟨ha, hpath, htext, hd'⟩, ?_⟩
    simp [Session.after, Session.say, Artifact.messages]
  · rintro ⟨x, d', rfl, ⟨ha, hpath, htext, hd'⟩, rfl⟩
    refine ⟨x.analysis, _, ⟨ha, rfl⟩, x.path, d', ⟨x.text, htext, hpath, hd'⟩, ?_⟩
    simp [Session.after, Session.say, Artifact.messages]

/-- Drawings after a drawing are drawings. -/
lemma after_after (s : Session) (x : Artifact) (xs : List Artifact) (d d' : Disk) :
    (s.after [x] d).after xs d' = s.after (x :: xs) d' := by
  simp [Session.after]

/-- All roots. -/
lemma foldlM_handle_eq_ok_iff (hq : q.subcommand = .visualize) {roots : List Path} :
    roots.foldlM (Session.handle parser q) s = .ok s' ↔
      ∃ xs d', Makes parser q s.disk xs d' ∧ xs.map Artifact.root = roots ∧ s' = s.after xs d' := by
  induction roots generalizing s with
  | nil =>
      rw [List.foldlM_nil]
      constructor
      · intro h
        refine ⟨[], s.disk, .nil s.disk, rfl, ?_⟩
        simpa [Session.after] using (Except.ok.inj h).symm
      · rintro ⟨xs, d', hmakes, hroots, rfl⟩
        obtain rfl := List.map_eq_nil_iff.1 hroots
        cases hmakes
        rfl
  | cons root roots ih =>
      rw [List.foldlM_cons, bind_eq_ok_iff]
      constructor
      · rintro ⟨s₁, hs₁, hrest⟩
        obtain ⟨x, d₁, hx, hmade, rfl⟩ := (handle_eq_ok_iff hq).1 hs₁
        obtain ⟨xs, d', hmakes, hxs, rfl⟩ := ih.1 hrest
        refine ⟨x :: xs, d', .cons hmade hmakes, ?_, after_after s x xs d₁ d'⟩
        rw [List.map_cons, hx, hxs]
      · rintro ⟨xs, d', hmakes, hroots, rfl⟩
        cases hmakes with
        | nil => cases hroots
        | @cons _ d₁ _ x xs first rest =>
            rw [List.map_cons, List.cons.injEq] at hroots
            refine ⟨s.after [x] d₁, (handle_eq_ok_iff hq).2 ⟨x, d₁, hroots.1, first, rfl⟩, ?_⟩
            exact ih.2 ⟨xs, d', rest, hroots.2, (after_after s x xs d₁ d').symm⟩

/-- If all drawings can be made, the run succeeds and leaves them behind. -/
lemma run_eq_of_makes (hq : q.subcommand = .visualize) (h : Makes parser q d xs d')
    (hroots : xs.map Artifact.root = q.roots) :
    q.run parser d = ⟨0, xs.flatMap Artifact.messages, d', xs.map Artifact.path⟩ := by
  have hall : Session.handleAll parser q { disk := d } = .ok (Session.after { disk := d } xs d') :=
    (foldlM_handle_eq_ok_iff hq).2 ⟨xs, d', h, hroots, rfl⟩
  rw [Request.run, hall]
  simp [Session.after]

/-- A run that succeeds has made all drawings. -/
lemma exists_makes_of_run (hq : q.subcommand = .visualize) (hrun : (q.run parser d).exitCode = 0) :
    ∃ xs, Makes parser q d xs (q.run parser d).disk ∧ xs.map Artifact.root = q.roots := by
  cases hall : Session.handleAll parser q { disk := d } with
  | error failed => simp [Request.run, hall] at hrun
  | ok s =>
      obtain ⟨xs, d', hmakes, hroots, -⟩ := (foldlM_handle_eq_ok_iff hq).1 hall
      rw [run_eq_of_makes hq hmakes hroots]
      exact ⟨xs, hmakes, hroots⟩

end Run

/-! ## What the files hold -/

section Files

variable {parser : Go.Parser} {q : Request} {d d' : Disk} {xs : List Artifact}

/-- Two paths lead to one file. -/
def SameFile (d : Disk) (p p' : Path) : Prop := d.destination? p = d.destination? p'

instance (d : Disk) (p p' : Path) : Decidable (SameFile d p p') :=
  inferInstanceAs (Decidable (_ = _))

/-- The path of each drawing leads somewhere from the beginning, since writing changes no directory.
-/
lemma Makes.isSome_destination? (h : Makes parser q d xs d') {x : Artifact} (hx : x ∈ xs) :
    (d.destination? x.path).isSome := by
  induction h with
  | nil => cases hx
  | cons first rest ih =>
      rcases List.mem_cons.1 hx with rfl | hx
      · obtain ⟨trail, htrail, -⟩ := Disk.writeText_eq_ok_iff.1 first.written
        rw [htrail]
        rfl
      · rw [← Disk.destination?_writeText first.written]
        exact ih hx

/-- What can be read at a path is the last drawing that was written to its file.  If there is none,
it is what was there before. -/
lemma Makes.readText (h : Makes parser q d xs d') (p : Path) :
    (d'.readText p).toOption
      = ((xs.filter fun x => SameFile d x.path p).getLast?.map Artifact.text).or
          (d.readText p).toOption := by
  induction h with
  | nil => rfl
  | @cons d d₁ d' x xs first rest ih =>
      have hsame : ∀ p p', SameFile d₁ p p' ↔ SameFile d p p' := by
        intro p p'
        rw [SameFile, SameFile, Disk.destination?_writeText first.written,
          Disk.destination?_writeText first.written]
      simp only [hsame] at ih
      rw [ih, Disk.readText_writeText first.written]
      by_cases hx : SameFile d x.path p
      · have hp : d.destination? p = d.destination? x.path := Eq.symm hx
        rw [if_pos hp, List.filter_cons_of_pos (by simpa using hx), List.getLast?_cons]
        cases (xs.filter fun x => SameFile d x.path p).getLast? <;> rfl
      · have hp : d.destination? p ≠ d.destination? x.path := fun heq => hx (Eq.symm heq)
        rw [if_neg hp, List.filter_cons_of_neg (by simpa using hx)]

/-- The last of the drawings after a given one that are written to the same file; the drawing itself
if there is none. -/
def lastAt (d : Disk) (x : Artifact) (after : List Artifact) : Artifact :=
  (after.filter fun y => SameFile d y.path x.path).getLast?.getD x

/-- So the path of a drawing holds the drawing itself or a later one. -/
lemma Makes.readText_path (h : Makes parser q d xs d') (before : List Artifact) {x : Artifact}
    {after : List Artifact} (hxs : xs = before ++ x :: after) :
    d'.readText x.path = .ok (lastAt d x after).text := by
  have htext := h.readText x.path
  have hx : SameFile d x.path x.path := rfl
  rw [hxs, List.filter_append, List.filter_cons_of_pos (by simpa using hx),
    List.getLast?_append_cons, List.getLast?_cons] at htext
  cases hread : d'.readText x.path with
  | error fault => simp [hread, Except.toOption] at htext
  | ok text => simpa [hread, Except.toOption, lastAt] using htext

/-- What no drawing was written to is left alone. -/
lemma Makes.readText_other (h : Makes parser q d xs d') {p : Path}
    (hp : ∀ x ∈ xs, ¬ SameFile d x.path p) :
    (d'.readText p).toOption = (d.readText p).toOption := by
  have hnil : (xs.filter fun x => SameFile d x.path p) = [] := by simpa using hp
  rw [h.readText, hnil]
  rfl

lemma Makes.exists_made (h : Makes parser q d xs d') {x : Artifact} (hx : x ∈ xs) :
    ∃ d₁ d₂, x.Made parser q d₁ d₂ := by
  induction h with
  | nil => cases hx
  | @cons d d₁ d' y ys first rest ih =>
      rcases List.mem_cons.1 hx with rfl | hx
      · exact ⟨d, d₁, first⟩
      · exact ih hx

/-- The name of a project is one component of a path. -/
lemma no_slash_projectName (a : Analysis) : '/' ∉ a.projectName.toList := by
  rw [Analysis.projectName, Path.fileName?]
  cases hlast : a.root.components.getLast? with
  | none => decide
  | some c =>
      cases c with
      | name s => exact Path.no_slash_of_mem_components (List.mem_of_getLast? hlast)
      | root => decide
      | current => decide
      | parent => decide

/-- The name of a drawing is one component of a path, and neither `.` nor `..`. -/
lemma plain_fileName (a : Analysis) : Path.Plain (a.projectName ++ ".dot") := by
  have hlength := String.length_append a.projectName ".dot"
  have hliterals : ".".length = 1 ∧ "..".length = 2 ∧ ".dot".length = 4 := by decide
  constructor
  · simp
  · intro heq
    rw [heq] at hlength
    omega
  · intro heq
    rw [heq] at hlength
    omega
  · simp [no_slash_projectName]

/-- Projects of different names have different files, unless there are links in their places. -/
lemma Makes.sameFile_iff (h : Makes parser q d xs d') {x y : Artifact} (hx : x ∈ xs) (hy : y ∈ xs)
    (hlinkx : ¬ d.IsLink x.path) (hlinky : ¬ d.IsLink y.path) :
    SameFile d x.path y.path ↔ x.analysis.projectName = y.analysis.projectName := by
  obtain ⟨_, _, hmadex⟩ := h.exists_made hx
  obtain ⟨_, _, hmadey⟩ := h.exists_made hy
  have hsome := h.isSome_destination? hx
  rw [hmadex.path_eq] at hlinkx hsome ⊢
  rw [hmadey.path_eq] at hlinky ⊢
  rw [SameFile, Disk.destination?_join_eq_iff (plain_fileName _) (plain_fileName _) hlinkx hlinky
    hsome, String.append_left_inj]

end Files

/-- What a run that made the drawings leaves behind. -/
structure Delivers (parser : Go.Parser) (q : Request) (d : Disk) (xs : List Artifact)
    (o : Outcome) : Prop where
  makes : Makes parser q d xs o.disk
  roots : xs.map Artifact.root = q.roots
  written : o.written = xs.map Artifact.path
  messages : o.messages = xs.flatMap Artifact.messages
  /-- The path of a drawing holds the last drawing that was written to its file. -/
  holds : ∀ before x after, xs = before ++ x :: after →
    o.disk.readText x.path = .ok (lastAt d x after).text
  /-- But for links, only projects of one name have one file. -/
  sameFile : ∀ x ∈ xs, ∀ y ∈ xs, ¬ d.IsLink x.path → ¬ d.IsLink y.path →
    (SameFile d x.path y.path ↔ x.analysis.projectName = y.analysis.projectName)
  /-- What no drawing was written to is as before. -/
  others : ∀ p, (∀ x ∈ xs, ¬ SameFile d x.path p) →
    (o.disk.readText p).toOption = (d.readText p).toOption

/-- **A drawing is kept unless a later one takes its place.**  A run that succeeds has drawn the
project of each root, and has told the path of the drawing.  That path holds the drawing, unless the
path of a later root leads to the same file; then it holds that of the last such root. -/
theorem drawings_kept_but_for_later (parser : Go.Parser) (q : Request) (d : Disk)
    (hq : q.subcommand = .visualize) (hrun : (q.run parser d).exitCode = 0) :
    ∃ xs, Delivers parser q d xs (q.run parser d) := by
  obtain ⟨xs, hmakes, hroots⟩ := exists_makes_of_run hq hrun
  have heq := run_eq_of_makes hq hmakes hroots
  refine ⟨xs, hmakes, hroots, by rw [heq], by rw [heq], ?_, ?_, ?_⟩
  · intro before x after hxs
    exact hmakes.readText_path before hxs
  · intro x hx y hy hlinkx hlinky
    exact hmakes.sameFile_iff hx hy hlinkx hlinky
  · intro p hp
    exact hmakes.readText_other hp

namespace Sample

open Scope.Sample (function)

/-- A file with one function. -/
def source : Go.SourceFile where
  path := ⟨"/x/app/a.go"⟩
  declarations := [{ file := ⟨"/x/app/a.go"⟩, name := "f", span := some ⟨1, 1, 1, 1⟩ }]
  tree := Syntax.Node.numberFrom 0 <| .node { kind := "source_file" } [function "f" []]

lemma parsed_source : ∀ f ∈ [source], f.Parsed :=
  List.forall_mem_singleton.2 ⟨rfl, Syntax.Node.distinctIds_numberFrom 0 _⟩

lemma methodsAtTop_source : ∀ f ∈ [source], Go.SourceFile.MethodsAtTop f.tree := by
  have hplaced : ∀ f ∈ [source], Go.Placed f.tree := by decide
  exact fun f hf => (hplaced f hf).methodsAtTop

/-- The project `app` in the directory `x`, which has a file, and the project `app` in the directory
`y`, which has none. -/
def twins (more : List (String × Entry)) : Disk where
  root := .directory <|
    ("x", .directory [("app", .directory [("go.mod", .file "module m\n".toUTF8),
      ("a.go", .file "/x/app/a.go".toUTF8)])]) ::
    ("y", .directory [("app", .directory [("go.mod", .file "module m\n".toUTF8)])]) :: more

/-- Draw both projects. -/
def request : Request where
  subcommand := .visualize
  roots := [⟨"/x/app"⟩, ⟨"/y/app"⟩]
  ignored := []
  includeTests := false
  verbose := 0
  format := .text
  outputDir := ⟨"/"⟩

/-- The disk after a drawing. -/
def drawn (text : String) : Disk := twins [("app.dot", .file text.toUTF8)]

section

variable {more : List (String × Entry)}

/-- The disk has the file of the first project in its place, ... -/
lemma stores_first : (twins more).Stores (.knowing [source]) {} ⟨"/x/app"⟩ "m" [source] where
  toFinds := Disk.finds_of_get? ["x", "app"] (by simp) (by decide) rfl "module m\n" rfl (by cbv)
    (by simp +decide [Disk.filesBelow]) (by decide)
  read := Disk.readSource_knowing [["x", "app", "a.go"]] parsed_source rfl (by decide) (by decide)
    (by decide) rfl

/-- ... and no file of the second one. -/
lemma stores_second : (twins more).Stores (.knowing [source]) {} ⟨"/y/app"⟩ "m" [] where
  toFinds := Disk.finds_of_get? ["y", "app"] (by simp) (by decide) rfl "module m\n" rfl (by cbv)
    (by simp +decide [Disk.filesBelow]) (by decide)
  read := List.forall_mem_nil _

variable (hmore : more = [] ∨ ∃ content, more = [("app.dot", .file content)])

include hmore

/-- The place of `app.dot` is the same before and after a drawing. -/
lemma destination?_twins : (twins more).destination? ⟨"/app.dot"⟩ = some ["app.dot"] := by
  have hsegments : Disk.segmentsOf "/app.dot" = ["", "app.dot"] := by decide
  have habsolute : Path.isAbsolute ⟨"/app.dot"⟩ = true := by decide
  rcases hmore with rfl | ⟨content, rfl⟩ <;>
    simp [Disk.destination?, Disk.locate, Disk.follow, hsegments, habsolute, Entry.get?, twins,
      List.lookup_cons, Except.toOption, Disk.Place.trail]

lemma writeText_twins (text : String) :
    (twins more).writeText ⟨"/app.dot"⟩ text = .ok (drawn text) := by
  refine Disk.writeText_eq_ok_iff.2 ⟨_, destination?_twins hmore, .inside ?_, ?_⟩
  · rcases hmore with rfl | ⟨content, rfl⟩
    · exact .free
    · exact .file content
  · rcases hmore with rfl | ⟨content, rfl⟩ <;> simp [twins, drawn, Entry.put, Entry.replace]

/-- The drawing of a project `app` is written to `app.dot`. -/
lemma exists_made {root : Path} (hname : root.fileName? = some "app") {files : List Go.SourceFile}
    (hparsed : ∀ f ∈ files, f.Parsed) (hbelow : ∀ f ∈ files, root.components <+: f.path.components)
    (hmethods : ∀ f ∈ files, Go.SourceFile.MethodsAtTop f.tree)
    (hstores : (twins more).Stores (.knowing [source]) {} root "m" files) :
    ∃ x : Artifact, x.Made (.knowing [source]) request (twins more) (drawn x.text) ∧
      x.root = root ∧ x.path = ⟨"/app.dot"⟩ ∧ x.analysis.projectName = "app" ∧
      ∃ references, x.analysis.Assembled files references := by
  obtain ⟨a, ha⟩ := Analysis.exists_ofFiles "m" hparsed hbelow hmethods
  obtain ⟨text, htext⟩ := (Analysis.allBelow_of_ofFiles hparsed ha).exists_render .highlighted
  have hproject : a.projectName = "app" := by
    obtain ⟨table, -, references, -, rfl⟩ := Analysis.ofFiles_eq_ok_iff.1 ha
    rw [Analysis.projectName, hname]
    rfl
  have hpath : (⟨"/app.dot"⟩ : Path) = request.outputDir.join ⟨"app" ++ ".dot"⟩ := by decide
  exact ⟨⟨root, a, ⟨"/app.dot"⟩, text⟩,
    ⟨hstores.analyze_eq.trans ha, hproject ▸ hpath, htext, writeText_twins hmore text⟩, rfl, rfl,
    hproject, Analysis.assembled_of_ofFiles hparsed ha⟩

end

/-- The two drawings differ, and are written to one file. -/
lemma exists_makes : ∃ x y : Artifact,
    Makes (.knowing [source]) request (twins []) [x, y] (drawn y.text) ∧
      [x.root, y.root] = request.roots ∧ x.path = ⟨"/app.dot"⟩ ∧ y.path = ⟨"/app.dot"⟩ ∧
      x.text ≠ y.text := by
  obtain ⟨x, hx, hrootx, hpathx, hnamex, _, hassembledx⟩ := exists_made (.inl rfl) (by decide)
    parsed_source (by decide) methodsAtTop_source stores_first
  obtain ⟨y, hy, hrooty, hpathy, hnamey, _, hassembledy⟩ := exists_made (.inr ⟨_, rfl⟩) (by decide)
    (by simp) (by simp) (by simp) stores_second
  refine ⟨x, y, .cons hx (.cons hy (.nil _)), by rw [hrootx, hrooty]; rfl, hpathx, hpathy, ?_⟩
  obtain ⟨D, hD, hdepictsx⟩ := Report.Dot.exists_drawing_of_render hassembledx.graph_eq hx.drawn
  obtain ⟨E, hE, hdepictsy⟩ := Report.Dot.exists_drawing_of_render hassembledy.graph_eq hy.drawn
  have hempty : y.analysis.graph.nodes.toList = [] := by
    refine List.eq_nil_iff_forall_not_mem.2 fun n hn => ?_
    rcases hassembledy.mem_nodes hn with ⟨f, hf, -⟩ | ⟨f, hf, -⟩ <;> cases hf
  have hnode : ∃ n, n ∈ x.analysis.graph.nodes.toList := by
    obtain ⟨n, hn, -⟩ := hassembledx.consistent.containsNode_iff.1 <|
      (hassembledx.containsNode_iff _).2 ⟨_, .inl ⟨source, List.mem_singleton_self source,
        List.mem_singleton_self _⟩, Declaration.same_iff.2 rfl⟩
    exact ⟨n, hn⟩
  obtain ⟨n, hn⟩ := hnode
  rw [← hD, ← hE, hdepictsy.eq_of_no_nodes hempty, hnamey, ← hnamex]
  exact hdepictsx.text_ne_of_node hn

end Sample

/-- Both projects are drawn. -/
theorem drawings_kept_but_for_later_sample :
    let o := Sample.request.run (.knowing [Sample.source]) (Sample.twins [])
    Sample.request.subcommand = .visualize ∧ o.exitCode = 0 ∧
      ∃ xs, Delivers (.knowing [Sample.source]) Sample.request (Sample.twins []) xs o := by
  obtain ⟨x, y, hmakes, hroots, -⟩ := Sample.exists_makes
  have hexit : (Sample.request.run (.knowing [Sample.source]) (Sample.twins [])).exitCode = 0 := by
    rw [run_eq_of_makes rfl hmakes hroots]
  exact ⟨rfl, hexit, drawings_kept_but_for_later _ _ _ rfl hexit⟩

/-- Two roots have one last name.  The drawing of the second one takes the place of the first one's,
and the paths that are told are the same. -/
theorem later_drawing_overwrites :
    let o := Sample.request.run (.knowing [Sample.source]) (Sample.twins [])
    Sample.request.roots = [⟨"/x/app"⟩, ⟨"/y/app"⟩] ∧ o.exitCode = 0 ∧
      o.written = [⟨"/app.dot"⟩, ⟨"/app.dot"⟩] ∧
      ∃ x y, Makes (.knowing [Sample.source]) Sample.request (Sample.twins []) [x, y] o.disk ∧
        [x.root, y.root] = Sample.request.roots ∧ [x.path, y.path] = o.written ∧
        o.disk.readText ⟨"/app.dot"⟩ = .ok y.text ∧ x.text ≠ y.text := by
  obtain ⟨x, y, hmakes, hroots, hpathx, hpathy, hne⟩ := Sample.exists_makes
  have hread := hmakes.readText_path [x] rfl
  rw [hpathy] at hread
  rw [run_eq_of_makes rfl hmakes hroots]
  refine ⟨rfl, rfl, by simp [hpathx, hpathy], x, y, hmakes, hroots, rfl, hread, hne⟩

end GoReach.Command
