import GoReach.Proofs.Failure
import GoReach.Proofs.Json.Values
import GoReach.Proofs.Order
import GoReach.Proofs.Path.Below
import GoReach.Proofs.Sorted
import GoReach.Report.Summary

/-!
# What a summary says

A summary is an object with the root, the module, the size of the graph and two lists of
declarations (`Summarizes`).  The lists have an entry for each declaration, in the order of
declarations (`Lists`).  An entry gives the file as seen from the root and the name, and in full
also the kind and the line (`Presents`).

A summary is made unless a declaration of the lists lies outside of the root (`exists_summary_iff`).
What it says can be read from its text, and determines the data (`Summarizes.agree`).
-/

namespace GoReach

/-- The entrypoints and the unreachable declarations are in order, each of them once. -/
structure Analysis.InOrder (a : Analysis) : Prop where
  entrypoints : Sorted.Strict Declaration.compare a.entrypoints
  unreachable : Sorted.Strict Declaration.compare a.unreachable

/-- The sizes of the graph and the lines of the declarations in the lists fit into 64 bits. -/
structure Analysis.Fits (a : Analysis) : Prop where
  nodes : a.graph.nodes.size < UInt64.size
  edges : a.graph.edges.size < UInt64.size
  lines : ∀ d ∈ a.entrypoints ++ a.unreachable, ∀ s ∈ d.span, s.startLine < UInt64.size

namespace Report

/-! ## What is to be said -/

/-- The entry says what it should about a declaration, and nothing else. -/
structure Presents (detail : Detail) (root : Path) (d : Declaration) (j : Json) : Prop where
  file : ∃ p, d.file.below? root = some p ∧ d.file.components = root.components ++ p.components ∧
    j.member? "f" = some (.str p.text)
  name : j.member? "n" = some (.str d.name)
  kind : j.member? "k" = if detail = .full then some (.str d.kind.label) else none
  line : j.member? "l" =
    if detail = .full then d.span.map fun s => .num s.startLine else none
  only : j.memberNames.Nodup ∧ j.memberNames ⊆ ["f", "k", "l", "n"]

/-- There is one entry for each declaration of a set, in the order of declarations. -/
def Lists (detail : Detail) (root : Path) (set : List Declaration) (entries : List Json) : Prop :=
  ∃ ds, Sorted.Strict Declaration.compare ds ∧ (∀ d, d ∈ ds ↔ d ∈ set) ∧
    List.Forall₂ (Presents detail root) ds entries

/-- The object says what it should about an analysis, and nothing else. -/
structure Summarizes (detail : Detail) (a : Analysis) (j : Json) : Prop where
  root : j.member? "root" = some (.str a.root.text)
  module : j.member? "module" = some (.str a.rootModule)
  nodes : j.member? "nodes" = some (.num a.graph.nodes.size)
  edges : j.member? "edges" = some (.num a.graph.edges.size)
  entrypoints : ∃ entries, j.member? "entrypoints" = some (.arr entries) ∧
    Lists detail a.root a.entrypoints entries
  unreachable : ∃ entries, j.member? "unreachable" = some (.arr entries) ∧
    Lists detail a.root a.unreachable entries
  only : j.memberNames.Nodup ∧
    j.memberNames ⊆ ["edges", "entrypoints", "module", "nodes", "root", "unreachable"]

/-! ## Entries -/

/-- The entry of a declaration whose file is the given path below the root. -/
def entry (detail : Detail) (file : Path) (d : Declaration) : Json :=
  let extra := match detail with
    | .full => ("k", Json.str d.kind.label) :: d.span.toList.map fun s => ("l", .num s.startLine)
    | .minimal => []
  .obj (("f", .str file.text) :: extra ++ [("n", .str d.name)])

section

variable {detail : Detail} {root p : Path} {d : Declaration} {j : Json}

lemma declarationJson_eq (detail : Detail) (root : Path) (d : Declaration) :
    declarationJson detail root d = (relativePath d.file root).map fun p => entry detail p d := rfl

/-- The entry of a declaration begins with its file, as seen from the root. -/
lemma declarationJson_eq_ok_iff :
    declarationJson detail root d = .ok j ↔
      ∃ p, d.file.below? root = some p ∧ entry detail p d = j := by
  rw [declarationJson_eq, map_eq_ok_iff, relativePath]
  cases d.file.below? root with
  | none => simp
  | some p => simp

/-- A declaration has an entry exactly if its file lies below the root. -/
lemma exists_declarationJson_iff (detail : Detail) :
    (∃ j, declarationJson detail root d = .ok j) ↔ root.components <+: d.file.components := by
  simp only [declarationJson_eq_ok_iff, ← Path.exists_below?_iff]
  constructor
  · rintro ⟨j, p, hp, -⟩
    exact ⟨p, hp⟩
  · rintro ⟨p, hp⟩
    exact ⟨_, p, hp, rfl⟩

/-- Otherwise the error names the file and the root. -/
lemma declarationJson_eq_error_iff {e : Error} :
    declarationJson detail root d = .error e ↔
      ¬ root.components <+: d.file.components ∧ .outsideRoot d.file root = e := by
  rw [declarationJson_eq, relativePath, ← Path.exists_below?_iff]
  cases d.file.below? root with
  | none => simp [Except.map]
  | some p => simp [Except.map]

/-- An entry says what it should. -/
lemma presents_of_declarationJson (h : declarationJson detail root d = .ok j) :
    Presents detail root d j := by
  obtain ⟨p, hp, rfl⟩ := declarationJson_eq_ok_iff.1 h
  obtain ⟨file, name, kind, span⟩ := d
  refine ⟨⟨p, hp, Path.components_eq_of_below? hp, rfl⟩, ?_, ?_, ?_, ?_⟩
  · cases detail <;> cases span <;> rfl
  · cases detail <;> cases span <;> rfl
  · cases detail <;> cases span <;> rfl
  · cases detail <;> cases span <;> simp [entry, Json.memberNames]

/-- Without the kind and the line an entry is minimal. -/
lemma entry_without (p : Path) (d : Declaration) :
    (entry .full p d).without ["k", "l"] = entry .minimal p d := by
  cases hspan : d.span <;> simp [entry, hspan, Json.without, Json.membersWithout]

/-- An entry fits into 64 bits if the line does. -/
lemma fits_entry (hlines : ∀ s ∈ d.span, s.startLine < UInt64.size) : (entry detail p d).Fits := by
  cases detail with
  | minimal => simp [entry, Json.Fits, Json.MembersFit]
  | full =>
      cases hspan : d.span with
      | none => simp [entry, hspan, Json.Fits, Json.MembersFit]
      | some s => simpa [entry, hspan, Json.Fits, Json.MembersFit] using hlines s hspan

end

/-- Two declarations are told from their entries by their file and name, kind and line. -/
structure SameEntry (root : Path) (d e : Declaration) : Prop where
  file : d.file.below? root = e.file.below? root
  name : d.name = e.name
  kind : d.kind = e.kind
  line : d.span.map Declaration.Span.startLine = e.span.map Declaration.Span.startLine

lemma label_injective {k l : Declaration.Kind} (h : k.label = l.label) : k = l := by
  revert h
  cases k <;> cases l <;> decide

/-- A full entry tells all that it is about. -/
lemma Presents.sameEntry {root : Path} {d e : Declaration} {j : Json}
    (hd : Presents .full root d j) (he : Presents .full root e j) : SameEntry root d e := by
  obtain ⟨p, hp, -, hpmember⟩ := hd.file
  obtain ⟨q, hq, -, hqmember⟩ := he.file
  refine ⟨?_, ?_, ?_, ?_⟩
  · rw [hpmember, Option.some.injEq, Json.str.injEq] at hqmember
    rw [hp, hq, Path.text_injective hqmember]
  · simpa [hd.name] using he.name
  · have hkind := hd.kind.symm.trans he.kind
    exact label_injective (by simpa using hkind)
  · have hline := hd.line.symm.trans he.line
    cases hdspan : d.span <;> cases hespan : e.span <;> simp_all

/-! ## Summaries -/

/-- The object made of an analysis and its entries. -/
def page (a : Analysis) (entrypoints unreachable : List Json) : Json :=
  .obj [
    ("edges", .num a.graph.edges.size),
    ("entrypoints", .arr entrypoints),
    ("module", .str a.rootModule),
    ("nodes", .num a.graph.nodes.size),
    ("root", .str a.root.text),
    ("unreachable", .arr unreachable)]

section

variable {detail : Detail} {a b : Analysis} {j : Json}

/-- A summary is made of the entries of its two lists. -/
lemma summary_eq_ok_iff :
    summary detail a = .ok j ↔
      ∃ entrypoints unreachable,
        a.entrypoints.mapM (declarationJson detail a.root) = .ok entrypoints ∧
        a.unreachable.mapM (declarationJson detail a.root) = .ok unreachable ∧
        page a entrypoints unreachable = j := by
  rw [summary, bind_eq_ok_iff]
  constructor
  · rintro ⟨entrypoints, hentrypoints, hrest⟩
    obtain ⟨unreachable, hunreachable, hpage⟩ := bind_eq_ok_iff.1 hrest
    exact ⟨entrypoints, unreachable, hentrypoints, hunreachable, Except.ok.inj hpage⟩
  · rintro ⟨entrypoints, unreachable, hentrypoints, hunreachable, rfl⟩
    exact ⟨entrypoints, hentrypoints, bind_eq_ok_iff.2 ⟨unreachable, hunreachable, rfl⟩⟩

/-- Declarations have entries if all of them lie below the root. -/
lemma exists_mapM_iff (detail : Detail) {root : Path} {ds : List Declaration} :
    (∃ js, ds.mapM (declarationJson detail root) = .ok js) ↔
      ∀ d ∈ ds, root.components <+: d.file.components := by
  simp only [← exists_declarationJson_iff detail]
  constructor
  · rintro ⟨js, hjs⟩ d hd
    obtain ⟨j, -, hj⟩ := exists_of_mem_of_mapM hjs hd
    exact ⟨j, hj⟩
  · exact mapM_succeeds

/-- A summary is made if all declarations of its lists lie below the root. -/
lemma exists_summary_iff (detail : Detail) :
    (∃ j, summary detail a = .ok j) ↔
      ∀ d ∈ a.entrypoints ++ a.unreachable, a.root.components <+: d.file.components := by
  rw [List.forall_mem_append, ← exists_mapM_iff detail, ← exists_mapM_iff detail]
  simp only [summary_eq_ok_iff]
  constructor
  · rintro ⟨j, entrypoints, unreachable, hentrypoints, hunreachable, -⟩
    exact ⟨⟨entrypoints, hentrypoints⟩, unreachable, hunreachable⟩
  · rintro ⟨⟨entrypoints, hentrypoints⟩, unreachable, hunreachable⟩
    exact ⟨_, entrypoints, unreachable, hentrypoints, hunreachable, rfl⟩

/-- A summary fails where a list of all its declarations would. -/
lemma mapM_of_summary_eq_error {e : Error} (h : summary detail a = .error e) :
    (a.entrypoints ++ a.unreachable).mapM (declarationJson detail a.root) = .error e := by
  rw [summary] at h
  rw [List.mapM_append]
  cases hentrypoints : a.entrypoints.mapM (declarationJson detail a.root) with
  | error e' =>
      rw [hentrypoints] at h
      obtain rfl : e' = e := Except.error.inj h
      rfl
  | ok entrypoints =>
      rw [hentrypoints] at h
      cases hunreachable : a.unreachable.mapM (declarationJson detail a.root) with
      | error e' =>
          rw [hunreachable] at h
          obtain rfl : e' = e := Except.error.inj h
          rfl
      | ok unreachable =>
          rw [hunreachable] at h
          cases h

/-- The error of a summary is that of a declaration outside of the root. -/
lemma outside_of_summary_eq_error {e : Error} (h : summary detail a = .error e) :
    ∃ d ∈ a.entrypoints ++ a.unreachable,
      ¬ a.root.components <+: d.file.components ∧ .outsideRoot d.file a.root = e := by
  obtain ⟨before, d, after, hlist, -, herror⟩ := mapM_eq_error_iff.1 (mapM_of_summary_eq_error h)
  exact ⟨d, by simp [hlist], declarationJson_eq_error_iff.1 herror⟩

/-- The entries are in the order of the declarations. -/
lemma lists_of_mapM {root : Path} {ds : List Declaration} {js : List Json}
    (hds : Sorted.Strict Declaration.compare ds)
    (h : ds.mapM (declarationJson detail root) = .ok js) : Lists detail root ds js := by
  refine ⟨ds, hds, fun d => Iff.rfl, ?_⟩
  exact (mapM_eq_ok_iff.1 h).imp fun d j => presents_of_declarationJson

/-- A summary says what it should. -/
lemma summarizes_of_summary (ha : a.InOrder) (h : summary detail a = .ok j) :
    Summarizes detail a j := by
  obtain ⟨entrypoints, unreachable, hentrypoints, hunreachable, rfl⟩ := summary_eq_ok_iff.1 h
  exact {
    root := rfl
    module := rfl
    nodes := rfl
    edges := rfl
    entrypoints := ⟨entrypoints, rfl, lists_of_mapM ha.entrypoints hentrypoints⟩
    unreachable := ⟨unreachable, rfl, lists_of_mapM ha.unreachable hunreachable⟩
    only := by simp [page, Json.memberNames] }

lemma fits_of_mapM {root : Path} {ds : List Declaration} {js : List Json}
    (hlines : ∀ d ∈ ds, ∀ s ∈ d.span, s.startLine < UInt64.size)
    (h : ds.mapM (declarationJson detail root) = .ok js) : Json.ItemsFit js := by
  refine Json.itemsFit_iff.2 fun j hj => ?_
  obtain ⟨d, hd, hjson⟩ := exists_of_mem_result h hj
  obtain ⟨p, -, rfl⟩ := declarationJson_eq_ok_iff.1 hjson
  exact fits_entry (hlines d hd)

/-- A summary fits into 64 bits if its data do. -/
lemma fits_of_summary (ha : a.Fits) (h : summary detail a = .ok j) : j.Fits := by
  obtain ⟨entrypoints, unreachable, hentrypoints, hunreachable, rfl⟩ := summary_eq_ok_iff.1 h
  have hlines := List.forall_mem_append.1 ha.lines
  simp only [page, Json.Fits, Json.MembersFit, ha.nodes, ha.edges, true_and, and_true]
  exact ⟨fits_of_mapM hlines.1 hentrypoints, fits_of_mapM hlines.2 hunreachable⟩

/-- The entries of a minimal summary are those of a full one without kinds and lines. -/
lemma mapM_minimal {root : Path} {ds : List Declaration} {js : List Json}
    (h : ds.mapM (declarationJson .full root) = .ok js) :
    ds.mapM (declarationJson .minimal root) = .ok (js.map (Json.without ["k", "l"])) := by
  refine mapM_eq_ok_iff.2 (List.forall₂_map_right_iff.2 ((mapM_eq_ok_iff.1 h).imp fun d j hj => ?_))
  obtain ⟨p, hp, rfl⟩ := declarationJson_eq_ok_iff.1 hj
  exact declarationJson_eq_ok_iff.2 ⟨p, hp, (entry_without p d).symm⟩

/-- The minimal summary is the full one without the kinds and lines. -/
lemma summary_minimal (h : summary .full a = .ok j) :
    summary .minimal a = .ok (j.without ["k", "l"]) := by
  obtain ⟨entrypoints, unreachable, hentrypoints, hunreachable, rfl⟩ := summary_eq_ok_iff.1 h
  refine summary_eq_ok_iff.2 ⟨_, _, mapM_minimal hentrypoints, mapM_minimal hunreachable, ?_⟩
  simp [page, Json.without, Json.membersWithout, Json.itemsWithout_eq]

/-! ## What can be told from a summary -/

/-- Two analyses that a summary does not tell apart. -/
structure SameReport (a b : Analysis) : Prop where
  root : a.root = b.root
  module : a.rootModule = b.rootModule
  nodes : a.graph.nodes.size = b.graph.nodes.size
  edges : a.graph.edges.size = b.graph.edges.size
  entrypoints : List.Forall₂ (SameEntry a.root) a.entrypoints b.entrypoints
  unreachable : List.Forall₂ (SameEntry a.root) a.unreachable b.unreachable

/-- Entries of a sorted list of declarations belong to them one by one. -/
lemma Lists.forall₂ {root : Path} {set : List Declaration} {js : List Json}
    (hset : Sorted.Strict Declaration.compare set) (h : Lists detail root set js) :
    List.Forall₂ (Presents detail root) set js := by
  obtain ⟨ds, hds, hmem, hall⟩ := h
  rwa [hds.eq_of_mem_iff hset hmem] at hall

/-- Lists with the same entries agree on all that the entries say. -/
lemma forall₂_sameEntry {root : Path} {ds es : List Declaration} {js : List Json}
    (hds : List.Forall₂ (Presents .full root) ds js)
    (hes : List.Forall₂ (Presents .full root) es js) : List.Forall₂ (SameEntry root) ds es := by
  induction hds generalizing es with
  | nil =>
      cases hes
      exact .nil
  | cons hd _ ih =>
      cases hes with
      | cons he hes => exact .cons (hd.sameEntry he) (ih hes)

/-- What a full summary says determines the data. -/
lemma Summarizes.agree (ha : a.InOrder) (hb : b.InOrder) (hja : Summarizes .full a j)
    (hjb : Summarizes .full b j) : SameReport a b := by
  have hroot : a.root = b.root := by
    have htext := hja.root.symm.trans hjb.root
    rw [Option.some.injEq, Json.str.injEq] at htext
    exact Path.text_injective htext
  obtain ⟨es, hes, hea⟩ := hja.entrypoints
  obtain ⟨us, hus, hua⟩ := hja.unreachable
  obtain ⟨es', hes', heb⟩ := hjb.entrypoints
  obtain ⟨us', hus', hub⟩ := hjb.unreachable
  rw [hes, Option.some.injEq, Json.arr.injEq] at hes'
  rw [hus, Option.some.injEq, Json.arr.injEq] at hus'
  subst hes' hus'
  rw [← hroot] at heb hub
  exact {
    root := hroot
    module := by simpa using hja.module.symm.trans hjb.module
    nodes := by simpa using hja.nodes.symm.trans hjb.nodes
    edges := by simpa using hja.edges.symm.trans hjb.edges
    entrypoints := forall₂_sameEntry (hea.forall₂ ha.entrypoints) (heb.forall₂ hb.entrypoints)
    unreachable := forall₂_sameEntry (hua.forall₂ ha.unreachable) (hub.forall₂ hb.unreachable) }

end

namespace Sample

def main : Declaration := { file := ⟨"/p/a.go"⟩, name := "main", span := some ⟨3, 1, 4, 2⟩ }

def helper : Declaration := { file := ⟨"/p/a.go"⟩, name := "helper", span := some ⟨6, 1, 6, 17⟩ }

/-- A declaration without a place. -/
def placeless : Declaration := { file := ⟨"/p/a.go"⟩, name := "T::m", kind := .method }

def idle : Declaration := { file := ⟨"/p/u/b.go"⟩, name := "f", span := some ⟨9, 1, 9, 12⟩ }

/-- An entrypoint that refers to a function, and two declarations that nothing reaches. -/
def analysis : Analysis where
  root := ⟨"/p"⟩
  rootModule := "m"
  graph := ([main, helper, placeless, idle].foldl ReferenceGraph.insertNode {}).insertEdge 0 1
  entrypoints := [main]
  unreachable := [placeless, idle]

lemma inOrder : analysis.InOrder := ⟨by decide, by decide⟩

lemma fits : analysis.Fits := ⟨by decide, by decide, by decide⟩

lemma below : ∀ d ∈ analysis.entrypoints ++ analysis.unreachable,
    analysis.root.components <+: d.file.components := by
  decide

end Sample

end Report

end GoReach
