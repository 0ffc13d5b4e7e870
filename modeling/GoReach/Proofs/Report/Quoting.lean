import GoReach.Proofs.Report.Dot

/-!
# Quoted texts in a drawing

In the DOT language a text stands between quotes.  A backslash takes the next character with it, so
the text ends at the first quote that no backslash has taken (`scanQuoted`); the backslashes are
then left out (`unescape`).

`escape` goes over a text twice, and the second time over what the first one has written.  Still
every character is written by itself: backslashes and quotes with a backslash before them, and all
others as they are (`toList_escape`).  So what is written for a character is read as one character,
whatever comes after it, and a text that is written between quotes is read back as it was
(`scanQuoted_escape`, `unescape_escape`).

That makes a whole drawing readable: the quoted texts in it are those that were put there, in order
(`quotedTexts_text`), whatever characters are in them.
-/

namespace GoReach.Report.Dot

/-! ## Reading -/

/-- The inside of a quoted text, as it is written, and what stands after the quote that ends it. -/
def scanQuoted : List Char → Option (List Char × List Char)
  | [] => none
  | '"' :: rest => some ([], rest)
  | ['\\'] => none
  | '\\' :: c :: rest => (scanQuoted rest).map fun r => ('\\' :: c :: r.1, r.2)
  | c :: rest => (scanQuoted rest).map fun r => (c :: r.1, r.2)

/-- Leave out the backslashes, but for those that another one has taken. -/
def unescape : List Char → List Char
  | [] => []
  | '\\' :: c :: rest => c :: unescape rest
  | c :: rest => c :: unescape rest

/-- Something is used up by a scan, if only the quote. -/
lemma length_of_scanQuoted {cs inside rest : List Char} (h : scanQuoted cs = some (inside, rest)) :
    rest.length < cs.length := by
  fun_induction scanQuoted cs generalizing inside rest with
  | case1 => simp at h
  | case2 tail =>
      obtain ⟨-, rfl⟩ : [] = inside ∧ tail = rest := by simpa using h
      simp
  | case3 => simp at h
  | case4 c tail ih =>
      obtain ⟨r, hr, heq⟩ := Option.map_eq_some_iff.1 h
      obtain ⟨-, rfl⟩ := Prod.mk.inj heq
      have := ih hr
      simp only [List.length_cons]
      omega
  | case5 c tail hquote hlast hslash ih =>
      obtain ⟨r, hr, heq⟩ := Option.map_eq_some_iff.1 h
      obtain ⟨-, rfl⟩ := Prod.mk.inj heq
      have := ih hr
      simp only [List.length_cons]
      omega

/-- All quoted texts, unless the last one has no end. -/
def quotedTexts : List Char → Option (List String)
  | [] => some []
  | '"' :: rest =>
    match _h : scanQuoted rest with
    | none => none
    | some (inside, after) => (quotedTexts after).map (String.ofList (unescape inside) :: ·)
  | _ :: rest => quotedTexts rest
termination_by cs => cs.length
decreasing_by
  · have := length_of_scanQuoted _h
    simp only [List.length_cons]
    omega
  · simp

/-- After a quote, the text up to the next quote is read. -/
lemma quotedTexts_quote {cs inside after : List Char} (h : scanQuoted cs = some (inside, after)) :
    quotedTexts ('"' :: cs) = (quotedTexts after).map (String.ofList (unescape inside) :: ·) := by
  rw [quotedTexts]
  split
  next hnone =>
    rw [h] at hnone
    cases hnone
  next hsome =>
    rw [h] at hsome
    cases hsome
    rfl

/-! ## Writing character by character -/

/-- How a character is written between quotes. -/
def escapeChar (c : Char) : List Char :=
  if c = '\\' ∨ c = '"' then ['\\', c] else [c]

/-- The second replacement leaves alone what the first one has written. -/
lemma escapeQuotes_escapeBackslashes (cs : List Char) :
    escapeQuotes (escapeBackslashes cs) = cs.flatMap escapeChar := by
  rw [escapeQuotes, escapeBackslashes, List.flatMap_assoc]
  congr 1
  funext c
  by_cases hslash : c = '\\'
  · simp [hslash, escapeChar]
  · by_cases hquote : c = '"' <;> simp [hslash, hquote, escapeChar]

lemma toList_escape (s : String) : (escape s).toList = s.toList.flatMap escapeChar := by
  rw [escape, String.toList_ofList, escapeQuotes_escapeBackslashes]

/-- What a character is escaped to does not end the quoted text. -/
lemma scanQuoted_escapeChar (c : Char) (rest : List Char) :
    scanQuoted (escapeChar c ++ rest)
      = (scanQuoted rest).map fun r => (escapeChar c ++ r.1, r.2) := by
  by_cases hc : c = '\\' ∨ c = '"'
  · simp [escapeChar, hc, scanQuoted]
  · rw [not_or] at hc
    simp [escapeChar, hc, scanQuoted]

/-- What a character is escaped to stands for that character. -/
lemma unescape_escapeChar (c : Char) (rest : List Char) :
    unescape (escapeChar c ++ rest) = c :: unescape rest := by
  by_cases hc : c = '\\' ∨ c = '"'
  · simp [escapeChar, hc, unescape]
  · rw [not_or] at hc
    simp [escapeChar, hc, unescape]

/-- What is written for a text has no end in it, and does not take the quote after it. -/
lemma scanQuoted_escape (s : String) (rest : List Char) :
    scanQuoted ((escape s).toList ++ '"' :: rest) = some ((escape s).toList, rest) := by
  rw [toList_escape]
  induction s.toList with
  | nil => simp [scanQuoted]
  | cons c cs ih => simp [List.flatMap_cons, scanQuoted_escapeChar, ih]

/-- So escaping is undone. -/
lemma unescape_escape (s : String) : unescape (escape s).toList = s.toList := by
  rw [toList_escape]
  induction s.toList with
  | nil => simp [unescape]
  | cons c cs ih => simp [List.flatMap_cons, unescape_escapeChar, ih]

lemma escape_injective : Function.Injective escape := by
  intro s t h
  apply String.toList_injective
  rw [← unescape_escape s, ← unescape_escape t, h]

/-! ## The quoted texts of a drawing -/

namespace Vertex

def texts (v : Vertex) : List String := ["n" ++ toString v.number, v.label]

end Vertex

namespace Box

def texts (number : Nat) (b : Box) : List String :=
  ("cluster_" ++ toString number) :: b.label :: b.vertices.flatMap Vertex.texts

/-- The texts of boxes that are numbered from `number` on. -/
def textsFrom (number : Nat) : List Box → List String
  | [] => []
  | b :: rest => b.texts number ++ textsFrom (number + 1) rest

end Box

def Arrow.texts (e : Arrow) : List String := ["n" ++ toString e.1, "n" ++ toString e.2]

/-- What stands between quotes in a drawing. -/
def Drawing.texts (D : Drawing) : List String :=
  D.title :: (Box.textsFrom 0 D.boxes ++ D.arrows.flatMap Arrow.texts)

/-- These are the quoted texts of a piece of a drawing, whatever comes after it. -/
def Reads (piece : String) (texts : List String) : Prop :=
  ∀ rest, quotedTexts (piece.toList ++ rest) = (quotedTexts rest).map (texts ++ ·)

namespace Reads

lemma append {a b : String} {ss ts : List String} (ha : Reads a ss) (hb : Reads b ts) :
    Reads (a ++ b) (ss ++ ts) := by
  intro rest
  rw [String.toList_append, List.append_assoc, ha, hb, Option.map_map]
  congr 1
  funext texts
  simp

/-- Nothing is read where there are no quotes. -/
lemma plain {piece : String} (h : '"' ∉ piece.toList) : Reads piece [] := by
  intro rest
  generalize piece.toList = cs at h
  induction cs with
  | nil => simp
  | cons c cs ih =>
      rw [List.mem_cons, not_or] at h
      rw [List.cons_append, quotedTexts, ih h.2]
      intro hquote
      exact h.1 hquote.symm

lemma quoted (s : String) : Reads (quoted s) [s] := by
  intro rest
  have hchars : (Dot.quoted s).toList ++ rest = '"' :: ((escape s).toList ++ '"' :: rest) := by
    simp [Dot.quoted]
  rw [hchars, quotedTexts_quote (scanQuoted_escape s rest), unescape_escape, String.ofList_toList]
  rfl

/-- A quoted text between parts without quotes. -/
lemma between {before after : String} (hbefore : '"' ∉ before.toList) (hafter : '"' ∉ after.toList)
    (s : String) : Reads (before ++ Dot.quoted s ++ after) [s] :=
  ((plain hbefore).append (.quoted s)).append (plain hafter)

end Reads

/-! ### Lines -/

/-- A vertex shows its number and its label. -/
lemma reads_vertex (v : Vertex) : Reads v.line v.texts := by
  have hname := Reads.quoted ("n" ++ toString v.number)
  have hcolour : Reads v.colour.request [] := by
    apply Reads.plain
    cases v.colour <;> decide
  rw [quoted_name] at hname
  exact (((((Reads.plain (by decide)).append hname).append (Reads.plain (by decide))).append
    (.quoted v.label)).append hcolour).append (Reads.plain (by decide))

/-- An arrow shows the numbers of its ends. -/
lemma reads_arrow (e : Arrow) : Reads e.line e.texts := by
  have hfrom := Reads.quoted ("n" ++ toString e.1)
  have hto := Reads.quoted ("n" ++ toString e.2)
  rw [quoted_name] at hfrom hto
  exact ((((Reads.plain (by decide)).append hfrom).append (Reads.plain (by decide))).append
    hto).append (Reads.plain (by decide))

/-- Lines are read together with the breaks after them. -/
def ReadsLines (lines texts : List String) : Prop :=
  Reads (String.join (lines.map (· ++ "\n"))) texts

namespace ReadsLines

lemma append {ks ls ss ts : List String} (hk : ReadsLines ks ss) (hl : ReadsLines ls ts) :
    ReadsLines (ks ++ ls) (ss ++ ts) := by
  rw [ReadsLines, List.map_append, String.join_append]
  exact Reads.append hk hl

lemma nil : ReadsLines [] [] := Reads.plain (by decide)

lemma line {l : String} {texts : List String} (h : Reads l texts) : ReadsLines [l] texts := by
  have hbreak : Reads "\n" [] := Reads.plain (by decide)
  have hline := h.append hbreak
  rw [List.append_nil] at hline
  simpa [ReadsLines] using hline

/-- What is read from the lines of several things is what is read from each of them. -/
lemma map {α : Type} {line : α → String} {texts : α → List String}
    (h : ∀ a, Reads (line a) (texts a)) (as : List α) :
    ReadsLines (as.map line) (as.flatMap texts) := by
  induction as with
  | nil => exact nil
  | cons a as ih =>
      rw [List.map_cons, List.flatMap_cons, ← List.singleton_append]
      exact append (.line (h a)) ih

end ReadsLines

/-- The lines of a box show its number, its label and its vertices. -/
lemma readsLines_box (number : Nat) (b : Box) : ReadsLines (b.lines number) (b.texts number) := by
  have hopen : Reads ("  subgraph \"cluster_" ++ toString number ++ "\" \x7b")
      ["cluster_" ++ toString number] := by
    have hbefore : "  subgraph \"cluster_" = "  subgraph " ++ ("\"" ++ "cluster_") := rfl
    have hafter : "\" \x7b" = "\"" ++ " \x7b" := rfl
    have hline : Reads ("  subgraph " ++ quoted ("cluster_" ++ toString number) ++ " \x7b")
        ["cluster_" ++ toString number] := .between (by decide) (by decide) _
    rw [quoted_numbered (by decide) (by decide)] at hline
    rw [hbefore, hafter]
    simpa only [String.append_assoc] using hline
  have hlabel : Reads ("    label=" ++ quoted b.label ++ ";") [b.label] :=
    .between (by decide) (by decide) b.label
  have hstyle : Reads "    style=filled;" [] := Reads.plain (by decide)
  have hcolour : Reads "    color=lightgrey;" [] := Reads.plain (by decide)
  have hclose : Reads "  \x7d" [] := Reads.plain (by decide)
  have hall := (((((ReadsLines.line hopen).append (.line hlabel)).append (.line hstyle)).append
    (.line hcolour)).append (.map reads_vertex b.vertices)).append (.line hclose)
  simpa [Box.texts, Box.lines] using hall

lemma readsLines_boxes (number : Nat) (bs : List Box) :
    ReadsLines (Box.linesFrom number bs) (Box.textsFrom number bs) := by
  induction bs generalizing number with
  | nil => exact .nil
  | cons b bs ih => exact (readsLines_box number b).append (ih (number + 1))

/-- The lines of a drawing show its title, its boxes and its arrows. -/
lemma readsLines_drawing (D : Drawing) : ReadsLines D.lines D.texts := by
  have htitle : Reads ("digraph " ++ quoted D.title ++ " \x7b") [D.title] :=
    .between (by decide) (by decide) D.title
  have hshape : Reads "  node [shape=box, style=filled, fillcolor=white];" [] :=
    Reads.plain (by decide)
  have hclose : Reads "\x7d" [] := Reads.plain (by decide)
  have hall := ((((ReadsLines.line htitle).append (.line hshape)).append
    (readsLines_boxes 0 D.boxes)).append (.map reads_arrow D.arrows)).append (.line hclose)
  simpa [Drawing.texts, Drawing.lines] using hall

/-- A drawing is read back: the quoted texts in it are those that it was made from. -/
lemma quotedTexts_text (D : Drawing) : quotedTexts D.text.toList = some D.texts := by
  have h := readsLines_drawing D []
  rw [List.append_nil] at h
  rw [Drawing.text, h]
  simp [quotedTexts]

open ReferenceGraph (Call ofCalls)

/-- **What is quoted is read back.**  A text that is written between quotes ends at the quote after
it and not before, and is the text again once the escapes are undone.  So different texts are
written differently, and in what is written of an analysis the quoted texts are those of its
drawing: the name of the project, the labels of the files and the names of the declarations,
whatever is in them. -/
theorem escape_read_back :
    (∀ t s : String,
      scanQuoted (escape t ++ "\"" ++ s).toList = some ((escape t).toList, s.toList) ∧
      unescape (escape t).toList = t.toList) ∧
    Function.Injective escape ∧
    ∀ (style : Style) (a : Analysis) (calls : List Call) (text : String), a.graph = ofCalls calls →
      render style a = .ok text →
        ∃ D : Drawing, D.text = text ∧ Depicts style a D ∧
          quotedTexts text.toList = some D.texts := by
  refine ⟨?_, escape_injective, ?_⟩
  · intro t s
    have hchars : (escape t ++ "\"" ++ s).toList = (escape t).toList ++ '"' :: s.toList := by simp
    rw [hchars]
    exact ⟨scanQuoted_escape t s.toList, unescape_escape t⟩
  · intro style a calls text hgraph hrender
    obtain ⟨D, rfl, hD⟩ := exists_drawing_of_render hgraph hrender
    exact ⟨D, rfl, hD, quotedTexts_text D⟩

namespace Sample

/-- A project, a file and a function with quotes and backslashes in their names. -/
def awkward : List Call := [.node { file := ⟨"p\\/a\\\".go"⟩, name := "h\\" }]

def awkwardAnalysis : Analysis where
  root := ⟨"p\\"⟩
  rootModule := "m"
  graph := ofCalls awkward
  entrypoints := []
  unreachable := []

lemma below_awkward : ∀ d ∈ awkwardAnalysis.graph.nodes.toList,
    awkwardAnalysis.root.components <+: d.file.components := by
  have hoffered : ∀ d ∈ awkward.flatMap Call.offered,
      awkwardAnalysis.root.components <+: d.file.components := by decide
  intro d hd
  exact hoffered d (ReferenceGraph.mem_offered_of_mem_nodes hd)

end Sample

/-- A backslash at the end of a name does not swallow the quote after it. -/
theorem escape_read_back_sample :
    scanQuoted (escape "h\\" ++ "\"" ++ "]").toList = some (['h', '\\', '\\'], [']']) ∧
    ∃ D : Drawing, render .plain Sample.awkwardAnalysis = .ok D.text ∧
      Depicts .plain Sample.awkwardAnalysis D ∧ D.title = "p\\" ∧
      quotedTexts D.text.toList = some D.texts := by
  obtain ⟨text, htext⟩ : ∃ text, render .plain Sample.awkwardAnalysis = .ok text :=
    exists_render_iff.2 Sample.below_awkward
  obtain ⟨D, rfl, hD, hread⟩ :=
    escape_read_back.2.2 .plain Sample.awkwardAnalysis Sample.awkward text rfl htext
  have hescape : (escape "h\\").toList = ['h', '\\', '\\'] := by decide
  refine ⟨?_, D, htext, hD, ?_, hread⟩
  · rw [← hescape]
    exact (escape_read_back.1 "h\\" "]").1
  · rw [hD.title]
    decide

end GoReach.Report.Dot
