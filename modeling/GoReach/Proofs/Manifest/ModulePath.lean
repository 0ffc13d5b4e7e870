import Mathlib.Data.List.Basic
import GoReach.Proofs.Manifest.Line

/-!
# The path that a manifest gives

A text is read line by line, up to the first that gives a path (`FirstSays`).  A line ends at a
newline, and a carriage return before it is not part of the line; but as white space it would not
matter on the line either, or be part of its comment (`path?_append_return`).  So what a text gives
can be said of the texts between its newlines (`firstPath?_append_newline`).

The other way round, a line that is put together as manifests are usually written (`DirectiveLine`)
gives the path that was put into it (`DirectiveLine.says_text`).
-/

namespace GoReach.Manifest

open GoReach.Text (WhiteSpace)

/-! ## Lines -/

/-- A character that does not end a line belongs to the line that begins with it. -/
lemma lines_cons {c : Char} {rest line : List Char} {more : List (List Char)} (hc : c ≠ '\n')
    (hrest : c = '\r' → rest.head? ≠ some '\n') (h : lines rest = line :: more) :
    lines (c :: rest) = (c :: line) :: more := by
  rw [lines, h]
  · exact hc
  · rintro rest rfl rfl
    exact hrest rfl rfl

/-- What stands before the end of a line is the line, up to a carriage return. -/
lemma lines_append_newline {text : List Char} (h : '\n' ∉ text) (rest : List Char) :
    ∃ line, (text = line ∨ text = line ++ ['\r']) ∧
      lines (text ++ '\n' :: rest) = line :: lines rest := by
  induction text with
  | nil => exact ⟨[], .inl rfl, rfl⟩
  | cons c text ih =>
      rw [List.mem_cons, not_or] at h
      cases text with
      | nil =>
          by_cases hc : c = '\r'
          · exact ⟨[], .inr (by simp [hc]), by rw [hc]; rfl⟩
          · exact ⟨[c], .inl rfl, lines_cons (Ne.symm h.1) (absurd · hc) rfl⟩
      | cons d text =>
          obtain ⟨line, htext, hlines⟩ := ih h.2
          refine ⟨c :: line, htext.imp (congrArg (c :: ·)) (congrArg (c :: ·)), ?_⟩
          refine lines_cons (Ne.symm h.1) (fun _ hd => ?_) hlines
          exact h.2 (Option.some.inj hd ▸ List.mem_cons_self)

/-- A text without line ends is one line. -/
lemma lines_of_no_newline {text : List Char} (h : '\n' ∉ text) (hne : text ≠ []) :
    lines text = [text] := by
  induction text with
  | nil => exact absurd rfl hne
  | cons c text ih =>
      rw [List.mem_cons, not_or] at h
      cases text with
      | nil =>
          rw [lines]
          · rfl
          · exact fun hc => h.1 hc.symm
          · simp
      | cons d text =>
          refine lines_cons (Ne.symm h.1) (fun _ hd => ?_) (ih h.2 (List.cons_ne_nil d text))
          exact h.2 (List.mem_of_mem_head? hd)

/-! ## The first line that gives a path -/

/-- What ends a line. -/
def lineEnds : List (List Char) := [['\n'], ['\r', '\n']]

/-- The first path that a line of the text gives. -/
def firstPath? (text : List Char) : Option (List Char) := (lines text).findSome? path?

/-- A single line gives its own path. -/
lemma firstPath?_of_no_newline {line : List Char} (h : '\n' ∉ line) :
    firstPath? line = path? line := by
  cases line with
  | nil => rfl
  | cons c line =>
      rw [firstPath?, lines_of_no_newline h (List.cons_ne_nil c line), List.findSome?_singleton]

/-- The first line is asked before the others.  A carriage return at its end is a blank, and so the
path is the same with it and without it. -/
lemma firstPath?_append_newline {line : List Char} (h : '\n' ∉ line) (rest : List Char) :
    firstPath? (line ++ '\n' :: rest) = (path? line).or (firstPath? rest) := by
  obtain ⟨line', hline, hlines⟩ := lines_append_newline h rest
  have hpath : path? line = path? line' := by
    rcases hline with rfl | rfl
    · rfl
    · exact path?_append_return line'
  rw [firstPath?, hlines, List.findSome?_cons, hpath]
  cases path? line' with
  | none => rfl
  | some path => rfl

/-- The same for both ways to end a line. -/
lemma firstPath?_append_end {line finish : List Char} (h : '\n' ∉ line)
    (hfinish : finish ∈ lineEnds) (rest : List Char) :
    firstPath? (line ++ finish ++ rest) = (path? line).or (firstPath? rest) := by
  obtain rfl | rfl : finish = ['\n'] ∨ finish = ['\r', '\n'] := by simpa [lineEnds] using hfinish
  · rw [List.append_assoc]
    exact firstPath?_append_newline h rest
  · have hreturn : '\n' ∉ line ++ ['\r'] := by simpa using h
    rw [← path?_append_return, ← firstPath?_append_newline hreturn rest]
    simp

/-- Lines that give no path, with their ends. -/
def Silent (before : List (List Char × List Char)) : Prop :=
  ∀ l ∈ before, '\n' ∉ l.1 ∧ l.2 ∈ lineEnds ∧ ∀ path, ¬ Says l.1 path

/-- What a text may go on with after a line. -/
def Onward (after : List Char) : Prop := after = [] ∨ ∃ finish ∈ lineEnds, finish <+: after

/-- The first line of a text that gives a path gives this one. -/
def FirstSays (text path : List Char) : Prop :=
  ∃ before line after, text = before.flatMap (fun l => l.1 ++ l.2) ++ line ++ after ∧
    Silent before ∧ '\n' ∉ line ∧ Says line path ∧ Onward after

/-- Silent lines are passed over, one after another. -/
lemma firstPath?_of_firstSays {text path : List Char} (h : FirstSays text path) :
    firstPath? text = some path := by
  obtain ⟨before, line, after, rfl, hbefore, hline, hsays, hafter⟩ := h
  induction before with
  | nil =>
      have hpath := path?_eq_some_iff.2 hsays
      rcases hafter with rfl | ⟨finish, hfinish, rest, rfl⟩
      · simp [firstPath?_of_no_newline hline, hpath]
      · simp [← List.append_assoc, firstPath?_append_end hline hfinish, hpath]
  | cons l before ih =>
      obtain ⟨⟨hl, hfinish, hnot⟩, hbefore⟩ := List.forall_mem_cons.1 hbefore
      rw [List.flatMap_cons, List.append_assoc, List.append_assoc, firstPath?_append_end hl hfinish,
        not_says_iff.1 hnot, Option.none_or, ← List.append_assoc, ih hbefore]

/-- Conversely, if a path is found, then the lines before it are silent.  The recursion goes to the
rest of the text after the first line. -/
lemma firstSays_of_firstPath? {text path : List Char} (h : firstPath? text = some path) :
    FirstSays text path := by
  have hfinish : ['\n'] ∈ lineEnds := by decide
  by_cases hnewline : '\n' ∈ text
  · obtain ⟨line, rest, rfl, hline⟩ := List.eq_append_cons_of_mem hnewline
    rw [firstPath?_append_newline hline, Option.or_eq_some_iff] at h
    rcases h with h | ⟨hnone, h⟩
    · refine ⟨[], line, '\n' :: rest, by simp, by simp [Silent], hline, path?_eq_some_iff.1 h, ?_⟩
      exact .inr ⟨['\n'], hfinish, rest, rfl⟩
    · obtain ⟨before, line', after, rfl, hbefore, hline', hsays, hafter⟩ :=
        firstSays_of_firstPath? h
      refine ⟨(line, ['\n']) :: before, line', after, by simp, ?_, hline', hsays, hafter⟩
      exact List.forall_mem_cons.2 ⟨⟨hline, hfinish, not_says_iff.2 hnone⟩, hbefore⟩
  · rw [firstPath?_of_no_newline hnewline] at h
    exact ⟨[], text, [], by simp, by simp [Silent], hnewline, path?_eq_some_iff.1 h, .inl rfl⟩
termination_by text.length

/-! ## What a manifest says -/

/-- A path as it is, or in quotes. -/
inductive Spelling : List Char → List Char → Prop where
  | bare {path : List Char} (unbroken : ∀ c ∈ path, ¬ WhiteSpace c)
      (unquoted : ∀ quote ∈ quotes, path.head? ≠ some quote) : Spelling path path
  | quoted {quote : Char} {path : List Char} (hquote : quote ∈ quotes) (no_quote : quote ∉ path) :
      Spelling (quote :: (path ++ [quote])) path

/-- A spelling is a token, if there is a path in it. -/
lemma Spelling.token {spelling path : List Char} (h : Spelling spelling path) (hne : path ≠ []) :
    Token spelling path := by
  cases h with
  | bare hunbroken hunquoted =>
      refine .bare hne hunbroken fun quote hquote inside hinside => hunquoted quote hquote ?_
      rw [hinside.eq, List.head?_cons]
  | quoted hquote hnot => exact .quoted hquote ⟨rfl, hne, hnot⟩

/-- A spelling adds nothing but quotes to the path. -/
lemma Spelling.not_mem {spelling path : List Char} (h : Spelling spelling path) {c : Char}
    (hc : c ∉ quotes) (hpath : c ∉ path) : c ∉ spelling := by
  cases h with
  | bare => exact hpath
  | @quoted quote _ hquote =>
      have hne : c ≠ quote := fun heq => hc (heq ▸ hquote)
      simp [hne, hpath]

/-- Quotes do not make slashes stand side by side. -/
lemma Spelling.slashes_infix_iff {spelling path : List Char} (h : Spelling spelling path) :
    slashes <:+: spelling ↔ slashes <:+: path := by
  cases h with
  | bare => rfl
  | @quoted quote _ hquote =>
      have hne : '/' ∉ [quote] := by
        have hslash : '/' ∉ quotes := by decide
        rw [List.mem_singleton]
        rintro rfl
        exact hslash hquote
      rw [← List.singleton_append, slashes_infix_append_left hne, slashes_infix_append_right hne]

lemma Blanks.not_mem_slash {w : List Char} (h : Blanks w) : '/' ∉ w := by
  have hslash : ¬ WhiteSpace '/' := by decide
  exact fun hmem => hslash (h _ hmem)

/-- A line that gives a path, with the white space and the comment that may stand on it. -/
structure DirectiveLine where
  lead : List Char
  gap : List Char
  spelling : List Char
  trail : List Char
  note : List Char
  path : List Char
  lead_blank : Blanks lead
  gap_blank : Blanks gap
  trail_blank : Blanks trail
  gap_ne_nil : gap ≠ []
  path_ne_nil : path ≠ []
  path_no_slashes : ¬ slashes <:+: path
  spelled : Spelling spelling path
  -- right after a path that ends in a slash, two more would cut the path
  note_apart : note = [] ∨ trail ≠ [] ∧ slashes <+: note
  no_newline : '\n' ∉ lead ++ gap ++ trail ++ path ++ note

namespace DirectiveLine

variable (l : DirectiveLine)

/-- The line without its comment. -/
def code : List Char := l.lead ++ "module".toList ++ l.gap ++ l.spelling ++ l.trail

/-- The line as it is written. -/
def text : List Char := l.code ++ l.note

/-- No comment begins in the code. -/
lemma no_slashes_code : ¬ slashes <:+: l.code := by
  have hfront : '/' ∉ l.lead ++ "module".toList ++ l.gap := by
    simp [l.lead_blank.not_mem_slash, l.gap_blank.not_mem_slash]
  rw [code, slashes_infix_append_right l.trail_blank.not_mem_slash,
    slashes_infix_append_left hfront, l.spelled.slashes_infix_iff]
  exact l.path_no_slashes

/-- The comment is cut off, and the rest is the code.  The last character of the code is a blank if
there is a comment, and so it does not form slashes with the comment. -/
lemma cut_text : Cut l.text l.code := by
  rw [text]
  rcases l.note_apart with hnote | ⟨htrail, words, hnote⟩
  · rw [hnote, List.append_nil]
    exact .plain l.no_slashes_code
  · rw [← hnote, ← List.append_assoc]
    refine .comment fun hslashes => ?_
    have hlast : l.code.getLast? = l.trail.getLast? := by
      rw [code, List.getLast?_append_of_ne_nil _ htrail]
    rcases slashes_infix_append_iff.1 hslashes with hcode | hslash | ⟨hcode, -⟩
    · exact l.no_slashes_code hcode
    · exact absurd hslash (by decide)
    · rw [hlast] at hcode
      exact l.trail_blank.not_mem_slash (List.mem_of_getLast? hcode)

/-- The line gives its path. -/
lemma says_text : Says l.text l.path :=
  ⟨l.code, l.cut_text, l.lead, l.gap, l.spelling, l.trail, l.lead_blank, l.gap_blank, l.gap_ne_nil,
    l.trail_blank, l.spelled.token l.path_ne_nil, rfl⟩

/-- The line is a single line. -/
lemma no_newline_text : '\n' ∉ l.text := by
  obtain ⟨⟨⟨⟨hlead, hgap⟩, htrail⟩, hpath⟩, hnote⟩ := by
    simpa only [List.mem_append, not_or] using l.no_newline
  have hspelling : '\n' ∉ l.spelling := l.spelled.not_mem (by decide) hpath
  simp [text, code, hlead, hgap, htrail, hspelling, hnote]

end DirectiveLine

/-- The path of a manifest is that of the first line that gives one. -/
lemma modulePath?_eq_some_iff {text path : String} :
    modulePath? text = some path ↔ FirstSays text.toList path.toList := by
  have hmap : modulePath? text = (firstPath? text.toList).map String.ofList := rfl
  rw [hmap, Option.map_eq_some_iff]
  constructor
  · rintro ⟨cs, hcs, rfl⟩
    rw [String.toList_ofList]
    exact firstSays_of_firstPath? hcs
  · exact fun h => ⟨path.toList, firstPath?_of_firstSays h, String.ofList_toList⟩

/-- **A manifest gives the path of its first directive.**  After lines that are no directives, a
line of the usual form gives the path that is written on it, whatever white space, quotes and
comment it has and whatever comes after it.  And whatever text a path is read from, the first line
of the text that is a directive holds it; it is never empty and never goes on into a comment. -/
theorem modulePath?_first_directive :
    (∀ (before : List (List Char × List Char)) (line : DirectiveLine) (after : List Char),
      Silent before → Onward after →
        modulePath? (String.ofList (before.flatMap (fun l => l.1 ++ l.2) ++ line.text ++ after))
          = some (String.ofList line.path)) ∧
    ∀ text path, (modulePath? text = some path ↔ FirstSays text.toList path.toList) ∧
      (modulePath? text = some path → path ≠ "" ∧ ¬ slashes <:+: path.toList) := by
  refine ⟨?_, fun text path => ⟨modulePath?_eq_some_iff, fun h => ?_⟩⟩
  · intro before line after hbefore hafter
    rw [modulePath?_eq_some_iff, String.toList_ofList, String.toList_ofList]
    exact ⟨before, line.text, after, rfl, hbefore, line.no_newline_text, line.says_text, hafter⟩
  · obtain ⟨before, line, after, -, -, -, hsays, -⟩ := modulePath?_eq_some_iff.1 h
    exact ⟨fun hempty => hsays.ne_nil (String.toList_eq_nil_iff.2 hempty), hsays.no_slashes⟩

namespace Sample

/-- A comment that looks like a directive. -/
def before : List (List Char × List Char) := [("//module a".toList, "\r\n".toList)]

/-- A path with a blank and a slash at its end, and a comment. -/
def line : DirectiveLine where
  lead := ['\t']
  gap := [' ']
  spelling := '"' :: ("b c/".toList ++ ['"'])
  trail := ['\u3000']
  note := "// d".toList
  path := "b c/".toList
  lead_blank := by decide
  gap_blank := by decide
  trail_blank := by decide
  gap_ne_nil := by decide
  path_ne_nil := by decide
  path_no_slashes := by decide
  spelled := .quoted (by decide) (by decide)
  note_apart := by decide
  no_newline := by decide

/-- A comment gives no path, whatever is in it. -/
lemma silent_before : Silent before := by
  intro l hl
  obtain rfl := List.mem_singleton.1 hl
  exact ⟨by decide, by decide, not_says_iff.2 rfl⟩

end Sample

/-- The path stands on the second line, with a tab, a wide blank and a comment around it. -/
theorem modulePath?_first_directive_sample :
    modulePath? "//module a\r\n\tmodule \"b c/\"\u3000// d\nmodule e" = some "b c/" ∧
      FirstSays "//module a\r\n\tmodule \"b c/\"\u3000// d\nmodule e".toList "b c/".toList := by
  have hafter : Onward "\nmodule e".toList := .inr ⟨['\n'], by decide, "module e".toList, rfl⟩
  have h := modulePath?_first_directive.1 Sample.before Sample.line _ Sample.silent_before hafter
  exact ⟨h, ((modulePath?_first_directive.2 _ _).1).1 h⟩

end GoReach.Manifest
