import GoReach.Proofs.Disk.Search
import GoReach.Proofs.Failure

/-!
# What a write changes

A path leads to a trail of names, whether or not there is a file yet (`destination?`).  Writing a
file makes it or gives it another text, and leaves directories and links as they are
(`Entry.Becomes`), so every path leads to the same trail as before (`destination?_writeText`).  What
can be read at a path afterwards is the new text if the path leads to where the file was written,
and what could be read there before if it does not (`readText_writeText`).

Paths to different names in one directory lead to different files, unless there are links among them
(`destination?_join_eq_iff`).
-/

namespace GoReach.Disk

namespace Entry

/-! ## Putting a file into a tree -/

/-- An entry that is put under a name is found there, ... -/
lemma lookup_replace_self (name : String) (new : Entry) (entries : List (String × Entry)) :
    (replace name new entries).lookup name = some new := by
  induction entries with
  | nil => simp [replace]
  | cons x rest ih =>
      obtain ⟨n, e⟩ := x
      by_cases hn : n = name
      · simp [replace, hn]
      · have hbeq : (name == n) = false := beq_false_of_ne (Ne.symm hn)
        simp [replace, List.lookup_cons, hn, hbeq, ih]

/-- ... and other names lead where they led before. -/
lemma lookup_replace_of_ne {name other : String} (h : other ≠ name) (new : Entry)
    (entries : List (String × Entry)) :
    (replace name new entries).lookup other = entries.lookup other := by
  have hbeq : (other == name) = false := beq_false_of_ne h
  induction entries with
  | nil => simp [replace, List.lookup_cons, hbeq]
  | cons x rest ih =>
      obtain ⟨n, e⟩ := x
      by_cases hn : n = name
      · simp [replace, List.lookup_cons, hn, hbeq]
      · simp [replace, List.lookup_cons, hn, ih]

/-- What is put at the end of a trail is found there. -/
lemma get?_put_self (new : Entry) (trail : List String) (e : Entry) :
    (put new trail e).get? trail = some new := by
  induction trail generalizing e with
  | nil => simp [put, get?]
  | cons name rest ih =>
      cases e with
      | directory entries => simp [put, get?, lookup_replace_self, ih]
      | file content => simp [put, get?, ih]
      | link target => simp [put, get?, ih]

/-- A place for a file: directories lead to it, and there is a file or nothing. -/
inductive Writable : Option Entry → List String → Prop where
  | free : Writable none []
  | file (content : ByteArray) : Writable (some (.file content)) []
  | inside {entries : List (String × Entry)} {name : String} {rest : List String}
      (h : Writable (entries.lookup name) rest) :
      Writable (some (.directory entries)) (name :: rest)

lemma Writable.of_get? {e e' : Entry} {trail rest : List String} (hget : e.get? trail = some e')
    (h : Writable (some e') rest) : Writable (some e) (trail ++ rest) := by
  induction trail generalizing e with
  | nil =>
      rw [get?] at hget
      rw [Option.some.inj hget]
      exact h
  | cons name more ih =>
      cases e with
      | file content => cases hget
      | link target => cases hget
      | directory entries =>
          rw [get?] at hget
          obtain ⟨child, hchild, hmore⟩ := Option.bind_eq_some_iff.1 hget
          refine .inside ?_
          rw [hchild]
          exact ih hmore

/-- There is nothing at a place for a file, or there is a file. -/
lemma Writable.get?_eq {o : Option Entry} {trail : List String} (h : Writable o trail) :
    (o.bind fun e => e.get? trail) = none ∨
      ∃ content, (o.bind fun e => e.get? trail) = some (.file content) := by
  induction h with
  | free => exact .inl rfl
  | file content => exact .inr ⟨content, by simp [get?]⟩
  | inside h ih => simpa [get?] using ih

/-- The same entry, or two directories. -/
inductive Alike : Option Entry → Option Entry → Prop where
  | refl (o : Option Entry) : Alike o o
  | directories (entries entries' : List (String × Entry)) :
      Alike (some (.directory entries)) (some (.directory entries'))

/-- But for the place of the file, a tree into which it is put stays alike. -/
lemma alike_put {o : Option Entry} {trail : List String} (h : Writable o trail)
    (content : ByteArray) {t : List String} (ht : t ≠ trail) :
    Alike (o.bind fun e => e.get? t)
      ((put (.file content) trail (o.getD (.directory []))).get? t) := by
  induction h generalizing t with
  | free =>
      -- Beyond the place there is nothing, before or after: a file has no entries.
      obtain ⟨n, more, rfl⟩ := List.exists_cons_of_ne_nil ht
      simpa [put, get?] using Alike.refl none
  | file old =>
      obtain ⟨n, more, rfl⟩ := List.exists_cons_of_ne_nil ht
      simpa [put, get?] using Alike.refl none
  | @inside entries name rest h ih =>
      rw [Option.bind_some, Option.getD_some, put]
      cases t with
      | nil => exact .directories _ _
      | cons n more =>
          rw [get?, get?]
          by_cases hn : n = name
          · rw [hn, lookup_replace_self, Option.bind_some]
            exact ih fun hmore => ht (by rw [hn, hmore])
          · rw [lookup_replace_of_ne hn]
            exact .refl _

/-- What may become of an entry, or of a free place, when files are written. -/
inductive Becomes : Option Entry → Option Entry → Prop where
  | same (o : Option Entry) : Becomes o o
  | directory (entries entries' : List (String × Entry)) :
      Becomes (some (.directory entries)) (some (.directory entries'))
  | made (content : ByteArray) : Becomes none (some (.file content))
  | changed (content content' : ByteArray) : Becomes (some (.file content)) (some (.file content'))

namespace Becomes

variable {o : Option Entry}

/-- Links stay what they are. -/
lemma eq_link {target : String} (h : Becomes (some (.link target)) o) :
    o = some (.link target) := by
  cases h
  rfl

/-- Where nothing was, there may be a file. -/
lemma none_or_file (h : Becomes none o) : o = none ∨ ∃ content, o = some (.file content) := by
  cases h with
  | same => exact .inl rfl
  | made content => exact .inr ⟨content, rfl⟩

/-- What is no link does not become one. -/
lemma exists_no_link {e : Entry} (h : Becomes (some e) o) (he : ∀ target, e ≠ .link target) :
    ∃ e', o = some e' ∧ ∀ target, e' ≠ .link target := by
  cases h with
  | same => exact ⟨e, rfl, he⟩
  | directory entries entries' => exact ⟨.directory entries', rfl, by simp⟩
  | changed content content' => exact ⟨.file content', rfl, by simp⟩

/-- What is no directory does not become one. -/
lemma ne_directory {o' : Option Entry} (h : Becomes o o')
    (ho : ∀ entries, o ≠ some (.directory entries)) (entries : List (String × Entry)) :
    o' ≠ some (.directory entries) := by
  cases h with
  | same => exact ho entries
  | directory entries entries' => exact absurd rfl (ho entries)
  | made content => simp
  | changed content content' => simp

end Becomes

lemma Alike.becomes {o o' : Option Entry} (h : Alike o o') : Becomes o o' := by
  cases h with
  | refl => exact .same o
  | directories entries entries' => exact .directory entries entries'

/-- Writing a file changes nothing but files. -/
lemma becomes_put {root : Entry} {trail : List String} (h : Writable (some root) trail)
    (content : ByteArray) (t : List String) :
    Becomes (root.get? t) ((put (.file content) trail root).get? t) := by
  by_cases ht : t = trail
  · rw [ht, get?_put_self]
    rcases h.get?_eq with hnone | ⟨old, hold⟩
    · rw [Option.bind_some] at hnone
      rw [hnone]
      exact .made content
    · rw [Option.bind_some] at hold
      rw [hold]
      exact .changed old content
  · exact (alike_put h content ht).becomes

/-- Directories stay directories, and their entries become what they may become. -/
lemma exists_lookup_of_becomes {root root' : Entry}
    (h : ∀ t, Becomes (root.get? t) (root'.get? t)) {trail : List String}
    {entries : List (String × Entry)} (hget : root.get? trail = some (.directory entries)) :
    ∃ entries', root'.get? trail = some (.directory entries') ∧
      ∀ name, Becomes (entries.lookup name) (entries'.lookup name) := by
  have hlookup : ∀ entries', root'.get? trail = some (.directory entries') →
      ∀ name, Becomes (entries.lookup name) (entries'.lookup name) := by
    intro entries' hget' name
    have hname := h (trail ++ [name])
    simpa [get?_append, hget, hget', get?] using hname
  have htrail := h trail
  rw [hget] at htrail
  generalize hget' : root'.get? trail = o' at htrail
  cases htrail with
  | same => exact ⟨entries, rfl, hlookup entries hget'⟩
  | directory _ entries' => exact ⟨entries', rfl, hlookup entries' hget'⟩

end Entry

/-! ## Where paths lead -/

/-- The trail of names to a place. -/
def Place.trail : Place → List String
  | .taken trail _ => trail
  | .free directory name => directory ++ [name]

lemma segmentsOf_ne_nil (text : String) : segmentsOf text ≠ [] := by
  simp [segmentsOf, Path.segments_ne_nil]

lemma isSome_get?_dropLast {root e : Entry} {trail : List String} (h : root.get? trail = some e) :
    (root.get? trail.dropLast).isSome := by
  rcases List.eq_nil_or_concat trail with rfl | ⟨more, name, rfl⟩
  · rfl
  · rw [List.concat_eq_append, Entry.get?_append] at h
    obtain ⟨parent, hparent, -⟩ := Option.bind_eq_some_iff.1 h
    rw [List.concat_eq_append, List.dropLast_concat, hparent]
    rfl

/-- There is no way on from where there is no directory. -/
lemma toOption_follow_of_no_directory {root : Entry} {trail : List String}
    (hno : ∀ entries, root.get? trail ≠ some (.directory entries)) (through : Bool) (links : Nat)
    (s : String) (rest : List String) :
    (follow root through links trail (s :: rest)).toOption = none := by
  rw [follow]
  split
  next entries hget => exact absurd hget (hno entries)
  next => rfl
  next => rfl

/-- Writing files does not change where a path leads. -/
lemma trail_follow_of_becomes {root root' : Entry}
    (h : ∀ t, Entry.Becomes (root.get? t) (root'.get? t)) (through : Bool) (links : Nat)
    (trail segments : List String) (hstart : segments = [] → (root.get? trail).isSome) :
    (follow root' through links trail segments).toOption.map Place.trail
      = (follow root through links trail segments).toOption.map Place.trail := by
  fun_induction follow root through links trail segments with
  | case1 links trail e hget =>
      have htrail := h trail
      rw [hget] at htrail
      generalize hget' : root'.get? trail = o' at htrail
      rw [follow, hget']
      cases htrail <;> rfl
  | case2 links trail hget => simp [hget] at hstart
  | case3 links trail s rest entries hget hvoid ih =>
      obtain ⟨entries', hget', -⟩ := Entry.exists_lookup_of_becomes h hget
      simpa [follow, hget', hvoid] using ih (by simp [hget])
  | case4 links trail s rest entries hget hvoid hparent ih =>
      obtain ⟨entries', hget', -⟩ := Entry.exists_lookup_of_becomes h hget
      simpa [follow, hget', hvoid, hparent] using ih fun _ => isSome_get?_dropLast hget
  | case5 links trail s rest entries hget hvoid hparent hnone hrest =>
      obtain ⟨entries', hget', hlookup⟩ := Entry.exists_lookup_of_becomes h hget
      obtain rfl := List.isEmpty_iff.1 hrest
      rcases (hnone ▸ hlookup s).none_or_file with hs' | ⟨content, hs'⟩
      · simp [follow, hget', hvoid, hparent, hs']
      · simp [follow, hget', hvoid, hparent, hs', Entry.get?_concat hget' hs', Place.trail,
          Except.toOption]
  | case6 links trail s rest entries hget hvoid hparent hnone hrest =>
      obtain ⟨entries', hget', hlookup⟩ := Entry.exists_lookup_of_becomes h hget
      -- A file that was made here has no entries either.
      obtain ⟨n, more, rfl⟩ := List.exists_cons_of_ne_nil (mt List.isEmpty_iff.2 hrest)
      rcases (hnone ▸ hlookup s).none_or_file with hs' | ⟨content, hs'⟩
      · simp [follow, hget', hvoid, hparent, hs']
      · simp [follow, hget', hvoid, hparent, hs', Entry.get?_concat hget' hs', Except.toOption]
  | case7 links trail s rest entries hget hvoid hparent target hlink hend =>
      obtain ⟨entries', hget', hlookup⟩ := Entry.exists_lookup_of_becomes h hget
      have hlink' := (hlink ▸ hlookup s).eq_link
      simp [follow, hget', hvoid, hparent, hlink', hend]
  | case8 trail s rest entries hget hvoid hparent target hlink hend =>
      obtain ⟨entries', hget', hlookup⟩ := Entry.exists_lookup_of_becomes h hget
      have hlink' := (hlink ▸ hlookup s).eq_link
      simp [follow, hget', hvoid, hparent, hlink', hend]
  | case9 trail s rest entries hget hvoid hparent target hlink hend links hempty =>
      obtain ⟨entries', hget', hlookup⟩ := Entry.exists_lookup_of_becomes h hget
      have hlink' := (hlink ▸ hlookup s).eq_link
      simp [follow, hget', hvoid, hparent, hlink', hend, hempty]
  | case10 trail s rest entries hget hvoid hparent target hlink hend links hempty start ih =>
      obtain ⟨entries', hget', hlookup⟩ := Entry.exists_lookup_of_becomes h hget
      have hlink' := (hlink ▸ hlookup s).eq_link
      simpa [follow, hget', hvoid, hparent, hlink', hend, hempty, start] using
        ih (by simp [segmentsOf_ne_nil])
  | case11 links trail s rest entries hget hvoid hparent e hno hs ih =>
      obtain ⟨entries', hget', hlookup⟩ := Entry.exists_lookup_of_becomes h hget
      obtain ⟨e', hs', hno'⟩ := (hs ▸ hlookup s).exists_no_link hno
      simpa [follow, hget', hvoid, hparent, hs', hno'] using
        ih (by simp [Entry.get?_concat hget hs])
  | case12 links trail s rest e hno hget =>
      have hno' := (h trail).ne_directory (by simpa [hget] using hno)
      rw [toOption_follow_of_no_directory hno']
      rfl
  | case13 links trail s rest hget =>
      have hno' := (h trail).ne_directory (by simp [hget])
      rw [toOption_follow_of_no_directory hno']
      rfl

/-- A path leads to an entry, or to a name that its directory does not have. -/
lemma exists_directory_of_follow {root : Entry} {through : Bool} {links : Nat}
    {trail segments directory : List String} {name : String}
    (h : follow root through links trail segments = .ok (.free directory name)) :
    ∃ entries, root.get? directory = some (.directory entries) ∧ entries.lookup name = none := by
  fun_induction follow root through links trail segments <;> grind

/-- The trail of names to a directory. -/
def Place.directory? : Place → Option (List String)
  | .taken trail (.directory _) => some trail
  | _ => none

/-- A plain name leads to its place in the directory, taken or free. -/
lemma trail_follow_name {root : Entry} {name : String} (hname : Path.Plain name) {links : Nat}
    {trail : List String} {entries : List (String × Entry)}
    (hget : root.get? trail = some (.directory entries)) :
    (follow root false links trail [name]).toOption.map Place.trail = some (trail ++ [name]) := by
  rw [follow, hget]
  simp only [hname.ne_empty, hname.ne_dot, hname.ne_parent, beq_iff_eq, Bool.or_eq_true, or_self,
    if_false]
  cases hlookup : entries.lookup name with
  | none => rfl
  | some e =>
      have he := Entry.get?_concat hget hlookup
      cases e with
      | link target => rfl
      | file content => simp [follow, he, Except.toOption, Place.trail]
      | directory inner => simp [follow, he, Except.toOption, Place.trail]

/-- A path to a name in a directory leads to that name in the directory to which the rest of the
path leads. -/
lemma trail_follow_concat {root : Entry} {name : String} (hname : Path.Plain name) (links : Nat)
    (trail segments : List String) :
    (follow root false links trail (segments ++ [name])).toOption.map Place.trail
      = ((follow root true links trail segments).toOption.bind Place.directory?).map
          (· ++ [name]) := by
  fun_induction follow root true links trail segments with
  | case1 links trail e hget =>
      by_cases hdirectory : ∃ entries, e = .directory entries
      · obtain ⟨entries, rfl⟩ := hdirectory
        exact trail_follow_name hname hget
      · have hno : ∀ entries, root.get? trail ≠ some (.directory entries) := by
          intro entries heq
          exact hdirectory ⟨entries, Option.some.inj (hget ▸ heq)⟩
        rw [List.nil_append, toOption_follow_of_no_directory hno]
        cases e with
        | directory entries => exact absurd ⟨entries, rfl⟩ hdirectory
        | file content => rfl
        | link target => rfl
  | case2 links trail hget =>
      rw [List.nil_append, toOption_follow_of_no_directory (by simp [hget])]
      rfl
  | case3 links trail s rest entries hget hvoid ih => simpa [follow, hget, hvoid] using ih
  | case4 links trail s rest entries hget hvoid hparent ih =>
      simpa [follow, hget, hvoid, hparent] using ih
  | case5 links trail s rest entries hget hvoid hparent hnone hrest =>
      simp [follow, hget, hvoid, hparent, hnone, Except.toOption, Place.directory?]
  | case6 links trail s rest entries hget hvoid hparent hnone hrest =>
      simp [follow, hget, hvoid, hparent, hnone, Except.toOption]
  | case7 links trail s rest entries hget hvoid hparent target hlink hend => simp at hend
  | case8 trail s rest entries hget hvoid hparent target hlink hend =>
      simp [follow, hget, hvoid, hparent, hlink, Except.toOption]
  | case9 trail s rest entries hget hvoid hparent target hlink hend links hempty =>
      simp [follow, hget, hvoid, hparent, hlink, hempty, Except.toOption]
  | case10 trail s rest entries hget hvoid hparent target hlink hend links hempty start ih =>
      simpa [follow, hget, hvoid, hparent, hlink, hempty, start] using ih
  | case11 links trail s rest entries hget hvoid hparent e hno hs ih =>
      simpa [follow, hget, hvoid, hparent, hs, hno] using ih
  | case12 links trail s rest e hno hget =>
      rw [List.cons_append, toOption_follow_of_no_directory (by simpa [hget] using hno)]
      rfl
  | case13 links trail s rest hget =>
      rw [List.cons_append, toOption_follow_of_no_directory (by simp [hget])]
      rfl

/-- Unless a path ends at a link, it does not matter whether a link at its end is followed. -/
lemma follow_through {root : Entry} {links : Nat} {trail segments : List String}
    (h : ∀ t target, follow root false links trail segments ≠ .ok (.taken t (.link target))) :
    follow root true links trail segments = follow root false links trail segments := by
  fun_induction follow root false links trail segments <;> grind [follow]

/-! ## Reading after writing -/

/-- The text of a file. -/
def Entry.text? : Entry → Option String
  | .file content => String.fromUTF8? content
  | _ => none

/-- The trail of names to the entry to which a path leads, or to where a file would be written. -/
def destination? (d : Disk) (p : Path) : Option (List String) :=
  (d.locate p true).toOption.map Place.trail

variable {d d' : Disk} {p : Path} {text : String}

lemma get?_of_locate_taken {through : Bool} {trail : List String} {e : Entry}
    (h : d.locate p through = .ok (.taken trail e)) : d.root.get? trail = some e := by
  rw [locate] at h
  split at h
  · cases h
  · exact get?_of_follow h

/-- A free place is in a directory that has no such name. -/
lemma exists_directory_of_locate {through : Bool} {directory : List String} {name : String}
    (h : d.locate p through = .ok (.free directory name)) :
    ∃ entries, d.root.get? directory = some (.directory entries) ∧ entries.lookup name = none := by
  rw [locate] at h
  split at h
  · cases h
  · exact exists_directory_of_follow h

/-- What can be read at a path is the text of the file to which it leads. -/
lemma toOption_readText :
    (d.readText p).toOption
      = (d.destination? p).bind fun trail => (d.root.get? trail).bind Entry.text? := by
  rw [readText, find, destination?]
  cases hlocate : d.locate p true with
  | error fault => rfl
  | ok place =>
      cases place with
      | taken trail e =>
          have hget := get?_of_locate_taken hlocate
          cases e with
          | directory entries => simp [Except.toOption, Place.trail, hget, Entry.text?]
          | link target => simp [Except.toOption, Place.trail, hget, Entry.text?]
          | file content =>
              cases hcontent : String.fromUTF8? content <;>
                simp [Except.toOption, Place.trail, hget, Entry.text?, hcontent]
      | free directory name =>
          obtain ⟨entries, hget, hnone⟩ := exists_directory_of_locate hlocate
          simp [Except.toOption, Place.trail, Entry.get?_append, hget, Entry.get?, hnone]

/-- A text can be written to a place for a file. -/
lemma writeText_eq_ok_iff :
    d.writeText p text = .ok d' ↔
      ∃ trail, d.destination? p = some trail ∧ Entry.Writable (some d.root) trail ∧
        d' = { d with root := Entry.put (.file text.toUTF8) trail d.root } := by
  rw [writeText, destination?]
  cases hlocate : d.locate p true with
  | error fault => simp [Except.toOption]
  | ok place =>
      cases place with
      | taken trail e =>
          have hget := get?_of_locate_taken hlocate
          cases e with
          | file content =>
              have hwritable : Entry.Writable (some d.root) trail := by
                simpa using Entry.Writable.of_get? hget (.file content)
              simp [Except.toOption, Place.trail, hwritable, eq_comm]
          | directory entries =>
              have hno : ¬ Entry.Writable (some d.root) trail := by
                intro h
                simpa [hget] using h.get?_eq
              simp [Except.toOption, Place.trail, hno]
          | link target =>
              have hno : ¬ Entry.Writable (some d.root) trail := by
                intro h
                simpa [hget] using h.get?_eq
              simp [Except.toOption, Place.trail, hno]
      | free directory name =>
          obtain ⟨entries, hget, hnone⟩ := exists_directory_of_locate hlocate
          have hwritable : Entry.Writable (some d.root) (directory ++ [name]) :=
            Entry.Writable.of_get? hget (.inside (hnone ▸ .free))
          simp [Except.toOption, Place.trail, hwritable, eq_comm]

/-- Writing files into a tree does not change where paths lead. -/
lemma destination?_of_becomes {tree : Entry}
    (h : ∀ t, Entry.Becomes (d.root.get? t) (tree.get? t)) (q : Path) :
    ({ d with root := tree } : Disk).destination? q = d.destination? q := by
  rw [destination?, destination?, locate, locate]
  split
  · rfl
  · exact trail_follow_of_becomes h true linkLimit _ _
      fun hnil => absurd hnil (segmentsOf_ne_nil q.text)

/-- After a write every path leads to where it led before. -/
lemma destination?_writeText (h : d.writeText p text = .ok d') (q : Path) :
    d'.destination? q = d.destination? q := by
  obtain ⟨trail, -, hwritable, rfl⟩ := writeText_eq_ok_iff.1 h
  exact destination?_of_becomes (Entry.becomes_put hwritable text.toUTF8) q

lemma Entry.Alike.text?_eq {o o' : Option Entry} (h : Alike o o') :
    o'.bind Entry.text? = o.bind Entry.text? := by
  cases h <;> rfl

/-- After a write, its text can be read at every path that leads to the same place.  At other paths
there is what was there before. -/
lemma readText_writeText (h : d.writeText p text = .ok d') (q : Path) :
    (d'.readText q).toOption
      = if d.destination? q = d.destination? p then some text else (d.readText q).toOption := by
  rw [toOption_readText, toOption_readText, destination?_writeText h q]
  obtain ⟨trail, hp, hwritable, rfl⟩ := writeText_eq_ok_iff.1 h
  have htext : (Entry.file text.toUTF8).text? = some text := dif_pos text.isValidUTF8
  cases hq : d.destination? q with
  | none => simp [hp]
  | some t =>
      by_cases ht : t = trail
      · rw [hp, ht, if_pos rfl, Option.bind_some, Entry.get?_put_self, Option.bind_some, htext]
      · simpa [hp, ht] using (Entry.alike_put hwritable text.toUTF8 ht).text?_eq

/-! ## Different names -/

/-- There is a link at the end of a path. -/
def IsLink (d : Disk) (p : Path) : Prop :=
  ∃ trail target, d.locate p false = .ok (.taken trail (.link target))

/-- Where there is no link at the end, it does not matter whether links are followed there. -/
lemma locate_through (h : ¬ d.IsLink p) : d.locate p true = d.locate p false := by
  rw [IsLink] at h
  unfold locate at h ⊢
  split
  · rfl
  next hempty =>
    rw [if_neg hempty] at h
    exact follow_through fun t target heq => h ⟨t, target, heq⟩

lemma segmentsOf_of_plain {name : String} (hname : Path.Plain name) : segmentsOf name = [name] := by
  rw [segmentsOf, Path.segments_of_no_slash hname.no_slash]
  simp

/-- What is before the last slash is followed before the name. -/
lemma segmentsOf_of_slash {q : Path} (before : List Char) {name : String} (hname : Path.Plain name)
    (hq : q.text.toList = before ++ '/' :: name.toList) :
    q.isAbsolute = ((before ++ ['/']).head? == some '/') ∧
      segmentsOf q.text = (Path.segments before).map String.ofList ++ [name] := by
  constructor
  · rw [Path.isAbsolute, hq]
    cases before <;> rfl
  · rw [segmentsOf, hq, Path.segments_append, List.map_append]
    congr 1
    exact segmentsOf_of_plain hname

/-- Paths to names in a directory differ in the last segment. -/
lemma exists_segmentsOf_join (base : Path) :
    ∃ absolute segments, ∀ name, Path.Plain name →
      (base.join ⟨name⟩).isAbsolute = absolute ∧
        segmentsOf (base.join ⟨name⟩).text = segments ++ [name] := by
  obtain ⟨text⟩ := base
  by_cases hempty : text.isEmpty = true
  · refine ⟨false, [], fun name hname => ?_⟩
    rw [Path.join, if_pos (by simp [hempty])]
    exact ⟨Path.isAbsolute_of_plain hname, segmentsOf_of_plain hname⟩
  · by_cases hlast : (text.toList.getLast? == some '/') = true
    · obtain ⟨before, hbefore⟩ := List.getLast?_eq_some_iff.1 (beq_iff_eq.1 hlast)
      refine ⟨_, _, fun name hname => segmentsOf_of_slash before hname ?_⟩
      simp [Path.join, Path.isAbsolute_of_plain hname, hempty, hbefore]
    · refine ⟨_, _, fun name hname => segmentsOf_of_slash text.toList hname ?_⟩
      simp [Path.join, Path.isAbsolute_of_plain hname, hempty, hlast]

/-- Paths to names in a directory lead to these names in one directory, if they do not end at
links. -/
lemma exists_destination?_join (d : Disk) (base : Path) :
    ∃ directory : Option (List String), ∀ name, Path.Plain name → ¬ d.IsLink (base.join ⟨name⟩) →
      d.destination? (base.join ⟨name⟩) = directory.map (· ++ [name]) := by
  obtain ⟨absolute, segments, hsegments⟩ := exists_segmentsOf_join base
  let start := if absolute then [] else d.current
  refine ⟨(follow d.root true linkLimit start segments).toOption.bind Place.directory?, ?_⟩
  intro name hname hlink
  obtain ⟨habsolute, hjoin⟩ := hsegments name hname
  have htext : (base.join ⟨name⟩).text.isEmpty = false := by
    rw [String.isEmpty_eq_false_iff]
    intro hempty
    rw [hempty] at hjoin
    have hnil : [""] = segments ++ [name] := hjoin
    exact hname.ne_empty (by simpa using (congrArg List.getLast? hnil).symm)
  rw [destination?, locate_through hlink, locate, htext, habsolute, hjoin]
  exact trail_follow_concat hname linkLimit start segments

/-- In one directory, different names have different places, if there are no links in them. -/
lemma destination?_join_eq_iff {base : Path} {name name' : String} (hname : Path.Plain name)
    (hname' : Path.Plain name') (hlink : ¬ d.IsLink (base.join ⟨name⟩))
    (hlink' : ¬ d.IsLink (base.join ⟨name'⟩))
    (hsome : (d.destination? (base.join ⟨name⟩)).isSome) :
    d.destination? (base.join ⟨name⟩) = d.destination? (base.join ⟨name'⟩) ↔ name = name' := by
  obtain ⟨directory, hdirectory⟩ := exists_destination?_join d base
  rw [hdirectory name hname hlink] at hsome ⊢
  rw [hdirectory name' hname' hlink']
  obtain ⟨trail, rfl⟩ : ∃ trail, directory = some trail := by
    simpa [Option.isSome_iff_exists] using hsome
  simp

end GoReach.Disk
