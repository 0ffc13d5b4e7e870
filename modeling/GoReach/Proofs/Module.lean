import GoReach.Proofs.Path.Below
import GoReach.Proofs.Text.Characters

/-!
# Names of modules

A module is named by one text, in which the names of directories stand between slashes.  Names have
no slashes in them, so they can be read back from the text (`segments_nameBelow`); the name of the
root module, which may have slashes of its own, is the same for all modules of a project.  Hence
directories with one module are one directory (`nameBelow_inj`), and nothing depends on how paths
are spelled (`ofFile_spelling`).
-/

namespace GoReach

namespace Path

lemma joinSegments_append_slash (as s : List Char) (rest : List (List Char)) :
    joinSegments ((as ++ '/' :: s) :: rest) = as ++ '/' :: joinSegments (s :: rest) := by
  cases rest with
  | nil => rfl
  | cons t rest => simp [joinSegments]

/-- Segments can be read back after any text. -/
lemma segments_joinSegments_cons (as : List Char) {body : List (List Char)}
    (hslash : ∀ s ∈ body, '/' ∉ s) :
    segments (joinSegments (as :: body)) = segments as ++ body := by
  cases body with
  | nil => rw [joinSegments, List.append_nil]
  | cons s rest =>
      rw [joinSegments, segments_append, segments_joinSegments (List.cons_ne_nil s rest) hslash]

end Path

namespace Module

open GoReach.Path (Component)

variable {root : Path} {rootModule : String}

/-! ## The text of a name -/

/-- What is left without slashes at the end. -/
lemma trimSlashes_spec (s : String) :
    (∃ n, s.toList = (trimSlashes s).toList ++ List.replicate n '/') ∧
      (trimSlashes s).toList.getLast? ≠ some '/' := by
  rw [trimSlashes, String.toList_ofList]
  obtain ⟨hsplit, hslashes, hhead⟩ := (Text.takeWhile_dropWhile_iff (p := (· == '/'))).1 ⟨rfl, rfl⟩
  generalize s.toList.reverse.takeWhile (· == '/') = slashes at hsplit hslashes
  generalize s.toList.reverse.dropWhile (· == '/') = rest at hsplit hhead ⊢
  constructor
  · have hreplicate : slashes = List.replicate slashes.length '/' :=
      List.eq_replicate_of_mem (by simpa using hslashes)
    refine ⟨slashes.length, ?_⟩
    rw [← List.reverse_inj, hsplit, List.reverse_append, List.reverse_reverse,
      List.reverse_replicate, ← hreplicate]
  · intro hlast
    rw [List.getLast?_reverse] at hlast
    cases hhead _ hlast

lemma toList_nameBelow (rootModule : String) (directory : List Component) :
    (nameBelow rootModule directory).toList
      = Path.joinSegments ((trimSlashes rootModule).toList ::
          (directory.filterMap Component.name?).map String.toList) := by
  rw [nameBelow]
  generalize directory.filterMap Component.name? = names
  generalize trimSlashes rootModule = start
  induction names generalizing start with
  | nil => rfl
  | cons name rest ih =>
      rw [List.foldl_cons, ih, List.map_cons]
      simp [Path.joinSegments_append_slash, Path.joinSegments]

/-- The names of the directories can be read back. -/
lemma segments_nameBelow (rootModule : String) {names : List String}
    (hslash : ∀ name ∈ names, '/' ∉ name.toList) :
    Path.segments (nameBelow rootModule (names.map Component.name)).toList
      = Path.segments (trimSlashes rootModule).toList ++ names.map String.toList := by
  have hnames : (names.map Component.name).filterMap Component.name? = names := by
    rw [List.filterMap_map]
    exact List.filterMap_some
  rw [toList_nameBelow, hnames, Path.segments_joinSegments_cons]
  simpa using hslash

lemma nameBelow_inj {names names' : List String} (hslash : ∀ name ∈ names, '/' ∉ name.toList)
    (hslash' : ∀ name ∈ names', '/' ∉ name.toList) :
    nameBelow rootModule (names.map Component.name)
        = nameBelow rootModule (names'.map Component.name) ↔
      names = names' := by
  refine ⟨fun h => ?_, fun h => by rw [h]⟩
  have hsegments := congrArg (fun m => Path.segments m.toList) h
  simp only [segments_nameBelow rootModule hslash, segments_nameBelow rootModule hslash',
    List.append_cancel_left_eq] at hsegments
  exact List.map_injective_iff.2 (fun _ _ heq => String.toList_injective heq) hsegments

/-! ## Modules of files -/

/-- The module of a file is named by the components between the root and the file. -/
lemma ofFile_of_components_append {file : Path} {rest : List Component}
    (h : file.components = root.components ++ rest) :
    ofFile root rootModule file = .ok (nameBelow rootModule rest.dropLast) := by
  obtain ⟨p, hp⟩ := Path.exists_below?_iff.2 ⟨rest, h.symm⟩
  have hrest : p.components = rest := by rw [Path.components_below? hp, h, List.drop_left]
  exact ofFile_eq_ok_iff.2 ⟨p, hp, by rw [Path.directory, hrest]⟩

lemma ofFile_outside {file : Path} (h : ¬ root.components <+: file.components) :
    ofFile root rootModule file = .error (.outsideRoot file root) := by
  have hnone : file.below? root = none := by
    rw [← Path.exists_below?_iff, not_exists] at h
    exact Option.eq_none_iff_forall_ne_some.2 h
  rw [ofFile, relativePath, hnone]
  rfl

/-- Spellings of one root and of one file give the same module. -/
lemma ofFile_spelling {root' file file' : Path} (hroot : root.components = root'.components)
    (hfile : file.components = file'.components) (module : String) :
    ofFile root rootModule file = .ok module ↔ ofFile root' rootModule file' = .ok module := by
  by_cases h : root.components <+: file.components
  · obtain ⟨rest, hrest⟩ := h
    have hrest' : file'.components = root'.components ++ rest := by rw [← hfile, ← hroot, hrest]
    rw [ofFile_of_components_append hrest.symm, ofFile_of_components_append hrest']
  · have h' : ¬ root'.components <+: file'.components := by rwa [← hroot, ← hfile]
    rw [ofFile_outside h, ofFile_outside h']
    simp

section

variable {file : Path} {names : List String}
  (hfile : file.components = root.components ++ names.map Component.name)

include hfile

lemma directory_of_names (hne : names ≠ []) :
    file.directory = root.components ++ names.dropLast.map Component.name := by
  rw [Path.directory, hfile, List.dropLast_append_of_ne_nil (by simpa using hne), List.map_dropLast]

lemma no_slash_of_names : ∀ name ∈ names.dropLast, '/' ∉ name.toList := by
  intro name hname
  apply Path.no_slash_of_mem_components (p := file)
  rw [hfile]
  exact List.mem_append_right _ (List.mem_map_of_mem (List.dropLast_subset _ hname))

end

/-- **Every directory is a module of its own.**  A file has a module exactly if its components begin
with those of the root; otherwise the error says that it lies outside.  Spellings of one path give
the same module.  A file in the root directory itself belongs to the root module, without slashes at
the end of its name.  And of two files whose paths go on from the root with names only, the modules
are equal exactly if the files are in one directory. -/
theorem ofFile_separates (root : Path) (rootModule : String) :
    (∀ file, (∃ module, ofFile root rootModule file = .ok module) ↔
      root.components <+: file.components) ∧
    (∀ file, ¬ root.components <+: file.components →
      ofFile root rootModule file = .error (.outsideRoot file root)) ∧
    (∀ root' file file' module, root.components = root'.components →
      file.components = file'.components →
      (ofFile root rootModule file = .ok module ↔ ofFile root' rootModule file' = .ok module)) ∧
    (∀ file name, file.components = root.components ++ [.name name] →
      ∃ module n, ofFile root rootModule file = .ok module ∧
        rootModule.toList = module.toList ++ List.replicate n '/' ∧
        module.toList.getLast? ≠ some '/') ∧
    ∀ file file' names names', names ≠ [] → names' ≠ [] →
      file.components = root.components ++ names.map Component.name →
      file'.components = root.components ++ names'.map Component.name →
      ∃ module module', ofFile root rootModule file = .ok module ∧
        ofFile root rootModule file' = .ok module' ∧
        (module = module' ↔ file.directory = file'.directory) := by
  refine ⟨fun file => exists_ofFile_iff, fun file => ofFile_outside,
    fun root' file file' module hroot hfile => ofFile_spelling hroot hfile module,
    fun file name hfile => ?_, fun file file' names names' hne hne' hfile hfile' => ?_⟩
  · obtain ⟨⟨n, hn⟩, hlast⟩ := trimSlashes_spec rootModule
    exact ⟨_, n, ofFile_of_components_append hfile, hn, hlast⟩
  · refine ⟨_, _, ofFile_of_components_append hfile, ofFile_of_components_append hfile', ?_⟩
    rw [directory_of_names hfile hne, directory_of_names hfile' hne', ← List.map_dropLast,
      ← List.map_dropLast, nameBelow_inj (no_slash_of_names hfile) (no_slash_of_names hfile'),
      List.append_right_inj]
    exact (List.map_injective_iff.2 fun _ _ hname => Component.name.inj hname).eq_iff.symm

/-! Spare slashes and dots do not matter, and `a/b` and `a-b` are different modules. -/

example : ofFile ⟨"/p/."⟩ "m/" ⟨"//p/./x.go"⟩ = .ok "m" ∧
    ofFile ⟨"/p"⟩ "m" ⟨"/p/a/b/x.go"⟩ = .ok "m/a/b" ∧
    ofFile ⟨"/p"⟩ "m" ⟨"/p/a-b/x.go"⟩ = .ok "m/a-b" :=
  ⟨rfl, rfl, rfl⟩

end Module

end GoReach
