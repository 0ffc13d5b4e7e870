import GoReach.Proofs.Go.Names
import GoReach.Proofs.Go.Receiver

/-!
# Definitions at the top level

A definition has an identifier as its own name (`OwnName`).  A function, a type or an alias has one,
the specification of variables or constants one or more, and each of them is what is declared.  A
method has one too, but what is declared is that name with the receiver before it.

What is declared by the discard identifier is not to be used, and left out.  But it is the name that
is declared that is looked at, and that of a method is never the discard identifier.  So of the
definitions whose own name is the discard identifier, those of methods are kept (`Kept`), against
what the identifier stands for; all others are left out (`declarations_of_definitions`).

Of several definitions of one name the last one counts (`Latest`).  One more node replaces what it
introduces (`mem_addDeclarations_iff`), and so a file keeps in step with the nodes that have been
read (`Holds`), up to the whole tree (`mem_declarations_iff_latest`).
-/

namespace GoReach.Go

open GoReach.Syntax (Node)
open SourceFile

/-- The identifier is the definition's own name, and the definition declares something of the given
kind by the given name. -/
inductive OwnName : Node → Node → Declaration.Kind → String → Prop where
  | function {n c : Node} (hkind : n.kind = "function_declaration")
      (hc : n.childInField? "name" = some c) : OwnName n c .function c.text
  | method {n c : Node} {base : String} (hkind : n.kind = "method_declaration")
      (hc : n.childInField? "name" = some c) (hbase : HasReceiver n base) :
      OwnName n c .method (qualify [base, c.text])
  | type {n c : Node} (hkind : n.kind = "type_spec" ∨ n.kind = "type_alias")
      (hc : n.childInField? "name" = some c) : OwnName n c .type c.text
  | value {n c : Node} (hkind : n.kind = "var_spec" ∨ n.kind = "const_spec") (hc : c ∈ n.children)
      (hfield : c.info.field = some "name") (hnamed : c.isNamed = true) : OwnName n c .value c.text

/-- The definition is not left out for its own name. -/
def Kept (n c : Node) : Prop := c.text ≠ discard ∨ n.kind = "method_declaration"

lemma qualify_ne_discard (receiver method : String) : qualify [receiver, method] ≠ discard := by
  intro h
  have hcolon := colon_mem_qualify receiver method
  rw [h] at hcolon
  revert hcolon
  decide

lemma mem_valueNames_iff {n : Node} {name : String} :
    name ∈ declaredNames.valueNames n ↔
      ∃ c ∈ n.children, c.info.field = some "name" ∧ c.isNamed = true ∧ c.text = name := by
  simp [declaredNames.valueNames, Node.childrenInField, and_assoc, and_left_comm]

/-- A name is introduced by an identifier that is not left out. -/
lemma exists_ownName_of_introduces {n : Node} {kind : Declaration.Kind} {name : String}
    (h : Introduces n kind name) : ∃ c, OwnName n c kind name ∧ Kept n c := by
  obtain ⟨names, hnames, hname, hused⟩ := h
  have single : ∀ k, (fieldText? n "name").map (fun name => (k, [name])) = some (kind, names) →
      kind = k ∧ ∃ c, n.childInField? "name" = some c ∧ c.text = name := by
    intro k hsome
    obtain ⟨text, htext, heq⟩ := Option.map_eq_some_iff.1 hsome
    obtain ⟨rfl, rfl⟩ := Prod.mk.inj heq
    obtain ⟨c, hc, rfl⟩ := Option.map_eq_some_iff.1 htext
    exact ⟨rfl, c, hc, (List.mem_singleton.1 hname).symm⟩
  have several : (n.kind = "var_spec" ∨ n.kind = "const_spec") →
      some (Declaration.Kind.value, declaredNames.valueNames n) = some (kind, names) →
      ∃ c, OwnName n c kind name ∧ Kept n c := by
    intro hkind hsome
    obtain ⟨rfl, rfl⟩ := Prod.mk.inj (Option.some.inj hsome)
    obtain ⟨c, hc, hfield, hnamed, rfl⟩ := mem_valueNames_iff.1 hname
    exact ⟨c, .value hkind hc hfield hnamed, Or.inl hused⟩
  rw [declaredNames] at hnames
  split at hnames
  next hkind =>
    obtain ⟨rfl, c, hc, rfl⟩ := single .function (Except.ok.inj hnames)
    exact ⟨c, .function hkind hc, Or.inl hused⟩
  next hkind =>
    obtain ⟨s, hs, hsome⟩ := map_eq_ok_iff.1 hnames
    obtain ⟨rfl, rfl⟩ := Prod.mk.inj (Option.some.inj hsome)
    obtain ⟨⟨text, htext⟩, ⟨base, hbase⟩, hclear⟩ := exists_methodName_iff.1 ⟨s, hs⟩
    obtain ⟨c, hc, rfl⟩ := Option.map_eq_some_iff.1 htext
    rw [methodName_of_hasReceiver htext hbase hclear, Except.ok.injEq] at hs
    rw [List.mem_singleton.1 hname, ← hs]
    exact ⟨c, .method hkind hc hbase, Or.inr hkind⟩
  next hkind =>
    obtain ⟨rfl, c, hc, rfl⟩ := single .type (Except.ok.inj hnames)
    exact ⟨c, .type (Or.inl hkind) hc, Or.inl hused⟩
  next hkind =>
    obtain ⟨rfl, c, hc, rfl⟩ := single .type (Except.ok.inj hnames)
    exact ⟨c, .type (Or.inr hkind) hc, Or.inl hused⟩
  next hkind => exact several (Or.inl hkind) (Except.ok.inj hnames)
  next hkind => exact several (Or.inr hkind) (Except.ok.inj hnames)
  next => cases hnames

/-- What is not left out is introduced, unless it is a method whose name cannot be made out. -/
lemma introduces_of_ownName {n c : Node} {kind : Declaration.Kind} {name : String}
    (hread : n.kind = "method_declaration" → ∃ s, methodName n = .ok s)
    (h : OwnName n c kind name) (hkept : Kept n c) : Introduces n kind name := by
  have hused : n.kind ≠ "method_declaration" → c.text ≠ discard := hkept.resolve_right
  cases h with
  | function hkind hc =>
      refine ⟨[c.text], ?_, List.mem_singleton_self _, hused (by simp [hkind])⟩
      simp [declaredNames, hkind, fieldText?, hc]
  | @method base hkind hc hbase =>
      obtain ⟨-, -, hclear⟩ := exists_methodName_iff.1 (hread hkind)
      have hname : methodName n = .ok (qualify [base, c.text]) :=
        methodName_of_hasReceiver (by rw [fieldText?, hc, Option.map_some]) hbase hclear
      refine ⟨[qualify [base, c.text]], ?_, List.mem_singleton_self _, qualify_ne_discard _ _⟩
      rw [declaredNames_of_method hkind, hname]
      rfl
  | type hkind hc =>
      refine ⟨[c.text], ?_, List.mem_singleton_self _,
        hused (by rcases hkind with h | h <;> simp [h])⟩
      rcases hkind with hkind | hkind <;> simp [declaredNames, hkind, fieldText?, hc]
  | value hkind hc hfield hnamed =>
      refine ⟨declaredNames.valueNames n, ?_, mem_valueNames_iff.2 ⟨c, hc, hfield, hnamed, rfl⟩,
        hused (by rcases hkind with h | h <;> simp [h])⟩
      rcases hkind with hkind | hkind <;> simp [declaredNames, hkind]

/-- If a definition is left out, it is for the name that it would declare. -/
lemma OwnName.eq_discard {n c : Node} {kind : Declaration.Kind} {name : String}
    (h : OwnName n c kind name) (hleft : ¬ Kept n c) : name = discard := by
  obtain ⟨hdiscard, hmethod⟩ := not_or.1 hleft
  cases h with
  | method hkind => exact absurd hkind hmethod
  | function => exact not_not.1 hdiscard
  | type => exact not_not.1 hdiscard
  | value => exact not_not.1 hdiscard

/-! ## The last definition of a name -/

namespace SourceFile

/-- The node introduces the declaration. -/
def Declares (path : Path) (n : Node) (d : Declaration) : Prop :=
  Introduces n d.kind d.name ∧ d.file = path ∧ d.span = some (spanOf n)

/-- One of the nodes introduces the declaration, and no later one its name. -/
def Latest (path : Path) (nodes : List Node) (d : Declaration) : Prop :=
  ∃ before n after, nodes = before ++ n :: after ∧ Declares path n d ∧
    ∀ m ∈ after, ∀ kind, ¬ Introduces m kind d.name

lemma latest_concat_iff {path : Path} {nodes : List Node} {n : Node} {d : Declaration} :
    Latest path (nodes ++ [n]) d ↔
      Declares path n d ∨ Latest path nodes d ∧ ∀ kind, ¬ Introduces n kind d.name := by
  constructor
  · rintro ⟨before, m, after, hnodes, hdeclares, hlast⟩
    rcases List.eq_nil_or_concat after with rfl | ⟨after, k, rfl⟩
    · obtain ⟨-, hm⟩ := List.append_inj' hnodes rfl
      rw [(List.cons.inj hm).1]
      exact Or.inl hdeclares
    · rw [List.concat_eq_append, ← List.cons_append, ← List.append_assoc] at hnodes
      obtain ⟨rfl, hk⟩ := List.append_inj' hnodes rfl
      obtain ⟨rfl, -⟩ := List.cons.inj hk
      rw [List.concat_eq_append] at hlast
      refine Or.inr ⟨⟨before, m, after, rfl, hdeclares, fun x hx => ?_⟩, ?_⟩
      · exact hlast x (List.mem_append_left [n] hx)
      · exact hlast n (List.mem_append_right after (List.mem_singleton_self n))
  · rintro (hdeclares | ⟨⟨before, m, after, rfl, hdeclares, hlast⟩, hnone⟩)
    · exact ⟨nodes, n, [], rfl, hdeclares, fun x hx => absurd hx List.not_mem_nil⟩
    · refine ⟨before, m, after ++ [n], by simp, hdeclares, fun x hx => ?_⟩
      rcases List.mem_append.1 hx with hx | hx
      · exact hlast x hx
      · rw [List.mem_singleton.1 hx]
        exact hnone

/-- New declarations replace those of the same names, if there is one for each name. -/
lemma mem_foldl_put_iff {new ds : List Declaration} {d : Declaration}
    (hds : Sorted.Strict compareNames ds)
    (hnew : ∀ a ∈ new, ∀ b ∈ new, a.name = b.name → a = b) :
    d ∈ new.foldl (fun ds d => Sorted.put compareNames d ds) ds ↔
      d ∈ new ∨ d ∈ ds ∧ ∀ e ∈ new, e.name ≠ d.name := by
  induction new generalizing ds with
  | nil => simp
  | cons a new ih =>
      have hput : d ∈ Sorted.put compareNames a ds ↔ d = a ∨ d ∈ ds ∧ a.name ≠ d.name := by
        rw [Sorted.mem_put_iff hds, ne_eq, ne_eq, compareNames_eq_iff]
      rw [List.foldl_cons, ih (Sorted.strict_put hds)
        fun x hx y hy => hnew x (List.mem_cons_of_mem a hx) y (List.mem_cons_of_mem a hy), hput]
      constructor
      · rintro (hd | ⟨rfl | ⟨hd, hne⟩, hnone⟩)
        · exact Or.inl (List.mem_cons_of_mem a hd)
        · exact Or.inl List.mem_cons_self
        · exact Or.inr ⟨hd, List.forall_mem_cons.2 ⟨hne, hnone⟩⟩
      · rintro (hd | ⟨hd, hnone⟩)
        · by_cases hlater : d ∈ new
          · exact Or.inl hlater
          · have hda : d = a := (List.mem_cons.1 hd).resolve_right hlater
            refine Or.inr ⟨Or.inl hda, fun e he hname => hlater ?_⟩
            rw [← hnew e (List.mem_cons_of_mem a he) d hd hname]
            exact he
        · obtain ⟨hne, hnone⟩ := List.forall_mem_cons.1 hnone
          exact Or.inr ⟨Or.inr ⟨hd, hne⟩, hnone⟩

lemma introduces_iff {n : Node} {kind : Declaration.Kind} {names : List String}
    (h : declaredNames n = .ok (some (kind, names))) {k : Declaration.Kind} {name : String} :
    Introduces n k name ↔ k = kind ∧ name ∈ names ∧ name ≠ discard := by
  rw [Introduces, h]
  constructor
  · rintro ⟨names', hnames', hname, hused⟩
    obtain ⟨rfl, rfl⟩ := Prod.mk.inj (Option.some.inj (Except.ok.inj hnames'))
    exact ⟨rfl, hname, hused⟩
  · rintro ⟨rfl, hname, hused⟩
    exact ⟨names, rfl, hname, hused⟩

lemma Declares.eq_of_name_eq {path : Path} {n : Node} {a b : Declaration} (ha : Declares path n a)
    (hb : Declares path n b) (hname : a.name = b.name) : a = b := by
  obtain ⟨⟨names, hnames, hin, hused⟩, hafile, haspan⟩ := ha
  obtain ⟨hintro, hbfile, hbspan⟩ := hb
  have hkind : b.kind = a.kind := ((introduces_iff hnames).1 hintro).1
  cases a
  cases b
  simp_all

/-- One more node replaces the declarations of the names that it introduces. -/
lemma mem_addDeclarations_iff {f f' : SourceFile} {n : Node} {d : Declaration} (h : f.Tidy)
    (hadd : f.addDeclarations n = .ok f') :
    d ∈ f'.declarations ↔
      Declares f.path n d ∨ d ∈ f.declarations ∧ ∀ kind, ¬ Introduces n kind d.name := by
  obtain ⟨declared, hdeclared, hf'⟩ := map_eq_ok_iff.1 hadd
  cases declared with
  | none =>
      have hnone : ∀ kind name, ¬ Introduces n kind name := by
        rintro kind name ⟨names, hnames, -⟩
        rw [hdeclared] at hnames
        cases hnames
      subst hf'
      simp [Declares, hnone]
  | some declared =>
      obtain ⟨kind, names⟩ := declared
      have hmem : ∀ e, (e ∈ (names.filter (· != discard)).map fun name =>
          { file := f.path, name, kind, span := some (spanOf n) : Declaration }) ↔
          Declares f.path n e := by
        intro e
        rw [Declares, introduces_iff hdeclared, List.mem_map]
        constructor
        · rintro ⟨name, hname, rfl⟩
          exact ⟨⟨rfl, by simpa using hname⟩, rfl, rfl⟩
        · rintro ⟨⟨hkind, hname⟩, hfile, hspan⟩
          exact ⟨e.name, by simpa using hname, by rw [← hkind, ← hfile, ← hspan]⟩
      subst hf'
      rw [mem_foldl_put_iff h.names_strict fun a ha b hb =>
        ((hmem a).1 ha).eq_of_name_eq ((hmem b).1 hb), hmem]
      refine or_congr_right (and_congr_right fun _ =>
        ⟨fun hnone k hintro => ?_, fun hnone e he => ?_⟩)
      · exact hnone ⟨f.path, d.name, k, some (spanOf n)⟩ ((hmem _).2 ⟨hintro, rfl, rfl⟩) rfl
      · intro hname
        exact hnone e.kind (hname ▸ ((hmem e).1 he).1)

/-! ## The whole tree -/

/-- A file that is being read has the given path, and declares what the nodes so far declare. -/
def Holds (path : Path) (tree : Node) (nodes : List Node) (f : SourceFile) : Prop :=
  ReadFrom path tree f ∧ ∀ d, d ∈ f.declarations ↔ Latest path nodes d

lemma holds_addDeclarations {path : Path} {tree n : Node} {nodes : List Node} {f f' : SourceFile}
    (h : Holds path tree nodes f) (hadd : f.addDeclarations n = .ok f') :
    Holds path tree (nodes ++ [n]) f' := by
  refine ⟨readFrom_addDeclarations h.1 hadd, fun d => ?_⟩
  rw [mem_addDeclarations_iff h.1.tidy hadd, latest_concat_iff, h.1.path_eq, h.2]

lemma holds_addTopLevel {path : Path} {tree n : Node} {nodes : List Node} {f f' : SourceFile}
    (h : Holds path tree nodes f) (hadd : f.addTopLevel n = .ok f') :
    Holds path tree (nodes ++ introducing n) f' := by
  rcases foldlM_introducing hadd with hfold | ⟨hnone, hsame⟩
  · have hstep : ∀ done g m g', Holds path tree done g → g.addDeclarations m = .ok g' →
        Holds path tree (done ++ [m]) g' := fun _ _ _ _ => holds_addDeclarations
    have hrecord := foldlM_record hstep h hfold
    rwa [List.flatMap_singleton'] at hrecord
  · refine ⟨readFrom_addTopLevel h.1 hadd, ?_⟩
    rw [hnone, List.append_nil, hsame]
    exact h.2

/-- A file declares what the last definition of each name declares. -/
lemma mem_declarations_iff_latest {path : Path} {tree : Node} {f : SourceFile}
    (h : ofTree path tree = .ok f) (d : Declaration) :
    d ∈ f.declarations ↔ Latest path (topLevel tree) d := by
  have hempty : Holds path tree [] { path, tree } := by
    refine ⟨⟨rfl, rfl, List.Pairwise.nil, fun _ hd => absurd hd List.not_mem_nil,
      List.Pairwise.nil⟩, fun d => ?_⟩
    simp [Latest]
  have hstep : ∀ done g n g', Holds path tree done g → g.addTopLevel n = .ok g' →
      Holds path tree (done ++ introducing n) g' := fun _ _ _ _ => holds_addTopLevel
  exact (foldlM_record hstep hempty h).2 d

/-- Methods among the definitions stand right below the root. -/
lemma mem_namedChildren_of_method {tree n : Node} (hn : n ∈ topLevel tree)
    (hkind : n.kind = "method_declaration") : n ∈ tree.namedChildren := by
  obtain ⟨c, hc, hn⟩ := List.mem_flatMap.1 hn
  have hspec : ∀ kind, kind ≠ "method_declaration" → n ∉ specs c kind := by
    intro kind hne hn
    exact hne ((kind_of_mem_specs hn).symm.trans hkind)
  rw [introducing] at hn
  split at hn
  next => exact List.mem_singleton.1 hn ▸ hc
  next => exact List.mem_singleton.1 hn ▸ hc
  next =>
    rcases List.mem_append.1 hn with hn | hn
    · exact absurd hn (hspec "type_spec" (by decide))
    · exact absurd hn (hspec "type_alias" (by decide))
  next => exact absurd hn (hspec "var_spec" (by decide))
  next => exact absurd hn (hspec "const_spec" (by decide))
  next => cases hn

/-- In a tree that is read, names are introduced by the identifiers that are not left out. -/
lemma introduces_iff_ownName {path : Path} {tree n : Node} {f : SourceFile}
    (h : ofTree path tree = .ok f) (hn : n ∈ topLevel tree) {kind : Declaration.Kind}
    {name : String} : Introduces n kind name ↔ ∃ c, OwnName n c kind name ∧ Kept n c := by
  constructor
  · exact exists_ownName_of_introduces
  · rintro ⟨c, hown, hkept⟩
    refine introduces_of_ownName (fun hkind => ?_) hown hkept
    exact (exists_ofTree_iff.1 ⟨f, h⟩).2 n (mem_namedChildren_of_method hn hkind) hkind

/-- **What a file declares.**  A file declares exactly what its definitions at the top level
declare, the last one for each name, except for those, other than methods, whose own name is the
discard identifier.  In particular a definition has an entry unless it is one of these. -/
theorem declarations_of_definitions {path : Path} {tree : Node} {f : SourceFile}
    (h : check path tree = .ok f) :
    (∀ d, d ∈ f.declarations ↔
      ∃ before n after c, topLevel tree = before ++ n :: after ∧ OwnName n c d.kind d.name ∧
        Kept n c ∧ d.file = path ∧ d.span = some (spanOf n) ∧
        ∀ m ∈ after, ∀ c' kind, OwnName m c' kind d.name → ¬ Kept m c') ∧
    (∀ n ∈ topLevel tree, ∀ c kind name, OwnName n c kind name →
      ((∃ d ∈ f.declarations, d.name = name) ↔ Kept n c)) ∧
    f.declarations.Pairwise fun a b => a.name ≠ b.name := by
  obtain ⟨-, hread⟩ := check_eq_ok_iff.1 h
  refine ⟨fun d => ?_, fun n hn c kind name hown => ?_, (readFrom_ofTree hread).tidy.names_ne⟩
  · rw [mem_declarations_iff_latest hread, Latest]
    constructor
    · rintro ⟨before, n, after, htop, ⟨hintro, hfile, hspan⟩, hlast⟩
      obtain ⟨c, hown, hkept⟩ := exists_ownName_of_introduces hintro
      refine ⟨before, n, after, c, htop, hown, hkept, hfile, hspan, ?_⟩
      intro m hm c' kind hown' hkept'
      have hmtop : m ∈ topLevel tree := by simp [htop, hm]
      exact hlast m hm kind ((introduces_iff_ownName hread hmtop).2 ⟨c', hown', hkept'⟩)
    · rintro ⟨before, n, after, c, htop, hown, hkept, hfile, hspan, hlast⟩
      have hntop : n ∈ topLevel tree := by simp [htop]
      refine ⟨before, n, after, htop,
        ⟨(introduces_iff_ownName hread hntop).2 ⟨c, hown, hkept⟩, hfile, hspan⟩, ?_⟩
      intro m hm kind hintro
      obtain ⟨c', hown', hkept'⟩ := exists_ownName_of_introduces hintro
      exact hlast m hm c' kind hown' hkept'
  · constructor
    · rintro ⟨d, hd, rfl⟩
      by_contra hleft
      obtain ⟨m, -, ⟨_, -, -, hused⟩, -⟩ := (collects_ofTree hread).exists_node d hd
      exact hused (hown.eq_discard hleft)
    · intro hkept
      exact (collects_ofTree hread).exists_declaration n hn kind name
        ((introduces_iff_ownName hread hn).2 ⟨c, hown, hkept⟩)

namespace Sample

def identifier (kind text : String) : Node := .node { kind, field := some "name", text } []

/-- `var _, a` -/
def pair : Node :=
  .node { kind := "var_spec" }
    [identifier "identifier" "_", .node { kind := ",", named := false, field := some "name" } [],
     identifier "identifier" "a"]

/-- `func (T) _()` -/
def discardedMethod : Node :=
  .node { kind := "method_declaration" }
    [.node { kind := "parameter_list", field := some "receiver" }
      [.node { kind := "parameter_declaration" }
        [.node { kind := "type_identifier", field := some "type", text := "T" } []]],
     identifier "field_identifier" "_"]

/-- The file with both. -/
def discarding : SourceFile where
  path := ⟨"/p/a.go"⟩
  declarations := [
    { file := ⟨"/p/a.go"⟩, name := "T::_", kind := .method, span := some ⟨1, 1, 1, 1⟩ },
    { file := ⟨"/p/a.go"⟩, name := "a", kind := .value, span := some ⟨1, 1, 1, 1⟩ }]
  tree := .node { kind := "source_file" }
    [.node { kind := "var_declaration" } [pair], discardedMethod]

lemma check_discarding : check discarding.path discarding.tree = .ok discarding := by cbv

lemma topLevel_discarding : topLevel discarding.tree = [pair, discardedMethod] := rfl

lemma ownName_pair {text : String} (h : identifier "identifier" text ∈ pair.children) :
    OwnName pair (identifier "identifier" text) .value text :=
  .value (Or.inl rfl) h rfl rfl

lemma ownName_discardedMethod :
    OwnName discardedMethod (identifier "field_identifier" "_") .method (qualify ["T", "_"]) :=
  .method rfl rfl ⟨_, rfl, .name rfl⟩

end Sample

/-- Of `var _, a` the second name is declared, and the first one is not. -/
theorem declarations_of_pair :
    check Sample.discarding.path Sample.discarding.tree = .ok Sample.discarding ∧
      (∃ d ∈ Sample.discarding.declarations, d.name = "a") ∧
      ¬ ∃ d ∈ Sample.discarding.declarations, d.name = "_" := by
  have hentry := (declarations_of_definitions Sample.check_discarding).2.1 Sample.pair
    (by simp [Sample.topLevel_discarding])
  refine ⟨Sample.check_discarding, ?_, ?_⟩
  · exact (hentry _ _ "a" (Sample.ownName_pair (by simp [Sample.pair, Node.children]))).2
      (Or.inl (by decide))
  · rw [hentry _ _ "_" (Sample.ownName_pair (by simp [Sample.pair, Node.children])), Kept]
    decide

/-- A method whose own name is the discard identifier is declared. -/
theorem declarations_of_discarded_method :
    check Sample.discarding.path Sample.discarding.tree = .ok Sample.discarding ∧
      ∃ d ∈ Sample.discarding.declarations, ∃ n ∈ topLevel Sample.discarding.tree, ∃ c,
        OwnName n c d.kind d.name ∧ c.text = discard ∧ d.span = some (spanOf n) := by
  refine ⟨Sample.check_discarding, _, List.mem_cons_self, Sample.discardedMethod,
    by simp [Sample.topLevel_discarding], Sample.identifier "field_identifier" "_", ?_, rfl, rfl⟩
  exact Sample.ownName_discardedMethod

end SourceFile

end GoReach.Go
