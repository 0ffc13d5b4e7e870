import GoReach.Go.Reference
import GoReach.Proofs.Go.TopLevel

/-!
# Names of methods and other names

A name in a Go file is a word, and no word has a colon in it.  The names of methods are put together
from two words with colons between them; so no reference looks for a method
(`no_colon_of_shape?`, `colon_of_introduces`).  Nor has a word a dot in it, and so no name that is
introduced has one (`no_dot_of_introduces`).

That is so in trees whose names are words, which is what `WellNamed` and `Undotted` say.
-/

namespace GoReach.Go

open GoReach.Syntax (Node)
open SourceFile (Introduces)

/-- The name that a reference looks for. -/
def Shape.sought : Shape → String
  | .name s => s
  | .member _ part => part

/-- The kinds of nodes that are names. -/
def nameKinds : List String := ["identifier", "type_identifier", "field_identifier"]

/-- The field in which a node of the given kind has its name, or what it refers to. -/
def nameField? (kind : String) : Option String :=
  match kind with
  | "selector_expression" => some "field"
  | "qualified_type" => some "name"
  | "function_declaration" => some "name"
  | "type_spec" => some "name"
  | "type_alias" => some "name"
  | "var_spec" => some "name"
  | "const_spec" => some "name"
  | _ => none

/-- The nodes that are taken as names of a node: the first one in its field for names, and every one
there that is named.  (There can be commas between names.) -/
def namesOf (n : Node) : List Node :=
  match nameField? n.kind with
  | none => []
  | some field => (n.childInField? field).toList ++ (n.childrenInField field).filter Node.isNamed

/-- The names in a tree are words: they are not empty, and have no colon in them. -/
structure WellNamed (t : Node) : Prop where
  text : ∀ n ∈ t.nodes, n.kind ∈ nameKinds → n.text ≠ "" ∧ ':' ∉ n.text.toList
  kind : ∀ n ∈ t.nodes, ∀ c ∈ namesOf n, c.kind ∈ nameKinds

instance (t : Node) : Decidable (WellNamed t) :=
  decidable_of_iff
    ((∀ n ∈ t.nodes, n.kind ∈ nameKinds → n.text ≠ "" ∧ ':' ∉ n.text.toList) ∧
      ∀ n ∈ t.nodes, ∀ c ∈ namesOf n, c.kind ∈ nameKinds)
    ⟨fun h => ⟨h.1, h.2⟩, fun h => ⟨h.1, h.2⟩⟩

section

variable {n c : Node} {field : String}

/-- The first child in the name field is one of the names. -/
lemma mem_namesOf_of_first (hfield : nameField? n.kind = some field)
    (hc : n.childInField? field = some c) : c ∈ namesOf n := by
  simp [namesOf, hfield, hc]

/-- So is every named child in that field. -/
lemma mem_namesOf_of_named (hfield : nameField? n.kind = some field)
    (hc : c ∈ (n.childrenInField field).filter Node.isNamed) : c ∈ namesOf n := by
  rw [namesOf, hfield]
  exact List.mem_append_right _ hc

lemma mem_children_of_mem_namesOf (h : c ∈ namesOf n) : c ∈ n.children := by
  rw [namesOf] at h
  split at h
  · cases h
  · rcases List.mem_append.1 h with hfirst | hnamed
    · exact List.mem_of_find?_eq_some (Option.mem_toList.1 hfirst)
    · exact (List.mem_filter.1 (List.mem_filter.1 hnamed).1).1

/-- Names of a well-named tree are not empty and have no colons. -/
lemma WellNamed.text_of_mem_namesOf {t : Node} (h : WellNamed t) (hn : n ∈ t.nodes)
    (hc : c ∈ namesOf n) : c.text ≠ "" ∧ ':' ∉ c.text.toList :=
  h.text c (Node.mem_nodes_of_mem_children hn (mem_children_of_mem_namesOf hc)) (h.kind n hn c hc)

end

/-! ## Names that are introduced -/

/-- The type of a receiver is a name somewhere inside. -/
lemma exists_of_receiverType? {t n : Node} {s : String} (hn : n ∈ t.nodes)
    (h : receiverType? n = some s) :
    ∃ c ∈ t.nodes, c.kind = "type_identifier" ∧ c.text = s := by
  fun_induction receiverType? n with
  | case1 n hkind => exact ⟨n, hn, beq_iff_eq.1 hkind, Option.some.inj h⟩
  | case2 n hkind c hinner ih =>
      exact ih (Node.mem_nodes_of_mem_children hn (mem_children_of_innerType? hinner)) h
  | case3 n hkind hinner => cases h

/-- The name of a method is put together from its receiver type and its own name. -/
lemma exists_qualify_of_methodName {t n : Node} {name : String} (hn : n ∈ t.nodes)
    (h : methodName n = .ok name) :
    ∃ receiver ∈ t.nodes, receiver.kind = "type_identifier" ∧
      ∃ c, n.childInField? "name" = some c ∧ name = qualify [receiver.text, c.text] := by
  rw [methodName] at h
  split at h
  next => cases h
  next method hmethod =>
    dsimp only at h
    split at h
    next receiver hreceiver =>
      obtain ⟨c, hc, rfl⟩ := Option.map_eq_some_iff.1 hmethod
      obtain ⟨type, htype, hreceiver⟩ := Option.bind_eq_some_iff.1 hreceiver
      obtain ⟨parameter, hparameter, htype⟩ := Option.bind_eq_some_iff.1 htype
      obtain ⟨list, hlist, hparameter⟩ := Option.bind_eq_some_iff.1 hparameter
      have hlist := Node.mem_nodes_of_mem_children hn (List.mem_of_find?_eq_some hlist)
      have hparameter := Node.mem_nodes_of_mem_children hlist
        (List.mem_filter.1 (List.mem_of_find?_eq_some hparameter)).1
      have htype := Node.mem_nodes_of_mem_children hparameter (List.mem_of_find?_eq_some htype)
      obtain ⟨r, hr, hkind, rfl⟩ := exists_of_receiverType? htype hreceiver
      exact ⟨r, hr, hkind, c, hc, (Except.ok.inj h).symm⟩
    next => cases h

/-- A node introduces a method, or a name of its own for something else. -/
lemma introduces_cases {n : Node} {kind : Declaration.Kind} {name : String}
    (h : Introduces n kind name) :
    (kind = .method ∧ n.kind = "method_declaration" ∧ methodName n = .ok name) ∨
      (kind ≠ .method ∧ kind ≠ .fileRoot ∧ ∃ c ∈ namesOf n, name = c.text) := by
  obtain ⟨names, hnames, hname, -⟩ := h
  -- a single name is the text of the first node in the field
  have single : ∀ k : Declaration.Kind, k ≠ .method → k ≠ .fileRoot →
      nameField? n.kind = some "name" →
      (fieldText? n "name").map (fun name => (k, [name])) = some (kind, names) →
      kind ≠ .method ∧ kind ≠ .fileRoot ∧ ∃ c ∈ namesOf n, name = c.text := by
    intro k hmethod hroot hfield hsome
    obtain ⟨text, htext, heq⟩ := Option.map_eq_some_iff.1 hsome
    obtain ⟨rfl, rfl⟩ := Prod.mk.inj heq
    obtain ⟨c, hc, rfl⟩ := Option.map_eq_some_iff.1 htext
    exact ⟨hmethod, hroot, c, mem_namesOf_of_first hfield hc, List.mem_singleton.1 hname⟩
  have several : nameField? n.kind = some "name" →
      some (Declaration.Kind.value, declaredNames.valueNames n) = some (kind, names) →
      kind ≠ .method ∧ kind ≠ .fileRoot ∧ ∃ c ∈ namesOf n, name = c.text := by
    intro hfield hsome
    obtain ⟨rfl, rfl⟩ := Prod.mk.inj (Option.some.inj hsome)
    obtain ⟨c, hc, rfl⟩ := List.mem_map.1 hname
    exact ⟨by decide, by decide, c, mem_namesOf_of_named hfield hc, rfl⟩
  rw [declaredNames] at hnames
  split at hnames
  next hkind =>
    exact Or.inr (single .function (by decide) (by decide) (hkind ▸ rfl) (Except.ok.inj hnames))
  next hkind =>
    obtain ⟨method, hmethod, heq⟩ := map_eq_ok_iff.1 hnames
    obtain ⟨rfl, rfl⟩ := Prod.mk.inj (Option.some.inj heq)
    refine Or.inl ⟨rfl, hkind, ?_⟩
    rw [List.mem_singleton.1 hname]
    exact hmethod
  next hkind =>
    exact Or.inr (single .type (by decide) (by decide) (hkind ▸ rfl) (Except.ok.inj hnames))
  next hkind =>
    exact Or.inr (single .type (by decide) (by decide) (hkind ▸ rfl) (Except.ok.inj hnames))
  next hkind => exact Or.inr (several (hkind ▸ rfl) (Except.ok.inj hnames))
  next hkind => exact Or.inr (several (hkind ▸ rfl) (Except.ok.inj hnames))
  next => cases hnames

lemma colon_mem_qualify (receiver method : String) :
    ':' ∈ (qualify [receiver, method]).toList := by
  have hqualify : qualify [receiver, method] = receiver ++ "::" ++ method := rfl
  simp [hqualify]

/-- So it has colons in it. -/
lemma colon_of_methodName {n : Node} {name : String} (h : methodName n = .ok name) :
    ':' ∈ name.toList := by
  obtain ⟨receiver, -, -, c, -, rfl⟩ := exists_qualify_of_methodName n.mem_nodes_self h
  exact colon_mem_qualify receiver.text c.text

/-- Methods are told from other declarations by the colons in their names. -/
lemma colon_of_introduces {n : Node} {name : String} (h : Introduces n .method name) :
    ':' ∈ name.toList := by
  rcases introduces_cases h with ⟨-, -, hmethod⟩ | ⟨hne, -⟩
  · exact colon_of_methodName hmethod
  · exact absurd rfl hne

/-- No node introduces the code outside of declarations. -/
lemma kind_ne_fileRoot_of_introduces {n : Node} {kind : Declaration.Kind} {name : String}
    (h : Introduces n kind name) : kind ≠ .fileRoot := by
  rcases introduces_cases h with ⟨rfl, -⟩ | ⟨-, hroot, -⟩
  · decide
  · exact hroot

/-- In a well-named tree no node introduces the empty name. -/
lemma WellNamed.ne_empty_of_introduces {t n : Node} (h : WellNamed t) (hn : n ∈ t.nodes)
    {kind : Declaration.Kind} {name : String} (hintro : Introduces n kind name) : name ≠ "" := by
  rcases introduces_cases hintro with ⟨-, -, hmethod⟩ | ⟨-, -, c, hc, rfl⟩
  · rintro rfl
    cases colon_of_methodName hmethod
  · exact (h.text_of_mem_namesOf hn hc).1

/-! ## Names without dots -/

/-- The names in a tree have no dot in them, because they are made of letters, digits and
underscores. -/
structure Undotted (t : Node) : Prop where
  text : ∀ n ∈ t.nodes, n.kind ∈ nameKinds → '.' ∉ n.text.toList
  kind : ∀ n ∈ t.nodes, ∀ c ∈ namesOf n, c.kind ∈ nameKinds
  method : ∀ n ∈ t.nodes, n.kind = "method_declaration" →
    ∀ c ∈ n.childInField? "name", c.kind ∈ nameKinds

instance (t : Node) : Decidable (Undotted t) :=
  decidable_of_iff
    ((∀ n ∈ t.nodes, n.kind ∈ nameKinds → '.' ∉ n.text.toList) ∧
      (∀ n ∈ t.nodes, ∀ c ∈ namesOf n, c.kind ∈ nameKinds) ∧
      ∀ n ∈ t.nodes, n.kind = "method_declaration" →
        ∀ c ∈ n.childInField? "name", c.kind ∈ nameKinds)
    ⟨fun h => ⟨h.1, h.2.1, h.2.2⟩, fun h => ⟨h.1, h.2, h.3⟩⟩

/-- What is introduced has no dot in its name, even if it is a method. -/
lemma Undotted.no_dot_of_introduces {t n : Node} (h : Undotted t) (hn : n ∈ t.nodes)
    {kind : Declaration.Kind} {name : String} (hintro : Introduces n kind name) :
    '.' ∉ name.toList := by
  rcases introduces_cases hintro with ⟨-, hkind, hmethod⟩ | ⟨-, -, c, hc, rfl⟩
  · obtain ⟨receiver, hreceiver, htype, c, hc, rfl⟩ := exists_qualify_of_methodName hn hmethod
    have hchild := Node.mem_nodes_of_mem_children hn (List.mem_of_find?_eq_some hc)
    have hleft := h.text receiver hreceiver (by simp [nameKinds, htype])
    have hright := h.text c hchild (h.method n hn hkind c hc)
    have hqualify : qualify [receiver.text, c.text] = receiver.text ++ "::" ++ c.text := rfl
    simp [hqualify, hleft, hright]
  · have hchild := Node.mem_nodes_of_mem_children hn (mem_children_of_mem_namesOf hc)
    exact h.text c hchild (h.kind n hn c hc)

/-! ## Names that are looked for -/

/-- A reference looks for the text of a name. -/
lemma sought_cases {n : Node} {parent : Option Node} {shape : Shape}
    (h : shape? n parent = some shape) :
    (n.kind ∈ nameKinds ∧ shape.sought = n.text) ∨ ∃ c ∈ namesOf n, shape.sought = c.text := by
  have plain : n.kind ∈ nameKinds → shape?.plain n parent = some shape →
      n.kind ∈ nameKinds ∧ shape.sought = n.text := by
    intro hkind hplain
    rw [shape?.plain] at hplain
    split at hplain
    · cases hplain
    · rw [← Option.some.inj hplain]
      exact ⟨hkind, rfl⟩
  rw [shape?] at h
  split at h
  next hkind => exact Or.inl (plain (by simp [nameKinds, hkind]) h)
  next hkind => exact Or.inl (plain (by simp [nameKinds, hkind]) h)
  next hkind =>
    split at h
    next object member hobject hmember =>
      split at h
      · rw [← Option.some.inj h]
        have hfield : nameField? n.kind = some "field" := hkind ▸ rfl
        exact Or.inr ⟨member, mem_namesOf_of_first hfield hmember, rfl⟩
      · cases h
    next => cases h
  next hkind =>
    split at h
    next object member hobject hmember =>
      rw [← Option.some.inj h]
      have hfield : nameField? n.kind = some "name" := hkind ▸ rfl
      exact Or.inr ⟨member, mem_namesOf_of_first hfield hmember, rfl⟩
    next => cases h
  next => cases h

/-- No reference looks for a name with a colon in it. -/
lemma WellNamed.no_colon_of_shape? {t n : Node} (h : WellNamed t) (hn : n ∈ t.nodes)
    {parent : Option Node} {shape : Shape} (hshape : shape? n parent = some shape) :
    ':' ∉ shape.sought.toList := by
  rcases sought_cases hshape with ⟨hkind, heq⟩ | ⟨c, hc, heq⟩
  · rw [heq]
    exact (h.text n hn hkind).2
  · rw [heq]
    exact (h.text_of_mem_namesOf hn hc).2

end GoReach.Go
