import Mathlib.Tactic.Lemma
import GoReach.Proofs.Go.TopLevel

/-!
# Receivers of methods

The type of a receiver is a name with any nesting of pointers, parentheses and instances of generic
types around it (`Wraps`).  Comments may stand anywhere in it, so what a pointer or a pair of
parentheses is put around is its first part that is not a comment (`operand?`).

The name of a method is not made out that way: inside a pointer or parentheses the first child is
taken, be it a comment or not (`innerType?`).  So the name is found if and only if the type is a
name in that sense and no comment comes first anywhere on the way to it
(`receiverType?_eq_some_iff`).  A comment that does is an obstruction (`Obstructed`); all others
make no difference, which is said of receivers with the same outline (`outline`).
-/

namespace GoReach.Go

open GoReach.Syntax (Node)

/-! ## Types without their comments -/

/-- Comments may stand among the children of any node, and are in no field. -/
def isComment (n : Node) : Bool := n.kind == "comment" && n.info.field.isNone

/-- The named children that are not comments. -/
def parts (n : Node) : List Node := n.namedChildren.filter fun c => !isComment c

/-- The type that a pointer, a pair of parentheses or an instance of a generic type is around. -/
def operand? (n : Node) : Option Node :=
  match n.kind with
  | "generic_type" => n.childInField? "type" <|> (parts n).head?
  | "pointer_type" => (parts n).head?
  | "parenthesized_type" => (parts n).head?
  | _ => none

/-- The type is a bare name under any nesting of pointers, parentheses and instances. -/
inductive Wraps : Node → String → Prop where
  | name {n : Node} (hkind : n.kind = "type_identifier") : Wraps n n.text
  | wrapper {n c : Node} {base : String} (hoperand : operand? n = some c) (hc : Wraps c base) :
      Wraps n base

/-- What is inside is found by its place among the children. -/
def byPlace (n : Node) : Bool :=
  match n.kind with
  | "generic_type" => (n.childInField? "type").isNone
  | "pointer_type" => true
  | "parenthesized_type" => true
  | _ => false

/-- A comment stands in the place of what is inside. -/
def CommentFirst (n : Node) : Prop :=
  byPlace n = true ∧ ∃ c, n.namedChildren.head? = some c ∧ isComment c = true

/-- Somewhere on the way to the bare name a comment comes first. -/
inductive Obstructed : Node → Prop where
  | here {n : Node} (hfirst : CommentFirst n) : Obstructed n
  | inside {n c : Node} (hoperand : operand? n = some c) (hc : Obstructed c) : Obstructed n

lemma operand?_eq_none_of_name {n : Node} (hkind : n.kind = "type_identifier") :
    operand? n = none := by
  simp [operand?, hkind]

lemma byPlace_eq_false_of_name {n : Node} (hkind : n.kind = "type_identifier") :
    byPlace n = false := by
  simp [byPlace, hkind]

/-- A type name wraps itself, ... -/
lemma wraps_name_iff {n : Node} (hkind : n.kind = "type_identifier") {base : String} :
    Wraps n base ↔ n.text = base := by
  constructor
  · intro h
    cases h with
    | name => rfl
    | wrapper hoperand hc => simp [operand?_eq_none_of_name hkind] at hoperand
  · rintro rfl
    exact .name hkind

/-- ... and any other type what its operand wraps. -/
lemma wraps_iff_of_ne_name {n : Node} (hkind : n.kind ≠ "type_identifier") {base : String} :
    Wraps n base ↔ ∃ c, operand? n = some c ∧ Wraps c base := by
  constructor
  · intro h
    cases h with
    | name hname => exact absurd hname hkind
    | wrapper hoperand hc => exact ⟨_, hoperand, hc⟩
  · rintro ⟨c, hoperand, hc⟩
    exact .wrapper hoperand hc

/-- A type is obstructed if a comment comes first in it, or in one of its operands. -/
lemma obstructed_iff {n : Node} :
    Obstructed n ↔ CommentFirst n ∨ ∃ c, operand? n = some c ∧ Obstructed c := by
  constructor
  · intro h
    cases h with
    | here hfirst => exact Or.inl hfirst
    | inside hoperand hc => exact Or.inr ⟨_, hoperand, hc⟩
  · rintro (hfirst | ⟨c, hoperand, hc⟩)
    · exact .here hfirst
    · exact .inside hoperand hc

/-! ## The type of a receiver -/

/-- The first child is a part, unless it is a comment. -/
lemma head?_parts {n : Node}
    (h : ¬ ∃ c, n.namedChildren.head? = some c ∧ isComment c = true) :
    (parts n).head? = n.namedChildren.head? := by
  rw [parts]
  cases hchildren : n.namedChildren with
  | nil => rfl
  | cons c rest =>
      have hc : isComment c = false := by simpa [hchildren] using h
      rw [List.filter_cons_of_pos (by simpa using hc)]
      rfl

section

variable {n : Node}

/-- Where the inner type is found by its place, the extraction takes the first child, comment or
not, ... -/
lemma innerType?_of_byPlace (h : byPlace n = true) : innerType? n = n.namedChildren.head? := by
  rw [byPlace] at h
  rw [innerType?]
  split at h <;> simp_all

/-- ... and the operand is the first child that is no comment. -/
lemma operand?_of_byPlace (h : byPlace n = true) : operand? n = (parts n).head? := by
  rw [byPlace] at h
  rw [operand?]
  split at h <;> simp_all

/-- Where it is found by its field, the two are the same. -/
lemma innerType?_of_not_byPlace (h : ¬ byPlace n = true) : innerType? n = operand? n := by
  rw [byPlace] at h
  split at h
  next hkind =>
    -- the type of an instance is in a field of its own
    cases htype : n.childInField? "type" with
    | none => simp [htype] at h
    | some c => simp [innerType?, operand?, hkind, htype]
  next => simp at h
  next => simp at h
  next => simp [innerType?, operand?]

end

/-- What is taken for the type inside is the comment that comes first, or what is inside. -/
lemma innerType?_cases (n : Node) :
    (CommentFirst n ∧ ∃ c, innerType? n = some c ∧ isComment c = true) ∨
      (¬ CommentFirst n ∧ innerType? n = operand? n) := by
  by_cases hfirst : CommentFirst n
  · obtain ⟨hplace, c, hc, hcomment⟩ := hfirst
    refine Or.inl ⟨⟨hplace, c, hc, hcomment⟩, c, ?_, hcomment⟩
    rw [innerType?_of_byPlace hplace, hc]
  · refine Or.inr ⟨hfirst, ?_⟩
    by_cases hplace : byPlace n = true
    · rw [innerType?_of_byPlace hplace, operand?_of_byPlace hplace,
        head?_parts fun hcomment => hfirst ⟨hplace, hcomment⟩]
    · exact innerType?_of_not_byPlace hplace

lemma receiverType?_of_name {n : Node} (hkind : n.kind = "type_identifier") :
    receiverType? n = some n.text := by
  rw [receiverType?, if_pos (by simp [hkind])]

lemma receiverType?_of_ne_name {n : Node} (hkind : n.kind ≠ "type_identifier") :
    receiverType? n = (innerType? n).bind receiverType? := by
  rw [receiverType?, if_neg (by simpa using hkind)]
  split
  next c hinner => rw [hinner, Option.bind_some]
  next hinner => rw [hinner, Option.bind_none]

/-- There is no type in a comment. -/
lemma receiverType?_of_isComment {n : Node} (h : isComment n = true) : receiverType? n = none := by
  have hkind : n.kind = "comment" := by simp_all [isComment]
  rw [receiverType?_of_ne_name (by simp [hkind]), innerType?, hkind]
  rfl

/-- The name of a receiver's type is made out if the type is a bare name, up to wrapping and
comments, and no comment stands in the place of a type. -/
lemma receiverType?_eq_some_iff {n : Node} {base : String} :
    receiverType? n = some base ↔ Wraps n base ∧ ¬ Obstructed n := by
  fun_induction receiverType? n with
  | case1 n hname =>
      have hkind : n.kind = "type_identifier" := by simpa using hname
      rw [Option.some.injEq, wraps_name_iff hkind, obstructed_iff]
      simp [CommentFirst, byPlace_eq_false_of_name hkind, operand?_eq_none_of_name hkind]
  | case2 n hname c hinner ih =>
      have hkind : n.kind ≠ "type_identifier" := by simpa using hname
      rcases innerType?_cases n with ⟨hfirst, d, hd, hcomment⟩ | ⟨hfirst, hoperand⟩
      · rw [hinner, Option.some.injEq] at hd
        rw [hd, receiverType?_of_isComment hcomment]
        simp [Obstructed.here hfirst]
      · rw [hinner] at hoperand
        rw [ih, wraps_iff_of_ne_name hkind, obstructed_iff (n := n)]
        simp [← hoperand, hfirst]
  | case3 n hname hinner =>
      have hkind : n.kind ≠ "type_identifier" := by simpa using hname
      rcases innerType?_cases n with ⟨hfirst, d, hd, hcomment⟩ | ⟨hfirst, hoperand⟩
      · rw [hinner] at hd
        cases hd
      · rw [hinner] at hoperand
        rw [wraps_iff_of_ne_name hkind]
        simp [← hoperand]

/-! ## Methods -/

/-- The type of the receiver of a method. -/
def receiver? (n : Node) : Option Node :=
  ((n.childInField? "receiver").bind fun list =>
    list.namedChildren.find? fun c => c.kind == "parameter_declaration").bind
      (·.childInField? "type")

/-- The receiver of a method is of a type with the given bare name. -/
def HasReceiver (n : Node) (base : String) : Prop := ∃ t, receiver? n = some t ∧ Wraps t base

/-- In the type of the receiver a comment stands in the place of a type. -/
def ObstructedReceiver (n : Node) : Prop := ∃ t, receiver? n = some t ∧ Obstructed t

/-- A method has a name if the type of its receiver is found. -/
lemma methodName_eq {n : Node} {name : String} (hname : fieldText? n "name" = some name) :
    methodName n =
      match (receiver? n).bind receiverType? with
      | some base => .ok (qualify [base, name])
      | none => .error (.receiver name) := by
  rw [methodName, hname]
  rfl

/-- The type is found if the receiver has one and no comment is in the way. -/
lemma receiverType?_receiver_eq_some_iff {n : Node} {base : String} :
    (receiver? n).bind receiverType? = some base ↔ HasReceiver n base ∧ ¬ ObstructedReceiver n := by
  rw [Option.bind_eq_some_iff, HasReceiver, ObstructedReceiver]
  constructor
  · rintro ⟨t, ht, hbase⟩
    obtain ⟨hwraps, hclear⟩ := receiverType?_eq_some_iff.1 hbase
    refine ⟨⟨t, ht, hwraps⟩, ?_⟩
    rintro ⟨t', ht', hobstructed⟩
    rw [ht, Option.some.injEq] at ht'
    exact hclear (ht' ▸ hobstructed)
  · rintro ⟨⟨t, ht, hwraps⟩, hclear⟩
    exact ⟨t, ht, receiverType?_eq_some_iff.2 ⟨hwraps, fun h => hclear ⟨t, ht, h⟩⟩⟩

/-- A method with a receiver that is not obstructed is named after it. -/
lemma methodName_of_hasReceiver {n : Node} {name base : String}
    (hname : fieldText? n "name" = some name) (hbase : HasReceiver n base)
    (hclear : ¬ ObstructedReceiver n) : methodName n = .ok (qualify [base, name]) := by
  rw [methodName_eq hname, receiverType?_receiver_eq_some_iff.2 ⟨hbase, hclear⟩]

/-- Otherwise the extraction fails, and tells the method. -/
lemma methodName_of_not {n : Node} {name : String} (hname : fieldText? n "name" = some name)
    (h : ¬ ((∃ base, HasReceiver n base) ∧ ¬ ObstructedReceiver n)) :
    methodName n = .error (.receiver name) := by
  rw [methodName_eq hname]
  cases hbase : (receiver? n).bind receiverType? with
  | none => rfl
  | some base =>
      obtain ⟨hreceiver, hclear⟩ := receiverType?_receiver_eq_some_iff.1 hbase
      exact absurd ⟨⟨base, hreceiver⟩, hclear⟩ h

/-- The name of a method can be made out if it has one, and a receiver without obstructions. -/
lemma exists_methodName_iff {n : Node} :
    (∃ s, methodName n = .ok s) ↔
      (∃ name, fieldText? n "name" = some name) ∧ (∃ base, HasReceiver n base) ∧
        ¬ ObstructedReceiver n := by
  constructor
  · rintro ⟨s, hs⟩
    cases hname : fieldText? n "name" with
    | none =>
        rw [methodName, hname] at hs
        cases hs
    | some name =>
        refine ⟨⟨name, rfl⟩, ?_⟩
        by_contra hnot
        rw [methodName_of_not hname hnot] at hs
        cases hs
  · rintro ⟨⟨name, hname⟩, ⟨base, hbase⟩, hclear⟩
    exact ⟨_, methodName_of_hasReceiver hname hbase hclear⟩

/-! ## Outlines -/

mutual

/-- A tree without comments, texts and places, except that names of types keep their text. -/
def outline : Node → Node
  | .node info cs =>
    .node
      { kind := info.kind, named := info.named, field := info.field,
        text := if info.kind == "type_identifier" then info.text else "" }
      (outlines cs)

def outlines : List Node → List Node
  | [] => []
  | c :: rest => if isComment c then outlines rest else outline c :: outlines rest

end

/-- Comments are left out of an outline, and the others are outlined. -/
lemma outlines_eq (cs : List Node) :
    outlines cs = (cs.filter fun c => !isComment c).map outline := by
  induction cs with
  | nil => rw [outlines, List.filter_nil, List.map_nil]
  | cons c rest ih =>
      rw [outlines, ih]
      by_cases hc : isComment c = true
      · simp [hc]
      · simp [hc]

@[simp] lemma outline_kind (n : Node) : (outline n).kind = n.kind := by
  cases n
  simp [outline, Node.kind, Node.info]

@[simp] lemma outline_isNamed (n : Node) : (outline n).isNamed = n.isNamed := by
  cases n
  simp [outline, Node.isNamed, Node.info]

@[simp] lemma outline_field (n : Node) : (outline n).info.field = n.info.field := by
  cases n
  simp [outline, Node.info]

lemma outline_text {n : Node} (hkind : n.kind = "type_identifier") :
    (outline n).text = n.text := by
  cases n
  simp_all [outline, Node.kind, Node.text, Node.info]

@[simp] lemma isComment_outline (n : Node) : isComment (outline n) = isComment n := by
  simp [isComment]

/-- The children of an outline are those of the node without the comments. -/
lemma children_outline (n : Node) :
    (outline n).children = (n.children.filter fun c => !isComment c).map outline := by
  cases n
  simp [outline, Node.children, outlines_eq]

/-- What is found among the children without the comments is found among all of them, if it is
nothing that a comment could be taken for. -/
lemma find?_children_outline (n : Node) {p : Node → Bool} (hp : ∀ c, p (outline c) = p c)
    (hcomment : ∀ c, isComment c = true → p c = false) :
    (outline n).children.find? p = (n.children.find? p).map outline := by
  rw [children_outline, List.find?_map, List.find?_filter]
  congr 2
  funext c
  by_cases hc : isComment c = true
  · simp [hc, hcomment c hc]
  · simp [hc, hp]

/-- Comments have no fields, so the children in fields are the same. -/
lemma childInField?_outline (n : Node) (field : String) :
    (outline n).childInField? field = (n.childInField? field).map outline := by
  refine find?_children_outline n (fun c => by simp) fun c hc => ?_
  simp_all [isComment]

lemma parts_outline (n : Node) : parts (outline n) = (parts n).map outline := by
  simp only [parts, Node.namedChildren, children_outline, List.filter_map, List.filter_filter]
  congr 1
  refine List.filter_congr fun c _ => ?_
  by_cases hc : isComment c = true
  · simp [hc]
  · simp [hc]

lemma operand?_outline (n : Node) : operand? (outline n) = (operand? n).map outline := by
  rw [operand?, operand?, outline_kind, parts_outline, childInField?_outline, List.head?_map]
  split
  · cases n.childInField? "type" with
    | none => simp
    | some c => simp
  all_goals rfl

/-- What a type wraps can be told from its outline. -/
lemma wraps_outline {n : Node} {base : String} : Wraps (outline n) base ↔ Wraps n base := by
  constructor
  · intro h
    generalize hm : outline n = m at h
    induction h generalizing n with
    | name hkind =>
        subst hm
        rw [outline_kind] at hkind
        rw [outline_text hkind]
        exact .name hkind
    | wrapper hoperand hc ih =>
        subst hm
        rw [operand?_outline] at hoperand
        obtain ⟨c, hcn, rfl⟩ := Option.map_eq_some_iff.1 hoperand
        exact .wrapper hcn (ih rfl)
  · intro h
    induction h with
    | @name n hkind =>
        rw [← outline_text hkind]
        exact .name (by rw [outline_kind, hkind])
    | @wrapper n c base hoperand hc ih =>
        exact .wrapper (by rw [operand?_outline, hoperand, Option.map_some]) ih

/-- The receivers of two methods are the same, up to comments and what the parameter is called. -/
def SameReceiver (m n : Node) : Prop :=
  (m.childInField? "receiver").map outline = (n.childInField? "receiver").map outline

/-- The receiver can be found in the outline of the parameters. -/
lemma outline_receiver? (n : Node) :
    (receiver? n).map outline =
      (((n.childInField? "receiver").map outline).bind fun list =>
        list.children.find? fun c => c.isNamed && c.kind == "parameter_declaration").bind
          (·.childInField? "type") := by
  have hlist : ∀ list : Node,
      ((outline list).children.find? fun c => c.isNamed && c.kind == "parameter_declaration") =
        (list.namedChildren.find? fun c => c.kind == "parameter_declaration").map outline := by
    intro list
    rw [find?_children_outline list (fun c => by simp) fun c hc => by simp_all [isComment],
      Node.namedChildren, List.find?_filter]
    simp only [Bool.decide_and, Bool.decide_eq_true]
  rw [receiver?]
  cases n.childInField? "receiver" with
  | none => rfl
  | some list =>
      rw [Option.map_some, Option.bind_some, Option.bind_some, hlist]
      cases list.namedChildren.find? fun c => c.kind == "parameter_declaration" with
      | none => rfl
      | some parameter =>
          rw [Option.map_some, Option.bind_some, Option.bind_some, childInField?_outline]

/-- Methods with one outline have one receiver type. -/
lemma SameReceiver.hasReceiver {m n : Node} (h : SameReceiver m n) {base : String}
    (hm : HasReceiver m base) : HasReceiver n base := by
  obtain ⟨t, ht, hwraps⟩ := hm
  have hsame : (receiver? m).map outline = (receiver? n).map outline := by
    rw [outline_receiver?, outline_receiver?, h]
  rw [ht, Option.map_some] at hsame
  obtain ⟨t', ht', houtline⟩ := Option.map_eq_some_iff.1 hsame.symm
  exact ⟨t', ht', wraps_outline.1 (houtline ▸ wraps_outline.2 hwraps)⟩

lemma SameReceiver.symm {m n : Node} (h : SameReceiver m n) : SameReceiver n m := Eq.symm h

lemma SameReceiver.hasReceiver_iff {m n : Node} (h : SameReceiver m n) {base : String} :
    HasReceiver m base ↔ HasReceiver n base :=
  ⟨h.hasReceiver, h.symm.hasReceiver⟩

/-- Comments that are not in the way make no difference. -/
lemma SameReceiver.methodName_eq {m n : Node} (h : SameReceiver m n) {name : String}
    (hm : fieldText? m "name" = some name) (hn : fieldText? n "name" = some name)
    (hmclear : ¬ ObstructedReceiver m) (hnclear : ¬ ObstructedReceiver n) :
    methodName m = methodName n := by
  by_cases hbase : ∃ base, HasReceiver m base
  · obtain ⟨base, hbase⟩ := hbase
    rw [methodName_of_hasReceiver hm hbase hmclear,
      methodName_of_hasReceiver hn (h.hasReceiver hbase) hnclear]
  · have hnone : ¬ ∃ base, HasReceiver n base :=
      fun ⟨base, hn⟩ => hbase ⟨base, h.symm.hasReceiver hn⟩
    rw [methodName_of_not hm fun hboth => hbase hboth.1,
      methodName_of_not hn fun hboth => hnone hboth.1]

/-! ## Files -/

namespace SourceFile

/-- The paths of all imports can be made out. -/
def ReadableImports (tree : Node) : Prop :=
  ∀ n ∈ tree.namedChildren, n.kind = "import_declaration" → ∀ spec ∈ specs n "import_spec",
    ∃ path, importPath spec = .ok path

lemma declaredNames_of_method {n : Node} (hkind : n.kind = "method_declaration") :
    declaredNames n = (methodName n).map fun name => some (.method, [name]) := by
  simp [declaredNames, hkind]

/-- Only the name of a method can keep a node from being added, ... -/
lemma exists_addDeclarations_iff {f : SourceFile} {n : Node} :
    (∃ f', f.addDeclarations n = .ok f') ↔
      (n.kind = "method_declaration" → ∃ s, methodName n = .ok s) := by
  constructor
  · rintro ⟨f', hf'⟩ hkind
    obtain ⟨names, hnames, -⟩ := map_eq_ok_iff.1 hf'
    rw [declaredNames_of_method hkind] at hnames
    obtain ⟨s, hs, -⟩ := map_eq_ok_iff.1 hnames
    exact ⟨s, hs⟩
  · intro h
    have hnames : ∃ names, declaredNames n = .ok names := by
      by_cases hkind : n.kind = "method_declaration"
      · obtain ⟨s, hs⟩ := h hkind
        exact ⟨_, by rw [declaredNames_of_method hkind, hs]; rfl⟩
      · exact exists_declaredNames_of_not_method hkind
    obtain ⟨names, hnames⟩ := hnames
    exact ⟨_, map_eq_ok_iff.2 ⟨names, hnames, rfl⟩⟩

/-- Specifications can always be added, since no method is among them. -/
lemma exists_foldlM_specs (f : SourceFile) {nodes : List Node}
    (h : ∀ m ∈ nodes, m.kind ≠ "method_declaration") :
    ∃ f', nodes.foldlM addDeclarations f = .ok f' := by
  refine foldlM_succeeds (fun m hm g => ?_) f
  exact exists_addDeclarations_iff.2 fun hkind => absurd hkind (h m hm)

/-- ... or the path of an import. -/
lemma exists_addTopLevel_iff {f : SourceFile} {n : Node} :
    (∃ f', f.addTopLevel n = .ok f') ↔
      (n.kind = "method_declaration" → ∃ s, methodName n = .ok s) ∧
        (n.kind = "import_declaration" → ∀ spec ∈ specs n "import_spec",
          ∃ path, importPath spec = .ok path) := by
  constructor
  · rintro ⟨f', hf'⟩
    refine ⟨fun hkind => ?_, fun hkind spec hspec => ?_⟩
    · rw [addTopLevel, hkind] at hf'
      exact exists_addDeclarations_iff.1 ⟨f', hf'⟩ hkind
    · rw [addTopLevel, hkind] at hf'
      obtain ⟨g, g', hstep⟩ := exists_step_of_foldlM hf' hspec
      obtain ⟨path, hpath, -⟩ := map_eq_ok_iff.1 hstep
      exact ⟨path, hpath⟩
  · rintro ⟨hmethod, himport⟩
    rw [addTopLevel]
    split
    next => exact ⟨_, rfl⟩
    next hkind =>
      refine foldlM_succeeds (fun spec hspec g => ?_) f
      obtain ⟨path, hpath⟩ := himport hkind spec hspec
      exact ⟨_, map_eq_ok_iff.2 ⟨path, hpath, rfl⟩⟩
    next => exact exists_addDeclarations_iff.2 hmethod
    next => exact exists_addDeclarations_iff.2 hmethod
    next =>
      refine exists_foldlM_specs f fun m hm => ?_
      rcases List.mem_append.1 hm with hm | hm
      · simp [kind_of_mem_specs hm]
      · simp [kind_of_mem_specs hm]
    next => exact exists_foldlM_specs f fun m hm => by simp [kind_of_mem_specs hm]
    next => exact exists_foldlM_specs f fun m hm => by simp [kind_of_mem_specs hm]
    next => exact ⟨f, rfl⟩

/-- A tree is read unless there is an import or the name of a method that cannot be made out. -/
lemma exists_ofTree_iff {path : Path} {tree : Node} :
    (∃ f, ofTree path tree = .ok f) ↔
      ReadableImports tree ∧
        ∀ n ∈ tree.namedChildren, n.kind = "method_declaration" → ∃ s, methodName n = .ok s := by
  constructor
  · rintro ⟨f, hf⟩
    have hstep : ∀ n ∈ tree.namedChildren, ∃ g g', addTopLevel g n = .ok g' :=
      fun n hn => exists_step_of_foldlM hf hn
    refine ⟨fun n hn => ?_, fun n hn => ?_⟩
    · obtain ⟨g, hg⟩ := hstep n hn
      exact (exists_addTopLevel_iff.1 hg).2
    · obtain ⟨g, hg⟩ := hstep n hn
      exact (exists_addTopLevel_iff.1 hg).1
  · rintro ⟨himports, hmethods⟩
    exact foldlM_succeeds
      (fun n hn g => exists_addTopLevel_iff.2 ⟨hmethods n hn, himports n hn⟩) _

/-- If the imports of a file without syntax errors can be made out, it is rejected only for a method
whose name cannot be made out. -/
lemma exists_extraction_iff {path : Path} {tree : Node} (haccepted : syntaxFault? tree = none)
    (himports : ReadableImports tree) :
    (∃ fault, check path tree = .error (.extraction path fault)) ↔
      ∃ n ∈ tree.namedChildren, n.kind = "method_declaration" ∧ ¬ ∃ s, methodName n = .ok s := by
  have hcheck : check path tree = (ofTree path tree).mapError (.extraction path) := by
    rw [check, haccepted]
  have hfails : (∃ fault, check path tree = .error (.extraction path fault)) ↔
      ¬ ∃ f, ofTree path tree = .ok f := by
    rw [hcheck]
    cases ofTree path tree with
    | error fault => simp [Except.mapError]
    | ok f => simp [Except.mapError]
  rw [hfails, exists_ofTree_iff]
  simp [himports]

end SourceFile

open SourceFile (ReadableImports check syntaxFault?)

/-! ## The name of a method -/

/-- **Names of methods.**  A method is called by the bare name of its receiver's type and its own
name, for any nesting of pointers, parentheses and instances around the bare name, unless a comment
stands in the place of a type; with such a comment, or a receiver of any other form, there is an
error.  Comments anywhere else make no difference.  Files are rejected accordingly. -/
theorem methodName_receiver (n : Node) (name : String) (hname : fieldText? n "name" = some name) :
    (∀ base, HasReceiver n base → ¬ ObstructedReceiver n →
      methodName n = .ok (qualify [base, name])) ∧
    ((¬ ∃ base, HasReceiver n base) ∨ ObstructedReceiver n →
      methodName n = .error (.receiver name)) ∧
    (∀ m, fieldText? m "name" = some name → SameReceiver m n →
      (∀ base, HasReceiver m base ↔ HasReceiver n base) ∧
      (¬ ObstructedReceiver m → ¬ ObstructedReceiver n → methodName m = methodName n)) ∧
    ∀ path tree, syntaxFault? tree = none → ReadableImports tree →
      ((∃ fault, check path tree = .error (.extraction path fault)) ↔
        ∃ m ∈ tree.namedChildren, m.kind = "method_declaration" ∧
          ¬ ((∃ s, fieldText? m "name" = some s) ∧ (∃ base, HasReceiver m base) ∧
            ¬ ObstructedReceiver m)) := by
  refine ⟨fun base => methodName_of_hasReceiver hname, fun h => ?_, fun m hm hsame => ?_, ?_⟩
  · refine methodName_of_not hname ?_
    rintro ⟨hbase, hclear⟩
    exact h.elim (fun hnone => hnone hbase) hclear
  · exact ⟨fun base => hsame.hasReceiver_iff, hsame.methodName_eq hm hname⟩
  · intro path tree haccepted himports
    simp only [SourceFile.exists_extraction_iff haccepted himports, exists_methodName_iff]

namespace Sample

def typeName : Node := .node { kind := "type_identifier", text := "T" } []

def comment : Node := .node { kind := "comment", text := "/*c*/" } []

/-- `*T`, with the given nodes after the star. -/
def pointer (between : List Node) : Node :=
  .node { kind := "pointer_type", field := some "type" }
    (.node { kind := "*", named := false } [] :: between ++ [typeName])

/-- `func (*T) m()`, with the given nodes after the star. -/
def method (between : List Node) : Node :=
  .node { kind := "method_declaration" }
    [.node { kind := "parameter_list", field := some "receiver" }
      [.node { kind := "parameter_declaration" } [pointer between]],
     .node { kind := "field_identifier", field := some "name", text := "m" } []]

def file (n : Node) : Node := .node { kind := "source_file" } [n]

lemma hasReceiver (between : List Node) (h : operand? (pointer between) = some typeName) :
    HasReceiver (method between) "T" :=
  ⟨pointer between, rfl, .wrapper h (.name rfl)⟩

lemma not_obstructedReceiver : ¬ ObstructedReceiver (method []) := by
  have hname : (receiver? (method [])).bind receiverType? = some "T" := by
    show receiverType? (pointer []) = some "T"
    rw [receiverType?_of_ne_name (by decide)]
    exact receiverType?_of_name (n := typeName) rfl
  exact (receiverType?_receiver_eq_some_iff.1 hname).2

lemma obstructedReceiver : ObstructedReceiver (method [comment]) :=
  ⟨pointer [comment], rfl, .here ⟨rfl, comment, rfl, rfl⟩⟩

end Sample

/-- In `func (*T) m()` nothing is in the way. -/
theorem methodName_receiver_pointer :
    fieldText? (Sample.method []) "name" = some "m" ∧ HasReceiver (Sample.method []) "T" ∧
      ¬ ObstructedReceiver (Sample.method []) ∧
      methodName (Sample.method []) = .ok (qualify ["T", "m"]) :=
  ⟨rfl, Sample.hasReceiver [] rfl, Sample.not_obstructedReceiver,
    (methodName_receiver (Sample.method []) "m" rfl).1 "T" (Sample.hasReceiver [] rfl)
      Sample.not_obstructedReceiver⟩

/-- In `func (* /*c*/ T) m()` the receiver is the same, but its type is not found, and the file is
rejected. -/
theorem methodName_receiver_comment :
    SameReceiver (Sample.method []) (Sample.method [Sample.comment]) ∧
      HasReceiver (Sample.method [Sample.comment]) "T" ∧
      methodName (Sample.method []) = .ok (qualify ["T", "m"]) ∧
      methodName (Sample.method [Sample.comment]) = .error (.receiver "m") ∧
      ∃ fault, check ⟨"/p/a.go"⟩ (Sample.file (Sample.method [Sample.comment])) =
        .error (.extraction ⟨"/p/a.go"⟩ fault) := by
  have hfails : methodName (Sample.method [Sample.comment]) = .error (.receiver "m") :=
    methodName_of_not rfl fun h => h.2 Sample.obstructedReceiver
  refine ⟨rfl, Sample.hasReceiver [Sample.comment] rfl,
    methodName_of_hasReceiver rfl (Sample.hasReceiver [] rfl) Sample.not_obstructedReceiver,
    hfails, ?_⟩
  have himports : ReadableImports (Sample.file (Sample.method [Sample.comment])) := by
    intro n hn hkind
    rw [List.mem_singleton.1 hn] at hkind
    exact absurd hkind (by decide)
  refine (SourceFile.exists_extraction_iff rfl himports).2
    ⟨Sample.method [Sample.comment], List.mem_singleton_self _, rfl, ?_⟩
  rw [hfails]
  simp

end GoReach.Go
