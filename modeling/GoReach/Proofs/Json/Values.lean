import GoReach.Proofs.Json.RoundTrip

/-!
# Values from their texts

The text of a value is the text of no other one (`reads_render_iff`).  It is read as the value, if
the numbers in it fit into 64 bits (`ofText?_render`).

`member?` looks up a member of an object, and `without` leaves out members by their names, in a
value and in all values inside it.
-/

namespace GoReach.Json

/-! ## One value for a text -/

/-- Different numbers have different digits. -/
lemma toDigits_injective {m n : Nat} (h : Nat.toDigits 10 m = Nat.toDigits 10 n) : m = n := by
  rw [← Literal.digitsValue_toDigits m, h, Literal.digitsValue_toDigits]

/-- Different texts are escaped differently. -/
lemma escape_injective {s t : String} (h : escape s.toList = escape t.toList) : s = t := by
  have hs := Literal.text?_escape s
  rw [h, Literal.text?_escape] at hs
  exact (Option.some.inj hs).symm

mutual

/-- Different values are taken apart differently. -/
theorem literal_injective : ∀ j k : Json, j.literal = k.literal → j = k
  | .null, k, h => by cases k <;> simp_all [literal]
  | .bool b, k, h => by cases k <;> simp_all [literal]
  | .num m, k, h => by
      cases k <;> simp only [literal, Literal.number.injEq, reduceCtorEq] at h
      rw [toDigits_injective h]
  | .str s, k, h => by
      cases k <;> simp only [literal, Literal.string.injEq, reduceCtorEq] at h
      rw [escape_injective h]
  | .arr items, k, h => by
      cases k <;> simp only [literal, Literal.array.injEq, reduceCtorEq] at h
      rw [literalsOf_injective items _ h]
  | .obj members, k, h => by
      cases k <;> simp only [literal, Literal.object.injEq, reduceCtorEq] at h
      rw [memberLiteralsOf_injective members _ h]

theorem literalsOf_injective : ∀ js ks : List Json, literalsOf js = literalsOf ks → js = ks
  | [], ks, h => by cases ks <;> simp_all [literalsOf]
  | j :: js, ks, h => by
      cases ks with
      | nil => simp [literalsOf] at h
      | cons k ks =>
          rw [literalsOf, literalsOf, List.cons.injEq] at h
          rw [literal_injective j k h.1, literalsOf_injective js ks h.2]

theorem memberLiteralsOf_injective : ∀ ms ns : List (String × Json),
    memberLiteralsOf ms = memberLiteralsOf ns → ms = ns
  | [], ns, h => by cases ns <;> simp_all [memberLiteralsOf]
  | (name, j) :: ms, ns, h => by
      cases ns with
      | nil => simp [memberLiteralsOf] at h
      | cons n ns =>
          obtain ⟨name', k⟩ := n
          rw [memberLiteralsOf, memberLiteralsOf, List.cons.injEq, Prod.mk.injEq] at h
          rw [escape_injective h.1.1, literal_injective j k h.1.2,
            memberLiteralsOf_injective ms ns h.2]

end

/-- The text is taken apart as the value is, whatever the size of its numbers. -/
def Reads (text : String) (j : Json) : Prop := Literal.ofText? text = some j.literal

/-- The text of a value is read as that value only. -/
lemma reads_render_iff {j k : Json} : Reads j.render k ↔ k = j := by
  rw [Reads, Literal.ofText?_render, Option.some.injEq]
  constructor
  · intro h
    exact (literal_injective j k h).symm
  · rintro rfl
    rfl

/-- Different values have different texts. -/
lemma eq_of_render_eq {j k : Json} (h : j.render = k.render) : j = k :=
  reads_render_iff.1 (h ▸ reads_render_iff.2 rfl)

/-! ## Numbers that fit -/

mutual

/-- All numbers fit into 64 bits. -/
def Fits : Json → Prop
  | .num n => n < UInt64.size
  | .arr items => ItemsFit items
  | .obj members => MembersFit members
  | _ => True

def ItemsFit : List Json → Prop
  | [] => True
  | j :: rest => j.Fits ∧ ItemsFit rest

def MembersFit : List (String × Json) → Prop
  | [] => True
  | (_, j) :: rest => j.Fits ∧ MembersFit rest

end

mutual

/-- A value is read back from its literal, if its numbers fit into 64 bits. -/
theorem value?_literal : ∀ j : Json, j.Fits → j.literal.value? = some j
  | .null, _ => by simp [literal, Literal.value?]
  | .bool b, _ => by simp [literal, Literal.value?]
  | .num n, h => by
      rw [Fits] at h
      simp [literal, Literal.value?, Literal.nat?_toDigits h]
  | .str s, _ => by simp [literal, Literal.value?]
  | .arr items, h => by
      rw [Fits] at h
      simp [literal, Literal.value?, valueOfItems?_literalsOf items h]
  | .obj members, h => by
      rw [Fits] at h
      simp [literal, Literal.value?, valueOfMembers?_memberLiteralsOf members h]

theorem valueOfItems?_literalsOf : ∀ js : List Json, ItemsFit js →
    Literal.valueOfItems? (literalsOf js) = some js
  | [], _ => by simp [literalsOf, Literal.valueOfItems?]
  | j :: js, h => by
      rw [ItemsFit] at h
      simp [literalsOf, Literal.valueOfItems?, value?_literal j h.1,
        valueOfItems?_literalsOf js h.2]

theorem valueOfMembers?_memberLiteralsOf : ∀ ms : List (String × Json), MembersFit ms →
    Literal.valueOfMembers? (memberLiteralsOf ms) = some ms
  | [], _ => by simp [memberLiteralsOf, Literal.valueOfMembers?]
  | (name, j) :: ms, h => by
      rw [MembersFit] at h
      simp [memberLiteralsOf, Literal.valueOfMembers?, value?_literal j h.1,
        valueOfMembers?_memberLiteralsOf ms h.2]

end

/-- The text of a value is read as the value. -/
lemma ofText?_render {j : Json} (h : j.Fits) : ofText? j.render = some j := by
  rw [ofText?, Literal.ofText?_render, Option.bind_some, value?_literal j h]

/-- A list of values fits if each of them does. -/
lemma itemsFit_iff {js : List Json} : ItemsFit js ↔ ∀ j ∈ js, j.Fits := by
  induction js with
  | nil => simp [ItemsFit]
  | cons j js ih => simp [ItemsFit, ih]

/-! ## Members -/

/-- The member of an object with the given name. -/
def member? (name : String) : Json → Option Json
  | .obj members => members.lookup name
  | _ => none

def memberNames : Json → List String
  | .obj members => members.map Prod.fst
  | _ => []

mutual

/-- The value without the members of the given names, wherever they are in it. -/
def without (names : List String) : Json → Json
  | .arr items => .arr (itemsWithout names items)
  | .obj members => .obj (membersWithout names members)
  | j => j

def itemsWithout (names : List String) : List Json → List Json
  | [] => []
  | j :: rest => j.without names :: itemsWithout names rest

def membersWithout (names : List String) : List (String × Json) → List (String × Json)
  | [] => []
  | (name, j) :: rest =>
    if name ∈ names then membersWithout names rest
    else (name, j.without names) :: membersWithout names rest

end

lemma itemsWithout_eq (names : List String) (js : List Json) :
    itemsWithout names js = js.map (without names) := by
  induction js with
  | nil => rw [itemsWithout, List.map_nil]
  | cons j js ih => rw [itemsWithout, ih, List.map_cons]

end GoReach.Json
