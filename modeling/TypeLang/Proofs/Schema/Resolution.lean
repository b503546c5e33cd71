import TypeLang.Proofs.Message.Reference

/-!
References that fields make to types, and whether they stand for anything. A bare reference needs a
combinator (`Schema.bareTarget?`), a boxed one a type with a constructor. What a reference that
stands for something leads to is a combinator of the schema (`Schema.mem_of_locate`).
-/

set_option autoImplicit false
set_option relaxedAutoImplicit false

namespace TypeLang

/-- A reference to a type by its name, with a tag or without. -/
structure ObjectType where
  typeName : String
  bare : Bool
deriving DecidableEq, Repr

namespace Kind

/-- The type that values of a kind are objects of, or the items of vectors within vectors. -/
def objectType? : Kind → Option ObjectType
  | vector _ element => element.objectType?
  | object typeName bare => some ⟨typeName, bare⟩
  | _ => none

end Kind

namespace Schema

/-- Whether a reference to a type stands for something. -/
def resolves (s : Schema) (t : ObjectType) : Bool :=
  if t.bare then (s.bareTarget? t.typeName).isSome else (s.group? t.typeName).isSome

/-- The types that fields refer to, in the order of the combinators and of their fields. -/
def objectTypes (s : Schema) : List ObjectType :=
  s.combinators.flatMap fun c => c.fields.filterMap fun f => f.kind.objectType?

/-- Whether the schema defines a name, as that of a combinator or of a type. -/
def defines (s : Schema) (name : String) : Bool :=
  (s.combinator? name).isSome || (s.group? name).isSome

variable {s : Schema}

theorem group?_isSome (s : Schema) (typeName : String) :
    (s.group? typeName).isSome = s.hasType typeName := by
  unfold group?
  cases s.hasType typeName <;> rfl

theorem constructors_eq_nil_iff {typeName : String} :
    s.constructors typeName = [] ↔ s.hasType typeName = false := by
  unfold constructors hasType
  rw [List.filter_eq_nil_iff, List.any_eq_false]

theorem group?_of_constructors_eq_nil {typeName : String} (h : s.constructors typeName = []) :
    s.group? typeName = none := by
  unfold group?
  rw [constructors_eq_nil_iff.mp h, if_neg Bool.false_ne_true]

theorem group?_of_constructors_ne_nil {typeName : String} (h : s.constructors typeName ≠ []) :
    s.group? typeName = some ⟨typeName, s.constructors typeName⟩ := by
  unfold group?
  exact if_pos (Bool.of_not_eq_false fun hmissing ↦ h (constructors_eq_nil_iff.mpr hmissing))

theorem resolves_bare {typeName : String} :
    s.resolves ⟨typeName, true⟩ = (s.bareTarget? typeName).isSome := rfl

theorem resolves_boxed {typeName : String} :
    s.resolves ⟨typeName, false⟩ = s.hasType typeName := s.group?_isSome typeName

theorem mem_objectTypes {c : Combinator} (hc : c ∈ s.combinators) {f : Field} (hf : f ∈ c.fields)
    {t : ObjectType} (ht : f.kind.objectType? = some t) : t ∈ s.objectTypes :=
  List.mem_flatMap.mpr ⟨c, hc, List.mem_filterMap.mpr ⟨f, hf, ht⟩⟩

/-! ### Types with one constructor -/

/-- The constructor of a type, if it has just one. -/
def onlyConstructor? (s : Schema) (typeName : String) : Option Combinator :=
  match s.constructors typeName with
  | [only] => some only
  | _ => none

theorem onlyConstructor?_eq_some_iff {typeName : String} {c : Combinator} :
    s.onlyConstructor? typeName = some c ↔ s.constructors typeName = [c] := by
  unfold onlyConstructor?
  split
  · rename_i only hconstructors
    rw [hconstructors, Option.some.injEq, List.cons.injEq, and_iff_left rfl]
  · rename_i hmany
    exact ⟨nofun, fun h ↦ absurd h (hmany c)⟩

theorem constructs_of_onlyConstructor? {typeName : String} {c : Combinator}
    (h : s.onlyConstructor? typeName = some c) :
    c ∈ s.combinators ∧ c.constructs typeName = true := by
  refine mem_constructors_iff.mp ?_
  rw [onlyConstructor?_eq_some_iff.mp h]
  exact List.mem_singleton.mpr rfl

theorem tagless?_eq (s : Schema) (typeName : String) :
    s.tagless? typeName = (s.onlyConstructor? typeName).filter (·.tag.isNone) := by
  unfold tagless? onlyConstructor?
  match s.constructors typeName with
  | [] | [_] | _ :: _ :: _ => rfl

theorem hasType_of_tagless? {typeName : String} {c : Combinator}
    (h : s.tagless? typeName = some c) : s.hasType typeName = true := by
  obtain ⟨hc, hconstructs⟩ :=
    constructs_of_onlyConstructor? (onlyConstructor?_eq_some_iff.mpr (tagless?_eq_some h))
  exact hasType_of_constructs hc hconstructs

theorem bareTarget?_eq (s : Schema) (name : String) :
    s.bareTarget? name = (s.combinator? name).or (s.onlyConstructor? name) := by
  unfold bareTarget? onlyConstructor?
  cases s.combinator? name with
  | some c => rfl
  | none => rfl

/-! ### What references lead to -/

theorem mem_of_headerless? {typeName : String} {bare : Bool} {c : Combinator}
    (h : s.headerless? typeName bare = .ok (some c)) : c ∈ s.combinators :=
  (Leads.headerless h).mem

theorem mem_of_locateTyped {typeName : String} {bare : Bool} {buffer : ByteArray} {pos : Nat}
    {object : Located} (h : s.locateTyped typeName bare buffer pos = .ok object) :
    object.combinator ∈ s.combinators := by
  unfold locateTyped at h
  split at h
  · cases h
  · rename_i c hheader
    cases h
    exact mem_of_headerless? hheader
  · rename_i hheader
    unfold locateMember at h
    split at h
    · split at h
      · cases h
      · split at h
        · rename_i c hmember
          cases h
          exact (Leads.member hheader hmember).mem
        · cases h
    · cases h

theorem mem_of_locate {r : Reference} {buffer : ByteArray} {pos : Nat} {object : Located}
    (h : s.locate buffer pos r = .ok object) : object.combinator ∈ s.combinators := by
  cases r with
  | any => exact (locateAny_eq_ok_iff.mp h).1.mem
  | typed typeName bare => exact mem_of_locateTyped h
  | named name =>
    unfold locate at h
    dsimp only at h
    split at h
    · exact mem_of_locateTyped h
    · obtain ⟨c, hc, rfl⟩ := locateNamed_eq_ok_iff.mp h
      exact (mem_of_combinator? hc).1

end Schema

end TypeLang
