import TypeLang.Proofs.Schema.Resolution
import TypeLang.Proofs.Schema.Tables

/-!
Declarations that are added behind others. A declaration may change what earlier ones mean: a
combinator with the name of a type hides the type where that is referred to by its name, and another
constructor of a type that had just one gives the type tags. Declarations that do neither leave
earlier ones as they are (`Declaration.Undisturbed`), and then everything that references of the
earlier ones lead to is still what they lead to (`Schema.ExtendedBy.locate_eq`).
-/

set_option autoImplicit false
set_option relaxedAutoImplicit false

namespace TypeLang

namespace Declaration

/-- The types that the arguments of a declaration refer to, by themselves or as the items of
vectors. -/
def objectTypes (d : Declaration) : List ObjectType :=
  d.arguments.filterMap fun a => (Kind.ofTerm d.isGeneric a.type).objectType?

/-- Some declarations `es` leave others `ds` as they are. No combinator of `es` has the name of a
type that one of `ds` constructs or refers to, and none constructs instances of a type that has just
one constructor in `ds`. -/
structure Undisturbed (ds es : List Declaration) : Prop where
  result_ne : ∀ e ∈ es, ∀ d ∈ ds, d.isFunction = false → e.qualifiedName ≠ d.resultName
  reference_ne : ∀ e ∈ es, ∀ d ∈ ds, ∀ t ∈ d.objectTypes, e.qualifiedName ≠ t.typeName
  constructors_ne : ∀ e ∈ es, e.isFunction = false →
    (ds.filter (·.constructs e.resultName)).length ≠ 1

instance (ds es : List Declaration) : Decidable (Undisturbed ds es) :=
  decidable_of_iff
    ((∀ e ∈ es, ∀ d ∈ ds, d.isFunction = false → e.qualifiedName ≠ d.resultName) ∧
      (∀ e ∈ es, ∀ d ∈ ds, ∀ t ∈ d.objectTypes, e.qualifiedName ≠ t.typeName) ∧
      ∀ e ∈ es, e.isFunction = false → (ds.filter (·.constructs e.resultName)).length ≠ 1)
    ⟨fun ⟨hresult, hreference, hconstructors⟩ ↦ ⟨hresult, hreference, hconstructors⟩,
      fun ⟨hresult, hreference, hconstructors⟩ ↦ ⟨hresult, hreference, hconstructors⟩⟩

end Declaration

/-- A reference that a schema makes itself, or one by name, or one to any object. -/
def Reference.MadeBy (s : Schema) : Reference → Prop
  | .typed typeName bare => ⟨typeName, bare⟩ ∈ s.objectTypes
  | .named _ | .any => True

theorem Field.map_kind_ofArguments (d : Declaration) (before args : List Argument) :
    (ofArguments d before args).map Field.kind =
      args.map fun a => Kind.ofTerm d.isGeneric a.type := by
  induction args generalizing before with
  | nil => rfl
  | cons a rest ih =>
    rw [ofArguments, List.map_cons, List.map_cons, ih]
    rfl

namespace Schema

open Declaration Wire

theorem objectTypes_map_ofDeclaration (ds : List Declaration) :
    objectTypes ⟨ds.map .ofDeclaration⟩ = ds.flatMap Declaration.objectTypes := by
  have hfields (d : Declaration) :
      (Combinator.ofDeclaration d).fields.filterMap (fun f => f.kind.objectType?) =
        d.objectTypes := by
    calc (Combinator.ofDeclaration d).fields.filterMap (fun f => f.kind.objectType?)
        = ((Field.ofArguments d [] d.arguments).map Field.kind).filterMap Kind.objectType? :=
          List.filterMap_map.symm
      _ = d.objectTypes := by
          rw [Field.map_kind_ofArguments, List.filterMap_map]
          rfl
  unfold objectTypes
  rw [List.flatMap_map]
  simp only [hfields]

/-- A schema finds everything that another one finds, and nothing that the other one's references do
not find there. -/
structure ExtendedBy (s t : Schema) : Prop where
  combinator?_eq : ∀ name c, s.combinator? name = some c → t.combinator? name = some c
  byTag?_eq : ∀ tag c, s.byTag? tag = some c → t.byTag? tag = some c
  combinator?_eq_none : ∀ typeName,
    s.hasType typeName = true ∨ (∃ bare, ⟨typeName, bare⟩ ∈ s.objectTypes) →
      s.combinator? typeName = none → t.combinator? typeName = none
  hasType_eq : ∀ typeName, s.hasType typeName = true → t.hasType typeName = true
  onlyConstructor?_eq : ∀ typeName, s.hasType typeName = true →
    t.onlyConstructor? typeName = s.onlyConstructor? typeName

theorem extendedBy_of_undisturbed {ds es : List Declaration} (h : Undisturbed ds es) :
    ExtendedBy ⟨ds.map .ofDeclaration⟩ ⟨(ds ++ es).map .ofDeclaration⟩ where
  combinator?_eq name c hc := by
    unfold combinator? at hc ⊢
    rw [List.map_append, List.find?_append, hc, Option.some_or]
  byTag?_eq tag c hc := by
    unfold byTag? at hc ⊢
    rw [List.map_append, List.find?_append, hc, Option.some_or]
  combinator?_eq_none typeName hused hnone := by
    have hfree : ∀ e ∈ es, e.qualifiedName ≠ typeName := by
      intro e he
      rcases hused with htype | ⟨bare, href⟩
      · rw [hasType_map_ofDeclaration, List.any_eq_true] at htype
        obtain ⟨d, hd, hconstructs⟩ := htype
        obtain ⟨hfunction, rfl⟩ := constructs_iff.mp hconstructs
        exact h.result_ne e he d hd hfunction
      · rw [objectTypes_map_ofDeclaration] at href
        obtain ⟨d, hd, ht⟩ := List.mem_flatMap.mp href
        exact h.reference_ne e he d hd _ ht
    unfold combinator? at hnone ⊢
    rw [List.map_append, List.find?_append, hnone, Option.none_or, List.find?_eq_none]
    intro c hc
    obtain ⟨e, he, rfl⟩ := List.mem_map.mp hc
    exact fun hname ↦ hfree e he (beq_iff_eq.mp hname)
  hasType_eq typeName htype := by
    unfold hasType at htype ⊢
    rw [List.map_append, List.any_append, htype, Bool.true_or]
  onlyConstructor?_eq typeName htype := by
    have hsome : ds.filter (·.constructs typeName) ≠ [] := by
      rw [hasType_map_ofDeclaration, List.any_eq_true] at htype
      obtain ⟨d, hd, hconstructs⟩ := htype
      exact List.ne_nil_of_mem (List.mem_filter.mpr ⟨hd, hconstructs⟩)
    have hadded : (ds.filter (·.constructs typeName)).length = 1 →
        es.filter (·.constructs typeName) = [] := by
      intro hone
      rw [List.filter_eq_nil_iff]
      intro e he hconstructs
      obtain ⟨hfunction, rfl⟩ := constructs_iff.mp hconstructs
      exact h.constructors_ne e he hfunction hone
    unfold onlyConstructor?
    rw [constructors_map_ofDeclaration, constructors_map_ofDeclaration, List.filter_append]
    -- Of several constructors there are several still.
    match hds : ds.filter (·.constructs typeName) with
    | [] => exact absurd hds hsome
    | [d] => rw [hadded (by rw [hds]; rfl), List.append_nil, hds]
    | _ :: _ :: _ =>
      rw [hds]
      rfl

/-! ### References -/

namespace ExtendedBy

variable {s t : Schema} (h : ExtendedBy s t) {buffer : ByteArray} {pos : Nat} {object : Located}
  {typeName : String} {c : Combinator}
include h

theorem tagless?_eq (htype : s.hasType typeName = true) :
    t.tagless? typeName = s.tagless? typeName := by
  rw [Schema.tagless?_eq, Schema.tagless?_eq, h.onlyConstructor?_eq typeName htype]

theorem bareTarget?_eq (hmade : ∃ bare, ⟨typeName, bare⟩ ∈ s.objectTypes)
    (hc : s.bareTarget? typeName = some c) : t.bareTarget? typeName = some c := by
  rw [Schema.bareTarget?_eq] at hc ⊢
  cases hname : s.combinator? typeName with
  | some d =>
    rw [hname, Option.some_or] at hc
    rw [h.combinator?_eq typeName d hname, Option.some_or, hc]
  | none =>
    rw [hname, Option.none_or] at hc
    obtain ⟨hmem, hconstructs⟩ := constructs_of_onlyConstructor? hc
    rw [h.combinator?_eq_none typeName (.inr hmade) hname, Option.none_or,
      h.onlyConstructor?_eq typeName (hasType_of_constructs hmem hconstructs), hc]

theorem locateMember_eq (hlocate : s.locateMember typeName buffer pos = .ok object) :
    s.hasType typeName = true ∧ t.locateMember typeName buffer pos = .ok object := by
  unfold locateMember at hlocate ⊢
  split at hlocate
  · rename_i htype
    refine ⟨htype, ?_⟩
    rw [if_pos (h.hasType_eq typeName htype)]
    cases hword : readUInt32 buffer pos with
    | error e => rw [hword] at hlocate; cases hlocate
    | ok tag =>
      rw [hword] at hlocate
      dsimp only at hlocate ⊢
      cases hmember : s.constructorByTag? typeName tag with
      | none => rw [hmember] at hlocate; cases hlocate
      | some c =>
        obtain ⟨htag, hconstructs⟩ := constructorByTag?_eq_some_iff.mp hmember
        rw [constructorByTag?_eq_some_iff.mpr ⟨h.byTag?_eq tag c htag, hconstructs⟩]
        rwa [hmember] at hlocate
  · cases hlocate

theorem locateTyped_eq {bare : Bool}
    (hmade : bare = true → ∃ bare, ⟨typeName, bare⟩ ∈ s.objectTypes)
    (hlocate : s.locateTyped typeName bare buffer pos = .ok object) :
    t.locateTyped typeName bare buffer pos = .ok object := by
  unfold locateTyped at hlocate ⊢
  cases hheader : s.headerless? typeName bare with
  | error e => rw [hheader] at hlocate; cases hlocate
  | ok found =>
    rw [hheader] at hlocate
    cases found with
    | some c =>
      have hsame : t.headerless? typeName bare = .ok (some c) := by
        unfold headerless?
        rcases headerless?_eq_some hheader with ⟨rfl, htarget⟩ | ⟨rfl, htagless⟩
        · rw [if_pos rfl, h.bareTarget?_eq (hmade rfl) htarget]
        · rw [if_neg Bool.false_ne_true, h.tagless?_eq (hasType_of_tagless? htagless), htagless]
      rw [hsame]
      exact hlocate
    | none =>
      obtain ⟨rfl, htagless⟩ := headerless?_eq_none hheader
      obtain ⟨htype, hmember⟩ := h.locateMember_eq hlocate
      have hsame : t.headerless? typeName false = .ok none := by
        unfold headerless?
        rw [if_neg Bool.false_ne_true, h.tagless?_eq htype, htagless]
      rw [hsame]
      exact hmember

theorem locateAny_eq (hlocate : s.locateAny buffer pos = .ok object) :
    t.locateAny buffer pos = .ok object := by
  obtain ⟨hleads, hstands⟩ := locateAny_eq_ok_iff.mp hlocate
  refine locateAny_eq_ok_iff.mpr ⟨?_, hstands⟩
  cases hleads with
  | any hfind => exact .any (h.byTag?_eq _ _ hfind)

/-- What a reference leads to is what it still leads to. -/
theorem locate_eq {r : Reference} (hr : r.MadeBy s)
    (hlocate : s.locate buffer pos r = .ok object) : t.locate buffer pos r = .ok object := by
  cases r with
  | any => exact h.locateAny_eq hlocate
  | typed typeName bare => exact h.locateTyped_eq (fun _ ↦ ⟨bare, hr⟩) hlocate
  | named name =>
    unfold locate at hlocate ⊢
    dsimp only at hlocate ⊢
    cases hname : s.combinator? name with
    | some c =>
      rw [hname, Option.isNone_some, Bool.and_false, if_neg Bool.false_ne_true] at hlocate
      rw [h.combinator?_eq name c hname, Option.isNone_some, Bool.and_false,
        if_neg Bool.false_ne_true]
      unfold locateNamed at hlocate ⊢
      rw [hname] at hlocate
      rwa [h.combinator?_eq name c hname]
    | none =>
      rw [hname, Option.isNone_none, Bool.and_true] at hlocate
      split at hlocate
      · rename_i htype
        rw [h.hasType_eq name htype, h.combinator?_eq_none name (.inl htype) hname]
        exact h.locateTyped_eq nofun hlocate
      · unfold locateNamed at hlocate
        rw [hname] at hlocate
        cases hlocate

end ExtendedBy

end Schema

end TypeLang
