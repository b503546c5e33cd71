import Mathlib.Data.List.Nodup
import TypeLang.Proofs.Schema.Resolution
import TypeLang.Proofs.Schema.Tables

/-!
Declarations in another order. Whether they make a schema does not depend on the order
(`Declaration.Compatible.of_perm`), and the schemas that they make in two orders look up the same
(`Schema.looksUpAlike_of_perm`): a name or a tag leads to the same combinator, since only one has
it, and a type has the same constructors, though these may come in another order. What depends on
the only constructor of a type is then the same as well.
-/

set_option autoImplicit false
set_option relaxedAutoImplicit false

namespace TypeLang

open Declaration

/-- An element that is found is found in any order, if there is no other to be found. -/
theorem find?_eq_of_perm {α : Type} {p : α → Bool} {xs ys : List α} (h : xs.Perm ys)
    (hunique : ∀ a ∈ xs, ∀ b ∈ xs, p a = true → p b = true → a = b) :
    xs.find? p = ys.find? p := by
  cases hys : ys.find? p with
  | none =>
    rw [List.find?_eq_none] at hys ⊢
    exact fun a ha ↦ hys a (h.mem_iff.mp ha)
  | some b =>
    have hb : b ∈ xs := h.mem_iff.mpr (List.mem_of_find?_eq_some hys)
    have hpb : p b = true := List.find?_some hys
    cases hxs : xs.find? p with
    | none => exact absurd hpb (List.find?_eq_none.mp hxs b hb)
    | some a =>
      rw [hunique a (List.mem_of_find?_eq_some hxs) b hb (List.find?_some hxs) hpb]

/-- Declarations that make a schema make one in any order. -/
theorem Declaration.Compatible.of_perm {ds es : List Declaration} (h : Compatible ds)
    (horder : ds.Perm es) : Compatible es where
  names_nodup := (horder.map qualifiedName).nodup_iff.mp h.names_nodup
  tags_nodup := (horder.filterMap tag).nodup_iff.mp h.tags_nodup
  resolvable d hd := h.resolvable d (horder.mem_iff.mpr hd)
  tagged typeName hmany d hd := by
    rw [← (horder.filter (·.constructs typeName)).length_eq] at hmany
    exact h.tagged typeName hmany d (horder.mem_iff.mpr hd)

namespace Schema

/-- Two schemas look up the same: a name leads to the same combinator and so does a tag, and every
type has the same constructors, in one order or another. -/
structure LooksUpAlike (s t : Schema) : Prop where
  combinator?_eq : ∀ name, s.combinator? name = t.combinator? name
  byTag?_eq : ∀ tag, s.byTag? tag = t.byTag? tag
  constructors_perm : ∀ typeName, (s.constructors typeName).Perm (t.constructors typeName)

theorem looksUpAlike_of_perm {ds es : List Declaration} (h : Compatible ds)
    (horder : ds.Perm es) :
    LooksUpAlike ⟨ds.map .ofDeclaration⟩ ⟨es.map .ofDeclaration⟩ where
  combinator?_eq name := by
    refine find?_eq_of_perm (horder.map _) fun a ha b hb hpa hpb ↦ ?_
    obtain ⟨c, hc, rfl⟩ := List.mem_map.mp ha
    obtain ⟨d, hd, rfl⟩ := List.mem_map.mp hb
    have hsame : c.qualifiedName = d.qualifiedName :=
      (beq_iff_eq.mp hpa).trans (beq_iff_eq.mp hpb).symm
    rw [List.inj_on_of_nodup_map h.names_nodup hc hd hsame]
  byTag?_eq tag := by
    refine find?_eq_of_perm (horder.map _) fun a ha b hb hpa hpb ↦ ?_
    obtain ⟨c, hc, rfl⟩ := List.mem_map.mp ha
    obtain ⟨d, hd, rfl⟩ := List.mem_map.mp hb
    rw [eq_of_tag h hc hd (beq_iff_eq.mp hpa) (beq_iff_eq.mp hpb)]
  constructors_perm typeName := (horder.map _).filter _

namespace LooksUpAlike

variable {s t : Schema} (h : LooksUpAlike s t)
include h

theorem hasType_eq (typeName : String) : s.hasType typeName = t.hasType typeName := by
  rw [Bool.eq_iff_iff, hasType, hasType, List.any_eq_true, List.any_eq_true]
  have hmem (c : Combinator) := (h.constructors_perm typeName).mem_iff (a := c)
  simpa only [constructors, List.mem_filter] using exists_congr hmem

theorem onlyConstructor?_eq (typeName : String) :
    s.onlyConstructor? typeName = t.onlyConstructor? typeName := by
  ext c
  have hperm := h.constructors_perm typeName
  rw [onlyConstructor?_eq_some_iff, onlyConstructor?_eq_some_iff]
  constructor
  · intro hs
    rw [hs] at hperm
    exact List.perm_singleton.mp hperm.symm
  · intro ht
    rw [ht] at hperm
    exact List.perm_singleton.mp hperm

theorem tagless?_eq (typeName : String) : s.tagless? typeName = t.tagless? typeName := by
  rw [Schema.tagless?_eq, Schema.tagless?_eq, h.onlyConstructor?_eq]

theorem bareTarget?_eq (name : String) : s.bareTarget? name = t.bareTarget? name := by
  rw [Schema.bareTarget?_eq, Schema.bareTarget?_eq, h.combinator?_eq, h.onlyConstructor?_eq]

/-! ### References -/

theorem locateNamed_eq (name : String) : s.locateNamed name = t.locateNamed name := by
  unfold locateNamed
  rw [h.combinator?_eq]

theorem headerless?_eq (typeName : String) (bare : Bool) :
    s.headerless? typeName bare = t.headerless? typeName bare := by
  unfold headerless?
  rw [h.bareTarget?_eq, h.tagless?_eq]

theorem locateAny_eq (buffer : ByteArray) (offset : Nat) :
    s.locateAny buffer offset = t.locateAny buffer offset := by
  unfold locateAny
  simp only [h.byTag?_eq]

theorem locateTyped_eq (typeName : String) (bare : Bool) (buffer : ByteArray) (offset : Nat) :
    s.locateTyped typeName bare buffer offset = t.locateTyped typeName bare buffer offset := by
  unfold locateTyped locateMember constructorByTag?
  simp only [h.headerless?_eq, h.hasType_eq, h.byTag?_eq]

/-- A reference leads to the same object in either schema. -/
theorem locate_eq (buffer : ByteArray) (offset : Nat) (r : Reference) :
    s.locate buffer offset r = t.locate buffer offset r := by
  cases r with
  | named name =>
    unfold locate
    dsimp only
    rw [h.hasType_eq, h.combinator?_eq, h.locateTyped_eq, h.locateNamed_eq]
  | typed typeName bare => exact h.locateTyped_eq typeName bare buffer offset
  | any => exact h.locateAny_eq buffer offset

end LooksUpAlike

end Schema

end TypeLang
