import TypeLang.Proofs.Generate.Acceptance
import TypeLang.Proofs.Generate.Names
import TypeLang.Proofs.Schema.Tables
import TypeLang.Proofs.Text.Numerals

/-!
What the references of a generated module lead to. A module resolves references when it is generated
and knows only the names of items; a message is read by looking the same references up. Both lead to
the same combinators (`ResolvesAlike`): an item that is read bare is the struct of the combinator
that is read without a tag, and an item that is read boxed has an arm for every tag that may stand
there, and for no other. What a reference leads to, the module implements (`Covers`).
-/

set_option autoImplicit false
set_option relaxedAutoImplicit false

namespace TypeLang.Generate

open Code (line block blank)

/-! ### Arms by tags -/

theorem tagLiteral_injective : Function.Injective tagLiteral := by
  intro m n h
  have hdigits : Text.Hex.fixed 8 m.toNat = Text.Hex.fixed 8 n.toNat :=
    String.ofList_injective ((String.append_right_inj "0x").mp h)
  have hm := (Text.Numeral.stands_word m).reads
  rw [hdigits, (Text.Numeral.stands_word n).reads] at hm
  exact (UInt32.toNat_inj.mp (Option.some.inj hm)).symm

/-- Arms for the tags that a look-up knows, one for each. Every arm leads to the struct of the
combinator that the tag announces. -/
structure Dispatches (names : ItemNames) (lookUp : UInt32 → Option Combinator)
    (arms : List (String × UInt32)) : Prop where
  literals_nodup : (arms.map fun arm => tagLiteral arm.2).Nodup
  mem_iff : ∀ item tag,
    (item, tag) ∈ arms ↔ ∃ c, lookUp tag = some c ∧ item = names.struct c

/-- The arms of some combinators, for those that have a tag. -/
def taggedArms (names : ItemNames) (combinators : List Combinator) : List (String × UInt32) :=
  combinators.filterMap fun c => c.tag.map fun tag => (names.struct c, tag)

theorem mem_taggedArms_iff {names : ItemNames} {combinators : List Combinator} {item : String}
    {tag : UInt32} : (item, tag) ∈ taggedArms names combinators ↔
      ∃ c ∈ combinators, c.tag = some tag ∧ item = names.struct c := by
  unfold taggedArms
  simp only [List.mem_filterMap, Option.map_eq_some_iff, Prod.mk.injEq]
  constructor
  · rintro ⟨c, hc, _, htag, rfl, rfl⟩
    exact ⟨c, hc, htag, rfl⟩
  · rintro ⟨c, hc, htag, rfl⟩
    exact ⟨c, hc, tag, htag, rfl, rfl⟩

theorem map_snd_taggedArms (names : ItemNames) (combinators : List Combinator) :
    (taggedArms names combinators).map Prod.snd = combinators.filterMap Combinator.tag := by
  unfold taggedArms
  rw [List.map_filterMap]
  refine congrFun (congrArg _ (funext fun c ↦ ?_)) _
  cases c.tag <;> rfl

theorem unionArms_eq {names : ItemNames} {g : TypeGroup}
    (htagged : ∀ c ∈ g.members, c.tag.isSome = true) :
    unionArms names g = taggedArms names g.members := by
  unfold unionArms taggedArms
  rw [← List.filterMap_eq_map]
  refine List.filterMap_congr fun c hc ↦ ?_
  obtain ⟨tag, htag⟩ := Option.isSome_iff_exists.mp (htagged c hc)
  rw [Function.comp_apply, htag, Option.map_some, Option.getD_some]

theorem dispatches_taggedArms {combinators : List Combinator}
    {lookUp : UInt32 → Option Combinator} (names : ItemNames)
    (htags : (combinators.filterMap Combinator.tag).Nodup)
    (hlookUp : ∀ tag c, lookUp tag = some c ↔ c ∈ combinators ∧ c.tag = some tag) :
    Dispatches names lookUp (taggedArms names combinators) where
  literals_nodup := by
    have hliterals := htags.map tagLiteral_injective
    rw [← map_snd_taggedArms names, List.map_map] at hliterals
    exact hliterals
  mem_iff item tag := by
    simp only [mem_taggedArms_iff, hlookUp, and_assoc]

section

variable {ds : List Declaration} (h : Declaration.Compatible ds) (names : ItemNames)
include h

theorem filterMap_tag_nodup :
    ((ds.map Combinator.ofDeclaration).filterMap Combinator.tag).Nodup := by
  rw [List.filterMap_map]
  exact h.tags_nodup

theorem byTag?_eq_some_iff (tag : UInt32) (c : Combinator) :
    Schema.byTag? ⟨ds.map .ofDeclaration⟩ tag = some c ↔
      c ∈ ds.map .ofDeclaration ∧ c.tag = some tag := by
  refine ⟨Schema.mem_of_byTag?, ?_⟩
  rintro ⟨hc, htag⟩
  obtain ⟨d, hd, rfl⟩ := List.mem_map.mp hc
  exact Schema.byTag?_of_mem h hd htag

theorem dispatches_anyArms :
    Dispatches names (Schema.byTag? ⟨ds.map .ofDeclaration⟩)
      (anyArms ⟨ds.map .ofDeclaration⟩ names) :=
  dispatches_taggedArms names (filterMap_tag_nodup h) (byTag?_eq_some_iff h)

/-- All constructors of a union have tags, so every one of them has its arm. -/
theorem dispatches_unionArms {g : TypeGroup} (hg : g ∈ Schema.unions ⟨ds.map .ofDeclaration⟩) :
    Dispatches names (Schema.constructorByTag? ⟨ds.map .ofDeclaration⟩ g.name)
      (unionArms names g) := by
  obtain ⟨hgroup, hunion⟩ := List.mem_filter.mp hg
  obtain ⟨-, hmembers⟩ := Schema.mem_groups_iff.mp hgroup
  have hmany : 2 ≤ g.members.length := of_decide_eq_true hunion
  rw [hmembers, Schema.constructors_map_ofDeclaration, List.length_map] at hmany
  have htagged : ∀ c ∈ g.members, c.tag.isSome = true := by
    intro c hc
    rw [hmembers, Schema.constructors_map_ofDeclaration] at hc
    obtain ⟨d, hd, rfl⟩ := List.mem_map.mp hc
    obtain ⟨hd, hconstructs⟩ := List.mem_filter.mp hd
    exact h.tagged g.name hmany d hd hconstructs
  rw [unionArms_eq htagged, hmembers]
  refine dispatches_taggedArms names ?_ fun tag c ↦ ?_
  · exact (List.filter_sublist.filterMap _).nodup (filterMap_tag_nodup h)
  · unfold Schema.constructorByTag? Schema.constructors
    rw [Option.filter_eq_some_iff, byTag?_eq_some_iff h, List.mem_filter]
    exact and_right_comm

end

/-! ### What references lead to -/

/-- The item by which a type is read with a tag: the enum of a union, with an arm for every tag that
a constructor of the type has, or the struct of the only constructor, which has a tag. -/
inductive TaggedItem (s : Schema) (names : ItemNames) (g : TypeGroup) : String → Prop
  | union (hunion : g ∈ s.unions)
      (harms : Dispatches names (s.constructorByTag? g.name) (unionArms names g)) :
      TaggedItem s names g (names.enum g.name)
  | only {c : Combinator} (hmembers : g.members = [c]) (htag : c.tag.isSome = true) :
      TaggedItem s names g (names.struct c)

/-- The item of a reference, by what a message is read as where the reference stands. -/
inductive Resolution (s : Schema) (names : ItemNames) (typeName : String) (bare : Bool) :
    Except Error ItemTarget → Prop
  | untagged {c : Combinator} (hheader : s.headerless? typeName bare = .ok (some c)) :
      Resolution s names typeName bare (.ok (.bare (names.struct c)))
  | tagged {g : TypeGroup} {item : String} (hheader : s.headerless? typeName bare = .ok none)
      (hgroup : s.group? typeName = some g) (hitem : TaggedItem s names g item) :
      Resolution s names typeName bare (.ok (.boxed item))
  | unknown (hheader : ∀ c, s.headerless? typeName bare ≠ .ok (some c))
      (hgroup : s.headerless? typeName bare = .ok none → s.group? typeName = none) :
      Resolution s names typeName bare (.error (.unknownType typeName))

variable {s : Schema} {names : ItemNames} {typeName : String}

theorem resolution_bare : Resolution s names typeName true (itemTarget s names typeName true) := by
  unfold itemTarget
  rw [if_pos rfl]
  cases htarget : s.bareTarget? typeName with
  | some c =>
    refine .untagged ?_
    unfold Schema.headerless?
    rw [if_pos rfl, htarget]
  | none =>
    have hheader : s.headerless? typeName true = .error (.unknownType typeName) := by
      unfold Schema.headerless?
      rw [if_pos rfl, htarget]
    exact .unknown (fun c h ↦ nomatch hheader.symm.trans h)
      (fun h ↦ nomatch hheader.symm.trans h)

/-- Boxed references, by the number of constructors that the type has. -/
theorem resolution_boxed (hunions : ∀ g ∈ s.unions,
      Dispatches names (s.constructorByTag? g.name) (unionArms names g)) :
    Resolution s names typeName false (itemTarget s names typeName false) := by
  have hgroup := @Schema.group?_of_constructors_ne_nil s typeName
  unfold itemTarget
  rw [if_neg Bool.false_ne_true]
  match hconstructors : s.constructors typeName with
  | [] =>
    refine .unknown (fun c h ↦ ?_) fun _ ↦ Schema.group?_of_constructors_eq_nil hconstructors
    have htagless := Schema.tagless?_eq_some (Except.ok.inj h)
    rw [hconstructors] at htagless
    cases htagless
  | [only] =>
    rw [hconstructors] at hgroup
    have htagless : s.tagless? typeName = if only.tag.isNone then some only else none := by
      rw [Schema.tagless?_eq, Schema.onlyConstructor?_eq_some_iff.mpr hconstructors]
      rfl
    dsimp only
    by_cases htag : only.tag.isNone = true
    · rw [if_pos htag] at htagless ⊢
      exact .untagged (congrArg Except.ok htagless)
    · rw [if_neg htag] at htagless ⊢
      have htagged : only.tag.isSome = true :=
        Option.isSome_iff_ne_none.mpr fun h ↦ htag (Option.isNone_iff_eq_none.mpr h)
      exact .tagged (congrArg Except.ok htagless) (hgroup (List.cons_ne_nil _ _))
        (.only rfl htagged)
  | first :: second :: rest =>
    rw [hconstructors] at hgroup
    have htagless : s.tagless? typeName = none := by
      unfold Schema.tagless?
      rw [hconstructors]
    have hsome := hgroup (List.cons_ne_nil _ _)
    have hunion : ⟨typeName, first :: second :: rest⟩ ∈ s.unions :=
      List.mem_filter.mpr ⟨(Schema.group?_eq_some_iff.mp hsome).1,
        decide_eq_true (Nat.le_add_left 2 rest.length)⟩
    exact .tagged (congrArg Except.ok htagless) hsome (.union hunion (hunions _ hunion))

theorem resolution_itemTarget (hunions : ∀ g ∈ s.unions,
      Dispatches names (s.constructorByTag? g.name) (unionArms names g)) (typeName : String)
    (bare : Bool) :
    Resolution s names typeName bare (itemTarget s names typeName bare) := by
  cases bare with
  | true => exact resolution_bare
  | false => exact resolution_boxed hunions

namespace Resolution

variable {bare : Bool} {outcome : Except Error ItemTarget}

theorem bare_iff (h : Resolution s names typeName bare outcome) (item : String) :
    outcome = .ok (.bare item) ↔
      ∃ c, s.headerless? typeName bare = .ok (some c) ∧ item = names.struct c := by
  cases h with
  | untagged hheader =>
    constructor
    · intro hitem
      cases hitem
      exact ⟨_, hheader, rfl⟩
    · rintro ⟨c, hsame, rfl⟩
      cases hheader.symm.trans hsame
      rfl
  | tagged hheader _ _ => exact ⟨nofun, fun ⟨_, hsome, _⟩ ↦ nomatch hheader.symm.trans hsome⟩
  | unknown hheader _ => exact ⟨nofun, fun ⟨c, hsome, _⟩ ↦ absurd hsome (hheader c)⟩

theorem boxed_iff (h : Resolution s names typeName bare outcome) :
    (∃ item, outcome = .ok (.boxed item)) ↔
      s.headerless? typeName bare = .ok none ∧ (s.group? typeName).isSome = true := by
  cases h with
  | untagged hheader => exact ⟨nofun, fun ⟨hnone, _⟩ ↦ nomatch hheader.symm.trans hnone⟩
  | tagged hheader hgroup _ =>
    exact ⟨fun _ ↦ ⟨hheader, Option.isSome_of_eq_some hgroup⟩, fun _ ↦ ⟨_, rfl⟩⟩
  | unknown _ hgroup =>
    refine ⟨nofun, fun ⟨hnone, hsome⟩ ↦ ?_⟩
    rw [hgroup hnone] at hsome
    cases hsome

theorem taggedItem {item : String} (h : Resolution s names typeName bare (.ok (.boxed item))) :
    ∃ g, s.group? typeName = some g ∧ TaggedItem s names g item := by
  cases h with
  | tagged _ hgroup hitem => exact ⟨_, hgroup, hitem⟩

theorem otherwise (h : Resolution s names typeName bare outcome)
    (hfails : ∀ target, outcome ≠ .ok target) : outcome = .error (.unknownType typeName) := by
  cases h with
  | untagged _ => exact absurd rfl (hfails _)
  | tagged _ _ _ => exact absurd rfl (hfails _)
  | unknown _ _ => rfl

end Resolution

/-- The references of a module and those in a message lead to the same combinators. -/
structure ResolvesAlike (s : Schema) (names : ItemNames) : Prop where
  items_nodup : (anyObjectItem :: (s.unions.map (fun g => names.enum g.name) ++
    s.combinators.map names.struct)).Nodup
  bare_iff : ∀ typeName bare item, itemTarget s names typeName bare = .ok (.bare item) ↔
    ∃ c, s.headerless? typeName bare = .ok (some c) ∧ item = names.struct c
  boxed_iff : ∀ typeName bare, (∃ item, itemTarget s names typeName bare = .ok (.boxed item)) ↔
    s.headerless? typeName bare = .ok none ∧ (s.group? typeName).isSome = true
  taggedItem : ∀ typeName bare item, itemTarget s names typeName bare = .ok (.boxed item) →
    ∃ g, s.group? typeName = some g ∧ TaggedItem s names g item
  otherwise : ∀ typeName bare, (∀ target, itemTarget s names typeName bare ≠ .ok target) →
    itemTarget s names typeName bare = .error (.unknownType typeName)

theorem resolvesAlike_of_compatible {ds : List Declaration} (h : Declaration.Compatible ds) :
    ResolvesAlike ⟨ds.map .ofDeclaration⟩ (.ofSchema ⟨ds.map .ofDeclaration⟩) := by
  have hresolution := resolution_itemTarget
    fun g hg ↦ dispatches_unionArms h (.ofSchema ⟨ds.map .ofDeclaration⟩) hg
  exact {
    items_nodup := by
      refine ItemNames.items_nodup ?_ ?_
      · rw [List.map_map]
        exact h.names_nodup
      · exact Schema.nodup_map_name_unions _
    bare_iff := fun typeName bare ↦ (hresolution typeName bare).bare_iff
    boxed_iff := fun typeName bare ↦ (hresolution typeName bare).boxed_iff
    taggedItem := fun typeName bare item hitem ↦ (hitem ▸ hresolution typeName bare).taggedItem
    otherwise := fun typeName bare ↦ (hresolution typeName bare).otherwise }

end TypeLang.Generate
