import TypeLang.Proofs.Schema.Layout

/-!
Which declarations make a schema. A declaration is accepted behind others if it shares neither name
nor tag with any of them and can be laid out (`Schema.accept_eq_ok_iff`). So declarations make a
schema just when they are compatible, and which schema it is does not depend on anything else
(`Schema.ofDeclarations_eq_ok_iff`).
-/

set_option autoImplicit false
set_option relaxedAutoImplicit false

namespace TypeLang

open Wire

namespace Declaration

/-- Two declarations share neither a name nor a tag. -/
def Apart (c d : Declaration) : Prop :=
  c.qualifiedName ≠ d.qualifiedName ∧ ∀ tag, c.tag = some tag → d.tag ≠ some tag

/-- Whether a combinator declared like this constructs instances of a type. -/
def constructs (d : Declaration) (typeName : String) : Bool :=
  !d.isFunction && d.resultName == typeName

theorem constructs_iff {d : Declaration} {typeName : String} :
    d.constructs typeName = true ↔ d.isFunction = false ∧ d.resultName = typeName := by
  simp [constructs]

/-- Declarations that make a schema: names differ and so do tags, every declaration can be laid out,
and the constructors of a type with several of them have tags. -/
structure Compatible (ds : List Declaration) : Prop where
  names_nodup : (ds.map qualifiedName).Nodup
  tags_nodup : (ds.filterMap tag).Nodup
  resolvable : ∀ d ∈ ds, d.Resolvable
  tagged : ∀ typeName, 2 ≤ (ds.filter (·.constructs typeName)).length →
    ∀ d ∈ ds, d.constructs typeName = true → d.tag.isSome = true

theorem pairwise_apart_iff {ds : List Declaration} :
    ds.Pairwise Apart ↔ (ds.map qualifiedName).Nodup ∧ (ds.filterMap tag).Nodup := by
  unfold List.Nodup
  rw [List.pairwise_map, List.pairwise_filterMap, ← List.pairwise_and_iff]
  refine List.Pairwise.iff fun c d ↦ and_congr_right fun _ ↦ ⟨?_, ?_⟩
  · rintro h tag htag _ hother rfl
    exact h tag htag hother
  · intro h tag htag hother
    exact h tag htag tag hother rfl

end Declaration

/-- The combinator of a declaration. -/
def Combinator.ofDeclaration (d : Declaration) : Combinator :=
  ⟨d, Field.ofArguments d [] d.arguments⟩

theorem Combinator.laidOut_ofDeclaration {d : Declaration} (h : d.Resolvable) :
    (ofDeclaration d).LaidOut :=
  Field.laidOut_of_ofDeclaration (Field.ofDeclaration_eq_ok_iff.mpr ⟨h, rfl⟩)

namespace Schema

open Declaration

variable {earlier combinators : List Combinator} {d : Declaration} {ds : List Declaration}

theorem find?_name_eq_none_iff :
    earlier.find? (·.name == d.qualifiedName) = none ↔
      ∀ e ∈ earlier, e.declaration.qualifiedName ≠ d.qualifiedName := by
  rw [List.find?_eq_none]
  exact forall₂_congr fun e _ ↦ not_congr beq_iff_eq

theorem sharedTag?_eq_none_iff :
    (d.tag.bind fun tag => (earlier.find? (·.tag == some tag)).map (tag, ·)) = none ↔
      ∀ e ∈ earlier, ∀ tag, e.declaration.tag = some tag → d.tag ≠ some tag := by
  rw [Option.bind_eq_none_iff]
  simp only [Option.map_eq_none_iff, List.find?_eq_none, beq_iff_eq]
  constructor
  · intro h e he tag hetag hdtag
    exact h tag hdtag e he hetag
  · intro h tag hdtag e he hetag
    exact h e he tag hetag hdtag

/-- A declaration is accepted behind others if it is apart from all of them and can be laid out. -/
theorem accept_eq_ok_iff {c : Combinator} :
    accept earlier d = .ok c ↔
      (∀ e ∈ earlier, e.declaration.Apart d) ∧ d.Resolvable ∧ c = .ofDeclaration d := by
  have hapart : (∀ e ∈ earlier, e.declaration.Apart d) ↔
      earlier.find? (·.name == d.qualifiedName) = none ∧
        (d.tag.bind fun tag => (earlier.find? (·.tag == some tag)).map (tag, ·)) = none := by
    rw [find?_name_eq_none_iff, sharedTag?_eq_none_iff]
    exact ⟨fun h ↦ ⟨fun e he ↦ (h e he).1, fun e he ↦ (h e he).2⟩,
      fun h e he ↦ ⟨h.1 e he, h.2 e he⟩⟩
  rw [hapart]
  unfold accept
  cases hname : earlier.find? (·.name == d.qualifiedName) with
  | some e => simp
  | none =>
    cases htag : d.tag.bind fun tag => (earlier.find? (·.tag == some tag)).map (tag, ·) with
    | some found => simp
    | none =>
      simp only [map_ok_iff, Field.ofDeclaration_eq_ok_iff, true_and]
      constructor
      · rintro ⟨_, ⟨hresolvable, rfl⟩, rfl⟩
        exact ⟨hresolvable, rfl⟩
      · rintro ⟨hresolvable, rfl⟩
        exact ⟨_, ⟨hresolvable, rfl⟩, rfl⟩

/-- Declarations are accepted one behind the other if each is apart from those before it and can be
laid out. -/
theorem acceptAll_eq_ok_iff :
    acceptAll earlier ds = .ok combinators ↔
      (∀ d ∈ ds, ∀ e ∈ earlier, e.declaration.Apart d) ∧ ds.Pairwise Apart ∧
        (∀ d ∈ ds, d.Resolvable) ∧ combinators = earlier ++ ds.map .ofDeclaration := by
  induction ds generalizing earlier with
  | nil => simp [acceptAll, eq_comm]
  | cons d rest ih =>
    rw [acceptAll, List.forall_mem_cons, List.forall_mem_cons, List.pairwise_cons, List.map_cons]
    -- The rest has to be apart from what was there before and from the first declaration.
    have hbehind : (∀ b ∈ rest, ∀ e ∈ earlier ++ [.ofDeclaration d], e.declaration.Apart b) ↔
        (∀ b ∈ rest, ∀ e ∈ earlier, e.declaration.Apart b) ∧ ∀ b ∈ rest, d.Apart b := by
      simp only [List.mem_append, List.mem_singleton, or_imp, forall_and, forall_eq]
      rfl
    constructor
    · intro h
      cases hfirst : accept earlier d with
      | error fault => rw [hfirst] at h; cases h
      | ok c =>
        rw [hfirst] at h
        obtain ⟨hapart, hresolvable, rfl⟩ := accept_eq_ok_iff.mp hfirst
        obtain ⟨hmore, hpairs, hall, rfl⟩ := ih.mp h
        obtain ⟨hearlier, hhead⟩ := hbehind.mp hmore
        exact ⟨⟨hapart, hearlier⟩, ⟨hhead, hpairs⟩, ⟨hresolvable, hall⟩, by simp⟩
    · rintro ⟨⟨hapart, hearlier⟩, ⟨hhead, hpairs⟩, ⟨hresolvable, hall⟩, rfl⟩
      rw [accept_eq_ok_iff.mpr ⟨hapart, hresolvable, rfl⟩]
      exact ih.mpr ⟨hbehind.mpr ⟨hearlier, hhead⟩, hpairs, hall, by simp⟩

/-! ### Unions -/

theorem mem_typeNames_iff {s : Schema} {typeName : String} :
    typeName ∈ s.typeNames ↔ s.hasType typeName = true := by
  unfold typeNames hasType
  simp [List.mem_eraseDups, Combinator.constructs, and_assoc]

theorem mem_groups_iff {s : Schema} {g : TypeGroup} :
    g ∈ s.groups ↔ s.hasType g.name = true ∧ g.members = s.constructors g.name := by
  unfold groups
  simp only [List.mem_map, mem_typeNames_iff]
  constructor
  · rintro ⟨typeName, htype, rfl⟩
    exact ⟨htype, rfl⟩
  · rintro ⟨htype, hmembers⟩
    exact ⟨g.name, htype, by rw [← hmembers]⟩

/-- There is no constructor without a tag in a union if every constructor of a type with several of
them has a tag. -/
theorem untaggedMember?_eq_none_iff {s : Schema} :
    s.untaggedMember? = none ↔ ∀ typeName, 2 ≤ (s.constructors typeName).length →
      ∀ c ∈ s.constructors typeName, c.tag.isSome = true := by
  unfold untaggedMember? unions
  simp only [List.findSome?_eq_none_iff, List.mem_filter, Option.map_eq_none_iff,
    List.find?_eq_none, mem_groups_iff, Option.isNone_iff_eq_none, ← Option.isSome_iff_ne_none]
  constructor
  · intro h typeName hmany c hc
    have htype : s.hasType typeName = true := by
      obtain ⟨hmem, hconstructs⟩ := List.mem_filter.mp hc
      exact List.any_eq_true.mpr ⟨c, hmem, hconstructs⟩
    have hunion : TypeGroup.isUnion ⟨typeName, s.constructors typeName⟩ = true :=
      decide_eq_true hmany
    exact h ⟨typeName, s.constructors typeName⟩ ⟨⟨htype, rfl⟩, hunion⟩ c hc
  · rintro h g ⟨⟨-, hmembers⟩, hunion⟩ c hc
    rw [TypeGroup.isUnion, hmembers, decide_eq_true_iff] at hunion
    rw [hmembers] at hc
    exact h g.name hunion c hc

theorem constructors_map_ofDeclaration (ds : List Declaration) (typeName : String) :
    constructors ⟨ds.map .ofDeclaration⟩ typeName =
      (ds.filter (·.constructs typeName)).map .ofDeclaration := by
  unfold constructors
  rw [List.filter_map]
  rfl

/-- Compatible declarations make a schema, and no others do. -/
theorem ofDeclarations_eq_ok_iff {s : Schema} :
    ofDeclarations ds = .ok s ↔ Compatible ds ∧ s = ⟨ds.map .ofDeclaration⟩ := by
  have htagged : untaggedMember? ⟨ds.map .ofDeclaration⟩ = none ↔
      ∀ typeName, 2 ≤ (ds.filter (·.constructs typeName)).length →
        ∀ d ∈ ds, d.constructs typeName = true → d.tag.isSome = true := by
    rw [untaggedMember?_eq_none_iff]
    simp only [constructors_map_ofDeclaration, List.length_map, List.forall_mem_map,
      List.mem_filter, and_imp]
    rfl
  unfold ofDeclarations
  constructor
  · intro h
    cases hall : acceptAll [] ds with
    | error fault => rw [hall] at h; cases h
    | ok combinators =>
      obtain ⟨-, hapart, hresolvable, rfl⟩ := acceptAll_eq_ok_iff.mp hall
      rw [hall, List.nil_append] at h
      dsimp only at h
      split at h
      · cases h
      · rename_i hnone
        cases h
        obtain ⟨hnames, htags⟩ := pairwise_apart_iff.mp hapart
        exact ⟨⟨hnames, htags, hresolvable, htagged.mp hnone⟩, rfl⟩
  · rintro ⟨⟨hnames, htags, hresolvable, hunions⟩, rfl⟩
    have hall : acceptAll [] ds = .ok (ds.map .ofDeclaration) :=
      acceptAll_eq_ok_iff.mpr
        ⟨fun _ _ ↦ nofun, pairwise_apart_iff.mpr ⟨hnames, htags⟩, hresolvable, rfl⟩
    rw [hall]
    dsimp only
    rw [htagged.mpr hunions]

end Schema

/-! ### A schema of gardens -/

/-- The source of a schema of trees, whose constructors do not stand side by side, of spots, which
have no tag, and of a function that returns a tree. -/
def gardenSource : String :=
  "leaf#1 = Tree; spot flags:# depth:flags.0?int = Spot; node#2 left:Tree = Tree; " ++
  "---functions--- plant#3 tree:Tree at:Spot = Tree;"

/-- The declarations of that source. -/
def garden : List Declaration :=
  [⟨⟨none, "leaf"⟩, some 1, [], [], .ofText "Tree", false, ⟨0, 1, 1⟩⟩,
    ⟨⟨none, "spot"⟩, none, [],
      [⟨"flags", .mask, none⟩, ⟨"depth", .ofText "int", some ⟨"flags", 0⟩⟩],
      .ofText "Spot", false, ⟨15, 1, 16⟩⟩,
    ⟨⟨none, "node"⟩, some 2, [], [⟨"left", .ofText "Tree", none⟩], .ofText "Tree", false,
      ⟨54, 1, 55⟩⟩,
    ⟨⟨none, "plant"⟩, some 3, [], [⟨"tree", .ofText "Tree", none⟩, ⟨"at", .ofText "Spot", none⟩],
      .ofText "Tree", true, ⟨95, 1, 96⟩⟩]

/-- The schema of gardens. -/
def gardenSchema : Schema := ⟨garden.map .ofDeclaration⟩

theorem compile_gardenSource : Schema.compile gardenSource = .ok gardenSchema :=
  ok_of_toOption (by decide +kernel)

/-- A leaf that is planted at a spot, as bytes. The leaf stands behind the first word. -/
def gardenBytes : ByteArray := ⟨#[3, 0, 0, 0, 1, 0, 0, 0, 1, 0, 0, 0, 5, 0, 0, 0]⟩

end TypeLang
