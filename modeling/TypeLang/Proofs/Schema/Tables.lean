import TypeLang.Proofs.Schema.Compatibility

/-!
The look-ups of a schema. A schema answers questions about names, tags and types with the places of
combinators, and `Schema.Tabulates` says which answers are the right ones for the declarations it
was made of: a name and a tag lead to the one declaration that has them, the members of a type are
its constructors in the order of their declarations, and the fields of a combinator are those of its
arguments. Every schema that compatible declarations make gives these answers
(`Schema.ofDeclarations_tabulates`).
-/

set_option autoImplicit false
set_option relaxedAutoImplicit false

namespace TypeLang

open Declaration Wire

/-- The places of the members of a type among the combinators of a schema. -/
def TypeGroup.places (g : TypeGroup) (s : Schema) : List Nat :=
  g.members.filterMap fun c => s.index? c.name

namespace Schema

/-- The place of the constructor of a type that a tag announces. -/
def memberIndex? (s : Schema) (typeName : String) (tag : UInt32) : Option Nat :=
  (s.constructorByTag? typeName tag).bind fun c => s.index? c.name

/-- What the look-ups of a schema say about declarations. -/
structure Tabulates (s : Schema) (ds : List Declaration) : Prop where
  declarations_eq : s.combinators.map Combinator.declaration = ds
  index?_iff : ∀ (name : String) (i : Nat),
    s.index? name = some i ↔ ∃ d, ds[i]? = some d ∧ d.qualifiedName = name
  indexByTag?_iff : ∀ (tag : UInt32) (i : Nat),
    s.indexByTag? tag = some i ↔ ∃ d, ds[i]? = some d ∧ d.tag = some tag
  groupNames_nodup : (s.groups.map TypeGroup.name).Nodup
  group?_iff : ∀ (typeName : String) (g : TypeGroup),
    s.group? typeName = some g ↔ g ∈ s.groups ∧ g.name = typeName
  places_eq : ∀ g ∈ s.groups, (g.places s).map some = g.members.map fun c => s.index? c.name
  places_ascend : ∀ g ∈ s.groups, (g.places s).Pairwise (· < ·)
  mem_places_iff : ∀ g ∈ s.groups, ∀ i, i ∈ g.places s ↔
    ∃ d, ds[i]? = some d ∧ d.isFunction = false ∧ d.resultName = g.name
  existsUnique_group : ∀ (i : Nat) (d : Declaration), ds[i]? = some d → d.isFunction = false →
    ∃ g ∈ s.groups, i ∈ g.places s ∧ g.name = d.resultName ∧
      ∀ other ∈ s.groups, i ∈ other.places s → other = g
  memberIndex?_iff : ∀ (typeName : String) (tag : UInt32) (i : Nat),
    s.memberIndex? typeName tag = some i ↔
      (∃ g, s.group? typeName = some g ∧ i ∈ g.places s) ∧
        ∃ d, ds[i]? = some d ∧ d.tag = some tag
  laidOut : ∀ c ∈ s.combinators, c.LaidOut

theorem nodup_eraseDups {α : Type} [BEq α] [LawfulBEq α] (xs : List α) : xs.eraseDups.Nodup := by
  induction h : xs.length using Nat.strongRecOn generalizing xs with
  | _ n ih =>
    cases xs with
    | nil => exact List.nodup_nil
    | cons x rest =>
      rw [List.eraseDups_cons, List.nodup_cons]
      have hshorter : (rest.filter fun y => !y == x).length < n := by
        rw [← h, List.length_cons]
        exact Nat.lt_succ_of_le (List.length_filter_le _ _)
      refine ⟨fun hmem ↦ ?_, ih _ hshorter _ rfl⟩
      have hx := (List.mem_filter.mp (List.mem_eraseDups.mp hmem)).2
      simp at hx

/-! ### The schema of compatible declarations -/

section

variable {ds : List Declaration}

theorem index?_map_ofDeclaration (name : String) :
    index? ⟨ds.map .ofDeclaration⟩ name = ds.findIdx? (·.qualifiedName == name) := by
  unfold index?
  rw [List.findIdx?_map]
  rfl

theorem indexByTag?_map_ofDeclaration (tag : UInt32) :
    indexByTag? ⟨ds.map .ofDeclaration⟩ tag = ds.findIdx? (·.tag == some tag) := by
  unfold indexByTag?
  rw [List.findIdx?_map]
  rfl

theorem hasType_map_ofDeclaration (typeName : String) :
    hasType ⟨ds.map .ofDeclaration⟩ typeName = ds.any (·.constructs typeName) := by
  unfold hasType
  rw [List.any_map]
  rfl

variable (h : Compatible ds)
include h

theorem index?_iff_of_compatible (name : String) (i : Nat) :
    index? ⟨ds.map .ofDeclaration⟩ name = some i ↔
      ∃ d, ds[i]? = some d ∧ d.qualifiedName = name := by
  have hapart := pairwise_apart_iff.mpr ⟨h.names_nodup, h.tags_nodup⟩
  rw [index?_map_ofDeclaration, findIdx?_eq_some_iff_of_pairwise]
  · simp
  · refine hapart.imp fun hcd hc ↦ ?_
    rw [beq_iff_eq] at hc
    rw [beq_eq_false_iff_ne, ← hc]
    exact hcd.1.symm

theorem indexByTag?_iff_of_compatible (tag : UInt32) (i : Nat) :
    indexByTag? ⟨ds.map .ofDeclaration⟩ tag = some i ↔
      ∃ d, ds[i]? = some d ∧ d.tag = some tag := by
  have hapart := pairwise_apart_iff.mpr ⟨h.names_nodup, h.tags_nodup⟩
  rw [indexByTag?_map_ofDeclaration, findIdx?_eq_some_iff_of_pairwise]
  · simp
  · refine hapart.imp fun hcd hc ↦ ?_
    rw [beq_iff_eq] at hc
    rw [beq_eq_false_iff_ne]
    exact hcd.2 tag hc

/-- A declaration stands where its name leads. -/
theorem index?_of_getElem? {d : Declaration} {i : Nat} (hd : ds[i]? = some d) :
    index? ⟨ds.map .ofDeclaration⟩ d.qualifiedName = some i :=
  (index?_iff_of_compatible h d.qualifiedName i).mpr ⟨d, hd, rfl⟩

theorem eq_of_tag {c d : Declaration} (hc : c ∈ ds) (hd : d ∈ ds) {tag : UInt32}
    (hctag : c.tag = some tag) (hdtag : d.tag = some tag) : c = d := by
  obtain ⟨i, hi⟩ := List.mem_iff_getElem?.mp hc
  obtain ⟨j, hj⟩ := List.mem_iff_getElem?.mp hd
  have hsame := (indexByTag?_iff_of_compatible h tag i).mpr ⟨c, hi, hctag⟩
  rw [(indexByTag?_iff_of_compatible h tag j).mpr ⟨d, hj, hdtag⟩] at hsame
  cases hsame
  exact Option.some.inj (hi.symm.trans hj)

theorem byTag?_of_mem {d : Declaration} (hd : d ∈ ds) {tag : UInt32} (htag : d.tag = some tag) :
    byTag? ⟨ds.map .ofDeclaration⟩ tag = some (.ofDeclaration d) := by
  cases hfind : byTag? ⟨ds.map .ofDeclaration⟩ tag with
  | none =>
    have hmem : Combinator.ofDeclaration d ∈ ds.map .ofDeclaration := List.mem_map_of_mem hd
    exact absurd (beq_iff_eq.mpr htag) (List.find?_eq_none.mp hfind _ hmem)
  | some c =>
    obtain ⟨hc, hctag⟩ := mem_of_byTag? hfind
    obtain ⟨e, he, rfl⟩ := List.mem_map.mp hc
    rw [eq_of_tag h he hd hctag htag]

/-- A place is that of a member of a type if a constructor of the type is declared there. -/
theorem mem_places_constructors {typeName : String} {i : Nat} :
    i ∈ TypeGroup.places ⟨typeName, constructors ⟨ds.map .ofDeclaration⟩ typeName⟩
        ⟨ds.map .ofDeclaration⟩ ↔
      ∃ d, ds[i]? = some d ∧ d.constructs typeName = true := by
  unfold TypeGroup.places
  rw [constructors_map_ofDeclaration]
  simp only [List.mem_filterMap, List.mem_map, List.mem_filter]
  constructor
  · rintro ⟨_, ⟨d, ⟨hd, hconstructs⟩, rfl⟩, hplace⟩
    obtain ⟨j, hj⟩ := List.mem_iff_getElem?.mp hd
    have hsame : some j = some i := (index?_of_getElem? h hj).symm.trans hplace
    cases hsame
    exact ⟨d, hj, hconstructs⟩
  · rintro ⟨d, hd, hconstructs⟩
    exact ⟨_, ⟨d, ⟨List.mem_of_getElem? hd, hconstructs⟩, rfl⟩, index?_of_getElem? h hd⟩

/-- The members of a type stand in the order of their declarations. -/
theorem places_constructors_pairwise (typeName : String) :
    (TypeGroup.places ⟨typeName, constructors ⟨ds.map .ofDeclaration⟩ typeName⟩
      ⟨ds.map .ofDeclaration⟩).Pairwise (· < ·) := by
  have hascend : ds.Pairwise fun c d => ∀ i,
      index? ⟨ds.map .ofDeclaration⟩ c.qualifiedName = some i →
        ∀ j, index? ⟨ds.map .ofDeclaration⟩ d.qualifiedName = some j → i < j := by
    refine List.pairwise_iff_getElem.mpr fun a b ha hb hab i hi j hj ↦ ?_
    rw [index?_of_getElem? h (List.getElem?_eq_getElem ha)] at hi
    rw [index?_of_getElem? h (List.getElem?_eq_getElem hb)] at hj
    cases hi
    cases hj
    exact hab
  unfold TypeGroup.places
  rw [constructors_map_ofDeclaration, List.pairwise_filterMap, List.pairwise_map]
  exact hascend.filter _

/-- No member of a type is without a place. -/
theorem places_constructors_map (typeName : String) :
    (TypeGroup.places ⟨typeName, constructors ⟨ds.map .ofDeclaration⟩ typeName⟩
        ⟨ds.map .ofDeclaration⟩).map some =
      (constructors ⟨ds.map .ofDeclaration⟩ typeName).map
        fun c => index? ⟨ds.map .ofDeclaration⟩ c.name := by
  have hplace : ∀ c ∈ constructors ⟨ds.map .ofDeclaration⟩ typeName,
      (index? ⟨ds.map .ofDeclaration⟩ c.name).isSome = true := by
    intro c hc
    rw [constructors_map_ofDeclaration] at hc
    obtain ⟨d, hd, rfl⟩ := List.mem_map.mp hc
    obtain ⟨i, hi⟩ := List.mem_iff_getElem?.mp (List.mem_filter.mp hd).1
    exact Option.isSome_of_eq_some (index?_of_getElem? h hi)
  unfold TypeGroup.places
  dsimp only
  generalize constructors ⟨ds.map .ofDeclaration⟩ typeName = members at hplace ⊢
  induction members with
  | nil => rfl
  | cons c rest ih =>
    obtain ⟨hfirst, hrest⟩ := List.forall_mem_cons.mp hplace
    obtain ⟨i, hi⟩ := Option.isSome_iff_exists.mp hfirst
    simp only [List.filterMap_cons, hi, List.map_cons, ih hrest]

end

/-! ### Types and their members -/

theorem map_name_groups (s : Schema) : s.groups.map TypeGroup.name = s.typeNames := by
  unfold groups
  rw [List.map_map]
  exact List.map_id _

theorem nodup_map_name_unions (s : Schema) : (s.unions.map TypeGroup.name).Nodup := by
  have hgroups : (s.groups.map TypeGroup.name).Nodup := by
    rw [map_name_groups]
    exact nodup_eraseDups _
  exact (List.filter_sublist.map TypeGroup.name).nodup hgroups

theorem group?_eq_some_iff {s : Schema} {typeName : String} {g : TypeGroup} :
    s.group? typeName = some g ↔ g ∈ s.groups ∧ g.name = typeName := by
  rw [mem_groups_iff]
  unfold group?
  constructor
  · intro h
    split at h
    · cases h
      exact ⟨⟨‹_›, rfl⟩, rfl⟩
    · cases h
  · rintro ⟨⟨htype, hmembers⟩, rfl⟩
    rw [if_pos htype, ← hmembers]

/-- There is one type of a name. -/
theorem eq_of_mem_groups {s : Schema} {g other : TypeGroup} (hg : g ∈ s.groups)
    (hother : other ∈ s.groups) (hname : other.name = g.name) : other = g :=
  Option.some.inj
    ((group?_eq_some_iff.mpr ⟨hother, hname⟩).symm.trans (group?_eq_some_iff.mpr ⟨hg, rfl⟩))

theorem eq_of_mem_groups_constructors {s : Schema} {g : TypeGroup} (hg : g ∈ s.groups) :
    g = ⟨g.name, s.constructors g.name⟩ := by
  rw [← (mem_groups_iff.mp hg).2]

section

variable {ds : List Declaration} (h : Compatible ds)
include h

/-- A place is that of a member of a type if it is that of a constructor of the type. -/
theorem mem_places_iff_of_compatible {g : TypeGroup} (hg : g ∈ groups ⟨ds.map .ofDeclaration⟩)
    (i : Nat) : i ∈ g.places ⟨ds.map .ofDeclaration⟩ ↔
      ∃ d, ds[i]? = some d ∧ d.isFunction = false ∧ d.resultName = g.name := by
  rw [eq_of_mem_groups_constructors hg, mem_places_constructors h]
  exact exists_congr fun d ↦ and_congr_right fun _ ↦ constructs_iff

/-- A declaration of a constructor belongs to the type that it names, and to no other. -/
theorem existsUnique_group_of_compatible {i : Nat} {d : Declaration} (hd : ds[i]? = some d)
    (hfunction : d.isFunction = false) :
    ∃ g ∈ groups ⟨ds.map .ofDeclaration⟩, i ∈ g.places ⟨ds.map .ofDeclaration⟩ ∧
      g.name = d.resultName ∧ ∀ other ∈ groups ⟨ds.map .ofDeclaration⟩,
        i ∈ other.places ⟨ds.map .ofDeclaration⟩ → other = g := by
  have htype : hasType ⟨ds.map .ofDeclaration⟩ d.resultName = true := by
    rw [hasType_map_ofDeclaration]
    exact List.any_eq_true.mpr
      ⟨d, List.mem_of_getElem? hd, constructs_iff.mpr ⟨hfunction, rfl⟩⟩
  have hg : ⟨d.resultName, constructors ⟨ds.map .ofDeclaration⟩ d.resultName⟩ ∈
      groups ⟨ds.map .ofDeclaration⟩ := mem_groups_iff.mpr ⟨htype, rfl⟩
  refine ⟨_, hg, (mem_places_iff_of_compatible h hg i).mpr ⟨d, hd, hfunction, rfl⟩, rfl,
    fun other hother hi ↦ eq_of_mem_groups hg hother ?_⟩
  obtain ⟨e, he, -, hresult⟩ := (mem_places_iff_of_compatible h hother i).mp hi
  rw [hd] at he
  cases he
  exact hresult.symm

/-- A tag announces, among the constructors of a type, the one that has it. -/
theorem memberIndex?_iff_of_compatible (typeName : String) (tag : UInt32) (i : Nat) :
    memberIndex? ⟨ds.map .ofDeclaration⟩ typeName tag = some i ↔
      (∃ g, group? ⟨ds.map .ofDeclaration⟩ typeName = some g ∧
        i ∈ g.places ⟨ds.map .ofDeclaration⟩) ∧ ∃ d, ds[i]? = some d ∧ d.tag = some tag := by
  unfold memberIndex? constructorByTag?
  simp only [Option.bind_eq_some_iff, Option.filter_eq_some_iff]
  constructor
  · rintro ⟨_, ⟨htag, hconstructs⟩, hplace⟩
    obtain ⟨hmem, htag⟩ := mem_of_byTag? htag
    obtain ⟨d, hd, rfl⟩ := List.mem_map.mp hmem
    obtain ⟨j, hj⟩ := List.mem_iff_getElem?.mp hd
    -- The name and the declaration stand at one place.
    have hsame : some j = some i := (index?_of_getElem? h hj).symm.trans hplace
    cases hsame
    obtain ⟨hfunction, rfl⟩ := constructs_iff.mp hconstructs
    obtain ⟨g, hg, hi, hgname, -⟩ := existsUnique_group_of_compatible h hj hfunction
    exact ⟨⟨g, group?_eq_some_iff.mpr ⟨hg, hgname⟩, hi⟩, d, hj, htag⟩
  · rintro ⟨⟨g, hg, hi⟩, d, hd, htag⟩
    obtain ⟨hmem, rfl⟩ := group?_eq_some_iff.mp hg
    obtain ⟨e, he, hconstructs⟩ := (mem_places_iff_of_compatible h hmem i).mp hi
    rw [hd] at he
    cases he
    exact ⟨.ofDeclaration d,
      ⟨byTag?_of_mem h (List.mem_of_getElem? hd) htag, constructs_iff.mpr hconstructs⟩,
      index?_of_getElem? h hd⟩

theorem tabulates_of_compatible : Tabulates ⟨ds.map .ofDeclaration⟩ ds where
  declarations_eq := by
    rw [List.map_map]
    exact List.map_id _
  index?_iff := index?_iff_of_compatible h
  indexByTag?_iff := indexByTag?_iff_of_compatible h
  groupNames_nodup := by
    rw [map_name_groups]
    exact nodup_eraseDups _
  group?_iff _ _ := group?_eq_some_iff
  places_eq g hg := by
    rw [eq_of_mem_groups_constructors hg]
    exact places_constructors_map h g.name
  places_ascend g hg := by
    rw [eq_of_mem_groups_constructors hg]
    exact places_constructors_pairwise h g.name
  mem_places_iff _ hg := mem_places_iff_of_compatible h hg
  existsUnique_group _ _ := existsUnique_group_of_compatible h
  memberIndex?_iff := memberIndex?_iff_of_compatible h
  laidOut c hc := by
    obtain ⟨d, hd, rfl⟩ := List.mem_map.mp hc
    exact Combinator.laidOut_ofDeclaration (h.resolvable d hd)

end

/-- Declarations make a schema if and only if they are compatible, and the look-ups of the schema
lead to them. -/
theorem ofDeclarations_tabulates (ds : List Declaration) :
    ((∃ s, ofDeclarations ds = .ok s) ↔ Compatible ds) ∧
      ∀ s, ofDeclarations ds = .ok s → s.Tabulates ds := by
  simp only [ofDeclarations_eq_ok_iff]
  refine ⟨⟨fun ⟨s, h, _⟩ ↦ h, fun h ↦ ⟨_, h, rfl⟩⟩, ?_⟩
  rintro _ ⟨h, rfl⟩
  exact tabulates_of_compatible h

/-- Names and tags lead to the declarations of gardens. The function is no member of the type that
it returns, although its tag is known. -/
theorem tabulates_gardenSchema :
    ofDeclarations garden = .ok gardenSchema ∧ gardenSchema.Tabulates garden ∧
      ["leaf", "spot", "node", "plant"].map gardenSchema.index? =
        [some 0, some 1, some 2, some 3] ∧
      [1, 2, 3, 4].map gardenSchema.indexByTag? = [some 0, some 2, some 3, none] ∧
      gardenSchema.groups.map (fun g => (g.name, g.places gardenSchema)) =
        [("Tree", [0, 2]), ("Spot", [1])] ∧
      [1, 2, 3, 4].map (gardenSchema.memberIndex? "Tree") = [some 0, some 2, none, none] := by
  have h : ofDeclarations garden = .ok gardenSchema := ok_of_toOption (by decide +kernel)
  exact ⟨h, (ofDeclarations_tabulates garden).2 gardenSchema h, by decide +kernel,
    by decide +kernel, by decide +kernel, by decide +kernel⟩

end Schema

end TypeLang
