import TypeLang.Proofs.Generate.Lines
import TypeLang.Proofs.Generate.Targets

/-!
What a generated module implements, as the lines of its text say. Every struct can be read bare, and
with its tag if it has one; every union can be read by the tags of its constructors; and objects of
any type are measured by the tags of all combinators. So the item of every reference has the
implementation that the reference asks for (`Covers`).
-/

set_option autoImplicit false
set_option relaxedAutoImplicit false

namespace TypeLang.Generate

open Code (block blank)

/-! ### The lines that measure and read -/

/-- A trait by which items are measured and read, and its two functions. -/
structure ReadingTrait where
  name : String
  measure : String
  read : String

/-- The trait of items that are read with their tags. -/
def boxedTrait : ReadingTrait := ⟨"TlRead", "size_of", "read"⟩

/-- The trait of items that are read without. -/
def bareTrait : ReadingTrait := ⟨"TlBareRead", "bare_size_of", "read_bare"⟩

namespace ReadingTrait

/-- The head of the implementation of the trait for an item. -/
def implHead (trait : ReadingTrait) (item : String) : String :=
  s!"impl<'a> layout::{trait.name}<'a> for {item}<'a>"

/-- The head of the function that measures. -/
def measureHead (trait : ReadingTrait) : String :=
  s!"fn {trait.measure}(buf: &[u8], offset: usize) -> rt::Result<usize>"

/-- The head of the function that reads. -/
def readHead (trait : ReadingTrait) : String :=
  s!"fn {trait.read}(buf: &'a [u8], offset: usize) -> rt::Result<(Self, usize)>"

/-- The code of the implementation of the trait for an item. -/
def code (trait : ReadingTrait) (item : String) (measure read : List Code) : Code :=
  block (trait.implHead item) [block trait.measureHead measure, blank, block trait.readHead read]

end ReadingTrait

/-- A module implements a trait for an item by two functions with some bodies. -/
structure Implements (text : String) (trait : ReadingTrait) (item : String)
    (measure read : List String) : Prop where
  block : HasBlock text (trait.implHead item)
    (blockLines 1 trait.measureHead measure ++ "" :: blockLines 1 trait.readHead read)
  measure_inside : Indented 2 measure
  read_inside : Indented 2 read

/-- The lines that choose by a tag, at some depth. A tag without an arm is refused. -/
def choiceLines (depth : Nat) (arms : List String) : List String :=
  blockLines depth "match layout::read_u32(buf, offset)?"
    ((arms ++ ["tag => Err(rt::TlError::UnknownConstructor \x7b tag \x7d),"]).map
      (indent (depth + 1) ++ ·))

/-- The arm by which objects of a tag are measured by their struct. -/
def measureArm (arm : String × UInt32) : String :=
  s!"{tagLiteral arm.2} => <{arm.1} as layout::TlRead>::size_of(buf, offset),"

/-- The arm by which objects of a tag are read by their struct, as instances of a union. -/
def readArm (union : String) (arm : String × UInt32) : String :=
  s!"{tagLiteral arm.2} => <{arm.1}<'a> as layout::TlRead<'a>>::read(buf, offset)" ++
    s!".map(|(x, n)| ({union}::{arm.1}(x), n)),"

/-- The line by which a union holds objects of a struct. -/
def variantLine (arm : String × UInt32) : String := s!"{arm.1}({arm.1}<'a>),"

/-- The head of the function that measures objects of any type. -/
def sizerHead : String := "pub fn size_of_any(buf: &[u8], offset: usize) -> rt::Result<usize>"

/-- A module has what reads an item by a trait. -/
def HasReader (text : String) (trait : ReadingTrait) (item : String) : Prop :=
  ∃ measure read, Implements text trait item measure read

variable {s : Schema} {names : ItemNames} {text item : String} {trait : ReadingTrait}

theorem variantLine_ne_empty (arm : String × UInt32) : variantLine arm ≠ "" :=
  append_ne_empty _ (by decide)

theorem measureArm_ne_empty (arm : String × UInt32) : measureArm arm ≠ "" :=
  append_ne_empty _ (by decide)

theorem readArm_ne_empty (union : String) (arm : String × UInt32) : readArm union arm ≠ "" :=
  append_ne_empty _ (append_ne_empty _ (by decide))

theorem allLines_dispatch (depth : Nat) (arms : List (String × UInt32))
    {arm : String × UInt32 → String} (h : ∀ a, arm a ≠ "") :
    Code.allLines depth [dispatch (arms.map fun a => .line (arm a))] =
      choiceLines depth (arms.map arm) := by
  unfold dispatch choiceLines unknownArm
  rw [Code.allLines, Code.lines_block, Code.allLines_append,
    Code.allLines_map_line _ fun a _ ↦ h a, Code.allLines_line _ (by decide), Code.allLines,
    List.map_append, List.map_map, List.append_nil]
  rfl

theorem Emits.implements {measure read : List Code}
    (h : Emits text [trait.code item measure read]) :
    Implements text trait item (Code.allLines 2 measure) (Code.allLines 2 read) where
  block := by
    have hblock := h.hasBlock
    simp only [Code.allLines, Code.lines_block, List.append_nil] at hblock
    exact hblock
  measure_inside := Code.indented_allLines 2 measure
  read_inside := Code.indented_allLines 2 read

/-! ### What the items implement -/

theorem Emits.hasInner_read {measure read : List Code}
    (h : Emits text [trait.code item measure read]) :
    HasInner text (trait.implHead item) trait.readHead :=
  h.hasInner ⟨[block trait.measureHead measure, blank], [], rfl⟩

theorem readHead_boxedTrait : boxedTrait.readHead = readHead := by decide

theorem unionReader_suffix (options : Options) (names : ItemNames) (g : TypeGroup) :
    [boxedTrait.code (names.enum g.name)
      [dispatch ((unionArms names g).map fun arm => .line (measureArm arm))]
      [dispatch ((unionArms names g).map fun arm => .line (readArm (names.enum g.name) arm))]] <:+
        unionCode options names g := by
  unfold unionCode ReadingTrait.code
  rw [readHead_boxedTrait]
  exact ⟨docs options.docs _ ++ [_, _, _, _, _], List.append_assoc _ _ _⟩

theorem unionVariants_within (options : Options) (names : ItemNames) (g : TypeGroup) :
    [block s!"pub enum {names.enum g.name}<'a>"
      ((unionArms names g).map fun arm => .line (variantLine arm))] <:+:
        unionCode options names g := by
  unfold unionCode
  exact ⟨docs options.docs _ ++ [derived], [blank, _, blank, _],
    by simp only [List.append_assoc, variantLine]; rfl⟩

theorem anySizer_within (options : Options) (arms : List (String × UInt32)) :
    [block sizerHead [dispatch (arms.map fun arm => .line (measureArm arm))]] <:+:
      anyCode options arms := by
  have hhead : sizerHead = "pub " ++ sizeHead "size_of_any" := by decide
  rw [hhead]
  unfold anyCode
  rw [List.append_assoc, List.append_assoc]
  exact ⟨_, blank :: _, List.append_assoc _ _ _⟩

theorem bareReader_suffix (wanted : Bool) (plan : ItemPlan) :
    [plan.readCode bareTrait.name bareTrait.measure bareTrait.read 0] <:+ plan.code wanted := by
  unfold ItemPlan.code
  exact ⟨_ ++ [blank], List.append_assoc _ _ _⟩

theorem boxedReader_within (wanted : Bool) {plan : ItemPlan}
    (htag : plan.combinator.tag.isSome = true) :
    [plan.readCode boxedTrait.name boxedTrait.measure boxedTrait.read 4] <:+:
      plan.code wanted := by
  unfold ItemPlan.code
  dsimp only
  rw [if_pos htag]
  refine List.IsInfix.trans (List.IsSuffix.isInfix ?_) (List.prefix_append _ [blank, _]).isInfix
  exact ⟨_ ++ [blank], List.append_assoc _ _ _⟩

theorem Emits.hasReader {plan : ItemPlan} {header : Nat}
    (h : Emits text [plan.readCode trait.name trait.measure trait.read header]) :
    HasReader text trait plan.item :=
  ⟨_, _, h.implements⟩

/-! ### The items of a module -/

theorem ItemPlan.parts_of_ofCombinator {c : Combinator} {plan : ItemPlan}
    (h : ItemPlan.ofCombinator s names c = .ok plan) :
    plan.combinator = c ∧ plan.item = names.struct c := by
  obtain ⟨types, -, rfl⟩ := Wire.map_ok_iff.mp h
  exact ⟨rfl, rfl⟩

theorem plan_of_mem {combinators : List Combinator} {plans : List ItemPlan}
    (h : planItems s names combinators = .ok plans) {c : Combinator} (hc : c ∈ combinators) :
    ∃ plan ∈ plans, ItemPlan.ofCombinator s names c = .ok plan := by
  induction combinators generalizing plans with
  | nil => cases hc
  | cons first rest ih =>
    rw [planItems] at h
    cases hfirst : ItemPlan.ofCombinator s names first with
    | error e => rw [hfirst] at h; cases h
    | ok plan =>
      rw [hfirst] at h
      obtain ⟨others, hothers, rfl⟩ := Wire.map_ok_iff.mp h
      rcases List.mem_cons.mp hc with rfl | hc
      · exact ⟨plan, List.mem_cons_self, hfirst⟩
      · obtain ⟨found, hfound, hplan⟩ := ih hothers hc
        exact ⟨found, List.mem_cons_of_mem _ hfound, hplan⟩

variable {options : Options}

theorem flatMap_contains {α : Type} {items : List α} {item : α} (h : item ∈ items)
    (f : α → List Code) : f item <:+: items.flatMap f := by
  obtain ⟨front, back, rfl⟩ := List.append_of_mem h
  rw [List.flatMap_append, List.flatMap_cons]
  exact ((List.prefix_append _ _).isInfix).trans (List.suffix_append _ _).isInfix

/-- A module has the code of every struct, of every union and for objects of any type. -/
theorem emits_of_generate (h : generate s options = .ok text) :
    (∀ c ∈ s.combinators, ∃ plan, ItemPlan.ofCombinator s (.ofSchema s) c = .ok plan ∧
      Emits text (plan.code options.docs)) ∧
    (∀ g ∈ s.unions, Emits text (unionCode options (.ofSchema s) g)) ∧
    Emits text (anyCode options (anyArms s (.ofSchema s))) := by
  obtain ⟨plans, hplans, htext⟩ := Wire.map_ok_iff.mp h
  have hany : Emits text (blank :: anyCode options (anyArms s (.ofSchema s))) :=
    htext ▸ emits_render (List.suffix_append _ _).isInfix
  have hunions : Emits text
      (s.unions.flatMap fun g => blank :: unionCode options (.ofSchema s) g) :=
    htext ▸ emits_render
      ((List.suffix_append _ _).isInfix.trans (List.prefix_append _ _).isInfix)
  have hplansCode : Emits text
      (plans.flatMap fun plan => blank :: ItemPlan.code options.docs plan) :=
    htext ▸ emits_render ((List.suffix_append _ _).isInfix.trans
      ((List.prefix_append _ _).trans (List.prefix_append _ _)).isInfix)
  refine ⟨fun c hc ↦ ?_, fun g hg ↦ ?_, hany.mono (List.suffix_cons _ _).isInfix⟩
  · obtain ⟨plan, hplan, hfound⟩ := plan_of_mem hplans hc
    have hcode := hplansCode.mono (flatMap_contains hplan _)
    exact ⟨plan, hfound, hcode.mono (List.suffix_cons _ _).isInfix⟩
  · have hcode := hunions.mono (flatMap_contains hg _)
    exact hcode.mono (List.suffix_cons _ _).isInfix

/-- An item has the implementation that a reference to it asks for. -/
def ItemTarget.ServedBy (text : String) : ItemTarget → Prop
  | .boxed item => HasReader text boxedTrait item
  | .bare item => HasReader text bareTrait item

/-- A module has what its references ask for: structs are read bare, and with a tag if they have
one; unions hold and are read by the structs of their constructors, chosen by their tags; objects of
any type are measured by the structs of all combinators, chosen by their tags. -/
structure Covers (s : Schema) (names : ItemNames) (text : String) : Prop where
  struct_bare : ∀ c ∈ s.combinators, HasReader text bareTrait (names.struct c)
  struct_boxed : ∀ c ∈ s.combinators, c.tag.isSome = true →
    HasReader text boxedTrait (names.struct c)
  union_variants : ∀ g ∈ s.unions, HasBlock text s!"pub enum {names.enum g.name}<'a>"
    ((unionArms names g).map fun arm => indent 1 ++ variantLine arm)
  union_reader : ∀ g ∈ s.unions, Implements text boxedTrait (names.enum g.name)
    (choiceLines 2 ((unionArms names g).map measureArm))
    (choiceLines 2 ((unionArms names g).map (readArm (names.enum g.name))))
  target : ∀ typeName bare target, itemTarget s names typeName bare = .ok target →
    target.ServedBy text
  reference : ∀ t ∈ s.objectTypes, ∃ target,
    itemTarget s names t.typeName t.bare = .ok target
  sizer : HasBlock text sizerHead (choiceLines 1 ((anyArms s names).map measureArm))
  sizer_arms : Dispatches names s.byTag? (anyArms s names)
  sizer_tags : ∀ tag, tag ∈ (anyArms s names).map Prod.snd ↔ (s.indexByTag? tag).isSome = true

theorem indexByTag?_isSome_iff {tag : UInt32} :
    (s.indexByTag? tag).isSome = true ↔ ∃ c, s.byTag? tag = some c := by
  unfold Schema.indexByTag? Schema.byTag?
  rw [← Option.isSome_iff_exists, List.find?_isSome, List.findIdx?_isSome, List.any_eq_true]

theorem mem_of_mem_group {typeName : String} {g : TypeGroup}
    (hgroup : s.group? typeName = some g) {c : Combinator} (hc : c ∈ g.members) :
    c ∈ s.combinators := by
  obtain ⟨hg, -⟩ := Schema.group?_eq_some_iff.mp hgroup
  rw [(Schema.mem_groups_iff.mp hg).2] at hc
  exact (Schema.mem_constructors_iff.mp hc).1

/-- What a module implements, where its references lead to the combinators that they should. -/
theorem covers_of_generate (hunions : ∀ g ∈ s.unions,
      Dispatches (.ofSchema s) (s.constructorByTag? g.name) (unionArms (.ofSchema s) g))
    (hany : Dispatches (.ofSchema s) s.byTag? (anyArms s (.ofSchema s)))
    (h : generate s options = .ok text) : Covers s (.ofSchema s) text := by
  obtain ⟨hstructs, hunionCode, hanyCode⟩ := emits_of_generate h
  have hbare : ∀ c ∈ s.combinators,
      HasReader text bareTrait ((ItemNames.ofSchema s).struct c) := by
    intro c hc
    obtain ⟨plan, hplan, hcode⟩ := hstructs c hc
    rw [← (ItemPlan.parts_of_ofCombinator hplan).2]
    exact (hcode.mono (bareReader_suffix options.docs plan).isInfix).hasReader
  have hboxed : ∀ c ∈ s.combinators, c.tag.isSome = true →
      HasReader text boxedTrait ((ItemNames.ofSchema s).struct c) := by
    intro c hc htag
    obtain ⟨plan, hplan, hcode⟩ := hstructs c hc
    obtain ⟨rfl, hitem⟩ := ItemPlan.parts_of_ofCombinator hplan
    rw [← hitem]
    exact (hcode.mono (boxedReader_within options.docs htag)).hasReader
  have hunion : ∀ g ∈ s.unions, Implements text boxedTrait ((ItemNames.ofSchema s).enum g.name)
      (choiceLines 2 ((unionArms (.ofSchema s) g).map measureArm))
      (choiceLines 2 ((unionArms (.ofSchema s) g).map
        (readArm ((ItemNames.ofSchema s).enum g.name)))) := by
    intro g hg
    have hreader := ((hunionCode g hg).mono (unionReader_suffix options _ g).isInfix).implements
    rw [allLines_dispatch 2 _ measureArm_ne_empty,
      allLines_dispatch 2 _ (readArm_ne_empty _)] at hreader
    exact hreader
  exact {
    struct_bare := hbare
    struct_boxed := hboxed
    union_variants := by
      intro g hg
      have hvariants := ((hunionCode g hg).mono (unionVariants_within options _ g)).hasBlock
      rw [Code.allLines_map_line 1 fun arm _ ↦ variantLine_ne_empty arm] at hvariants
      exact hvariants
    union_reader := hunion
    target := by
      intro typeName bare target htarget
      have hresolution := resolution_itemTarget hunions typeName bare
      rw [htarget] at hresolution
      cases hresolution with
      | untagged hheader => exact hbare _ (Schema.mem_of_headerless? hheader)
      | tagged _ hgroup hitem =>
        cases hitem with
        | union hg _ => exact ⟨_, _, hunion _ hg⟩
        | only hmembers htag =>
          have hc := mem_of_mem_group hgroup (hmembers ▸ List.mem_singleton.mpr rfl)
          exact hboxed _ hc htag
    reference := by
      intro t ht
      have hresolves := (generate_vets s options).ok_iff.mp ⟨text, h⟩ t ht
      refine (itemTarget_vets s _ t.typeName t.bare).ok_iff.mpr fun reference hreference ↦ ?_
      rw [List.mem_singleton.mp hreference]
      exact hresolves
    sizer := by
      have hsizer := (hanyCode.mono (anySizer_within options _)).hasBlock
      rw [allLines_dispatch 1 _ measureArm_ne_empty] at hsizer
      exact hsizer
    sizer_arms := hany
    sizer_tags := by
      intro tag
      rw [indexByTag?_isSome_iff, List.mem_map]
      constructor
      · rintro ⟨⟨item, _⟩, harm, rfl⟩
        obtain ⟨c, hc, -⟩ := (hany.mem_iff item _).mp harm
        exact ⟨c, hc⟩
      · rintro ⟨c, hc⟩
        exact ⟨_, (hany.mem_iff _ tag).mpr ⟨c, hc, rfl⟩, rfl⟩ }

/-- The references of a module lead to the items of the combinators that a message is read by, and
the module has every implementation that a reference asks for. -/
theorem resolvesAlike_of_ofDeclarations {ds : List Declaration}
    (h : Schema.ofDeclarations ds = .ok s) :
    ResolvesAlike s (.ofSchema s) ∧
      ∀ options text, generate s options = .ok text → Covers s (.ofSchema s) text := by
  obtain ⟨hcompatible, rfl⟩ := Schema.ofDeclarations_eq_ok_iff.mp h
  exact ⟨resolvesAlike_of_compatible hcompatible, fun options text htext ↦
    covers_of_generate (fun g hg ↦ dispatches_unionArms hcompatible _ hg)
      (dispatches_anyArms hcompatible _) htext⟩

/-- The source of a schema in which a constructor has the name of its type but for the first letter,
and constructors are read bare by their own names and by those of their types. -/
def forestSource : String :=
  "leaf#1 = Tree; tree#2 left:Tree right:leaf root:Root = Tree; root at:%Place = Root; " ++
  "place#3 = Place;"

/-- The constructor gives way to the union, whose name it would have. -/
theorem resolvesAlike_forest :
    ∃ ds s text, Declaration.parse forestSource = .ok ds ∧ Schema.ofDeclarations ds = .ok s ∧
      generate s .standard = .ok text ∧
      itemTarget s (.ofSchema s) "Tree" false = .ok (.boxed "Tree") ∧
      itemTarget s (.ofSchema s) "tree" true = .ok (.bare "TreeCtor") ∧
      itemTarget s (.ofSchema s) "Root" false = .ok (.bare "Root") ∧
      ResolvesAlike s (.ofSchema s) ∧ Covers s (.ofSchema s) text := by
  have hrun : ((Declaration.parse forestSource).toOption.bind fun ds =>
      (Schema.ofDeclarations ds).toOption.map fun s =>
        (s.objectTypes.all s.resolves,
          (itemTarget s (.ofSchema s) "Tree" false).toOption,
          (itemTarget s (.ofSchema s) "tree" true).toOption,
          (itemTarget s (.ofSchema s) "Root" false).toOption)) =
      some (true, some (.boxed "Tree"), some (.bare "TreeCtor"), some (.bare "Root")) := by
    decide +kernel
  obtain ⟨ds, hds, hrun⟩ := Option.bind_eq_some_iff.mp hrun
  obtain ⟨s, hs, hrun⟩ := Option.map_eq_some_iff.mp hrun
  obtain ⟨hclosed, hitems⟩ := Prod.mk.inj hrun
  obtain ⟨hunion, hitems⟩ := Prod.mk.inj hitems
  obtain ⟨hrenamed, huntagged⟩ := Prod.mk.inj hitems
  have hs := Wire.ok_of_toOption hs
  obtain ⟨text, htext⟩ := (generate_vets s .standard).ok_iff.mpr (List.all_eq_true.mp hclosed)
  obtain ⟨halike, hcovers⟩ := resolvesAlike_of_ofDeclarations hs
  exact ⟨ds, s, text, Wire.ok_of_toOption hds, hs, htext, Wire.ok_of_toOption hunion,
    Wire.ok_of_toOption hrenamed, Wire.ok_of_toOption huntagged, halike,
    hcovers .standard text htext⟩

end TypeLang.Generate
