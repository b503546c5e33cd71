import TypeLang.Proofs.Generate.Parameters

/-!
Items with the names of types that generated code uses as the language has them. The code of a
module says `Self` and `Vec`, and `Option` for tags and conditional fields (`Uses`), and a module in
which an item has such a name means that item by it. No item is kept from having one: an item is
called so just where a union or a combinator has a name that becomes it in Pascal case
(`shadowing_of_generate`).
-/

set_option autoImplicit false
set_option relaxedAutoImplicit false

namespace TypeLang.Generate

open Code (block blank)

/-! ### Names that become a word -/

/-- The types that generated code uses as the language has them. -/
def languageTypes : List String := ["Option", "Self", "Vec"]

theorem endsInLetter_of_mem_languageTypes :
    ∀ type ∈ languageTypes, endsInLetter type = true := by
  decide +kernel

theorem append_ctor_ne {base type : String} (htype : type ∈ languageTypes) :
    base ++ "Ctor" ≠ type := by
  have hlast : ∀ type ∈ languageTypes, type.toList.getLast? ≠ some 'r' := by decide +kernel
  rintro rfl
  refine hlast _ htype ?_
  rw [String.toList_append, List.getLast?_append]
  rfl

theorem fresh_of_notMem {taken : List String} {name : String} (h : name ∉ taken) :
    fresh taken name = name := by
  obtain ⟨-, number, hnumber, hbefore⟩ := fresh_firstFree taken name
  cases number with
  | zero => exact hnumber
  | succ number => exact absurd (hbefore 0 (Nat.succ_pos number)) h

theorem fresh_ne {taken : List String} {name type : String} (htype : type ∈ languageTypes)
    (hname : name ≠ type) : fresh taken name ≠ type := by
  have hwords : ∀ word ∈ [type], endsInLetter word = true := by
    intro word hword
    rw [List.mem_singleton.mp hword]
    exact endsInLetter_of_mem_languageTypes type htype
  intro heq
  exact fresh_notMem_words hwords (mt List.mem_singleton.mp hname) (List.mem_singleton.mpr heq)

/-- A choice of names gives a word to those that become it in Pascal case, as long as it is free,
and to no others. -/
structure Gives (choose : List String → String → String) (word : String) : Prop where
  free : ∀ taken name, pascalCase name = word → word ∉ taken → choose taken name = word
  others : ∀ taken name, pascalCase name ≠ word → choose taken name ≠ word

theorem chooseEnum_gives {type : String} (h : type ∈ languageTypes) : Gives chooseEnum type where
  free taken name hname hfree := by
    unfold chooseEnum
    rw [hname, fresh_of_notMem hfree]
  others _ _ hname := fresh_ne h hname

theorem chooseStruct_gives {type : String} (h : type ∈ languageTypes) :
    Gives chooseStruct type where
  free taken name hname hfree := by
    unfold chooseStruct
    rw [hname, if_neg (mt List.contains_iff_mem.mp hfree)]
  others taken name hname := by
    unfold chooseStruct
    dsimp only
    split
    · exact fresh_ne h (append_ctor_ne h)
    · exact hname

/-- Among the names chosen in turn and those taken before, there is a word if one of the names
becomes it or it was taken. -/
theorem Gives.mem_assign_iff {choose : List String → String → String} {word : String}
    (h : Gives choose word) (taken names : List String) :
    word ∈ taken ∨ word ∈ assign choose taken names ↔
      word ∈ taken ∨ ∃ name ∈ names, pascalCase name = word := by
  constructor
  · rintro (htaken | hchosen)
    · exact .inl htaken
    · obtain ⟨known, name, hname, heq⟩ := exists_of_mem_assign hchosen
      exact .inr ⟨name, hname, by_contra fun hother ↦ h.others known name hother heq.symm⟩
  · rintro (htaken | ⟨name, hname, hbecomes⟩)
    · exact .inl htaken
    · induction names generalizing taken with
      | nil => cases hname
      | cons first rest ih =>
        rw [assign, List.mem_cons]
        by_cases htaken : word ∈ taken
        · exact .inl htaken
        · right
          rcases List.mem_cons.mp hname with rfl | hrest
          · exact .inl (h.free taken name hbecomes htaken).symm
          · rcases ih (choose taken first :: taken) hrest with hknown | hchosen
            · exact .inl ((List.mem_cons.mp hknown).resolve_right htaken)
            · exact .inr hchosen

/-! ### The names of a module -/

/-- The names of the items of a module. -/
def itemsOf (s : Schema) : List String :=
  anyObjectItem :: (s.unions.map (fun g => (ItemNames.ofSchema s).enum g.name) ++
    s.combinators.map (ItemNames.ofSchema s).struct)

/-- The names from which those of items are made. -/
def sourceNames (s : Schema) : List String :=
  s.unions.map (·.name) ++ s.combinators.map Combinator.name

theorem mem_itemsOf_iff {s : Schema} (hcombinators : (s.combinators.map Combinator.name).Nodup)
    {type : String} (h : type ∈ languageTypes) :
    type ∈ itemsOf s ↔ ∃ name ∈ sourceNames s, pascalCase name = type := by
  have hany : type ≠ anyObjectItem := by
    rintro rfl
    exact absurd h (by decide)
  have henums := (chooseEnum_gives h).mem_assign_iff [anyObjectItem] (s.unions.map (·.name))
  have hstructs := (chooseStruct_gives h).mem_assign_iff
    ((assign chooseEnum [anyObjectItem] (s.unions.map (·.name))).reverse ++ [anyObjectItem])
    (s.combinators.map Combinator.name)
  simp only [List.mem_append, List.mem_reverse, List.mem_singleton, hany, or_false, false_or]
    at henums hstructs
  unfold itemsOf sourceNames
  rw [ItemNames.map_enum_ofSchema s.nodup_map_name_unions,
    ItemNames.map_struct_ofSchema hcombinators, List.mem_cons, or_iff_right hany,
    List.mem_append, hstructs, henums]
  simp only [List.mem_append, or_and_right, exists_or]

/-- The code of the module of a schema uses a type of the language. -/
inductive Uses (s : Schema) : String → Prop
  | self : Uses s "Self"
  | vec {c : Combinator} (hc : c ∈ s.combinators) : Uses s "Vec"
  | tag {c : Combinator} (hc : c ∈ s.combinators) (htag : c.tag.isSome = true) : Uses s "Option"
  | value {c : Combinator} {f : Field} (hc : c ∈ s.combinators) (hf : f ∈ c.fields)
      (hpresence : f.isPresence = false) (hgate : f.gate.isSome = true) : Uses s "Option"

theorem Uses.mem_languageTypes {s : Schema} {type : String} (h : Uses s type) :
    type ∈ languageTypes := by
  cases h <;> decide

/-! ### Code that defines and uses types -/

/-- A module defines an item. -/
def DefinesItem (text item : String) : Prop :=
  ∃ body, HasBlock text s!"pub struct {item}<'a>" body ∨ HasBlock text s!"pub enum {item}<'a>" body

/-- A module has a function with some head. -/
def HasHead (text head : String) : Prop := ∃ owner, HasInner text owner head

/-- The head of the accessor of a field. -/
def accessorHead (accessor type : String) : String :=
  s!"pub fn {accessor}(&self) -> rt::Result<{type}>"

/-- Heads of functions that use a type of the language. -/
inductive UsedIn : String → String → Prop
  | read : UsedIn "Self" readHead
  | build (plan : ItemPlan) : UsedIn "Vec" plan.buildHead
  | tag : UsedIn "Option" "pub fn constructor_tag(&self) -> Option<u32>"
  | accessor (accessor type : String) : UsedIn "Option" (accessorHead accessor s!"Option<{type}>")

theorem Defines.hasHead {text item head : String} (h : Defines text item head) :
    HasHead text head := ⟨_, h⟩

theorem structItem_within (wanted : Bool) (plan : ItemPlan) :
    ∃ body, [block s!"pub struct {plan.item}<'a>" body] <:+: plan.code wanted := by
  unfold ItemPlan.code
  dsimp only
  refine ⟨[.line "buf: &'a [u8],", .line "header: usize,"], ?_⟩
  iterate 2 refine infix_append_of_left ?_ _
  exact ⟨docs wanted _ ++ [derived], [blank, _], by simp only [List.append_assoc]; rfl⟩

theorem anyItem_within (options : Options) (arms : List (String × UInt32)) :
    ∃ body, [block s!"pub struct {anyObjectItem}<'a>" body] <:+: anyCode options arms := by
  unfold anyCode
  refine ⟨[.line "buf: &'a [u8],", .line "tag: u32,"], ?_⟩
  refine List.IsInfix.trans ?_ (List.suffix_append _ _).isInfix
  exact ⟨[derived], [blank, _, blank, _], rfl⟩

theorem anyReader_within (options : Options) (arms : List (String × UInt32)) :
    ∃ code, [boxedTrait.code anyObjectItem [.line "size_of_any(buf, offset)"] code] <:+:
      anyCode options arms := by
  unfold anyCode ReadingTrait.code
  rw [readHead_boxedTrait]
  refine ⟨[.line "let size = size_of_any(buf, offset)?;",
    .line "let tag = layout::read_u32(buf, offset)?;",
    .line "Ok((AnyObject \x7b buf: &buf[offset..offset + size], tag \x7d, size))"], ?_⟩
  refine List.IsInfix.trans ?_ (List.suffix_append _ _).isInfix
  exact ⟨[derived, _, blank, _, blank], [], rfl⟩

theorem tagHead_within (wanted : Bool) {plan : ItemPlan}
    (htag : plan.combinator.tag.isSome = true) :
    ∃ body, [block "pub fn constructor_tag(&self) -> Option<u32>" body] <:+:
      plan.tagCode wanted := by
  unfold ItemPlan.tagCode
  rw [if_neg (by rw [Option.isNone_iff_eq_none, ← Option.not_isSome_iff_eq_none, htag]; nofun)]
  exact ⟨_, (List.suffix_append _ _).isInfix⟩

/-- A field that may be absent is read as an option. -/
theorem accessorHead_within (wanted : Bool) (plan : ItemPlan) (index : Nat) {f : FieldPlan}
    (hpresence : f.field.isPresence = false) (hgate : f.gate.isSome = true) :
    ∃ (type : String) (body : List Code),
      [block (accessorHead f.accessor s!"Option<{type}>") body] <:+:
        f.accessorCode wanted plan index := by
  obtain ⟨gate, hgate⟩ := Option.isSome_iff_exists.mp hgate
  unfold FieldPlan.accessorCode
  rw [hpresence, hgate]
  exact ⟨_, _, (List.suffix_append _ _).isInfix⟩

namespace ItemPlan

variable {s : Schema} {names : ItemNames} {c : Combinator} {plan : ItemPlan}

theorem length_of_fieldTypes {fields : List Field} {types : List FieldType}
    (h : fieldTypes s names fields = .ok types) : types.length = fields.length := by
  induction fields generalizing types with
  | nil =>
    cases h
    rfl
  | cons f rest ih =>
    rw [fieldTypes] at h
    cases htype : FieldType.ofKind s names f.kind with
    | error e => rw [htype] at h; cases h
    | ok type =>
      rw [htype] at h
      obtain ⟨others, hothers, rfl⟩ := Wire.map_ok_iff.mp h
      rw [List.length_cons, List.length_cons, ih hothers]

/-- An item has every field of its combinator, where there is one to an argument. -/
theorem map_field_of_ofCombinator (hlength : c.fields.length = c.declaration.arguments.length)
    (h : ofCombinator s names c = .ok plan) : plan.fields.map FieldPlan.field = c.fields := by
  obtain ⟨types, htypes, rfl⟩ := Wire.map_ok_iff.mp h
  have htypes := length_of_fieldTypes htypes
  have haccessors : (accessors (c.declaration.arguments.map Argument.name)).length =
      types.length := by
    unfold accessors
    rw [length_assign, List.length_map, ← hlength, htypes]
  have hinner : (types.zip (accessors (c.declaration.arguments.map Argument.name))).length =
      c.fields.length := by
    rw [List.length_zip, haccessors, Nat.min_self, htypes]
  dsimp only
  rw [List.map_map]
  change List.map (Prod.fst ∘ Prod.snd) _ = _
  rw [← List.map_map, List.map_snd_zip, List.map_fst_zip]
  · exact Nat.le_of_eq hinner.symm
  · rw [List.length_zip, hinner, Nat.min_self]
    exact Nat.le_of_eq hlength

theorem isSome_gate_of_mem (h : ofCombinator s names c = .ok plan) {f : FieldPlan}
    (hf : f ∈ plan.fields) : f.gate.isSome = f.field.gate.isSome := by
  obtain ⟨types, -, rfl⟩ := Wire.map_ok_iff.mp h
  obtain ⟨parts, -, rfl⟩ := List.mem_map.mp hf
  exact Option.isSome_map

end ItemPlan

/-! ### Modules -/

variable {s : Schema} {options : Options} {text : String}

theorem definesItem_of_generate (h : generate s options = .ok text) {item : String}
    (hitem : item ∈ itemsOf s) : DefinesItem text item := by
  obtain ⟨hstructs, hunions, hany⟩ := emits_of_generate h
  rcases List.mem_cons.mp hitem with rfl | hitem
  · obtain ⟨body, hbody⟩ := anyItem_within options (anyArms s (.ofSchema s))
    exact ⟨_, .inl (hany.mono hbody).hasBlock⟩
  · rcases List.mem_append.mp hitem with henum | hstruct
    · obtain ⟨g, hg, rfl⟩ := List.mem_map.mp henum
      have hvariants := (hunions g hg).mono (unionVariants_within options (.ofSchema s) g)
      exact ⟨_, .inr hvariants.hasBlock⟩
    · obtain ⟨c, hc, rfl⟩ := List.mem_map.mp hstruct
      obtain ⟨plan, hplan, hcode⟩ := hstructs c hc
      obtain ⟨body, hbody⟩ := structItem_within options.docs plan
      rw [← (ItemPlan.parts_of_ofCombinator hplan).2]
      exact ⟨_, .inl (hcode.mono hbody).hasBlock⟩

/-- A type of the language that a module is said to use is in the head of one of its functions. -/
theorem usedIn_of_generate (hlengths : ∀ c ∈ s.combinators,
      c.fields.length = c.declaration.arguments.length)
    (h : generate s options = .ok text) {type : String} (huses : Uses s type) :
    ∃ head, UsedIn type head ∧ HasHead text head := by
  obtain ⟨hstructs, -, hany⟩ := emits_of_generate h
  cases huses with
  | self =>
    obtain ⟨code, hcode⟩ := anyReader_within options (anyArms s (.ofSchema s))
    exact ⟨readHead, .read, _, readHead_boxedTrait ▸ (hany.mono hcode).hasInner_read⟩
  | vec hc =>
    obtain ⟨plan, -, hcode⟩ := hstructs _ hc
    exact ⟨_, .build plan, (hasFunctions_of_emits hcode).defines_build.hasHead⟩
  | tag hc htag =>
    obtain ⟨plan, hplan, hcode⟩ := hstructs _ hc
    obtain ⟨rfl, -⟩ := ItemPlan.parts_of_ofCombinator hplan
    obtain ⟨body, hbody⟩ := tagHead_within options.docs htag
    have htagged := (hasFunctions_of_emits hcode).tag.mono hbody
    exact ⟨_, .tag, htagged.defines.hasHead⟩
  | value hc hf hpresence hgate =>
    obtain ⟨plan, hplan, hcode⟩ := hstructs _ hc
    rw [← ItemPlan.map_field_of_ofCombinator (hlengths _ hc) hplan] at hf
    obtain ⟨f, hplanned, rfl⟩ := List.mem_map.mp hf
    rw [← ItemPlan.isSome_gate_of_mem hplan hplanned] at hgate
    obtain ⟨index, hindex⟩ := List.mem_iff_getElem?.mp hplanned
    obtain ⟨type, body, hbody⟩ := accessorHead_within options.docs plan index hpresence hgate
    have haccessor := (hasFunctions_of_emits hcode).accessors.mono
      (flatMap_contains (List.mk_mem_zipIdx_iff_getElem?.mpr hindex) _)
    have hoption := haccessor.mono (hbody.trans (List.suffix_cons _ _).isInfix)
    exact ⟨_, .accessor f.accessor type, hoption.defines.hasHead⟩

/-- Which items of a module have the name of a type that its code uses. -/
structure Shadowing (s : Schema) (text : String) : Prop where
  defined : ∀ item ∈ itemsOf s, DefinesItem text item
  used : ∀ type, Uses s type → ∃ head, UsedIn type head ∧ HasHead text head
  shadowed_iff : ∀ type, Uses s type →
    (type ∈ itemsOf s ↔ ∃ name ∈ sourceNames s, pascalCase name = type)
  apart_iff : (∀ item ∈ itemsOf s, ¬ Uses s item) ↔
    ∀ name ∈ sourceNames s, ¬ Uses s (pascalCase name)

/-- No item of a module has the name of a type that its code uses, if and only if no union and no
combinator has a name that becomes one in Pascal case. -/
theorem shadowing_of_generate {ds : List Declaration} (hs : Schema.ofDeclarations ds = .ok s)
    (h : generate s options = .ok text) : Shadowing s text := by
  obtain ⟨hcompatible, rfl⟩ := Schema.ofDeclarations_eq_ok_iff.mp hs
  have hlengths : ∀ c ∈ ds.map Combinator.ofDeclaration,
      c.fields.length = c.declaration.arguments.length := by
    intro c hc
    obtain ⟨d, -, rfl⟩ := List.mem_map.mp hc
    exact Field.length_ofArguments d [] d.arguments
  have hshadowed : ∀ type, Uses ⟨ds.map .ofDeclaration⟩ type →
      (type ∈ itemsOf ⟨ds.map .ofDeclaration⟩ ↔
        ∃ name ∈ sourceNames ⟨ds.map .ofDeclaration⟩, pascalCase name = type) := by
    intro type huses
    refine mem_itemsOf_iff ?_ huses.mem_languageTypes
    rw [List.map_map]
    exact hcompatible.names_nodup
  exact {
    defined := fun item hitem ↦ definesItem_of_generate h hitem
    used := fun type huses ↦ usedIn_of_generate hlengths h huses
    shadowed_iff := hshadowed
    apart_iff := by
      constructor
      · intro hitems name hname huses
        exact hitems _ ((hshadowed _ huses).mpr ⟨name, hname, rfl⟩) huses
      · intro hnames item hitem huses
        obtain ⟨name, hname, rfl⟩ := (hshadowed item huses).mp hitem
        exact hnames name hname huses }

/-- The source of a schema with names that come close to types of the language. -/
def optionsSource : String :=
  "options#1 flags:# value:flags.0?int = Options; core.vec#2 = Box; selfish#3 = Box;"

/-- None of its items is called as one. -/
theorem shadowing_options :
    ∃ ds s text, Declaration.parse optionsSource = .ok ds ∧ Schema.ofDeclarations ds = .ok s ∧
      generate s .standard = .ok text ∧
      itemsOf s = ["AnyObject", "Box", "Options", "CoreVec", "Selfish"] ∧
      Shadowing s text ∧ ∀ item ∈ itemsOf s, ¬ Uses s item := by
  have hrun : ((Declaration.parse optionsSource).toOption.bind fun ds =>
      (Schema.ofDeclarations ds).toOption.map fun s =>
        (s.objectTypes.all s.resolves, itemsOf s,
          (sourceNames s).all fun name => !languageTypes.contains (pascalCase name))) =
      some (true, ["AnyObject", "Box", "Options", "CoreVec", "Selfish"], true) := by
    decide +kernel
  obtain ⟨ds, hds, hrun⟩ := Option.bind_eq_some_iff.mp hrun
  obtain ⟨s, hs, hrun⟩ := Option.map_eq_some_iff.mp hrun
  simp only [Prod.mk.injEq] at hrun
  obtain ⟨hclosed, hitems, hnames⟩ := hrun
  have hs := Wire.ok_of_toOption hs
  obtain ⟨text, htext⟩ := (generate_vets s .standard).ok_iff.mpr (List.all_eq_true.mp hclosed)
  have hshadowing := shadowing_of_generate hs htext
  refine ⟨ds, s, text, Wire.ok_of_toOption hds, hs, htext, hitems, hshadowing,
    hshadowing.apart_iff.mpr fun name hname huses ↦ ?_⟩
  have hother := List.all_eq_true.mp hnames name hname
  rw [List.contains_iff_mem.mpr huses.mem_languageTypes] at hother
  cases hother

/-- The source of a schema with a combinator that is called as a type of the language but for the
first letter. -/
def optionSource : String := "option#1 value:int = Cell;"

/-- Its struct is the `Option` that the module then uses for tags. -/
theorem not_apart_option :
    ∃ s text, Schema.compile optionSource = .ok s ∧ generate s .standard = .ok text ∧
      DefinesItem text "Option" ∧
      Defines text "Option" "pub fn constructor_tag(&self) -> Option<u32>" ∧
      ¬ ∀ item ∈ itemsOf s, ¬ Uses s item := by
  obtain ⟨s, text, c, plan, hs, htext, hc, hplan, hread⟩ := @exists_first_plan _ optionSource
    (fun plan => (plan.combinator.tag.isSome, plan.item)) (true, "Option") (by decide +kernel)
  obtain ⟨htag, hitem⟩ := Prod.mk.inj hread
  obtain ⟨rfl, hstruct⟩ := ItemPlan.parts_of_ofCombinator hplan
  have hdefined : "Option" ∈ itemsOf s := by
    rw [← hitem, hstruct]
    exact List.mem_cons_of_mem _ (List.mem_append_right _ (List.mem_map_of_mem hc))
  obtain ⟨_, hsame, hcode⟩ := (emits_of_generate htext).1 _ hc
  cases hplan.symm.trans hsame
  obtain ⟨body, hbody⟩ := tagHead_within Options.standard.docs htag
  refine ⟨s, text, hs, htext, definesItem_of_generate htext hdefined, ?_,
    fun hfree ↦ hfree "Option" hdefined (.tag hc htag)⟩
  rw [← hitem]
  exact ((hasFunctions_of_emits hcode).tag.mono hbody).defines

end TypeLang.Generate
