import TypeLang.Proofs.Generate.Accessors
import TypeLang.Proofs.Generate.Coverage

/-!
The parameters of the functions that build an item. Accessors are distinct, but parameters are not
accessors: one that is a variable of `build` gets an underscore behind it, which may make it the
accessor of another field, and the parameters of `required_size` are made from the names of
arguments as they are before they are escaped and numbered. So there are fields that share a
parameter (`FieldPlan.SharesBuild`, `FieldPlan.SharesSize`), and the parameters of a function are
distinct where an item has no such fields (`signatures_of_generate`).
-/

set_option autoImplicit false
set_option relaxedAutoImplicit false

namespace TypeLang.Generate

open Code (block blank)

/-! ### Renamed accessors -/

/-- Renaming a variable of `build` does not lead to another one. -/
theorem renamed_notMem_buildLocals : ∀ name ∈ buildLocals, name ++ "_" ∉ buildLocals := by
  decide

theorem buildParameter_of_mem {accessor : String} (h : accessor ∈ buildLocals) :
    buildParameter accessor = accessor ++ "_" :=
  if_pos (List.contains_iff_mem.mpr h)

theorem buildParameter_of_notMem {accessor : String} (h : accessor ∉ buildLocals) :
    buildParameter accessor = accessor :=
  if_neg fun hcontains ↦ h (List.contains_iff_mem.mp hcontains)

theorem buildParameter_notMem_buildLocals (accessor : String) :
    buildParameter accessor ∉ buildLocals := by
  by_cases hlocal : accessor ∈ buildLocals
  · rw [buildParameter_of_mem hlocal]
    exact renamed_notMem_buildLocals accessor hlocal
  · rw [buildParameter_of_notMem hlocal]
    exact hlocal

/-- An accessor is a variable of `build`, and another is what its parameter is renamed to. -/
def Renames (accessor other : String) : Prop :=
  accessor ∈ buildLocals ∧ other = accessor ++ "_"

theorem buildParameter_eq_iff {accessor other : String} (hne : accessor ≠ other) :
    buildParameter accessor = buildParameter other ↔
      Renames accessor other ∨ Renames other accessor := by
  unfold Renames
  by_cases hfirst : accessor ∈ buildLocals <;> by_cases hsecond : other ∈ buildLocals
  · -- Two variables are renamed apart, and neither is what the other is renamed to.
    rw [buildParameter_of_mem hfirst, buildParameter_of_mem hsecond, String.append_left_inj]
    refine iff_of_false hne ?_
    rintro (⟨-, rfl⟩ | ⟨-, rfl⟩)
    · exact renamed_notMem_buildLocals _ hfirst hsecond
    · exact renamed_notMem_buildLocals _ hsecond hfirst
  · rw [buildParameter_of_mem hfirst, buildParameter_of_notMem hsecond]
    simp only [hfirst, hsecond, true_and, false_and, or_false, eq_comm]
  · rw [buildParameter_of_notMem hfirst, buildParameter_of_mem hsecond]
    simp only [hfirst, hsecond, true_and, false_and, false_or]
  · rw [buildParameter_of_notMem hfirst, buildParameter_of_notMem hsecond]
    simp only [hfirst, hsecond, false_and, or_false, iff_false]
    exact hne

/-! ### Flags and lengths -/

/-- A flag and a length have one name, although they are made from different names. -/
inductive Crossed : String → String → Prop
  | short : Crossed "len" "has"
  | around (middle : String) : Crossed (middle ++ "_len") ("has_" ++ middle)

/-- What ends the beginning of a flag and starts the ending of a length is at most an underscore. -/
theorem shared_of_overlap {front shared back : List Char} (hflag : "has_".toList = front ++ shared)
    (hlength : "_len".toList = shared ++ back) : shared = [] ∨ shared = ['_'] := by
  have hoverlaps : ∀ n ≤ 4, "has_".toList.drop n = "_len".toList.take (4 - n) → n = 4 ∨ n = 3 := by
    decide
  have hsplit : front.length + shared.length = 4 := by
    rw [← List.length_append, ← hflag]
    rfl
  have hends : "has_".toList.drop front.length = shared := by rw [hflag, List.drop_left]
  have hstarts : "_len".toList.take (4 - front.length) = shared := by
    rw [Nat.sub_eq_of_eq_add' hsplit.symm, hlength, List.take_left]
  rcases hoverlaps front.length (by omega) (hends.trans hstarts.symm) with hnone | hone
  · exact .inl (by rw [← hends, hnone]; rfl)
  · exact .inr (by rw [← hends, hone]; rfl)

theorem flag_eq_length_iff {flagged measured : String} :
    "has_" ++ flagged = measured ++ "_len" ↔ Crossed flagged measured := by
  constructor
  · intro h
    have hchars : "has_".toList ++ flagged.toList = measured.toList ++ "_len".toList := by
      rw [← String.toList_append, ← String.toList_append, h]
    rcases List.append_eq_append_iff.mp hchars with
      ⟨middle, hmeasured, -⟩ | ⟨shared, hflag, hlength⟩
    · obtain rfl : measured = "has_" ++ String.ofList middle := by
        rw [← String.toList_inj, String.toList_append, hmeasured, @String.toList_ofList middle]
      rw [String.append_assoc, String.append_right_inj] at h
      exact h ▸ .around _
    · rcases shared_of_overlap hflag hlength with rfl | rfl
      · obtain rfl : measured = "has_" := by
          rw [← String.toList_inj, hflag, List.append_nil]
        rw [String.append_right_inj] at h
        exact h ▸ .around ""
      · obtain rfl : measured = "has" := by
          rw [← String.toList_inj]
          exact (List.append_cancel_right hflag).symm
        obtain rfl : flagged = "len" := by
          rw [← String.toList_inj]
          exact (List.cons.inj hlength).2.symm
        exact .short
  · rintro (_ | middle)
    · rfl
    · rw [String.append_assoc]

/-! ### Fields that share a parameter -/

namespace FieldPlan

/-- Whether a field has a value to pass. -/
def IsPassed (f : FieldPlan) : Prop := f.field.isPresence = false

/-- Whether `required_size` is told that a field is there, since its length is always the same. -/
def IsFlagged (f : FieldPlan) : Prop :=
  f.IsPassed ∧ f.type.width?.isSome = true ∧ f.isConditional = true

/-- Whether `required_size` is told the length of a field. -/
def IsMeasured (f : FieldPlan) : Prop := f.IsPassed ∧ f.type.width? = none

/-- Two fields share a parameter of `build`: the accessor of one of them is a variable there, and
its parameter is renamed to the accessor of the other. -/
def SharesBuild (f g : FieldPlan) : Prop :=
  f.IsPassed ∧ g.IsPassed ∧ (Renames f.accessor g.accessor ∨ Renames g.accessor f.accessor)

/-- Two fields share a parameter of `required_size`: it is made of the same name in the same way, or
it is a flag of one of them and a length of the other. -/
inductive SharesSize (f g : FieldPlan) : Prop
  | flags (hf : f.IsFlagged) (hg : g.IsFlagged) (hbase : f.base = g.base)
  | lengths (hf : f.IsMeasured) (hg : g.IsMeasured) (hbase : f.base = g.base)
  | flagLength (hf : f.IsFlagged) (hg : g.IsMeasured) (hcrossed : Crossed f.base g.base)
  | lengthFlag (hf : f.IsMeasured) (hg : g.IsFlagged) (hcrossed : Crossed g.base f.base)

variable {f g : FieldPlan} {name : String}

theorem buildParameter?_name_iff :
    f.buildParameter?.map Prod.fst = some name ↔ f.IsPassed ∧ name = f.parameter := by
  unfold buildParameter? IsPassed
  split
  · rename_i hpresence
    simp [hpresence]
  · rename_i hpresence
    split <;> simp [hpresence, eq_comm]

theorem sizeParameter?_name_iff :
    f.sizeParameter?.map Prod.fst = some name ↔
      f.IsFlagged ∧ name = "has_" ++ f.base ∨ f.IsMeasured ∧ name = f.base ++ "_len" := by
  unfold sizeParameter? IsFlagged IsMeasured IsPassed
  split
  · rename_i hpresence
    simp [hpresence]
  · rename_i hpresence
    cases hwidth : f.type.width? <;> cases hconditional : f.isConditional <;>
      simp [hpresence, eq_comm]

theorem sharesBuild_iff (hne : f.accessor ≠ g.accessor) :
    f.SharesBuild g ↔ ∃ name, f.buildParameter?.map Prod.fst = some name ∧
      g.buildParameter?.map Prod.fst = some name := by
  simp only [buildParameter?_name_iff]
  unfold SharesBuild
  rw [← buildParameter_eq_iff hne]
  constructor
  · rintro ⟨hf, hg, hname⟩
    exact ⟨_, ⟨hf, rfl⟩, hg, hname⟩
  · rintro ⟨_, ⟨hf, rfl⟩, hg, hname⟩
    exact ⟨hf, hg, hname⟩

theorem sharesSize_iff :
    f.SharesSize g ↔ ∃ name, f.sizeParameter?.map Prod.fst = some name ∧
      g.sizeParameter?.map Prod.fst = some name := by
  simp only [sizeParameter?_name_iff]
  constructor
  · rintro (⟨hf, hg, hbase⟩ | ⟨hf, hg, hbase⟩ | ⟨hf, hg, hcrossed⟩ | ⟨hf, hg, hcrossed⟩)
    · exact ⟨_, .inl ⟨hf, rfl⟩, .inl ⟨hg, by rw [hbase]⟩⟩
    · exact ⟨_, .inr ⟨hf, rfl⟩, .inr ⟨hg, by rw [hbase]⟩⟩
    · exact ⟨_, .inl ⟨hf, rfl⟩, .inr ⟨hg, flag_eq_length_iff.mpr hcrossed⟩⟩
    · exact ⟨_, .inr ⟨hf, rfl⟩, .inl ⟨hg, (flag_eq_length_iff.mpr hcrossed).symm⟩⟩
  · rintro ⟨_, ⟨hf, rfl⟩ | ⟨hf, rfl⟩, ⟨hg, hname⟩ | ⟨hg, hname⟩⟩
    · exact .flags hf hg ((String.append_right_inj _).mp hname)
    · exact .flagLength hf hg (flag_eq_length_iff.mp hname)
    · exact .lengthFlag hf hg (flag_eq_length_iff.mp hname.symm)
    · exact .lengths hf hg ((String.append_left_inj _).mp hname)

end FieldPlan

/-! ### The parameters of an item -/

/-- Names that some members of a list have are distinct where no two members have the same. -/
theorem nodup_filterMap_iff {α : Type} {name? : α → Option String} {members : List α} :
    (members.filterMap name?).Nodup ↔
      members.Pairwise fun x y => ¬ ∃ name, name? x = some name ∧ name? y = some name := by
  unfold List.Nodup
  rw [List.pairwise_filterMap]
  refine List.Pairwise.iff fun x y ↦ ?_
  constructor
  · rintro h ⟨name, hx, hy⟩
    exact h name hx name hy rfl
  · rintro h name hx _ hy rfl
    exact h ⟨name, hx, hy⟩

theorem pairwise_zip_right {α β : Type} {R : β → β → Prop} {front : List α} {back : List β}
    (h : back.Pairwise R) : (front.zip back).Pairwise fun x y => R x.2 y.2 := by
  induction h generalizing front with
  | nil =>
    rw [List.zip_nil_right]
    exact .nil
  | cons hfirst _ ih =>
    cases front with
    | nil => exact .nil
    | cons x rest =>
      refine .cons (fun y hy ↦ hfirst y.2 ?_) ih
      exact (List.of_mem_zip hy).2

namespace ItemPlan

variable {s : Schema} {names : ItemNames} {c : Combinator} {plan : ItemPlan}

theorem accessors_apart (h : ofCombinator s names c = .ok plan) :
    plan.fields.Pairwise fun f g => f.accessor ≠ g.accessor := by
  obtain ⟨types, -, rfl⟩ := Wire.map_ok_iff.mp h
  dsimp only
  rw [List.pairwise_map]
  exact pairwise_zip_right (pairwise_zip_right (pairwise_zip_right (accessors_nodup _)))

/-- The names of the parameters of `build` and of `required_size`: none is a variable of `build`,
and they are distinct where no two fields share one. -/
structure Signatures (plan : ItemPlan) : Prop where
  build_free : ∀ name ∈ plan.buildParameters.map Prod.fst, name ∉ buildLocals
  build_nodup_iff : (plan.buildParameters.map Prod.fst).Nodup ↔
    plan.fields.Pairwise fun f g => ¬ f.SharesBuild g
  size_nodup_iff : (plan.sizeParameters.map Prod.fst).Nodup ↔
    plan.fields.Pairwise fun f g => ¬ f.SharesSize g

theorem signatures_of_ofCombinator (h : ofCombinator s names c = .ok plan) : plan.Signatures where
  build_free name hname := by
    unfold buildParameters at hname
    rw [List.map_filterMap] at hname
    obtain ⟨f, -, hf⟩ := List.mem_filterMap.mp hname
    obtain ⟨-, rfl⟩ := FieldPlan.buildParameter?_name_iff.mp hf
    exact buildParameter_notMem_buildLocals _
  build_nodup_iff := by
    unfold buildParameters
    rw [List.map_filterMap, nodup_filterMap_iff]
    have hapart := accessors_apart h
    constructor
    · intro hfree
      exact (hapart.and hfree).imp fun ⟨hne, hfree⟩ ↦ mt (FieldPlan.sharesBuild_iff hne).mp hfree
    · intro hfree
      exact (hapart.and hfree).imp fun ⟨hne, hfree⟩ ↦ mt (FieldPlan.sharesBuild_iff hne).mpr hfree
  size_nodup_iff := by
    unfold sizeParameters
    rw [List.map_filterMap, nodup_filterMap_iff]
    simp only [FieldPlan.sharesSize_iff]

/-- The head of `build`. -/
def buildHead (plan : ItemPlan) : String :=
  s!"pub fn build({parameterList plan.buildParameters}) -> rt::Result<Vec<u8>>"

/-- The head of `required_size`. -/
def requiredSizeHead (plan : ItemPlan) : String :=
  s!"pub fn required_size({parameterList plan.sizeParameters}) -> usize"

end ItemPlan

/-! ### The functions of an item -/

/-- A module has a function with some head among those of an item. -/
def Defines (text item head : String) : Prop := HasInner text s!"impl<'a> {item}<'a>" head

/-- A module has the lines of some code among those of the functions of an item. -/
def EmitsIn (text item : String) (code : List Code) : Prop :=
  ∃ body, Emits text [block s!"impl<'a> {item}<'a>" body] ∧ code <:+: body

variable {text item head : String} {wanted : Bool} {plan : ItemPlan}

theorem EmitsIn.mono {code part : List Code} (h : EmitsIn text item code)
    (hpart : part <:+: code) : EmitsIn text item part := by
  obtain ⟨body, hbody, hcode⟩ := h
  exact ⟨body, hbody, hpart.trans hcode⟩

theorem EmitsIn.defines {inner : List Code} (h : EmitsIn text item [block head inner]) :
    Defines text item head := by
  obtain ⟨body, hbody, hinner⟩ := h
  exact hbody.hasInner hinner

/-- The functions of an item that differ from one combinator to another and are called from
elsewhere. -/
structure HasFunctions (text : String) (wanted : Bool) (plan : ItemPlan) : Prop where
  tag : EmitsIn text plan.item (plan.tagCode wanted)
  accessors : EmitsIn text plan.item
    (plan.fields.zipIdx.flatMap fun (f, index) => blank :: f.accessorCode wanted plan index)
  size : EmitsIn text plan.item (plan.sizeCode wanted)
  build : EmitsIn text plan.item (plan.buildCode wanted)

theorem infix_append_of_left {part front : List Code} (h : part <:+: front) (back : List Code) :
    part <:+: front ++ back :=
  h.trans (List.prefix_append front back).isInfix

theorem hasFunctions_of_emits (h : Emits text (plan.code wanted)) :
    HasFunctions text wanted plan := by
  unfold ItemPlan.code at h
  have hitem := h.mono (infix_append_of_left (infix_append_of_left
    (List.IsSuffix.isInfix ⟨docs wanted _ ++ [_, _, _], List.append_assoc _ _ _⟩) _) _)
  exact {
    tag := by
      refine ⟨_, hitem, ?_⟩
      iterate 7 refine infix_append_of_left ?_ _
      exact (List.suffix_append _ _).isInfix
    accessors := by
      refine ⟨_, hitem, ?_⟩
      iterate 4 refine infix_append_of_left ?_ _
      exact (List.suffix_append _ _).isInfix
    size := by
      refine ⟨_, hitem, ?_⟩
      iterate 2 refine infix_append_of_left ?_ _
      exact (List.suffix_append _ _).isInfix
    build := ⟨_, hitem, (List.suffix_append _ _).isInfix⟩ }

theorem HasFunctions.defines_size (h : HasFunctions text wanted plan) :
    Defines text plan.item plan.requiredSizeHead :=
  (h.size.mono (List.suffix_append _ _).isInfix).defines

theorem HasFunctions.defines_build (h : HasFunctions text wanted plan) :
    Defines text plan.item plan.buildHead :=
  (h.build.mono (List.suffix_append _ _).isInfix).defines

/-- What is computed of the first item of a schema, where the schema and its module are there. -/
theorem exists_first_plan {α : Type} {source : String} {read : ItemPlan → α} {value : α}
    (h : ((Schema.compile source).toOption.bind fun s => s.combinators.head?.bind fun c =>
        (ItemPlan.ofCombinator s (.ofSchema s) c).toOption.map fun plan =>
          (s.objectTypes.all s.resolves, read plan)) = some (true, value)) :
    ∃ s text c plan, Schema.compile source = .ok s ∧ generate s .standard = .ok text ∧
      c ∈ s.combinators ∧ ItemPlan.ofCombinator s (.ofSchema s) c = .ok plan ∧
      read plan = value := by
  obtain ⟨s, hs, h⟩ := Option.bind_eq_some_iff.mp h
  obtain ⟨c, hc, h⟩ := Option.bind_eq_some_iff.mp h
  obtain ⟨plan, hplan, h⟩ := Option.map_eq_some_iff.mp h
  obtain ⟨hclosed, hread⟩ := Prod.mk.inj h
  obtain ⟨text, htext⟩ := (generate_vets s .standard).ok_iff.mpr (List.all_eq_true.mp hclosed)
  exact ⟨s, text, c, plan, Wire.ok_of_toOption hs, htext, List.mem_of_mem_head? hc,
    Wire.ok_of_toOption hplan, hread⟩

/-- A module has a `build` and a `required_size` for every combinator. Their parameters are distinct
where no two fields share one, and none is a variable of `build`. -/
theorem signatures_of_generate {s : Schema} {options : Options}
    (h : generate s options = .ok text) {c : Combinator} (hc : c ∈ s.combinators) :
    ∃ plan, ItemPlan.ofCombinator s (.ofSchema s) c = .ok plan ∧
      Defines text ((ItemNames.ofSchema s).struct c) plan.buildHead ∧
      Defines text ((ItemNames.ofSchema s).struct c) plan.requiredSizeHead ∧
      plan.Signatures := by
  obtain ⟨plan, hplan, hcode⟩ := (emits_of_generate h).1 c hc
  have hfunctions := hasFunctions_of_emits hcode
  rw [← (ItemPlan.parts_of_ofCombinator hplan).2]
  exact ⟨plan, hplan, hfunctions.defines_build, hfunctions.defines_size,
    ItemPlan.signatures_of_ofCombinator hplan⟩

/-- The source of a schema with names that are variables of `build`, or flags and lengths of one
another but for the way in which they are passed. -/
def noteSource : String :=
  "note size:bytes flags:# size_len:int has_size:flags.0?int type:flags.1?bytes = Note;"

/-- No parameters are shared: what could be taken for a length is an integer, which has none. -/
theorem signatures_note :
    ∃ s text c plan, Schema.compile noteSource = .ok s ∧ generate s .standard = .ok text ∧
      c ∈ s.combinators ∧ ItemPlan.ofCombinator s (.ofSchema s) c = .ok plan ∧
      plan.buildParameters.map Prod.fst = ["size_", "flags", "size_len", "has_size", "type_"] ∧
      plan.sizeParameters.map Prod.fst = ["size_len", "has_has_size", "type_len"] ∧
      (plan.fields.Pairwise fun f g => ¬ f.SharesBuild g) ∧
      plan.fields.Pairwise fun f g => ¬ f.SharesSize g := by
  obtain ⟨s, text, c, plan, hs, htext, hc, hplan, hnames⟩ := @exists_first_plan _ noteSource
    (fun plan => (plan.buildParameters.map Prod.fst, plan.sizeParameters.map Prod.fst))
    (["size_", "flags", "size_len", "has_size", "type_"], ["size_len", "has_has_size", "type_len"])
    (by decide +kernel)
  obtain ⟨hbuild, hsize⟩ := Prod.mk.inj hnames
  obtain ⟨_, hsame, -, -, hsignatures⟩ := signatures_of_generate htext hc
  cases hplan.symm.trans hsame
  exact ⟨s, text, c, plan, hs, htext, hc, hplan, hbuild, hsize,
    hsignatures.build_nodup_iff.mp (hbuild ▸ by decide),
    hsignatures.size_nodup_iff.mp (hsize ▸ by decide)⟩

/-- The source of a schema in which an argument has the name that the parameter of another is
renamed to, and the names of two others differ in case alone. -/
def pointSource : String := "point buf:int buf_:int userId:bytes user_id:bytes = Point;"

/-- Neither function has distinct parameters, although the accessors are distinct. -/
theorem not_nodup_point :
    ∃ s text c plan, Schema.compile pointSource = .ok s ∧ generate s .standard = .ok text ∧
      c ∈ s.combinators ∧ ItemPlan.ofCombinator s (.ofSchema s) c = .ok plan ∧
      plan.buildParameters.map Prod.fst = ["buf_", "buf_", "user_id", "user_id2"] ∧
      plan.sizeParameters.map Prod.fst = ["user_id_len", "user_id_len"] ∧
      Defines text "Point" ("pub fn build(buf_: i32, buf_: i32, user_id: &[u8], " ++
        "user_id2: &[u8]) -> rt::Result<Vec<u8>>") ∧
      Defines text "Point"
        "pub fn required_size(user_id_len: usize, user_id_len: usize) -> usize" ∧
      ¬ (plan.buildParameters.map Prod.fst).Nodup ∧
      ¬ (plan.sizeParameters.map Prod.fst).Nodup := by
  obtain ⟨s, text, c, plan, hs, htext, hc, hplan, hread⟩ := @exists_first_plan _ pointSource
    (fun plan => (plan.buildParameters.map Prod.fst, plan.sizeParameters.map Prod.fst,
      plan.item, plan.buildHead, plan.requiredSizeHead))
    (["buf_", "buf_", "user_id", "user_id2"], ["user_id_len", "user_id_len"], "Point",
      "pub fn build(buf_: i32, buf_: i32, user_id: &[u8], " ++
        "user_id2: &[u8]) -> rt::Result<Vec<u8>>",
      "pub fn required_size(user_id_len: usize, user_id_len: usize) -> usize")
    (by decide +kernel)
  simp only [Prod.mk.injEq] at hread
  obtain ⟨hbuild, hsize, hitem, hbuildHead, hsizeHead⟩ := hread
  obtain ⟨_, hsame, hcode⟩ := (emits_of_generate htext).1 c hc
  cases hplan.symm.trans hsame
  have hfunctions := hasFunctions_of_emits hcode
  refine ⟨s, text, c, plan, hs, htext, hc, hplan, hbuild, hsize, ?_, ?_, ?_, ?_⟩
  · rw [← hitem, ← hbuildHead]
    exact hfunctions.defines_build
  · rw [← hitem, ← hsizeHead]
    exact hfunctions.defines_size
  · rw [hbuild]
    decide
  · rw [hsize]
    decide

end TypeLang.Generate
