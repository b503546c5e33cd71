import TypeLang.Proofs.Schema.Compatibility

/-!
Why a text makes no schema. A condition of a parsed argument names a mask that stands before the
argument (`Declaration.conditionsDeclared_of_parse`), so it becomes a gate to that mask
(`Combinator.LaidOut.gate_to_declared`). What is left to go wrong behind the reader is listed by
`Declaration.Conflict`: a name or a tag that is used twice, too many masks, or a constructor without
a tag among others of its type (`Schema.compile_conflicts_of_parse`).
-/

set_option autoImplicit false
set_option relaxedAutoImplicit false

namespace TypeLang

open Wire

namespace Declaration

/-- What is wrong with declarations that make no schema although all conditions name masks, and what
is said about it. -/
inductive Conflict (ds : List Declaration) : StateFault → Prop
  | name {i j : Nat} {c d : Declaration} (hlt : i < j) (hc : ds[i]? = some c)
      (hd : ds[j]? = some d) (hname : c.qualifiedName = d.qualifiedName) :
      Conflict ds (.declaredTwice d.qualifiedName c.position.line d.position.line)
  | tag {i j : Nat} {c d : Declaration} {tag : UInt32} (hlt : i < j) (hc : ds[i]? = some c)
      (hd : ds[j]? = some d) (hctag : c.tag = some tag) (hdtag : d.tag = some tag) :
      Conflict ds (.sharedTag tag c.qualifiedName d.qualifiedName)
  | masks {d : Declaration} (hd : d ∈ ds) (hmany : 8 < d.maskCount d.arguments.length) :
      Conflict ds (.tooManyMasks d.qualifiedName Field.maskLimit)
  | member {typeName : String} {d : Declaration} (hd : d ∈ ds)
      (hconstructs : d.constructs typeName = true)
      (hmany : 2 ≤ (ds.filter (·.constructs typeName)).length) (htag : d.tag = none) :
      Conflict ds (.untaggedMember typeName d.qualifiedName)

/-- Every condition names a mask that stands before its argument. -/
def ConditionsDeclared (d : Declaration) : Prop :=
  ∀ (i : Nat) (a : Argument) (c : Condition), d.arguments[i]? = some a → a.condition = some c →
    ∃ (j : Nat) (b : Argument), j < i ∧ d.arguments[j]? = some b ∧ b.type.isMask = true ∧
      b.name = c.field

theorem conditionsDeclared_of_parse {source : String} {ds : List Declaration}
    (h : parse source = .ok ds) {d : Declaration} (hd : d ∈ ds) : d.ConditionsDeclared := by
  intro i a c ha hc
  obtain ⟨_, _, hspelled⟩ := argument_spelled_of_parse h hd ha
  obtain ⟨b, hb, hname, hmask⟩ := hspelled.declared hc
  obtain ⟨j, hji, hj⟩ := mem_take_iff.mp hb
  exact ⟨j, b, hji, hj, hmask, hname⟩

/-- Arguments can be laid out if their conditions name earlier masks, and these are not too many. -/
theorem ConditionsDeclared.resolvable {d : Declaration} (h : d.ConditionsDeclared)
    (hcount : d.maskCount d.arguments.length ≤ 8) : d.Resolvable := by
  refine ⟨hcount, fun i a c ha hc ↦ ?_⟩
  obtain ⟨j, b, hlt, hb⟩ := h i a c ha hc
  exact ⟨j, b, Nat.le_of_lt hlt, hb⟩

end Declaration

/-- Where names differ, the mask that a gate refers to is the one its condition names. -/
theorem Combinator.LaidOut.gate_to_declared {c : Combinator} (h : c.LaidOut)
    (hnames : (c.declaration.arguments.map Argument.name).Nodup)
    (hdeclared : c.declaration.ConditionsDeclared) {i : Nat} {a : Argument}
    {condition : Condition} (ha : c.declaration.arguments[i]? = some a)
    (hcondition : a.condition = some condition) :
    ∃ (j : Nat) (b : Argument) (mask field : Field) (slot : Nat), j < i ∧
      c.declaration.arguments[j]? = some b ∧ b.type.isMask = true ∧ b.name = condition.field ∧
      c.fields[j]? = some mask ∧ mask.slot = some slot ∧
      c.fields[i]? = some field ∧ field.gate = some ⟨slot, condition.bit⟩ := by
  have hfield : ∀ {k : Nat} {b : Argument}, c.declaration.arguments[k]? = some b →
      ∃ f, c.fields[k]? = some f := by
    intro k b hb
    obtain ⟨hlt, -⟩ := List.getElem?_eq_some_iff.mp hb
    exact ⟨_, List.getElem?_eq_getElem (by rw [h.length_eq]; exact hlt)⟩
  obtain ⟨field, hf⟩ := hfield ha
  obtain ⟨j, b, hlt, hb, hmask, hname⟩ := hdeclared i a condition ha hcondition
  obtain ⟨mask, hm⟩ := hfield hb
  obtain ⟨g, hg⟩ : ∃ g, field.gate = some g := by
    refine Option.isSome_iff_exists.mp ?_
    rw [h.gate_isSome i a field ha hf, hcondition]
    rfl
  obtain ⟨hbit, k, other, -, hother, -, hotherName, hslot⟩ :=
    h.gate_eq i a field condition g ha hf hcondition hg
  -- Both are the argument of the name in the condition.
  have hsame : k = j := by
    obtain ⟨hbound, -⟩ := List.getElem?_eq_some_iff.mp hother
    refine (List.getElem?_inj (by rwa [List.length_map]) hnames).mp ?_
    rw [List.getElem?_map, List.getElem?_map, hother, hb, Option.map_some, Option.map_some,
      hotherName, hname]
  subst hsame
  have hnumber := h.slot_eq k b mask hb hm
  rw [if_pos hmask] at hnumber
  refine ⟨k, b, mask, field, _, hlt, hb, hmask, hname, hm, hnumber, hf, ?_⟩
  rw [hg, ← hbit, ← hslot]

/-! ### One declaration -/

namespace Field

open Argument

variable {d : Declaration} {before args : List Argument} {a : Argument} {fault : StateFault}

/-- An argument whose condition names a mask has no field only if it is one mask too many. -/
theorem resolve_eq_error (hnames : a.ConditionNames (before ++ [a]))
    (h : resolve d (maskNames before) a = .error fault) :
    fault = .tooManyMasks d.qualifiedName maskLimit := by
  rw [resolve_eq, resolveGate_eq_ok_iff.mpr ⟨hnames, rfl⟩] at h
  split at h
  · cases h
    rfl
  · cases h

theorem resolveAll_eq_error (hfree : (maskNames before).length ≤ maskLimit)
    (hnames : ConditionsName before args)
    (h : resolveAll d (maskNames before) args = .error fault) :
    fault = .tooManyMasks d.qualifiedName maskLimit := by
  induction args generalizing before with
  | nil => cases h
  | cons a rest ih =>
    obtain ⟨hhere, hbehind⟩ := conditionsName_cons.mp hnames
    rw [resolveAll] at h
    cases hfield : resolve d (maskNames before) a with
    | error other =>
      rw [hfield] at h
      cases h
      exact resolve_eq_error hhere hfield
    | ok found =>
      obtain ⟨f, masks⟩ := found
      obtain ⟨hbound, -, -, rfl⟩ := (resolve_eq_ok_iff hfree).mp hfield
      rw [hfield] at h
      dsimp only at h
      cases hrest : resolveAll d (maskNames (before ++ [a])) rest with
      | ok behind => rw [hrest] at h; cases h
      | error other =>
        rw [hrest] at h
        cases h
        exact ih hbound hbehind hrest

/-- A declaration whose conditions name earlier masks has fields unless its masks are too many. -/
theorem ofDeclaration_eq_error (hdeclared : d.ConditionsDeclared)
    (h : ofDeclaration d = .error fault) :
    8 < d.maskCount d.arguments.length ∧ fault = .tooManyMasks d.qualifiedName maskLimit := by
  constructor
  · refine Nat.lt_of_not_le fun hcount ↦ ?_
    rw [ofDeclaration_eq_ok_iff.mpr ⟨hdeclared.resolvable hcount, rfl⟩] at h
    cases h
  · have hfree : (maskNames []).length ≤ maskLimit := Nat.zero_le _
    refine resolveAll_eq_error hfree (fun j a ha ↦ ?_) h
    rw [List.nil_append, conditionNames_take_iff]
    intro c hc
    obtain ⟨k, b, hlt, hb⟩ := hdeclared j a c ha hc
    exact ⟨k, b, Nat.le_of_lt hlt, hb⟩

end Field

/-! ### Declarations one behind the other -/

namespace Schema

open Declaration

variable {earlier combinators : List Combinator} {d : Declaration} {ds : List Declaration}
  {fault : StateFault}

/-- A declaration that is not accepted behind others is in conflict with one of them or with
itself. -/
theorem accept_eq_error (hdeclared : d.ConditionsDeclared) (h : accept earlier d = .error fault)
    (more : List Declaration) :
    Conflict (earlier.map Combinator.declaration ++ d :: more) fault := by
  have hlater : (earlier.map Combinator.declaration ++ d :: more)[earlier.length]? = some d := by
    simp
  have hearlier : ∀ e ∈ earlier, ∃ i < earlier.length,
      (earlier.map Combinator.declaration ++ d :: more)[i]? = some e.declaration := by
    intro e he
    obtain ⟨i, hi⟩ := List.mem_iff_getElem?.mp he
    obtain ⟨hlt, -⟩ := List.getElem?_eq_some_iff.mp hi
    refine ⟨i, hlt, ?_⟩
    rw [List.getElem?_append_left (by rwa [List.length_map]), List.getElem?_map, hi]
    rfl
  unfold accept at h
  split at h
  · rename_i e hname
    cases h
    obtain ⟨i, hlt, hi⟩ := hearlier e (List.mem_of_find?_eq_some hname)
    have hsame := List.find?_some hname
    exact .name hlt hi hlater (beq_iff_eq.mp hsame)
  · split at h
    · rename_i tag e htag
      cases h
      obtain ⟨_, hdtag, hfind⟩ := Option.bind_eq_some_iff.mp htag
      obtain ⟨_, hfind, hpair⟩ := Option.map_eq_some_iff.mp hfind
      cases hpair
      obtain ⟨i, hlt, hi⟩ := hearlier e (List.mem_of_find?_eq_some hfind)
      have hetag := List.find?_some hfind
      exact .tag hlt hi hlater (beq_iff_eq.mp hetag) hdtag
    · cases hfields : Field.ofDeclaration d with
      | ok fields => rw [hfields] at h; cases h
      | error other =>
        rw [hfields] at h
        cases h
        obtain ⟨hmany, rfl⟩ := Field.ofDeclaration_eq_error hdeclared hfields
        exact .masks (by simp) hmany

theorem acceptAll_eq_error (hdeclared : ∀ d ∈ ds, d.ConditionsDeclared)
    (h : acceptAll earlier ds = .error fault) :
    Conflict (earlier.map Combinator.declaration ++ ds) fault := by
  induction ds generalizing earlier with
  | nil => cases h
  | cons d rest ih =>
    obtain ⟨hfirst, hrest⟩ := List.forall_mem_cons.mp hdeclared
    rw [acceptAll] at h
    cases haccept : accept earlier d with
    | error other =>
      rw [haccept] at h
      cases h
      exact accept_eq_error hfirst haccept rest
    | ok c =>
      rw [haccept] at h
      obtain ⟨-, -, rfl⟩ := accept_eq_ok_iff.mp haccept
      have hconflict := ih hrest h
      rw [List.map_append, List.append_assoc] at hconflict
      exact hconflict

/-- Declarations whose conditions name earlier masks make no schema only if there is a conflict. -/
theorem ofDeclarations_eq_error (hdeclared : ∀ d ∈ ds, d.ConditionsDeclared) {e : Error}
    (h : ofDeclarations ds = .error e) : ∃ fault, e = .invalidState fault ∧ Conflict ds fault := by
  unfold ofDeclarations at h
  split at h
  · rename_i fault hall
    cases h
    exact ⟨fault, rfl, acceptAll_eq_error hdeclared hall⟩
  · rename_i combinators hall
    obtain ⟨-, -, -, rfl⟩ := acceptAll_eq_ok_iff.mp hall
    dsimp only at h
    split at h
    · rename_i g c hmember
      cases h
      refine ⟨_, rfl, ?_⟩
      unfold untaggedMember? unions at hmember
      obtain ⟨union, hunion, hfind⟩ := List.exists_of_findSome?_eq_some hmember
      obtain ⟨_, hfind, hpair⟩ := Option.map_eq_some_iff.mp hfind
      cases hpair
      obtain ⟨hgroup, hmany⟩ := List.mem_filter.mp hunion
      have hmembers := (mem_groups_iff.mp hgroup).2
      rw [List.nil_append, constructors_map_ofDeclaration] at hmembers
      have hc := List.mem_of_find?_eq_some hfind
      rw [hmembers] at hc
      obtain ⟨d, hd, rfl⟩ := List.mem_map.mp hc
      obtain ⟨hd, hconstructs⟩ := List.mem_filter.mp hd
      rw [TypeGroup.isUnion, hmembers, List.length_map, decide_eq_true_iff] at hmany
      have htag := List.find?_some hfind
      exact .member hd hconstructs hmany (Option.isNone_iff_eq_none.mp htag)
    · cases h

/-- A text that the reader accepts makes no schema only if there is a conflict. -/
theorem conflict_of_compile {source : String} {e : Error}
    (hparse : Declaration.parse source = .ok ds) (h : compile source = .error e) :
    ∃ fault, e = .invalidState fault ∧ Conflict ds fault := by
  unfold compile at h
  rw [hparse] at h
  exact ofDeclarations_eq_error (fun _ hd ↦ conditionsDeclared_of_parse hparse hd) h

/-- The arguments of a parsed text have names of their own, without dots, and conditions that become
gates to the masks they name, if there are numbers for all masks; so a parsed text makes a schema
unless a name or a tag is used twice, there are too many masks, or a constructor among others has no
tag. -/
theorem compile_conflicts_of_parse {source : String} (h : Declaration.parse source = .ok ds) :
    (∀ d ∈ ds, (d.arguments.map Argument.name).Nodup ∧
      (∀ a ∈ d.arguments, '.' ∉ a.name.toList ∧ (a.type.isMask = true → a.condition = none) ∧
        ∀ c, a.condition = some c → c.bit < 32) ∧
      (d.maskCount d.arguments.length ≤ 8 →
        ∃ fields, Field.ofDeclaration d = .ok fields ∧ fields.length = d.arguments.length ∧
          ∀ (i : Nat) (a : Argument) (c : Condition), d.arguments[i]? = some a →
            a.condition = some c →
              ∃ (j : Nat) (b : Argument) (mask field : Field) (slot : Nat), j < i ∧
                d.arguments[j]? = some b ∧ b.type.isMask = true ∧ b.name = c.field ∧
                fields[j]? = some mask ∧ mask.slot = some slot ∧
                fields[i]? = some field ∧ field.gate = some ⟨slot, c.bit⟩)) ∧
    ∀ e, compile source = .error e → ∃ fault, e = .invalidState fault ∧ Conflict ds fault := by
  refine ⟨fun d hd ↦ ?_, fun e ↦ conflict_of_compile h⟩
  have hsound := arguments_sound_of_parse h d hd
  refine ⟨hsound.names_nodup, fun a ha ↦ ?_, fun hcount ↦ ?_⟩
  · obtain ⟨i, hi⟩ := List.mem_iff_getElem?.mp ha
    obtain ⟨_, _, hspelled⟩ := argument_spelled_of_parse h hd hi
    have hfits := hsound.fits a ha
    exact ⟨hspelled.dot_notMem, hfits.unconditional, hfits.bit_lt⟩
  · have hdeclared := conditionsDeclared_of_parse h hd
    have hresolvable := hdeclared.resolvable hcount
    refine ⟨_, Field.ofDeclaration_eq_ok_iff.mpr ⟨hresolvable, rfl⟩,
      Field.length_ofArguments d [] d.arguments, fun i a c ha hc ↦ ?_⟩
    exact (Combinator.laidOut_ofDeclaration hresolvable).gate_to_declared hsound.names_nodup
      hdeclared ha hc

theorem compile_conflicts_of_repeated_name :
    ∃ ds fault,
      Declaration.parse "line flags:# label:flags.0?string = Line; line = Path;" = .ok ds ∧
      (∀ d ∈ ds, (d.arguments.map Argument.name).Nodup) ∧
      compile "line flags:# label:flags.0?string = Line; line = Path;" =
        .error (.invalidState fault) ∧ Conflict ds fault := by
  generalize hsource : "line flags:# label:flags.0?string = Line; line = Path;" = source
  have hread : (Declaration.parse source).toOption.isSome = true := by
    rw [← hsource]
    decide +kernel
  have hfails : (compile source).toOption = none := by
    rw [← hsource]
    decide +kernel
  cases hparse : Declaration.parse source with
  | error e => rw [hparse] at hread; cases hread
  | ok ds =>
    cases hcompile : compile source with
    | ok s => rw [hcompile] at hfails; cases hfails
    | error e =>
      obtain ⟨harguments, hconflicts⟩ := compile_conflicts_of_parse hparse
      obtain ⟨fault, rfl, hconflict⟩ := hconflicts e hcompile
      exact ⟨ds, fault, rfl, fun d hd ↦ (harguments d hd).1, rfl, hconflict⟩

end Schema

end TypeLang
