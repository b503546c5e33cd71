import TypeLang.Generate.Module
import TypeLang.Proofs.Message.Faults

/-!
Which schemas a module is generated of. Generation looks up every type that a field refers to, in
the order of the fields, and fails at the first that stands for nothing. `Schema.Vets` says so of
any of its parts, and passes from one field to all of them.
-/

set_option autoImplicit false
set_option relaxedAutoImplicit false

namespace TypeLang

open Wire

/-- An outcome is a failure at the first of some types that stands for nothing, and a success if
there is none. -/
def Schema.Vets {α : Type} (s : Schema) (types : List ObjectType) (outcome : Except Error α) :
    Prop :=
  match types.find? (!s.resolves ·) with
  | some t => outcome = .error (.unknownType t.typeName)
  | none => ∃ a, outcome = .ok a

namespace Schema.Vets

variable {α β : Type} {s : Schema} {types behind : List ObjectType}

theorem nothing (a : α) : s.Vets [] (.ok a) := ⟨a, rfl⟩

theorem map {outcome : Except Error α} (h : s.Vets types outcome) (f : α → β) :
    s.Vets types (outcome.map f) := by
  unfold Vets at h ⊢
  split at h
  · rw [h]
    rfl
  · obtain ⟨a, rfl⟩ := h
    exact ⟨f a, rfl⟩

/-- What is looked up first fails first. -/
theorem append {outcome : Except Error α} {next : α → Except Error β} (h : s.Vets types outcome)
    (hnext : ∀ a, s.Vets behind (next a)) :
    s.Vets (types ++ behind) (outcome.bind next) := by
  unfold Vets at h ⊢
  rw [List.find?_append]
  split at h
  · rename_i t hfind
    rw [hfind, h]
    rfl
  · rename_i hfind
    obtain ⟨a, rfl⟩ := h
    rw [hfind]
    exact hnext a

theorem ok_iff {outcome : Except Error α} (h : s.Vets types outcome) :
    (∃ a, outcome = .ok a) ↔ ∀ t ∈ types, s.resolves t = true := by
  unfold Vets at h
  split at h
  · rename_i t hfind
    have hmem := List.mem_of_find?_eq_some hfind
    have hfails := List.find?_some hfind
    constructor
    · rintro ⟨a, ha⟩
      rw [h] at ha
      cases ha
    · intro hall
      rw [hall t hmem] at hfails
      cases hfails
  · rename_i hfind
    rw [List.find?_eq_none] at hfind
    exact ⟨fun _ t ht ↦ by simpa using hfind t ht, fun _ ↦ h⟩

theorem error_of_find? {outcome : Except Error α} (h : s.Vets types outcome) {t : ObjectType}
    (hfind : types.find? (!s.resolves ·) = some t) :
    outcome = .error (.unknownType t.typeName) := by
  unfold Vets at h
  rw [hfind] at h
  exact h

end Schema.Vets

namespace Generate

variable (s : Schema) (names : ItemNames)

theorem itemTarget_vets (typeName : String) (bare : Bool) :
    s.Vets [⟨typeName, bare⟩] (itemTarget s names typeName bare) := by
  unfold Schema.Vets itemTarget
  rw [List.find?_singleton]
  cases bare with
  | true =>
    rw [Schema.resolves_bare, if_pos rfl]
    cases s.bareTarget? typeName with
    | none => rfl
    | some c => exact ⟨_, rfl⟩
  | false =>
    rw [Schema.resolves_boxed, if_neg Bool.false_ne_true]
    cases htype : s.hasType typeName with
    | false =>
      rw [Schema.constructors_eq_nil_iff.mpr htype]
      rfl
    | true =>
      cases hconstructors : s.constructors typeName with
      | nil =>
        rw [Schema.constructors_eq_nil_iff.mp hconstructors] at htype
        cases htype
      | cons first others =>
        cases others with
        | nil =>
          by_cases htag : first.tag.isNone = true
          · exact ⟨_, if_pos htag⟩
          · exact ⟨_, if_neg htag⟩
        | cons second rest => exact ⟨_, rfl⟩

theorem ofKind_vets (kind : Kind) :
    s.Vets kind.objectType?.toList (FieldType.ofKind s names kind) := by
  induction kind with
  | vector boxed element ih => exact ih.map _
  | object typeName bare => exact (itemTarget_vets s names typeName bare).map _
  | _ => exact .nothing _

theorem fieldTypes_vets (fields : List Field) :
    s.Vets (fields.filterMap fun f => f.kind.objectType?) (ItemPlan.fieldTypes s names fields) := by
  induction fields with
  | nil => exact .nothing []
  | cons f rest ih =>
    have hopen : ItemPlan.fieldTypes s names (f :: rest) =
        (FieldType.ofKind s names f.kind).bind fun type =>
          (ItemPlan.fieldTypes s names rest).map (type :: ·) := by
      rw [ItemPlan.fieldTypes]
      cases FieldType.ofKind s names f.kind <;> rfl
    rw [hopen, ← List.singleton_append, List.filterMap_append]
    have hfirst : [f].filterMap (fun f => f.kind.objectType?) = f.kind.objectType?.toList := by
      cases h : f.kind.objectType? <;> simp [h]
    rw [hfirst]
    exact (ofKind_vets s names f.kind).append fun type ↦ ih.map _

theorem planItems_vets (combinators : List Combinator) :
    s.Vets (combinators.flatMap fun c => c.fields.filterMap fun f => f.kind.objectType?)
      (planItems s names combinators) := by
  induction combinators with
  | nil => exact .nothing []
  | cons c rest ih =>
    have hopen : planItems s names (c :: rest) =
        (ItemPlan.ofCombinator s names c).bind fun plan =>
          (planItems s names rest).map (plan :: ·) := by
      rw [planItems]
      cases ItemPlan.ofCombinator s names c <;> rfl
    rw [hopen, List.flatMap_cons]
    exact ((fieldTypes_vets s names c.fields).map _).append fun plan ↦ ih.map _

/-- Generation looks up the types that fields refer to, and nothing else can make it fail. -/
theorem generate_vets (options : Options) : s.Vets s.objectTypes (generate s options) :=
  (planItems_vets s (ItemNames.ofSchema s) s.combinators).map _

/-- A module is generated just when every type that a field refers to stands for something, and
otherwise the first that does not is named. Where a module is generated of a compiled schema,
measuring, reading and viewing what the schema defines fail only through the bytes, but for places
so far beyond the buffer that the place behind the count of a vector cannot be named. -/
theorem generate_ok_iff_closed (options : Options) :
    ((∃ text, generate s options = .ok text) ↔ ∀ t ∈ s.objectTypes, s.resolves t = true) ∧
      (∀ t, s.objectTypes.find? (!s.resolves ·) = some t →
        generate s options = .error (.unknownType t.typeName)) ∧
      ∀ source, Schema.compile source = .ok s → (∃ text, generate s options = .ok text) →
        ∀ (held : Nat) (buffer : ByteArray),
          (∀ (r : Reference) (offset : Nat),
            r = .any ∨ (∃ name, r = .named name ∧ s.defines name = true) →
              BlamesBytes buffer offset (s.sizeOf held r buffer offset).outcome ∧
              BlamesBytes buffer offset (s.read held r buffer offset) ∧
              BlamesBytes buffer offset (s.readNext held r buffer offset)) ∧
          ∀ name, (s.combinator? name).isSome = true → ∀ e,
            (s.view held name buffer).outcome = .error e → e.isDecodeError = true := by
  have hvets := generate_vets s options
  refine ⟨hvets.ok_iff, fun t ht ↦ hvets.error_of_find? ht, ?_⟩
  intro source hcompile hgenerates held buffer
  have hgates : s.Testable := (Schema.sound_of_compile hcompile).testable
  have hclosed : s.Closed := hvets.ok_iff.mp hgenerates
  constructor
  · intro r offset hr
    have hall : False ∨ s.Closed := .inr hclosed
    have hresolves : False ∨ r.Resolves s := by
      rcases hr with rfl | ⟨name, rfl, hname⟩
      · exact .inr trivial
      · exact .inr hname
    exact ⟨.of_readsFrom (Schema.sizeOf_readsFrom hgates hall hresolves held buffer offset),
      .of_readsFrom (Schema.read_readsFrom hgates hall hresolves held buffer offset),
      .of_readsFrom (Schema.readNext_readsFrom hgates hall hresolves held buffer offset)⟩
  · intro name hname e he
    exact Schema.isDecodeError_of_view hgates hclosed hname he

/-- The schema of lines, in which a line may refer to a next one, leaves nothing unresolved. -/
theorem generate_lineSchema_closed :
    (∃ text, generate lineSchema .standard = .ok text) ∧
      ∀ held buffer offset,
        BlamesBytes buffer offset (lineSchema.read held .any buffer offset) := by
  obtain ⟨hiff, -, hreads⟩ := generate_ok_iff_closed lineSchema .standard
  have hgenerates := hiff.mpr (by decide)
  exact ⟨hgenerates, fun held buffer offset ↦
    ((hreads lineSource compile_lineSource hgenerates held buffer).1 .any offset (.inl rfl)).2.1⟩

/-- A schema of messages that start with the count of a vector. -/
def countFirstSource : String := "m v:vector<int> = M;"

/-- A module is generated of it, and measuring a message at the last place of all fails, but neither
through the bytes nor through the schema: the place behind the count cannot be named. -/
theorem sizeOf_last_place_overflows :
    ∃ s, Schema.compile countFirstSource = .ok s ∧ (∃ text, generate s .standard = .ok text) ∧
      s.defines "m" = true ∧
      (s.sizeOf 0 (.named "m") .empty (placeLimit - 1)).outcome = .error .overflow ∧
      Error.overflow.isDecodeError = false := by
  have hrun : (Schema.compile countFirstSource).toOption.map (fun s =>
      (s.objectTypes, s.defines "m",
        match (s.sizeOf 0 (.named "m") .empty (placeLimit - 1)).outcome with
        | .error .overflow => true
        | _ => false)) = some ([], true, true) := by
    decide +kernel
  obtain ⟨s, hs, hfacts⟩ := Option.map_eq_some_iff.mp hrun
  simp only [Prod.mk.injEq] at hfacts
  obtain ⟨htypes, hdefines, houtcome⟩ := hfacts
  refine ⟨s, ok_of_toOption hs, (generate_vets s .standard).ok_iff.mpr ?_, hdefines, ?_, rfl⟩
  · rw [htypes]
    exact nofun
  · split at houtcome
    · assumption
    · cases houtcome

end Generate

end TypeLang
