import TypeLang.Message.Session
import TypeLang.Proofs.Message.FieldByField
import TypeLang.Proofs.Schema.Order

/-!
Messages of declarations in another order. Reading, measuring, viewing and writing ask a schema for
combinators by name, by tag and by type and for nothing else, so two schemas that look up the same
come to the same in every call (`Schema.LooksUpAlike.behavesAlike`). The order of declarations
cannot be told from any message (`Schema.behavesAlike_of_perm`).
-/

set_option autoImplicit false
set_option relaxedAutoImplicit false

namespace TypeLang

open Wire Message Declaration

/-! ### Values made of other values -/

namespace Message

theorem entryLength_congr {s t : Schema} {entries : Entries}
    (hentries : ∀ e ∈ entries, ∀ field kind,
      valueLength s field kind e.2 = valueLength t field kind e.2) (name : String) (kind : Kind) :
    entryLength s name kind entries = entryLength t name kind entries := by
  rw [entryLength_eq, entryLength_eq]
  cases hfind : entries.find? name with
  | none => rfl
  | some v => exact hentries _ (Entries.mem_of_find? hfind) name kind

theorem itemsLength_congr {s t : Schema} {items : List Value}
    (hitems : ∀ v ∈ items, ∀ field kind, valueLength s field kind v = valueLength t field kind v)
    (field : String) (element : Kind) (done : Nat) :
    itemsLength s field element done items = itemsLength t field element done items := by
  induction items generalizing done with
  | nil => rw [itemsLength, itemsLength]
  | cons v rest ih =>
    obtain ⟨hhere, hrest⟩ := List.forall_mem_cons.mp hitems
    rw [itemsLength, itemsLength, hhere]
    simp only [ih hrest]

theorem emitEntry_congr {t u : Target} {entries : Entries}
    (hentries : ∀ e ∈ entries, ∀ field kind offset,
      emitValue t field kind offset e.2 = emitValue u field kind offset e.2)
    (hzero : ∀ field kind offset, emitZero t field kind offset = emitZero u field kind offset)
    (name : String) (kind : Kind) (offset : Nat) :
    emitEntry t name kind offset entries = emitEntry u name kind offset entries := by
  rw [emitEntry_eq, emitEntry_eq]
  cases hfind : entries.find? name with
  | none => exact hzero name kind offset
  | some v => exact hentries _ (Entries.mem_of_find? hfind) name kind offset

theorem emitItems_congr {t u : Target} {items : List Value}
    (hitems : ∀ v ∈ items, ∀ field kind offset,
      emitValue t field kind offset v = emitValue u field kind offset v)
    (field : String) (element : Kind) (offset : Nat) (done : Emission) :
    emitItems t field element offset done items = emitItems u field element offset done items := by
  induction items generalizing done with
  | nil => rw [emitItems, emitItems]
  | cons v rest ih =>
    obtain ⟨hhere, hrest⟩ := List.forall_mem_cons.mp hitems
    rw [emitItems, emitItems]
    simp only [hhere, ih hrest]

end Message

namespace Schema

/-- Two schemas come to the same in every call, the walks taken on the way included: they measure,
read and build the same, make the same views and writers, and go on alike with any view or writer
that there is. -/
structure BehavesAlike (s t : Schema) : Prop where
  sizeOf_eq : ∀ (held : Nat) (r : Reference) (buffer : ByteArray) (offset : Nat),
    s.sizeOf held r buffer offset = t.sizeOf held r buffer offset
  read_eq : ∀ (held : Nat) (r : Reference) (buffer : ByteArray) (offset : Nat),
    s.read held r buffer offset = t.read held r buffer offset
  readNext_eq : ∀ (held : Nat) (r : Reference) (buffer : ByteArray) (offset : Nat),
    s.readNext held r buffer offset = t.readNext held r buffer offset
  requiredSize_eq : ∀ (name : String) (inputs : SizeInputs),
    s.requiredSize name inputs = t.requiredSize name inputs
  build_eq : ∀ (held : Nat) (name : String) (entries : Entries),
    s.build held name entries = t.build held name entries
  view_eq : ∀ (held : Nat) (name : String) (bytes : ByteArray),
    s.view held name bytes = t.view held name bytes
  fieldOffset_eq : ∀ (v : View) (held index : Nat),
    v.fieldOffset s held index = v.fieldOffset t held index
  isPresent_eq : ∀ (v : View) (held index : Nat),
    v.isPresent s held index = v.isPresent t held index
  field_eq : ∀ (v : View) (held index : Nat), v.field s held index = v.field t held index
  fieldByName_eq : ∀ (v : View) (held : Nat) (name : String),
    v.fieldByName s held name = v.fieldByName t held name
  fieldBytes_eq : ∀ (v : View) (held index : Nat),
    v.fieldBytes s held index = v.fieldBytes t held index
  objectField_eq : ∀ (v : View) (held index : Nat),
    v.objectField s held index = v.objectField t held index
  toObject_eq : ∀ (v : View) (held : Nat), v.toObject s held = v.toObject t held
  start_eq : ∀ (name : String) (buffer : ByteArray),
    Writer.start s name buffer = Writer.start t name buffer
  write_eq : ∀ (w : Writer) (held index : Nat) (value : Value),
    w.write s held index value = w.write t held index value
  run_eq : ∀ (w : Writer) (held : Nat) (calls : List (Nat × Value)),
    w.run s held calls = w.run t held calls

namespace LooksUpAlike

variable {s t : Schema} (h : LooksUpAlike s t)
include h

/-! ### Reading and measuring -/

theorem decodeAt_eq (buffer : ByteArray) (free : Nat) :
    s.decodeAt buffer free = t.decodeAt buffer free := by
  induction free with
  | zero => rfl
  | succ free ih =>
    have hnested : s.readWithin free buffer = t.readWithin free buffer := by
      funext r pos
      unfold readWithin
      rw [h.locate_eq, ih]
    funext object offset
    rw [decodeAt_succ, decodeAt_succ, hnested]

theorem measureAt_eq (buffer : ByteArray) (free : Nat) :
    s.measureAt buffer free = t.measureAt buffer free := by
  induction free with
  | zero => rfl
  | succ free ih =>
    have hnested : s.measureWithin free buffer = t.measureWithin free buffer := by
      funext r pos
      unfold measureWithin
      rw [h.locate_eq, ih]
    funext object offset
    rw [measureAt_succ, measureAt_succ, hnested]

theorem read_eq (held : Nat) (r : Reference) (buffer : ByteArray) (offset : Nat) :
    s.read held r buffer offset = t.read held r buffer offset := by
  unfold read
  rw [h.locate_eq, h.decodeAt_eq]

theorem sizeOf_eq (held : Nat) (r : Reference) (buffer : ByteArray) (offset : Nat) :
    s.sizeOf held r buffer offset = t.sizeOf held r buffer offset := by
  unfold sizeOf measureReference
  rw [h.locate_eq, h.measureAt_eq]

theorem decodeKind_eq (held : Nat) (buffer : ByteArray) (kind : Kind) (offset : Nat) :
    s.decodeKind held buffer kind offset = t.decodeKind held buffer kind offset := by
  unfold decodeKind
  simp only [h.read_eq]

theorem measureKind_eq (held : Nat) (buffer : ByteArray) :
    s.measureKind held buffer = t.measureKind held buffer := by
  have hnested : s.measureReference held buffer = t.measureReference held buffer := by
    funext r pos
    exact h.sizeOf_eq held r buffer pos
  funext kind offset
  unfold measureKind
  rw [hnested]

/-! ### Views -/

theorem ofBytes_eq (held : Nat) (object : Located) (bytes : ByteArray) :
    View.ofBytes s held object bytes = View.ofBytes t held object bytes := by
  unfold View.ofBytes
  rw [h.measureAt_eq]

theorem walkTo_eq (v : View) (held index : Nat) :
    v.walkTo s held index = v.walkTo t held index := by
  unfold View.walkTo
  rw [h.measureKind_eq]

theorem field_eq (v : View) (held index : Nat) :
    v.field s held index = v.field t held index := by
  unfold View.field
  simp only [h.walkTo_eq, h.decodeKind_eq]

theorem isPresent_eq (v : View) (held index : Nat) :
    v.isPresent s held index = v.isPresent t held index := by
  unfold View.isPresent
  rw [h.walkTo_eq]

theorem fieldBytes_eq (v : View) (held index : Nat) :
    v.fieldBytes s held index = v.fieldBytes t held index := by
  unfold View.fieldBytes
  rw [h.walkTo_eq, h.measureKind_eq]

theorem locateField_eq (index : Nat) (kind : Kind) (bytes : ByteArray) :
    View.locateField s index kind bytes = View.locateField t index kind bytes := by
  unfold View.locateField
  simp only [h.headerless?_eq, h.locateAny_eq]

theorem objectField_eq (v : View) (held index : Nat) :
    v.objectField s held index = v.objectField t held index := by
  unfold View.objectField
  simp only [h.isPresent_eq, h.fieldBytes_eq, h.locateField_eq, h.ofBytes_eq]

/-! ### Lengths of values -/

theorem locateWritten_eq (name : String) (bare : Bool) :
    s.locateWritten name bare = t.locateWritten name bare := by
  unfold locateWritten
  rw [h.locateNamed_eq]

theorem omitsTag_eq (r : Reference) : s.omitsTag r = t.omitsTag r := by
  cases r with
  | named _ => rfl
  | any => rfl
  | typed typeName bare =>
    unfold omitsTag writesBare
    dsimp only
    rw [h.tagless?_eq]

theorem valueLength_eq (v : Value) :
    ∀ field kind, valueLength s field kind v = valueLength t field kind v := by
  induction v using Value.induction with
  | leaf v hvector hobject =>
    intro field kind
    rw [valueLength_plain (fun _ _ _ ↦ hvector) (fun _ _ ↦ hobject),
      valueLength_plain (fun _ _ _ ↦ hvector) (fun _ _ ↦ hobject)]
  | vector items ih =>
    intro field kind
    by_cases hkind : ∃ boxed element, kind = .vector boxed element
    · obtain ⟨boxed, element, rfl⟩ := hkind
      rw [valueLength, valueLength]
      exact itemsLength_congr ih field element _
    · have hvector : ∀ boxed element, kind = .vector boxed element →
          (Value.vector items).toItems? = none := fun boxed element h ↦
        absurd ⟨boxed, element, h⟩ hkind
      simp only [valueLength_plain hvector fun _ _ ↦ rfl]
  | object o ih =>
    intro field kind
    obtain ⟨name, tag, entries⟩ := o
    cases hkind : kind.reference? with
    | some r =>
      rw [valueLength_reference hkind, valueLength_reference hkind, h.locateWritten_eq,
        h.omitsTag_eq]
      simp only [entryLength_congr ih]
    | none =>
      have hobject : ∀ r, kind.reference? = some r →
          (Value.object ⟨name, tag, entries⟩).toObject? = none := fun r h ↦
        absurd (hkind.symm.trans h) (Option.some_ne_none r).symm
      simp only [valueLength_plain (fun _ _ _ ↦ rfl) hobject]

/-! ### Values that are written -/

theorem locateObject_eq (name : String) (r : Reference) :
    s.locateObject name r = t.locateObject name r := by
  cases r with
  | named _ => exact h.locateWritten_eq name false
  | any => exact h.locateWritten_eq name false
  | typed typeName bare =>
    have homits : s.writesBare typeName bare = t.writesBare typeName bare :=
      h.omitsTag_eq (.typed typeName bare)
    unfold locateObject locateMemberWritten
    simp only [h.locateWritten_eq, h.bareTarget?_eq, homits]

variable (held limit : Nat)

theorem emitPlain_eq (field : String) (kind : Kind) (offset : Nat) (v : Value) :
    emitPlain ⟨s, held, limit⟩ field kind offset v =
      emitPlain ⟨t, held, limit⟩ field kind offset v := by
  unfold emitPlain emitRaw
  simp only [h.measureKind_eq]

theorem emitZero_eq (field : String) (kind : Kind) (offset : Nat) :
    emitZero ⟨s, held, limit⟩ field kind offset = emitZero ⟨t, held, limit⟩ field kind offset := by
  unfold emitZero
  simp only [h.emitPlain_eq]

theorem emitFields_eq (c : Combinator) (masks : Masks) (entries : Entries)
    (entry : Field → Nat → Emission) (offset index : Nat) (fields : List Field)
    (state : Progress × Emission) :
    emitFields ⟨s, held, limit⟩ c masks entries entry offset index fields state =
      emitFields ⟨t, held, limit⟩ c masks entries entry offset index fields state := by
  induction fields generalizing index state with
  | nil => rfl
  | cons f rest ih =>
    unfold emitFields
    simp only [h.emitPlain_eq, ih]

theorem emitInstance_eq (located : Except Error Located) (entries : Entries)
    (entry : Field → Nat → Emission) (offset : Nat) :
    emitInstance ⟨s, held, limit⟩ located entries entry offset =
      emitInstance ⟨t, held, limit⟩ located entries entry offset := by
  unfold emitInstance
  simp only [h.emitFields_eq]
  rfl

/-- A value is put down alike for either schema. -/
theorem emitValue_eq (v : Value) :
    ∀ field kind offset, emitValue ⟨s, held, limit⟩ field kind offset v =
      emitValue ⟨t, held, limit⟩ field kind offset v := by
  induction v using Value.induction with
  | leaf v hvector hobject =>
    intro field kind offset
    rw [emitValue_plain (fun _ _ _ ↦ hvector) (fun _ _ ↦ hobject), h.emitPlain_eq,
      emitValue_plain (fun _ _ _ ↦ hvector) (fun _ _ ↦ hobject)]
  | vector items ih =>
    intro field kind offset
    by_cases hkind : ∃ boxed element, kind = .vector boxed element
    · obtain ⟨boxed, element, rfl⟩ := hkind
      rw [emitValue, emitValue, emitItems_congr ih]
    · have hvector : ∀ boxed element, kind = .vector boxed element →
          (Value.vector items).toItems? = none := fun boxed element h ↦
        absurd ⟨boxed, element, h⟩ hkind
      simp only [emitValue_plain hvector fun _ _ ↦ rfl, h.emitPlain_eq]
  | object o ih =>
    intro field kind offset
    obtain ⟨name, tag, entries⟩ := o
    cases hkind : kind.reference? with
    | some r =>
      rw [emitValue_reference hkind, emitValue_reference hkind, h.emitInstance_eq,
        h.locateObject_eq]
      simp only [emitEntry_congr ih (h.emitZero_eq held limit)]
    | none =>
      have hobject : ∀ r, kind.reference? = some r →
          (Value.object ⟨name, tag, entries⟩).toObject? = none := fun r h ↦
        absurd (hkind.symm.trans h) (Option.some_ne_none r).symm
      simp only [emitValue_plain (fun _ _ _ ↦ rfl) hobject, h.emitPlain_eq]

/-! ### Writers -/

theorem write_eq (w : Writer) (index : Nat) (v : Value) :
    w.write s held index v = w.write t held index v := by
  unfold Writer.write
  simp only [h.emitValue_eq]

theorem run_eq (w : Writer) (calls : List (Nat × Value)) :
    w.run s held calls = w.run t held calls := by
  induction calls generalizing w with
  | nil => rfl
  | cons call rest ih =>
    unfold Writer.run Writer.step
    simp only [h.write_eq, ih]

omit held limit

/-- Schemas that look up the same behave alike. -/
theorem behavesAlike : s.BehavesAlike t where
  sizeOf_eq := h.sizeOf_eq
  read_eq := h.read_eq
  readNext_eq held r buffer offset := by
    unfold readNext
    rw [h.read_eq]
  requiredSize_eq name inputs := by
    unfold requiredSize
    rw [h.locateNamed_eq]
  build_eq held name entries := by
    unfold build
    simp only [h.locateNamed_eq, entryLength_congr fun e _ ↦ h.valueLength_eq e.2,
      h.emitInstance_eq,
      emitEntry_congr (fun e _ ↦ h.emitValue_eq held _ e.2) (h.emitZero_eq held _)]
  view_eq held name bytes := by
    unfold view
    simp only [h.locateNamed_eq, h.ofBytes_eq]
  fieldOffset_eq v held index := by
    unfold View.fieldOffset
    rw [h.walkTo_eq]
  isPresent_eq := h.isPresent_eq
  field_eq := h.field_eq
  fieldByName_eq v held name := by
    unfold View.fieldByName
    simp only [h.field_eq]
  fieldBytes_eq := h.fieldBytes_eq
  objectField_eq := h.objectField_eq
  toObject_eq v held := by
    unfold View.toObject
    rw [h.decodeAt_eq]
  start_eq name buffer := by
    unfold Writer.start
    rw [h.locateNamed_eq]
    rfl
  write_eq w held := h.write_eq held w
  run_eq w held := h.run_eq held w

end LooksUpAlike

/-- Declarations make a schema in any order or in none, and the schemas that they make in two orders
behave alike. -/
theorem behavesAlike_of_perm {ds es : List Declaration} (horder : ds.Perm es) :
    ((∃ t, ofDeclarations es = .ok t) ↔ ∃ s, ofDeclarations ds = .ok s) ∧
      ∀ s t, ofDeclarations ds = .ok s → ofDeclarations es = .ok t → s.BehavesAlike t := by
  simp only [ofDeclarations_eq_ok_iff]
  refine ⟨⟨?_, ?_⟩, ?_⟩
  · rintro ⟨_, h, -⟩
    exact ⟨_, h.of_perm horder.symm, rfl⟩
  · rintro ⟨_, h, -⟩
    exact ⟨_, h.of_perm horder, rfl⟩
  · rintro _ _ ⟨h, rfl⟩ ⟨-, rfl⟩
    exact (looksUpAlike_of_perm h horder).behavesAlike

/-- The constructors of trees may be declared the other way round. -/
theorem behavesAlike_of_reversed_tree :
    ∃ ds s t, Declaration.parse treeSource = .ok ds ∧ ds.Perm ds.reverse ∧
      ofDeclarations ds = .ok s ∧ ofDeclarations ds.reverse = .ok t ∧ s ≠ t ∧
      s.BehavesAlike t := by
  have hrun : ((Declaration.parse treeSource).toOption.bind fun ds =>
      (ofDeclarations ds).toOption.bind fun s =>
        (ofDeclarations ds.reverse).toOption.map fun t => decide (s = t)) = some false := by
    decide +kernel
  obtain ⟨ds, hds, hrun⟩ := Option.bind_eq_some_iff.mp hrun
  obtain ⟨s, hs, hrun⟩ := Option.bind_eq_some_iff.mp hrun
  obtain ⟨t, ht, hdiffer⟩ := Option.map_eq_some_iff.mp hrun
  have horder : ds.Perm ds.reverse := (List.reverse_perm ds).symm
  have hs := ok_of_toOption hs
  have ht := ok_of_toOption ht
  exact ⟨ds, s, t, ok_of_toOption hds, horder, hs, ht, of_decide_eq_false hdiffer,
    (behavesAlike_of_perm horder).2 s t hs ht⟩

end Schema

end TypeLang
