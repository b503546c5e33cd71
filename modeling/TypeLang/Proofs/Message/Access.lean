import TypeLang.Proofs.Message.Locality
import TypeLang.Proofs.Message.Walking
import TypeLang.Proofs.Schema.Resolution

/-!
Asking a view for single fields comes to what reading its object comes to. `View.Agrees` says so of
one view and its object: fields have the values they have in the object, and a field that is an
object leads to a view of it. The view it leads to is one of bytes that are an object, too
(`View.Finds.objectField_eq`), so the same holds of all views that a view leads to
(`View.access_eq_read`).
-/

set_option autoImplicit false
set_option relaxedAutoImplicit false

namespace TypeLang

open Wire Message

namespace View

variable {v w : View} {s : Schema} {held i place n : Nat} {o : Object} {f : Field}
  {known : Masks} {value : Value} {r : Reference} {object : Located}

/-- What a view says about single fields is what its object is. -/
structure Agrees (v : View) (s : Schema) (held : Nat) (o : Object) : Prop where
  toObject_eq : v.toObject s held = .ok o
  length_eq : o.fields.length = v.fieldCount
  field_eq : ∀ (i : Nat) (name : String) (value : Value), o.fields[i]? = some (name, value) →
    (v.field s held i).outcome = .ok value
  fieldByName_eq : ∀ (i : Nat) (a : Argument), v.combinator.declaration.arguments[i]? = some a →
    (v.fieldByName s held a.name).outcome = (v.field s held i).outcome
  isPresent_of_ungated : ∀ (i : Nat) (f : Field), v.combinator.fields[i]? = some f →
    f.gate = none → (v.isPresent s held i).outcome = .ok true
  isPresent_of_gated : ∀ (i : Nat) (f : Field) (g : Gate), v.combinator.fields[i]? = some f →
    f.gate = some g →
      ∃ (j : Nat) (mask : Field) (bits : UInt32), j < i ∧ v.combinator.fields[j]? = some mask ∧
        mask.slot = some g.slot ∧ o.fields[j]? = some (mask.name, .mask bits) ∧
        (v.isPresent s held i).outcome = .ok (hasBit bits g.bit)
  objectField_of_absent : ∀ i, (v.isPresent s held i).outcome = .ok false →
    (v.objectField s held i).outcome = .ok none
  objectField_of_object : ∀ (i : Nat) (f : Field) (r : Reference),
    v.combinator.fields[i]? = some f → f.kind.reference? = some r →
      (v.isPresent s held i).outcome = .ok true →
        ∃ inner o', (v.objectField s held i).outcome = .ok (some inner) ∧
          (v.fieldBytes s held i).outcome = .ok inner.bytes ∧ inner.toObject s held = .ok o' ∧
          o.fields[i]? = some (f.name, .object o')
  objectField_of_other : ∀ (i : Nat) (f : Field), v.combinator.fields[i]? = some f →
    f.kind.reference? = none → (v.isPresent s held i).outcome = .ok true →
      (v.objectField s held i).outcome = .error (.invalidState (.notAnObject i f.kind))

/-- The views that a view leads to by fields that are objects, itself among them. -/
inductive LeadsTo (s : Schema) (held : Nat) (v : View) : View → Prop
  | self : LeadsTo s held v v
  | field {w inner : View} {i : Nat} (h : LeadsTo s held v w)
      (hfield : (w.objectField s held i).outcome = .ok (some inner)) : LeadsTo s held v inner

/-! ### Objects in fields -/

/-- An object that a reference leads to in a buffer is found in its own bytes as well, although its
tag is looked up there among those of all combinators. -/
theorem locateField_eq_ok {buffer bytes : ByteArray} {kind : Kind}
    (hkind : kind.reference? = some r) (hplace : place ≤ buffer.size)
    (hlocate : s.locate buffer place r = .ok object)
    (hsame : SameBytes buffer bytes place 0 object.header) :
    locateField s i kind bytes = .ok object := by
  obtain ⟨hleads, htag⟩ := (Schema.locate_eq_ok_iff hkind hplace).mp hlocate
  have hlength := Located.size_tagBytes hleads.tag_of_header
  have hany : object.header = tagLength → s.Leads .any object →
      s.locateAny bytes 0 = .ok object := by
    intro hheader hany
    have hpos : 0 < object.tagBytes.size := by
      rw [hlength, hheader]
      exact Nat.succ_pos 3
    rw [← hlength] at hsame
    exact Schema.locateAny_eq_ok_iff.mpr ⟨hany, hsame.stands hpos htag⟩
  cases kind with
  | object typeName bare =>
    cases hkind
    unfold locateField
    dsimp only
    cases hleads with
    | headerless h => rw [h]
    | member hheader h =>
      rw [hheader]
      exact hany rfl (.any (Schema.constructorByTag?_eq_some_iff.mp h).1)
  | generic _ | anyObject =>
    cases hkind
    cases hleads with
    | any h => exact hany rfl (.any h)
  | _ => cases hkind

/-- The object in a field is read in its own bytes as it is in those of the whole object. -/
theorem ofBytes_of_decodeKind (hs : s.Sound) {bytes : ByteArray} {kind : Kind}
    (hkind : kind.reference? = some r) (hfits : place + n ≤ bytes.size)
    (h : s.decodeKind held bytes kind place = .ok (value, n)) :
    ∃ object o', locateField s i kind (bytes.extract place (place + n)) = .ok object ∧
      value = .object o' ∧ Made ⟨object, bytes.extract place (place + n)⟩ s held o' := by
  have hplace : place ≤ bytes.size := Nat.le_trans (Nat.le_add_right place n) hfits
  have hsize := Stands.size_extract hfits
  have hsame : SameBytes bytes (bytes.extract place (place + n)) place 0 n := by
    have hall := ByteArray.extract_zero_size (b := bytes.extract place (place + n))
    rw [hsize] at hall
    rw [SameBytes.iff_extract_eq, Nat.zero_add]
    exact hall
  rw [Schema.decodeKind_eq_decode, Kind.decode_reference hkind] at h
  obtain ⟨⟨o', _⟩, hread, hpair⟩ := map_ok_iff.mp h
  cases hpair
  unfold Schema.readWithin at hread
  cases hlocate : s.locate bytes place r with
  | error e => rw [hlocate] at hread; cases hread
  | ok object =>
    rw [hlocate] at hread
    have hsound := hs.combinator_sound object.combinator (Schema.mem_of_locate hlocate)
    have hdecode := (s.decodeAt_mirrors (Depth.limit - held) object place 0).whole o' n hread hsame
    obtain ⟨rest, rfl⟩ := Nat.exists_eq_add_of_le (Schema.header_le_of_decodeAt hread)
    refine ⟨object, o', locateField_eq_ok hkind hplace hlocate hsame.front, rfl, hsound, ?_⟩
    rw [hsize]
    exact hdecode

namespace Finds

theorem objectField_of_absent (h : v.Finds s held o i f place known value n)
    (hclosed : known.opens f = false) : (v.objectField s held i).outcome = .ok none := by
  unfold objectField
  rw [Metered.outcome_bind, h.isPresent_eq, hclosed]
  rfl

/-- A field that is there is viewed in its bytes. -/
theorem objectField_of_present (h : v.Finds s held o i f place known value n)
    (hopen : known.opens f = true) :
    (v.objectField s held i).outcome =
      (locateField s i f.kind (v.bytes.extract place (place + n))).bind fun object =>
        (ofBytes s held object (v.bytes.extract place (place + n))).outcome.map some := by
  unfold objectField
  rw [Metered.outcome_bind, h.isPresent_eq, hopen]
  show Metered.outcome (v.fieldBytes s held i >>= _) = _
  rw [Metered.outcome_bind, h.fieldBytes_eq, h.getElem?_eq]
  show Metered.outcome (Metered.lift (locateField s i f.kind _) >>= _) = _
  rw [Metered.outcome_bind, Metered.outcome_lift]
  cases locateField s i f.kind (v.bytes.extract place (place + n)) with
  | error e => rfl
  | ok object =>
    show Metered.outcome (ofBytes s held object _ >>= _) = Except.map some _
    rw [Metered.outcome_bind]
    cases (ofBytes s held object (v.bytes.extract place (place + n))).outcome <;> rfl

/-- A field that is an object leads to a view of the object. -/
theorem objectField_of_object (h : v.Finds s held o i f place known value n) (hs : s.Sound)
    (hopen : known.opens f = true) (hkind : f.kind.reference? = some r) :
    ∃ inner o', (v.objectField s held i).outcome = .ok (some inner) ∧
      inner.bytes = v.bytes.extract place (place + n) ∧ value = .object o' ∧
      inner.Made s held o' := by
  cases h.readAs with
  | presence hpresence =>
    -- A bit is no object.
    rw [beq_iff_eq.mp hpresence] at hkind
    cases hkind
  | absent _ hclosed => rw [hopen] at hclosed; cases hclosed
  | present _ _ hvalue =>
    obtain ⟨object, o', hlocate, hobject, hmade⟩ :=
      ofBytes_of_decodeKind (i := i) hs hkind h.fits hvalue
    refine ⟨_, o', ?_, rfl, hobject, hmade⟩
    rw [h.objectField_of_present hopen, hlocate]
    show Except.map some (ofBytes s held object _).outcome = _
    rw [ofBytes_eq_ok_iff.mpr ⟨⟨o', hmade.decode_eq⟩, rfl⟩]
    rfl

theorem objectField_of_other (h : v.Finds s held o i f place known value n)
    (hopen : known.opens f = true) (hkind : f.kind.reference? = none) :
    (v.objectField s held i).outcome = .error (.invalidState (.notAnObject i f.kind)) := by
  have hlocate : locateField s i f.kind (v.bytes.extract place (place + n)) =
      .error (.invalidState (.notAnObject i f.kind)) := by
    unfold locateField
    cases hf : f.kind <;> rw [hf] at hkind <;> first | rfl | cases hkind
  rw [h.objectField_of_present hopen, hlocate]
  rfl

end Finds

/-! ### Bits -/

/-- Whether a field is there is told by the mask that the object has. -/
theorem Finds.isPresent_of_gated (h : v.Finds s held o i f place known value n)
    (hmade : v.Made s held o) {g : Gate} (hg : f.gate = some g) :
    ∃ (j : Nat) (mask : Field) (bits : UInt32), j < i ∧ v.combinator.fields[j]? = some mask ∧
      mask.slot = some g.slot ∧ o.fields[j]? = some (mask.name, .mask bits) ∧
      (v.isPresent s held i).outcome = .ok (hasBit bits g.bit) := by
  obtain ⟨j, mask, hlt, hmask, hslot⟩ := hmade.sound.numbered.exists_mask h.getElem?_eq hg
  obtain ⟨_, _, _, _, hfinds⟩ := hmade.finds hmask
  refine ⟨j, mask, impliedMasks v.combinator.fields o.fields g.slot, hlt, hmask, hslot, ?_, ?_⟩
  · rw [hfinds.entry_eq, hfinds.mask_eq g.slot hslot]
  · rw [h.isPresent_eq, h.opens_eq, ← Masks.isSet_eq_opens hg]
    rfl

/-! ### Views -/

theorem Made.fieldByName_eq (h : v.Made s held o) {a : Argument}
    (ha : v.combinator.declaration.arguments[i]? = some a) :
    (v.fieldByName s held a.name).outcome = (v.field s held i).outcome := by
  have hnames := h.sound.names_nodup
  rw [h.sound.names_eq] at hnames
  unfold fieldByName Combinator.fieldIndex?
  rw [Declaration.argumentIndex?_eq hnames ha]

/-- A view says only of its fields whether they are there. -/
theorem getElem?_of_isPresent {b : Bool} (h : (v.isPresent s held i).outcome = .ok b) :
    ∃ f, v.combinator.fields[i]? = some f := by
  cases hf : v.combinator.fields[i]? with
  | some f => exact ⟨f, rfl⟩
  | none =>
    unfold isPresent walkTo at h
    rw [hf] at h
    cases h

theorem Made.agrees (h : v.Made s held o) (hs : s.Sound) : v.Agrees s held o where
  toObject_eq := h.toObject_eq
  length_eq := h.length_eq
  field_eq i name value he := by
    obtain ⟨hlt, -⟩ := List.getElem?_eq_some_iff.mp he
    rw [h.length_eq, h.fieldCount_eq] at hlt
    obtain ⟨_, _, _, _, hfinds⟩ := h.finds (List.getElem?_eq_getElem hlt)
    obtain ⟨-, rfl⟩ := Prod.mk.inj (Option.some.inj (he.symm.trans hfinds.entry_eq))
    exact hfinds.field_eq
  fieldByName_eq i a ha := h.fieldByName_eq ha
  isPresent_of_ungated i f hf hg := by
    obtain ⟨_, _, _, _, hfinds⟩ := h.finds hf
    rw [hfinds.isPresent_eq, Masks.opens_of_gate_eq_none hg]
  isPresent_of_gated i f g hf hg := by
    obtain ⟨_, _, _, _, hfinds⟩ := h.finds hf
    exact hfinds.isPresent_of_gated h hg
  objectField_of_absent i habsent := by
    obtain ⟨f, hf⟩ := getElem?_of_isPresent habsent
    obtain ⟨_, _, _, _, hfinds⟩ := h.finds hf
    rw [hfinds.isPresent_eq] at habsent
    exact hfinds.objectField_of_absent (Except.ok.inj habsent)
  objectField_of_object i f r hf hkind hpresent := by
    obtain ⟨_, _, _, _, hfinds⟩ := h.finds hf
    rw [hfinds.isPresent_eq] at hpresent
    obtain ⟨inner, o', hfield, hbytes, rfl, hmade⟩ :=
      hfinds.objectField_of_object hs (Except.ok.inj hpresent) hkind
    refine ⟨inner, o', hfield, ?_, hmade.toObject_eq, hfinds.entry_eq⟩
    rw [hfinds.fieldBytes_eq, hbytes]
  objectField_of_other i f hf hkind hpresent := by
    obtain ⟨_, _, _, _, hfinds⟩ := h.finds hf
    rw [hfinds.isPresent_eq] at hpresent
    exact hfinds.objectField_of_other (Except.ok.inj hpresent) hkind

/-- What a field leads to is a view of an object. -/
theorem Made.objectField {inner : View} (h : v.Made s held o) (hs : s.Sound)
    (hfield : (v.objectField s held i).outcome = .ok (some inner)) :
    ∃ o', inner.Made s held o' := by
  cases hpresent : (v.isPresent s held i).outcome with
  | error e =>
    unfold View.objectField at hfield
    rw [Metered.outcome_bind, hpresent] at hfield
    cases hfield
  | ok present =>
    obtain ⟨f, hf⟩ := getElem?_of_isPresent hpresent
    obtain ⟨_, known, _, _, hfinds⟩ := h.finds hf
    cases hopen : known.opens f with
    | false =>
      rw [hfinds.objectField_of_absent hopen] at hfield
      cases hfield
    | true =>
      cases hkind : f.kind.reference? with
      | none =>
        rw [hfinds.objectField_of_other hopen hkind] at hfield
        cases hfield
      | some r =>
        obtain ⟨found, o', hfound, -, -, hmade⟩ := hfinds.objectField_of_object hs hopen hkind
        rw [hfound] at hfield
        cases hfield
        exact ⟨o', hmade⟩

theorem Made.leadsTo (h : v.Made s held o) (hs : s.Sound) (hw : v.LeadsTo s held w) :
    ∃ o', w.Made s held o' := by
  induction hw with
  | self => exact ⟨o, h⟩
  | field _ hfield ih =>
    obtain ⟨_, hmade⟩ := ih
    exact hmade.objectField hs hfield

/-- The object of a view that was made with some guards held is the one that is read with as many
guards held, and so for every view that the view leads to: what it says about its fields is what its
object is. -/
theorem access_eq_read {source name : String} {buffer : ByteArray}
    (hs : Schema.compile source = .ok s) (h : (s.view held name buffer).outcome = .ok v) :
    (∃ o, v.toObject s held = .ok o ∧ s.read held (.named name) buffer 0 = .ok (o, buffer.size)) ∧
      ∀ w, v.LeadsTo s held w → ∃ o, w.Agrees s held o := by
  have hsound := Schema.sound_of_compile hs
  obtain ⟨hname, hobject, rfl, o, hmade⟩ := made_of_view hsound h
  refine ⟨⟨o, hmade.toObject_eq, ?_⟩, fun w hw ↦ ?_⟩
  · have hlocate : s.locate v.bytes 0 (.named name) = .ok v.object := by
      unfold Schema.locate
      dsimp only
      rw [hname, Option.isNone_some, Bool.and_false, if_neg Bool.false_ne_true]
      exact Schema.locateNamed_eq_ok_iff.mpr ⟨_, hname, hobject.symm⟩
    unfold Schema.read
    rw [hlocate]
    exact hmade.decode_eq
  · obtain ⟨o', hmade'⟩ := hmade.leadsTo hsound hw
    exact ⟨o', hmade'.agrees hsound⟩

/-- A line and the line next to it are viewed as they are read. -/
theorem access_line_eq_read :
    ∃ v inner, (lineSchema.view 0 "line" lineBytes).outcome = .ok v ∧
      (v.objectField lineSchema 0 2).outcome = .ok (some inner) ∧
      (∃ o, v.toObject lineSchema 0 = .ok o ∧
        lineSchema.read 0 (.named "line") lineBytes 0 = .ok (o, lineBytes.size)) ∧
      ∃ o, inner.Agrees lineSchema 0 o := by
  have hrun : ((lineSchema.view 0 "line" lineBytes).outcome.bind fun v =>
      (v.objectField lineSchema 0 2).outcome).toOption.join.isSome = true := by
    decide +kernel
  cases hview : (lineSchema.view 0 "line" lineBytes).outcome with
  | error e => rw [hview] at hrun; cases hrun
  | ok v =>
    rw [hview] at hrun
    obtain ⟨inner, hinner⟩ := Option.isSome_iff_exists.mp hrun
    have hfield := ok_of_toOption (Option.join_eq_some_iff.mp hinner)
    obtain ⟨hread, hagrees⟩ := access_eq_read compile_lineSource hview
    exact ⟨v, inner, rfl, hfield, hread, hagrees inner (.field .self hfield)⟩

end View

end TypeLang
