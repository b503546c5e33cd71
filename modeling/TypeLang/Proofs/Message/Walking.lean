import TypeLang.Message.View
import TypeLang.Proofs.Message.Absent
import TypeLang.Proofs.Message.Measurement
import TypeLang.Proofs.Message.Reading

/-!
Walks over the first fields of an object. When a walk has come to a place, the fields ahead are read
from there as they are when all fields are read (`Message.Ahead.walk`). A view walks anew for every
field it is asked for; since it is made only of bytes that are one object, it finds each field where
the object has it (`View.Made.finds`).
-/

set_option autoImplicit false
set_option relaxedAutoImplicit false

namespace TypeLang

open Wire Message

/-! ### Fields ahead -/

namespace Message

variable {size : Kind → Nat → Metered Nat} {decode : Kind → Nat → Except Error (Value × Nat)}
  {buffer : ByteArray} {whole fields rest : List Field} {all entries : Entries} {known : Masks}
  {place stop : Nat} {f : Field}

/-- The last fields of an object are ahead of a walk: read from the place of the walk, with the
masks it knows, they are the last entries of the object. -/
structure Ahead (decode : Kind → Nat → Except Error (Value × Nat)) (buffer : ByteArray)
    (whole : List Field) (all : Entries) (stop : Nat) (fields : List Field) (known : Masks)
    (place : Nat) (entries : Entries) : Prop where
  fits : place ≤ buffer.size
  suffix : Suffix whole all fields known entries
  decode_eq : decodeFields decode buffer fields known place = .ok (entries, stop)

/-- What is known of masks and entries behind a field that was read. -/
theorem Suffix.behind {value : Value} {n : Nat} {masks : Masks}
    (h : Suffix whole all (f :: rest) known ((f.name, value) :: entries))
    (hfield : decodeField decode buffer f known place = .ok (value, n, masks)) :
    Suffix whole all rest masks entries := by
  rcases Schema.decodeField_cases hfield with ⟨slot, bits, hslot, -, rfl, -, rfl⟩ |
    ⟨hslot, -, -, -, rfl⟩ | ⟨hslot, -, -, -, -, rfl⟩ | ⟨hslot, -, -, -, rfl⟩
  · exact (h.mask hslot).2.2
  · exact (h.plain hslot).2.2
  · exact (h.plain hslot).2.2
  · exact (h.plain hslot).2.2

theorem eq_mask_of_decodeField {value : Value} {n slot : Nat} {masks : Masks}
    (hslot : f.slot = some slot)
    (hfield : decodeField decode buffer f known place = .ok (value, n, masks)) :
    ∃ bits, value = .mask bits := by
  unfold decodeField at hfield
  rw [hslot] at hfield
  obtain ⟨bits, -, hpair⟩ := map_ok_iff.mp hfield
  cases hpair
  exact ⟨bits, rfl⟩

/-- The next field is read, and the others are ahead. -/
theorem Ahead.step (h : Ahead decode buffer whole all stop (f :: rest) known place entries)
    (hfits : ∀ kind pos v n, pos ≤ buffer.size → decode kind pos = .ok (v, n) →
      pos + n ≤ buffer.size) :
    ∃ value n masks others, entries = (f.name, value) :: others ∧
      decodeField decode buffer f known place = .ok (value, n, masks) ∧
      Ahead decode buffer whole all stop rest masks (place + n) others := by
  have hdecode := h.decode_eq
  cases hfield : decodeField decode buffer f known place with
  | error e => rw [decodeFields, hfield] at hdecode; cases hdecode
  | ok found =>
    obtain ⟨value, n, masks⟩ := found
    rw [decodeFields_cons hfield] at hdecode
    obtain ⟨⟨others, _⟩, hrest, hpair⟩ := map_ok_iff.mp hdecode
    cases hpair
    exact ⟨value, n, masks, others, rfl, rfl,
      decodeField_fits h.fits (fun kind v n ↦ hfits kind place v n h.fits) hfield,
      h.suffix.behind hfield, hrest⟩

theorem walkFields_append (size : Kind → Nat → Metered Nat) (fields rest : List Field)
    (known : Masks) (place : Nat) :
    (walkFields size buffer (fields ++ rest) known place).outcome =
      (walkFields size buffer fields known place).outcome.bind fun (reached, masks) =>
        (walkFields size buffer rest masks reached).outcome := by
  induction fields generalizing known place with
  | nil => rfl
  | cons f fields ih =>
    rw [List.cons_append, walkFields_cons_outcome, walkFields_cons_outcome]
    cases measureField size buffer f known place with
    | error e => rfl
    | ok found => exact ih found.2 (place + found.1)

theorem walk_outcome (size : Kind → Nat → Metered Nat) (object : Located) (offset count : Nat) :
    (walk size buffer object offset count).outcome =
      (checkHeader buffer offset object.header).bind fun _ =>
        (walkFields size buffer (object.combinator.fields.take count) .empty
          (offset + object.header)).outcome := by
  unfold walk
  simp only [Metered.outcome_bind, Metered.outcome_lift, Metered.outcome_record,
    Metered.outcome_pure]
  cases checkHeader buffer offset object.header with
  | error e => rfl
  | ok u =>
    show (walkFields size buffer _ _ _).outcome.bind _ = (walkFields size buffer _ _ _).outcome
    cases (walkFields size buffer (object.combinator.fields.take count) .empty
      (offset + object.header)).outcome <;> rfl

/-- A walk over one more field passes that field behind the others. -/
theorem walk_succ {object : Located} {offset i : Nat}
    (hf : object.combinator.fields[i]? = some f)
    (h : (walk size buffer object offset i).outcome = .ok (place, known)) :
    (walk size buffer object offset (i + 1)).outcome =
      (measureField size buffer f known place).map fun (n, masks) => (place + n, masks) := by
  rw [walk_outcome] at h ⊢
  cases hcheck : checkHeader buffer offset object.header with
  | error e => rw [hcheck] at h; cases h
  | ok u =>
    rw [hcheck] at h
    have h : (walkFields size buffer (object.combinator.fields.take i) .empty
      (offset + object.header)).outcome = .ok (place, known) := h
    show (walkFields size buffer _ _ _).outcome = _
    rw [List.take_add_one, hf, walkFields_append, h]
    show (walkFields size buffer [f] known place).outcome = _
    rw [walkFields_cons_outcome]
    cases measureField size buffer f known place <;> rfl

/-- A walk over the first fields comes to where the others are ahead. -/
theorem Ahead.walk (h : Ahead decode buffer whole all stop fields known place entries)
    (hmeasures : ∀ kind pos, pos ≤ buffer.size →
      MeasuresAs (size kind pos).outcome (decode kind pos) buffer pos)
    (hpresence : ∀ pos, pos ≤ buffer.size → (size .presence pos).outcome = .ok 0) (i : Nat) :
    ∃ reached masks,
      (walkFields size buffer (fields.take i) known place).outcome = .ok (reached, masks) ∧
      Ahead decode buffer whole all stop (fields.drop i) masks reached (entries.drop i) := by
  induction i generalizing fields known place entries with
  | zero => exact ⟨place, known, rfl, h⟩
  | succ i ih =>
    cases fields with
    | nil =>
      obtain rfl : entries = [] := by
        have hdecode := h.decode_eq
        cases hdecode
        rfl
      exact ⟨place, known, rfl, h⟩
    | cons f rest =>
      obtain ⟨value, n, masks, others, rfl, hfield, hrest⟩ :=
        h.step fun kind pos v n hpos ↦ (hmeasures kind pos hpos).fits v n
      rw [List.take_succ_cons, walkFields_cons_outcome,
        measureField_eq_decodeField (fun kind ↦ hmeasures kind place h.fits)
          (hpresence place h.fits), hfield]
      exact ih hrest

end Message

/-! ### Guards -/

/-- An object that is read with some guards left is read with one more. -/
theorem Schema.decodeAt_succ_eq_ok {s : Schema} {buffer : ByteArray} {free pos n : Nat}
    {object : Located} {o : Object} (hpos : pos ≤ buffer.size)
    (h : s.decodeAt buffer free object pos = .ok (o, n)) :
    s.decodeAt buffer (free + 1) object pos = .ok (o, n) := by
  obtain ⟨_, _, _, _, _, _, _, _, _, hheight⟩ := s.found_of_decodeAt free object pos o n hpos h
  exact decodeAt_of_height_le hpos h (Nat.le_succ_of_le hheight)

/-! ### Views -/

namespace View

variable {v : View} {s : Schema} {held i : Nat} {object : Located} {bytes : ByteArray}
  {o : Object} {f : Field}

/-- A view of bytes that are an object of a combinator of the schema. -/
structure Made (v : View) (s : Schema) (held : Nat) (o : Object) : Prop where
  sound : v.combinator.Sound
  decode_eq : s.decodeAt v.bytes (Depth.limit - held) v.object 0 = .ok (o, v.bytes.size)

/-- A view is made of bytes if they are an object. -/
theorem ofBytes_eq_ok_iff :
    (ofBytes s held object bytes).outcome = .ok v ↔
      (∃ o, s.decodeAt bytes (Depth.limit - held) object 0 = .ok (o, bytes.size)) ∧
        v = ⟨object, bytes⟩ := by
  have hmeasured := (s.measureAt_measuresAs (Depth.limit - held) object 0
    (Nat.zero_le bytes.size)).outcome_eq
  unfold ofBytes
  rw [Metered.outcome_bind, hmeasured]
  cases s.decodeAt bytes (Depth.limit - held) object 0 with
  | error e =>
    refine ⟨fun h ↦ ?_, fun ⟨⟨_, h⟩, _⟩ ↦ ?_⟩
    · cases h
    · cases h
  | ok found =>
    obtain ⟨o, n⟩ := found
    show Metered.outcome (if n = bytes.size then _ else _) = _ ↔ _
    by_cases hsize : n = bytes.size
    · rw [if_pos hsize, hsize]
      refine ⟨fun h ↦ ?_, fun h ↦ ?_⟩
      · cases h
        exact ⟨⟨o, rfl⟩, rfl⟩
      · rw [h.2]
        rfl
    · rw [if_neg hsize]
      refine ⟨fun h ↦ ?_, fun ⟨⟨_, h⟩, _⟩ ↦ ?_⟩
      · cases h
      · cases h
        exact absurd rfl hsize

theorem Made.fieldCount_eq (h : v.Made s held o) : v.fieldCount = v.combinator.fields.length := by
  have hlength := congrArg List.length h.sound.names_eq
  rw [List.length_map, List.length_map] at hlength
  exact hlength.symm

theorem Made.toObject_eq (h : v.Made s held o) : v.toObject s held = .ok o := by
  unfold toObject
  rw [h.decode_eq]
  rfl

/-- The entries of the object have a wire form. -/
theorem Made.wireForm (h : v.Made s held o) :
    ∃ body sites, s.WireForm (.fields v.combinator.fields .empty o.fields) body sites := by
  obtain ⟨_, body, sites, entries, rfl, -, hform, -⟩ :=
    s.found_of_decodeAt _ v.object 0 o v.bytes.size (Nat.zero_le _) h.decode_eq
  exact ⟨body, sites, hform⟩

/-- The object has an entry for every field. -/
theorem Made.length_eq (h : v.Made s held o) : o.fields.length = v.fieldCount := by
  obtain ⟨_, _, hform⟩ := h.wireForm
  have hlength := congrArg List.length hform.names_eq
  rw [List.length_map, List.length_map] at hlength
  rw [h.fieldCount_eq, hlength]

/-- A view of bytes by the name of a combinator is made of all of them. -/
theorem made_of_view (hs : s.Sound) {name : String}
    (h : (s.view held name bytes).outcome = .ok v) :
    s.combinator? name = some v.combinator ∧ v.object = v.combinator.located ∧ v.bytes = bytes ∧
      ∃ o, v.Made s held o := by
  unfold Schema.view at h
  rw [Metered.outcome_bind, Metered.outcome_lift] at h
  cases hlocate : s.locateNamed name with
  | error e => rw [hlocate] at h; cases h
  | ok object =>
    rw [hlocate] at h
    obtain ⟨c, hc, rfl⟩ := Schema.locateNamed_eq_ok_iff.mp hlocate
    obtain ⟨⟨o, ho⟩, rfl⟩ := ofBytes_eq_ok_iff.mp h
    exact ⟨hc, rfl, rfl, o, hs.combinator_sound c (Schema.mem_of_combinator? hc).1, ho⟩

/-- The tag is there, and behind it all fields are ahead. -/
theorem Made.ahead (h : v.Made s held o) :
    checkHeader v.bytes 0 v.object.header = .ok () ∧
      Ahead (s.decodeKind held v.bytes) v.bytes v.combinator.fields o.fields v.bytes.size
        v.combinator.fields .empty v.object.header o.fields := by
  obtain ⟨_, _, hform⟩ := h.wireForm
  have hsuffix := hform.suffix h.sound.numbered h.sound.names_nodup
  -- A view takes no guard for its own object, so one more is left than when it was made.
  have hdecode := Schema.decodeAt_succ_eq_ok (Nat.zero_le _) h.decode_eq
  rw [Schema.decodeAt_succ] at hdecode
  cases hcheck : checkHeader v.bytes 0 v.object.header with
  | error e => rw [hcheck] at hdecode; cases hdecode
  | ok u =>
    rw [hcheck] at hdecode
    obtain ⟨⟨others, stop⟩, hfields, hpair⟩ := map_ok_iff.mp hdecode
    rw [Nat.zero_add] at hfields
    have hentries : others = o.fields := congrArg (Object.fields ∘ Prod.fst) hpair
    have hstop : stop = v.bytes.size := congrArg Prod.snd hpair
    have hfits := checkHeader_fits (Nat.zero_le _) hcheck
    rw [Nat.zero_add] at hfits
    refine ⟨rfl, hfits, hsuffix, ?_⟩
    rw [← hentries, ← hstop]
    exact hfields

/-- A walk over the first fields of a view comes to where the others are ahead. -/
theorem Made.walk (h : v.Made s held o) (i : Nat) :
    ∃ place known,
      (Message.walk (s.measureKind held v.bytes) v.bytes v.object 0 i).outcome =
        .ok (place, known) ∧
      Ahead (s.decodeKind held v.bytes) v.bytes v.combinator.fields o.fields v.bytes.size
        (v.combinator.fields.drop i) known place (o.fields.drop i) := by
  obtain ⟨hcheck, hahead⟩ := h.ahead
  have hpresence : ∀ pos, pos ≤ v.bytes.size →
      (s.measureKind held v.bytes .presence pos).outcome = .ok 0 := by
    intro pos hpos
    exact if_pos hpos
  obtain ⟨place, known, hwalk, hleft⟩ :=
    hahead.walk (fun kind pos ↦ s.measureKind_measuresAs held kind pos) hpresence i
  refine ⟨place, known, ?_, hleft⟩
  rw [walk_outcome, hcheck, Nat.zero_add]
  exact hwalk

/-! ### One field -/

/-- How a field comes to have a value and a length: a presence field has its bit, an absent field
has a zero, and any other field, a mask among them, is read. -/
inductive ReadAs (s : Schema) (held : Nat) (bytes : ByteArray) (f : Field) (isOpen : Bool)
    (place : Nat) : Value → Nat → Prop
  | presence (hpresence : f.isPresence = true) : ReadAs s held bytes f isOpen place (.bool isOpen) 0
  | absent (hpresence : f.isPresence = false) (hopen : isOpen = false) :
      ReadAs s held bytes f isOpen place f.kind.zero 0
  | present {value : Value} {n : Nat} (hpresence : f.isPresence = false) (hopen : isOpen = true)
      (hvalue : s.decodeKind held bytes f.kind place = .ok (value, n)) :
      ReadAs s held bytes f isOpen place value n

/-- What a view finds at the field of a number: its place, the masks before it, and the value and
length that it has in the object. -/
structure Finds (v : View) (s : Schema) (held : Nat) (o : Object) (i : Nat) (f : Field)
    (place : Nat) (known : Masks) (value : Value) (n : Nat) : Prop where
  getElem?_eq : v.combinator.fields[i]? = some f
  walk_eq : (Message.walk (s.measureKind held v.bytes) v.bytes v.object 0 i).outcome =
    .ok (place, known)
  entry_eq : o.fields[i]? = some (f.name, value)
  asks_eq : known.asks f = .ok (known.opens f)
  opens_eq : known.opens f = (impliedMasks v.combinator.fields o.fields).opens f
  mask_eq : ∀ slot, f.slot = some slot →
    value = .mask (impliedMasks v.combinator.fields o.fields slot)
  readAs : ReadAs s held v.bytes f (known.opens f) place value n
  fits : place + n ≤ v.bytes.size
  walk_next : ∃ masks,
    (Message.walk (s.measureKind held v.bytes) v.bytes v.object 0 (i + 1)).outcome =
      .ok (place + n, masks)

/-- A mask is never absent, so it is read as other fields are that are there. -/
theorem readAs_of_decodeField {known masks : Masks} {place n : Nat} {value : Value}
    {fields : List Field} (hn : Field.Numbered 0 fields) (hf : f ∈ fields)
    (h : decodeField (s.decodeKind held bytes) bytes f known place = .ok (value, n, masks)) :
    ReadAs s held bytes f (known.opens f) place value n := by
  rcases Schema.decodeField_cases h with ⟨slot, bits, hslot, hstands, rfl, rfl, -⟩ |
    ⟨-, hpresence, ⟨present, hasks, rfl⟩, rfl, -⟩ | ⟨-, hpresence, hasks, rfl, rfl, -⟩ |
    ⟨-, hpresence, hasks, hvalue, -⟩
  · have hkind := hn.kind_eq_mask hf hslot
    have homit : (f.isPresence || !known.opens f) = false := by
      refine Bool.eq_false_iff.mpr fun homit ↦ ?_
      rw [hn.slot_eq_none hf homit] at hslot
      cases hslot
    rw [Bool.or_eq_false_iff, Bool.not_eq_false'] at homit
    refine .present homit.1 homit.2 ?_
    rw [hkind]
    exact sized_eq_ok_iff.mpr ⟨bits, readUInt32_eq_ok_iff.mpr hstands, rfl, rfl⟩
  · rw [← Masks.opens_of_asks hasks]
    exact .presence hpresence
  · exact .absent hpresence (Masks.opens_of_asks hasks)
  · exact .present hpresence (Masks.opens_of_asks hasks) hvalue

/-- A view finds every field where the object has it. -/
theorem Made.finds (h : v.Made s held o) (hf : v.combinator.fields[i]? = some f) :
    ∃ place known value n, v.Finds s held o i f place known value n := by
  obtain ⟨place, known, hwalk, hahead⟩ := h.walk i
  obtain ⟨hlt, hget⟩ := List.getElem?_eq_some_iff.mp hf
  rw [List.drop_eq_getElem_cons hlt, hget] at hahead
  have hmeasures : ∀ kind pos, pos ≤ v.bytes.size →
      MeasuresAs (s.measureKind held v.bytes kind pos).outcome (s.decodeKind held v.bytes kind pos)
        v.bytes pos := s.measureKind_measuresAs held
  obtain ⟨value, n, masks, others, hentries, hfield, hrest⟩ :=
    hahead.step fun kind pos v n hpos ↦ (hmeasures kind pos hpos).fits v n
  have hsuffix := hahead.suffix
  rw [hentries] at hsuffix
  have hentry : o.fields[i]? = some (f.name, value) := by
    rw [← Nat.add_zero i, ← List.getElem?_drop, hentries]
    rfl
  have hmask : ∀ slot, f.slot = some slot → f.gate = none ∧
      value = .mask (impliedMasks v.combinator.fields o.fields slot) := by
    intro slot hslot
    obtain ⟨bits, rfl⟩ := eq_mask_of_decodeField hslot hfield
    obtain ⟨hgate, himplied, -⟩ := hsuffix.mask hslot
    rw [himplied]
    exact ⟨hgate, rfl⟩
  have hmem : f ∈ v.combinator.fields := List.mem_of_getElem? hf
  refine ⟨place, known, value, n, hf, hwalk, hentry,
    Masks.asks_eq (h.sound.numbered.testable f hmem), ?_, fun slot hslot ↦ (hmask slot hslot).2,
    readAs_of_decodeField h.sound.numbered hmem hfield, hrest.fits, masks, ?_⟩
  · cases hslot : f.slot with
    | none => exact (hsuffix.plain hslot).2.1
    | some slot =>
      have hgate := (hmask slot hslot).1
      rw [Masks.opens_of_gate_eq_none hgate, Masks.opens_of_gate_eq_none hgate]
  · rw [walk_succ hf hwalk, measureField_eq_decodeField
      (fun kind ↦ hmeasures kind place hahead.fits) (if_pos hahead.fits), hfield]
    rfl

/-! ### What is asked of a view -/

namespace Finds

variable {place n : Nat} {known : Masks} {value : Value}

theorem walkTo_eq (h : v.Finds s held o i f place known value n) :
    (v.walkTo s held i).outcome = .ok (f, place, known) := by
  unfold walkTo
  rw [h.getElem?_eq, Metered.outcome_bind, h.walk_eq]
  rfl

theorem fieldOffset_eq (h : v.Finds s held o i f place known value n) :
    (v.fieldOffset s held i).outcome = .ok place := by
  unfold fieldOffset
  rw [Metered.outcome_bind, h.walkTo_eq]
  rfl

theorem isPresent_eq (h : v.Finds s held o i f place known value n) :
    (v.isPresent s held i).outcome = .ok (known.opens f) := by
  unfold isPresent
  rw [Metered.outcome_bind, h.walkTo_eq]
  exact h.asks_eq

/-- The value that is read for a field is the one it has in the object. -/
theorem field_eq (h : v.Finds s held o i f place known value n) :
    (v.field s held i).outcome = .ok value := by
  unfold field
  rw [Metered.outcome_bind, h.walkTo_eq]
  show Metered.outcome (Metered.lift (known.asks f) >>= _) = _
  rw [Metered.outcome_bind, Metered.outcome_lift, h.asks_eq]
  show Metered.outcome (if f.isPresence = true then _ else _) = _
  cases h.readAs with
  | presence hpresence =>
    rw [if_pos hpresence]
    rfl
  | absent hpresence hopen =>
    rw [if_neg (Bool.eq_false_iff.mp hpresence), if_neg (Bool.eq_false_iff.mp hopen)]
    rfl
  | present hpresence hopen hvalue =>
    rw [if_neg (Bool.eq_false_iff.mp hpresence), if_pos hopen, Metered.outcome_bind,
      Metered.outcome_lift, hvalue]
    rfl

/-- The bytes of a field are those between its place and the next. -/
theorem fieldBytes_eq (h : v.Finds s held o i f place known value n) :
    (v.fieldBytes s held i).outcome = .ok (v.bytes.extract place (place + n)) := by
  have hplace : place ≤ v.bytes.size := Nat.le_trans (Nat.le_add_right place n) h.fits
  have hmeasured (hopen : known.opens f = true) :
      (s.measureKind held v.bytes f.kind place).outcome = .ok n := by
    cases h.readAs with
    | presence hpresence =>
      rw [beq_iff_eq.mp hpresence]
      exact if_pos hplace
    | absent _ hclosed => rw [hopen] at hclosed; cases hclosed
    | present _ _ hvalue =>
      rw [(s.measureKind_measuresAs held f.kind place hplace).outcome_eq, hvalue]
      rfl
  unfold fieldBytes
  rw [Metered.outcome_bind, h.walkTo_eq]
  show Metered.outcome (Metered.lift (known.asks f) >>= _) = _
  rw [Metered.outcome_bind, Metered.outcome_lift, h.asks_eq]
  show Metered.outcome (if known.opens f = true then _ else _) = _
  by_cases hopen : known.opens f = true
  · rw [if_pos hopen, Metered.outcome_bind, hmeasured hopen]
    rfl
  · have hnothing : n = 0 := by
      cases h.readAs with
      | presence | absent => rfl
      | present _ hpresent _ => exact absurd hpresent hopen
    rw [if_neg hopen, hnothing, Nat.add_zero, ByteArray.extract_same]
    rfl

/-- A field that is absent or is a bit occupies nothing. -/
theorem size_eq_zero (h : v.Finds s held o i f place known value n)
    (hnothing : known.opens f = false ∨ f.kind = .presence) : n = 0 := by
  cases h.readAs with
  | presence | absent => rfl
  | present hpresence hopen _ =>
    rcases hnothing with hclosed | hkind
    · rw [hopen] at hclosed
      cases hclosed
    · unfold Field.isPresence at hpresence
      rw [hkind] at hpresence
      cases hpresence

end Finds

end View

end TypeLang
