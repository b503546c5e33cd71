import TypeLang.Message.Session
import TypeLang.Proofs.Message.Dispatch
import TypeLang.Proofs.Message.Locality
import TypeLang.Proofs.Message.Walking
import TypeLang.Proofs.Wire.VectorItems

/-!
How many fields are recorded. Measuring an object records every walk that comes to its end, those
over the objects in it before its own, and reading records nothing. So a measurement records as many
fields as the object that is read has entries, with those of all objects in it
(`Schema.measureAt_tallies`), and a walk over the first fields records those fields and what is in
their values (`walk_records`). A session adds that to its record
(`Session.record_counts_entries`).
-/

set_option autoImplicit false
set_option relaxedAutoImplicit false

namespace TypeLang

open Wire Message

/-! ### Entries -/

/-- The number of entries of all the objects in a value. -/
def Value.entryCount (v : Value) : Nat := (v.objects.map fun o => o.fields.length).sum

/-- The number of entries of an object and of all the objects in it. -/
def Object.entryCount (o : Object) : Nat := (Value.object o).entryCount

/-- The number of entries of all the objects in the values of some entries. -/
def Entries.nestedCount (entries : Entries) : Nat := (entries.map fun e => e.2.entryCount).sum

@[simp] theorem Entries.nestedCount_nil : nestedCount [] = 0 := rfl

@[simp] theorem Entries.nestedCount_cons (name : String) (v : Value) (rest : Entries) :
    nestedCount ((name, v) :: rest) = v.entryCount + nestedCount rest :=
  List.sum_cons

theorem Value.entryCount_leaf {v : Value} (hvector : v.toItems? = none)
    (hobject : v.toObject? = none) : v.entryCount = 0 := by
  unfold entryCount
  rw [objects_leaf hvector hobject]
  rfl

theorem Kind.entryCount_zero (kind : Kind) : kind.zero.entryCount = 0 := by
  unfold Value.entryCount
  rw [objects_zero]
  rfl

theorem Value.entryCount_vector (items : List Value) :
    (Value.vector items).entryCount = (items.map entryCount).sum := by
  unfold entryCount
  rw [objects]
  induction items with
  | nil => rfl
  | cons v rest ih => rw [itemsObjects, List.map_append, List.sum_append, ih, List.map_cons,
      List.sum_cons]

theorem Object.entryCount_eq (o : Object) :
    o.entryCount = o.fields.length + Entries.nestedCount o.fields := by
  obtain ⟨name, tag, entries⟩ := o
  have hnested : ((Value.entriesObjects entries).map fun o => o.fields.length).sum =
      Entries.nestedCount entries := by
    induction entries with
    | nil => rfl
    | cons entry rest ih =>
      obtain ⟨field, v⟩ := entry
      rw [Value.entriesObjects, List.map_append, List.sum_append, ih, Entries.nestedCount_cons]
      rfl
  unfold entryCount Value.entryCount
  rw [Value.objects, List.map_cons, List.sum_cons, hnested]

/-! ### Records -/

namespace Wire

@[simp] theorem WalkLog.fields_append (a b : WalkLog) : (a ++ b).fields = a.fields + b.fields := rfl

@[simp] theorem WalkLog.walks_append (a b : WalkLog) : (a ++ b).walks = a.walks + b.walks := rfl

namespace Metered

variable {α β : Type} {m : Metered α}

/-- Behind a success, the record goes on. -/
theorem log_bind {a : α} (h : m.outcome = .ok a) (f : α → Metered β) :
    (m >>= f).log = m.log ++ (f a).log := by
  show (bind m f).log = _
  unfold bind
  rw [h]

@[simp] theorem log_lift_bind (a : α) (f : α → Metered β) :
    ((lift (.ok a) : Metered α) >>= f).log = (f a).log :=
  (log_bind rfl f).trans (WalkLog.empty_append _)

/-- What is made of an outcome is not recorded. -/
@[simp] theorem log_bind_pure (m : Metered α) (f : α → β) :
    (m >>= fun a => pure (f a)).log = m.log := by
  show (bind m _).log = _
  unfold bind
  cases m.outcome <;> rfl

end Metered

end Wire

/-! ### Measurements -/

/-- A measurement has the outcome of a reading, and records as many fields as `count` finds in what
is read. -/
structure Tallies {α : Type} (count : α → Nat) (measured : Metered Nat)
    (found : Except Error (α × Nat)) (buffer : ByteArray) (pos : Nat) : Prop
    extends MeasuresAs measured.outcome found buffer pos where
  fields_eq : ∀ a n, found = .ok (a, n) → measured.log.fields = count a

theorem Tallies.map {α β : Type} {count : α → Nat} {countOf : β → Nat} {measured : Metered Nat}
    {found : Except Error (α × Nat)} {buffer : ByteArray} {pos : Nat}
    (h : Tallies count measured found buffer pos) {f : α → β}
    (hcount : ∀ a, countOf (f a) = count a) :
    Tallies countOf measured (found.map fun (a, n) => (f a, n)) buffer pos where
  toMeasuresAs := h.toMeasuresAs.map f
  fields_eq b n hb := by
    obtain ⟨⟨a, _⟩, ha, hpair⟩ := map_ok_iff.mp hb
    cases hpair
    rw [hcount, h.fields_eq a n ha]

namespace Wire.Vectors

variable {α : Type} {count : α → Nat} {size : Nat → Metered Nat}
  {read : Nat → Except Error (α × Nat)} {buffer : ByteArray}

/-- The walk over the items of a vector records what is recorded for each of them. -/
theorem walkItems_fields_eq
    (h : ∀ pos, pos ≤ buffer.size → Tallies count (size pos) (read pos) buffer pos) {number : Nat} :
    ∀ {pos : Nat} {found : List (α × Nat)} (log : WalkLog), pos ≤ buffer.size →
      collect read number pos = .ok found →
        (walkItems size log number pos).log.fields =
          log.fields + (found.map fun item => count item.1).sum := by
  induction number with
  | zero =>
    intro pos found log _ hfound
    cases hfound
    rfl
  | succ number ih =>
    intro pos found log hpos hfound
    obtain ⟨item, length, rest, hitem, rfl, hrest⟩ := collect_succ_eq_ok hfound
    have hsize : (size pos).outcome = .ok length := by rw [(h pos hpos).outcome_eq, hitem]; rfl
    have hfields : (log ++ (size pos).log).fields = log.fields + count item := by
      rw [WalkLog.fields_append, (h pos hpos).fields_eq item length hitem]
    rw [List.map_cons, List.sum_cons, ← Nat.add_assoc, ← hfields]
    rcases hrest with ⟨rfl, rfl⟩ | ⟨hlength, hrest⟩
    · -- An item without bytes is measured before the walk ends.
      simp only [walkItems, hsize, List.map_nil, List.sum_nil, Nat.add_zero]
    · obtain ⟨length, rfl⟩ := Nat.exists_eq_succ_of_ne_zero hlength
      simp only [walkItems, hsize]
      exact ih _ ((h pos hpos).fits item _ hitem) hrest

theorem sizeOf_tallies
    (h : ∀ pos, pos ≤ buffer.size → Tallies count (size pos) (read pos) buffer pos) (boxed : Bool)
    (pos : Nat) :
    Tallies (fun items => (items.map count).sum) (Vectors.sizeOf size buffer pos boxed)
      (Vectors.read read buffer pos boxed) buffer pos where
  toMeasuresAs := sizeOf_measuresAs (fun pos hpos ↦ (h pos hpos).toMeasuresAs) boxed
  fields_eq items n hfound := by
    rw [read_eq_collect] at hfound
    unfold Vectors.sizeOf
    cases hheader : readHeader buffer pos boxed with
    | error e => rw [hheader] at hfound; cases hfound
    | ok header =>
      rw [hheader] at hfound
      obtain ⟨found, hcollect, hpair⟩ := map_ok_iff.mp hfound
      cases hpair
      rw [Metered.log_lift_bind, Metered.log_bind_pure,
        walkItems_fields_eq h .empty (readHeader_fits hheader) hcollect, List.map_map]
      exact Nat.zero_add _

end Wire.Vectors

variable {buffer : ByteArray} {measure : Reference → Nat → Metered Nat}
  {read : Reference → Nat → Except Error (Object × Nat)}

/-- A value that is read is no vector and no object, unless its kind says so. -/
theorem Kind.leaf_of_decode {kind : Kind} {pos n : Nat} {v : Value}
    (hkind : kind.isContainer = false) (h : kind.decode read buffer pos = .ok (v, n)) :
    v.toItems? = none ∧ v.toObject? = none := by
  cases kind with
  | vector _ _ | object _ _ | generic _ | anyObject => cases hkind
  | presence =>
    cases h
    exact ⟨rfl, rfl⟩
  | bytes | string =>
    obtain ⟨_, -, hpair⟩ := map_ok_iff.mp h
    cases hpair
    exact ⟨rfl, rfl⟩
  | _ =>
    obtain ⟨_, -, rfl, -⟩ := sized_eq_ok_iff.mp h
    exact ⟨rfl, rfl⟩

/-- Values are measured with a record of their entries, if the objects in them are. -/
theorem Kind.tallies
    (h : ∀ r pos, pos ≤ buffer.size →
      Tallies Object.entryCount (measure r pos) (read r pos) buffer pos) (kind : Kind) :
    ∀ pos, pos ≤ buffer.size →
      Tallies Value.entryCount (kind.measure measure buffer pos) (kind.decode read buffer pos)
        buffer pos := by
  have hmeasures := Kind.measuresAs fun r pos hpos ↦ (h r pos hpos).toMeasuresAs
  induction kind with
  | vector boxed element ih =>
    exact fun pos _ ↦ (Vectors.sizeOf_tallies ih boxed pos).map Value.entryCount_vector
  | object typeName bare => exact fun pos hpos ↦ (h (.typed typeName bare) pos hpos).map fun _ ↦ rfl
  | generic _ | anyObject => exact fun pos hpos ↦ (h .any pos hpos).map fun _ ↦ rfl
  | _ =>
    intro pos hpos
    refine ⟨hmeasures _ pos hpos, fun v n hfound ↦ ?_⟩
    obtain ⟨hitems, hobject⟩ := Kind.leaf_of_decode rfl hfound
    rw [Value.entryCount_leaf hitems hobject]
    rfl

/-! ### Walks -/

namespace Message

variable {fields : List Field} {entries : Entries} {known : Masks} {pos stop : Nat}

/-- A field of a walk adds the entries in its value to the record. -/
theorem walkFields_cons_log
    (h : ∀ kind pos, pos ≤ buffer.size → Tallies Value.entryCount
      (Kind.measure measure buffer kind pos) (Kind.decode read buffer kind pos) buffer pos)
    (hpos : pos ≤ buffer.size) {f : Field} {value : Value} {n : Nat} {masks : Masks}
    (hfield : decodeField (Kind.decode read buffer) buffer f known pos = .ok (value, n, masks))
    (rest : List Field) :
    (walkFields (Kind.measure measure buffer) buffer (f :: rest) known pos).log.fields =
      value.entryCount +
        (walkFields (Kind.measure measure buffer) buffer rest masks (pos + n)).log.fields := by
  have hpass : ∀ {v : Value}, Kind.decode read buffer f.kind pos = .ok (v, n) →
      ∀ behind : Nat → Metered (Nat × Masks),
        (Kind.measure measure buffer f.kind pos >>= behind).log.fields =
          v.entryCount + (behind n).log.fields := by
    intro v hvalue behind
    have houtcome : (Kind.measure measure buffer f.kind pos).outcome = .ok n := by
      rw [(h f.kind pos hpos).outcome_eq, hvalue]
      rfl
    rw [Metered.log_bind houtcome, WalkLog.fields_append, (h f.kind pos hpos).fields_eq v n hvalue]
  rw [walkFields]
  rcases Schema.decodeField_cases hfield with ⟨slot, bits, hslot, hstands, rfl, rfl, rfl⟩ |
    ⟨hslot, hpresence, ⟨present, hopens, rfl⟩, rfl, rfl⟩ | ⟨hslot, -, hopens, rfl, rfl, rfl⟩ |
    ⟨hslot, -, hopens, hvalue, rfl⟩
  · rw [hslot, Value.entryCount_leaf rfl rfl, Nat.zero_add]
    dsimp only
    rw [readUInt32_eq_ok_iff.mpr hstands, Metered.log_lift_bind]
  · rw [hslot, Value.entryCount_leaf rfl rfl, Nat.zero_add]
    dsimp only
    rw [hopens, Metered.log_lift_bind]
    cases present with
    | true =>
      -- The bit of a presence field has no bytes and no entries.
      have hvalue : Kind.decode read buffer f.kind pos = .ok (.bool true, 0) := by
        rw [beq_iff_eq.mp hpresence]
        rfl
      rw [if_pos rfl, hpass hvalue, Value.entryCount_leaf rfl rfl, Nat.zero_add]
    | false => rfl
  · rw [hslot, Kind.entryCount_zero, Nat.zero_add]
    dsimp only
    rw [hopens, Metered.log_lift_bind]
    rfl
  · rw [hslot]
    dsimp only
    rw [hopens, Metered.log_lift_bind, if_pos rfl, hpass hvalue]

/-- A walk over the first fields records the entries in their values. -/
theorem walkFields_fields_eq
    (h : ∀ kind pos, pos ≤ buffer.size → Tallies Value.entryCount
      (Kind.measure measure buffer kind pos) (Kind.decode read buffer kind pos) buffer pos)
    (hpos : pos ≤ buffer.size)
    (hfields : decodeFields (Kind.decode read buffer) buffer fields known pos = .ok (entries, stop))
    (i : Nat) :
    (walkFields (Kind.measure measure buffer) buffer (fields.take i) known pos).log.fields =
      Entries.nestedCount (entries.take i) := by
  induction i generalizing fields entries known pos with
  | zero =>
    rw [List.take_zero, List.take_zero]
    rfl
  | succ i ih =>
    cases fields with
    | nil =>
      cases hfields
      rfl
    | cons f rest =>
      cases hfield : decodeField (Kind.decode read buffer) buffer f known pos with
      | error e => rw [decodeFields, hfield] at hfields; cases hfields
      | ok found =>
        obtain ⟨value, n, masks⟩ := found
        rw [decodeFields_cons hfield] at hfields
        obtain ⟨⟨others, _⟩, hrest, hpair⟩ := map_ok_iff.mp hfields
        cases hpair
        have hfits := decodeField_fits hpos (fun kind ↦ (h kind pos hpos).fits) hfield
        rw [List.take_succ_cons, List.take_succ_cons, walkFields_cons_log h hpos hfield,
          Entries.nestedCount_cons, ih hfits hrest]

theorem length_of_decodeFields {decode : Kind → Nat → Except Error (Value × Nat)}
    (h : decodeFields decode buffer fields known pos = .ok (entries, stop)) :
    entries.length = fields.length := by
  induction fields generalizing entries known pos with
  | nil =>
    cases h
    rfl
  | cons f rest ih =>
    cases hfield : decodeField decode buffer f known pos with
    | error e => rw [decodeFields, hfield] at h; cases h
    | ok found =>
      rw [decodeFields_cons hfield] at h
      obtain ⟨⟨others, _⟩, hrest, hpair⟩ := map_ok_iff.mp h
      cases hpair
      rw [List.length_cons, List.length_cons, ih hrest]

/-- A walk over the first fields comes to its end where all fields are read, and is recorded behind
those over the objects in its fields. -/
theorem walk_records {object : Located} {offset : Nat}
    (h : ∀ kind pos, pos ≤ buffer.size → Tallies Value.entryCount
      (Kind.measure measure buffer kind pos) (Kind.decode read buffer kind pos) buffer pos)
    (hoffset : offset ≤ buffer.size) (hcheck : checkHeader buffer offset object.header = .ok ())
    (hfields : decodeFields (Kind.decode read buffer) buffer object.combinator.fields .empty
      (offset + object.header) = .ok (entries, stop)) (i : Nat) :
    0 < (walk (Kind.measure measure buffer) buffer object offset i).log.walks ∧
      (walk (Kind.measure measure buffer) buffer object offset i).log.fields =
        min i entries.length + Entries.nestedCount (entries.take i) := by
  have hstart := checkHeader_fits hoffset hcheck
  have hwhole := (walkFields_measuresAs (fun kind pos hpos ↦ (h kind pos hpos).toMeasuresAs)
    (fun _ hpos ↦ if_pos hpos) object.combinator.fields .empty _ hstart).1
  rw [hfields] at hwhole
  obtain ⟨_, hwhole, -⟩ := map_ok_iff.mp hwhole
  rw [← List.take_append_drop i object.combinator.fields, walkFields_append] at hwhole
  cases hwalk : (walkFields (Kind.measure measure buffer) buffer
      (object.combinator.fields.take i) .empty (offset + object.header)).outcome with
  | error e => rw [hwalk] at hwhole; cases hwhole
  | ok reached =>
    have hlog : (walk (Kind.measure measure buffer) buffer object offset i).log =
        (walkFields (Kind.measure measure buffer) buffer (object.combinator.fields.take i) .empty
          (offset + object.header)).log ++ .walk (object.combinator.fields.take i).length := by
      unfold walk
      rw [hcheck, Metered.log_lift_bind, Metered.log_bind hwalk, Metered.log_bind_pure]
      rfl
    rw [hlog, WalkLog.walks_append, WalkLog.fields_append,
      walkFields_fields_eq h hstart hfields i, Nat.add_comm (Entries.nestedCount _),
      length_of_decodeFields hfields, ← List.length_take]
    exact ⟨Nat.succ_pos _, rfl⟩

end Message

/-! ### Objects -/

namespace Schema

theorem measureWithin_tallies_of {s : Schema} {free : Nat}
    (h : ∀ (object : Located) (pos : Nat), pos ≤ buffer.size →
      Tallies Object.entryCount (s.measureAt buffer free object pos)
        (s.decodeAt buffer free object pos) buffer pos) (r : Reference) (pos : Nat)
    (hpos : pos ≤ buffer.size) :
    Tallies Object.entryCount (s.measureWithin free buffer r pos) (s.readWithin free buffer r pos)
      buffer pos where
  toMeasuresAs := s.measureWithin_measuresAs free r pos hpos
  fields_eq o n hfound := by
    unfold readWithin at hfound
    unfold measureWithin
    cases hlocate : s.locate buffer pos r with
    | error e => rw [hlocate] at hfound; cases hfound
    | ok object =>
      rw [hlocate] at hfound
      rw [Metered.log_lift_bind]
      exact (h object pos hpos).fields_eq o n hfound

/-- What is recorded of an object that is read, if the objects in it are recorded. -/
theorem measureAt_records_of {s : Schema} {free : Nat}
    (h : ∀ (object : Located) (pos : Nat), pos ≤ buffer.size →
      Tallies Object.entryCount (s.measureAt buffer free object pos)
        (s.decodeAt buffer free object pos) buffer pos)
    {object : Located} {pos n : Nat} {o : Object} (hpos : pos ≤ buffer.size)
    (hfound : s.decodeAt buffer (free + 1) object pos = .ok (o, n)) :
    0 < (s.measureAt buffer (free + 1) object pos).log.walks ∧
      (s.measureAt buffer (free + 1) object pos).log.fields = o.entryCount := by
  rw [decodeAt_succ] at hfound
  cases hcheck : checkHeader buffer pos object.header with
  | error e => rw [hcheck] at hfound; cases hfound
  | ok u =>
    rw [hcheck] at hfound
    obtain ⟨⟨entries, stop⟩, hfields, hpair⟩ := map_ok_iff.mp hfound
    cases hpair
    obtain ⟨hwalks, hrecord⟩ := walk_records (Kind.tallies (measureWithin_tallies_of h)) hpos hcheck
      hfields object.combinator.fields.length
    rw [measureAt_succ, Metered.log_bind_pure, hrecord, ← length_of_decodeFields hfields,
      Nat.min_self, List.take_length, Object.entryCount_eq]
    rw [← length_of_decodeFields hfields] at hwalks
    exact ⟨hwalks, rfl⟩

/-- Measuring an object records its entries and those of the objects in it. -/
theorem measureAt_tallies (s : Schema) : ∀ (free : Nat) (object : Located) (pos : Nat),
    pos ≤ buffer.size →
      Tallies Object.entryCount (s.measureAt buffer free object pos)
        (s.decodeAt buffer free object pos) buffer pos := by
  intro free
  induction free with
  | zero =>
    intro object pos hpos
    exact ⟨s.measureAt_measuresAs 0 object pos hpos, nofun⟩
  | succ free ih =>
    intro object pos hpos
    exact ⟨s.measureAt_measuresAs (free + 1) object pos hpos,
      fun o n hfound ↦ (measureAt_records_of ih hpos hfound).2⟩

theorem measureAt_records {s : Schema} {free : Nat} {object : Located} {pos n : Nat} {o : Object}
    (hpos : pos ≤ buffer.size) (hfound : s.decodeAt buffer free object pos = .ok (o, n)) :
    0 < (s.measureAt buffer free object pos).log.walks ∧
      (s.measureAt buffer free object pos).log.fields = o.entryCount := by
  cases free with
  | zero => cases hfound
  | succ free => exact measureAt_records_of (s.measureAt_tallies free) hpos hfound

theorem sizeOf_records {s : Schema} {held : Nat} {r : Reference} {offset n : Nat} {o : Object}
    (hoffset : offset ≤ buffer.size) (h : s.read held r buffer offset = .ok (o, n)) :
    0 < (s.sizeOf held r buffer offset).log.walks ∧
      (s.sizeOf held r buffer offset).log.fields = o.entryCount := by
  unfold read at h
  unfold sizeOf measureReference
  cases hlocate : s.locate buffer offset r with
  | error e => rw [hlocate] at h; cases h
  | ok object =>
    rw [hlocate] at h
    rw [Metered.log_lift_bind]
    exact measureAt_records hoffset h

theorem measureKind_tallies (s : Schema) (held : Nat) (kind : Kind) (pos : Nat)
    (hpos : pos ≤ buffer.size) :
    Tallies Value.entryCount (s.measureKind held buffer kind pos)
      (s.decodeKind held buffer kind pos) buffer pos :=
  Kind.tallies (measureWithin_tallies_of (s.measureAt_tallies (Depth.limit - held))) kind pos hpos

end Schema

/-! ### Views -/

namespace View

variable {v : View} {s : Schema} {held : Nat} {o : Object}

/-- Making a view records what measuring its object does. -/
theorem ofBytes_log (s : Schema) (held : Nat) (object : Located) (bytes : ByteArray) :
    (ofBytes s held object bytes).log = (s.measureAt bytes (Depth.limit - held) object 0).log := by
  have hcheck : ∀ size : Nat, Metered.log
      (if size = bytes.size then pure (⟨object, bytes⟩ : View)
        else .fail (.malformed size .trailingBytes)) = .empty := by
    intro size
    split <;> rfl
  cases hmeasured : (s.measureAt bytes (Depth.limit - held) object 0).outcome with
  | error e =>
    show (Metered.bind _ _).log = _
    unfold Metered.bind
    rw [hmeasured]
  | ok size =>
    unfold ofBytes
    rw [Metered.log_bind hmeasured, hcheck, WalkLog.append_empty]

/-- An object that is read by the name of its combinator is viewed in its own bytes. -/
theorem made_of_read (hs : s.Sound) {name : String} {c : Combinator}
    (hname : s.combinator? name = some c) {offset n : Nat} (hoffset : offset ≤ buffer.size)
    (h : s.read held (.named name) buffer offset = .ok (o, n)) :
    ∃ v : View, v.Made s held o ∧
      (s.view held name (buffer.extract offset (offset + n))).outcome = .ok v ∧
      (s.view held name (buffer.extract offset (offset + n))).log =
        (s.measureAt v.bytes (Depth.limit - held) v.object 0).log := by
  have hfits : offset + n ≤ buffer.size :=
    (s.measureWithin_measuresAs _ (.named name) offset hoffset).fits o n h
  have hsize := Stands.size_extract hfits
  have hsame : SameBytes buffer (buffer.extract offset (offset + n)) offset 0 n := by
    have hall := ByteArray.extract_zero_size (b := buffer.extract offset (offset + n))
    rw [hsize] at hall
    rw [SameBytes.iff_extract_eq, Nat.zero_add]
    exact hall
  obtain ⟨hc, rfl⟩ := Schema.mem_of_combinator? hname
  have hslice := (s.readWithin_mirrors (Depth.limit - held) (.named c.name) offset 0).whole o n h
    hsame
  unfold Schema.readWithin at hslice
  rw [Schema.locate_named hs hc] at hslice
  have hmade : Made ⟨c.located, buffer.extract offset (offset + n)⟩ s held o := by
    refine ⟨hs.combinator_sound c hc, ?_⟩
    dsimp only
    rw [hsize]
    exact hslice
  have hlocate := Schema.locateNamed_eq_ok_iff.mpr ⟨c, hname, rfl⟩
  refine ⟨_, hmade, ?_, ?_⟩
  · unfold Schema.view
    rw [Metered.outcome_bind, Metered.outcome_lift, hlocate]
    exact ofBytes_eq_ok_iff.mpr ⟨⟨o, hmade.decode_eq⟩, rfl⟩
  · unfold Schema.view
    rw [hlocate, Metered.log_lift_bind, ofBytes_log]

/-- Finding a field records the fields before it and what is in their values. -/
theorem Made.fieldOffset_records (h : v.Made s held o) {i : Nat} (hi : i < v.fieldCount) :
    (∃ place, (v.fieldOffset s held i).outcome = .ok place) ∧
      0 < (v.fieldOffset s held i).log.walks ∧
      (v.fieldOffset s held i).log.fields = i + Entries.nestedCount (o.fields.take i) := by
  obtain ⟨hcheck, hahead⟩ := h.ahead
  have hlt : i < v.combinator.fields.length := h.fieldCount_eq ▸ hi
  obtain ⟨place, known, value, n, hfinds⟩ := h.finds (List.getElem?_eq_getElem hlt)
  have hdecode := hahead.decode_eq
  rw [← Nat.zero_add v.object.header] at hdecode
  obtain ⟨hwalks, hfields⟩ :=
    walk_records (s.measureKind_tallies held) (Nat.zero_le _) hcheck hdecode i
  rw [h.length_eq, Nat.min_eq_left (Nat.le_of_lt hi)] at hfields
  have hlog : (v.fieldOffset s held i).log =
      (Message.walk (s.measureKind held v.bytes) v.bytes v.object 0 i).log := by
    unfold fieldOffset walkTo
    rw [List.getElem?_eq_getElem hlt]
    exact (Metered.log_bind_pure _ _).trans (Metered.log_bind_pure _ _)
  rw [hlog]
  exact ⟨⟨place, hfinds.fieldOffset_eq⟩, hwalks, hfields⟩

end View

/-! ### Sessions -/

namespace Session

/-- A session with so many more fields in its record, and otherwise the same. -/
structure Records (x y : Session) (count : Nat) : Prop where
  schema_eq : y.schema = x.schema
  held_eq : y.held = x.held
  profile_eq : y.log.profile = some (x.log.fields + count)

theorem charge_records {α : Type} (x : Session) {m : Metered α} {count : Nat}
    (hwalks : 0 < m.log.walks) (hfields : m.log.fields = count) :
    x.Records (x.charge m).2 count where
  schema_eq := rfl
  held_eq := rfl
  profile_eq := by
    show WalkLog.profile (x.log ++ m.log) = _
    unfold WalkLog.profile
    rw [WalkLog.walks_append, WalkLog.fields_append, hfields]
    exact if_neg (Nat.ne_of_gt (Nat.add_pos_right _ hwalks))

/-- An object that is read is not recorded. Measuring it, or making a view of just its bytes by the
name of its combinator, records its entries and those of all objects in it. Finding a field of that
view records the fields before it and the entries of all objects in their values. -/
theorem record_counts_entries {source : String} {x : Session}
    (hs : Schema.compile source = .ok x.schema) {r : Reference} {buffer : ByteArray}
    {offset n : Nat} (hoffset : offset ≤ buffer.size) {o : Object}
    (h : (x.read r buffer offset).1 = .ok (o, n)) :
    (x.read r buffer offset).2 = x ∧
    x.Records (x.sizeOf r buffer offset).2 o.entryCount ∧
    ∀ name c, r = .named name → x.schema.combinator? name = some c →
      ∃ v, (x.view name (buffer.extract offset (offset + n))).1 = .ok v ∧
        x.Records (x.view name (buffer.extract offset (offset + n))).2 o.entryCount ∧
        v.fieldCount = o.fields.length ∧
        ∀ y : Session, y.schema = x.schema → y.held = x.held → ∀ i < v.fieldCount,
          (∃ place, (y.charge (v.fieldOffset y.schema y.held i)).1 = .ok place) ∧
          y.Records (y.charge (v.fieldOffset y.schema y.held i)).2
            (i + Entries.nestedCount (o.fields.take i)) := by
  have hread : x.schema.read x.held r buffer offset = .ok (o, n) := h
  obtain ⟨hwalks, hfields⟩ := Schema.sizeOf_records hoffset hread
  refine ⟨rfl, x.charge_records hwalks hfields, ?_⟩
  rintro name c rfl hname
  obtain ⟨v, hmade, hview, hlog⟩ :=
    View.made_of_read (Schema.sound_of_compile hs) hname hoffset hread
  obtain ⟨hwalks, hfields⟩ := Schema.measureAt_records (Nat.zero_le _) hmade.decode_eq
  rw [← hlog] at hwalks hfields
  refine ⟨v, hview, x.charge_records hwalks hfields, hmade.length_eq.symm, ?_⟩
  rintro ⟨_, _, log⟩ rfl rfl i hi
  obtain ⟨hplace, hwalks, hfields⟩ := hmade.fieldOffset_records hi
  exact ⟨hplace, charge_records _ hwalks hfields⟩

/-- A line and its next line have eight entries, and eight fields more are recorded when the line is
measured or viewed. Behind the three fields that stand before the points, the next line among them,
seven are. -/
theorem record_counts_line :
    ∃ o v, lineSchema.read 1 (.named "line") lineBytes 0 = .ok (o, 32) ∧ o.entryCount = 8 ∧
      ((⟨lineSchema, 1, ⟨2, 5⟩⟩ : Session).sizeOf (.named "line") lineBytes 0).2.log.profile =
        some 13 ∧
      ((⟨lineSchema, 1, ⟨2, 5⟩⟩ : Session).view "line" (lineBytes.extract 0 (0 + 32))).1 =
        .ok v ∧
      ((⟨lineSchema, 1, ⟨3, 13⟩⟩ : Session).charge
        (v.fieldOffset lineSchema 1 3)).2.log.profile = some 20 := by
  have hrun : (lineSchema.read 1 (.named "line") lineBytes 0).toOption.map
      (fun found => (found.2, found.1.entryCount, found.1.fields.length,
        Entries.nestedCount (found.1.fields.take 3))) = some (32, 8, 4, 4) := by
    decide +kernel
  obtain ⟨⟨o, n⟩, hfound, hpair⟩ := Option.map_eq_some_iff.mp hrun
  obtain ⟨rfl, hpair⟩ := Prod.mk.inj hpair
  obtain ⟨hcount, hpair⟩ := Prod.mk.inj hpair
  obtain ⟨hlength, hnested⟩ := Prod.mk.inj hpair
  have hread : ((⟨lineSchema, 1, ⟨2, 5⟩⟩ : Session).read (.named "line") lineBytes 0).1 =
      .ok (o, 32) := ok_of_toOption hfound
  obtain ⟨-, hsize, hviews⟩ :=
    record_counts_entries compile_lineSource (Nat.zero_le _) hread
  obtain ⟨v, hview, -, hfields, hoffset⟩ := hviews "line" line rfl (by decide +kernel)
  have hthird := (hoffset ⟨lineSchema, 1, ⟨3, 13⟩⟩ rfl rfl 3 (by rw [hfields, hlength]; decide)).2
  have hcounted := hsize.profile_eq
  have hwalked := hthird.profile_eq
  rw [hcount] at hcounted
  rw [hnested] at hwalked
  exact ⟨o, v, hread, hcount, hcounted, hview, hwalked⟩

end Session

end TypeLang
