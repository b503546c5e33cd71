import TypeLang.Proofs.Message.Nesting
import TypeLang.Proofs.Schema.Soundness

/-!
Measuring an object and reading it are two recursions over the same fields. `MeasuresAs` says that a
measurement comes to what a reading comes to, with the value dropped, and that what was read lies
within the buffer. It passes from the objects inside a value to the value (`Kind.measuresAs`), from
the fields to the object (`Schema.measureAt_measuresAs`), and so to every reference
(`Schema.sizeOf_outcome_eq_read`).
-/

set_option autoImplicit false
set_option relaxedAutoImplicit false

namespace TypeLang

open Wire Message

/-- A measurement has the outcome of a reading, and what is read lies within the buffer. -/
structure MeasuresAs {α : Type} (measured : Except Error Nat) (found : Except Error (α × Nat))
    (buffer : ByteArray) (pos : Nat) : Prop where
  outcome_eq : measured = found.map Prod.snd
  fits : ∀ a n, found = .ok (a, n) → pos + n ≤ buffer.size

namespace MeasuresAs

variable {α β : Type} {buffer : ByteArray} {pos : Nat}

theorem error (e : Error) :
    MeasuresAs (.error e) (.error e : Except Error (α × Nat)) buffer pos :=
  ⟨rfl, fun _ _ h ↦ by cases h⟩

theorem ok (a : α) {n : Nat} (h : pos + n ≤ buffer.size) :
    MeasuresAs (.ok n) (.ok (a, n)) buffer pos :=
  ⟨rfl, fun _ _ heq ↦ by cases heq; exact h⟩

/-- What is done to the value that is read does not matter. -/
theorem map {measured : Except Error Nat} {found : Except Error (α × Nat)}
    (h : MeasuresAs measured found buffer pos) (f : α → β) :
    MeasuresAs measured (found.map fun (a, n) => (f a, n)) buffer pos := by
  obtain ⟨rfl, hfits⟩ := h
  cases found with
  | error e => exact error e
  | ok pair => exact ok _ (hfits pair.1 pair.2 rfl)

/-- What is made of a value of fixed width does not matter either. -/
theorem mapValue {measured : Except Error Nat} {found : Except Error α} {width : Nat}
    (h : MeasuresAs measured (found.map fun a => (a, width)) buffer pos) (f : α → β) :
    MeasuresAs measured ((found.map f).map fun b => (b, width)) buffer pos := by
  have hmap := h.map f
  cases found with
  | error e => exact hmap
  | ok a => exact hmap

theorem sized {measured : Except Error Nat} {found : Except Error α} {width : Nat}
    (h : MeasuresAs measured (found.map fun a => (a, width)) buffer pos) (wrap : α → Value) :
    MeasuresAs measured (sized wrap width found) buffer pos := by
  have hmap := h.map wrap
  cases found with
  | error e => exact hmap
  | ok a => exact hmap

end MeasuresAs

namespace Wire

variable {buffer : ByteArray} {pos : Nat}

/-- A number is there when its bytes are. -/
theorem ensure_measuresAs (width : Nat) :
    MeasuresAs (ensure buffer pos width)
      ((readNat width buffer pos).map fun n => (n, width)) buffer pos := by
  unfold ensure readNat slice
  split
  · exact MeasuresAs.ok _ ‹_›
  · exact MeasuresAs.error _

theorem ensure_measuresAs_readWord (width : Nat) :
    MeasuresAs (ensure buffer pos width)
      ((readWord width buffer pos).map fun x => (x, width)) buffer pos := by
  unfold ensure readWord slice
  split
  · exact MeasuresAs.ok _ ‹_›
  · exact MeasuresAs.error _

theorem ensure_measuresAs_readUInt32 :
    MeasuresAs (ensure buffer pos 4) ((readUInt32 buffer pos).map fun x => (x, 4)) buffer pos :=
  (ensure_measuresAs 4).mapValue UInt32.ofNat

theorem ensure_measuresAs_readUInt64 :
    MeasuresAs (ensure buffer pos 8) ((readUInt64 buffer pos).map fun x => (x, 8)) buffer pos :=
  (ensure_measuresAs 8).mapValue UInt64.ofNat

theorem readNat_fits {width n : Nat} (h : readNat width buffer pos = .ok n) :
    pos + width ≤ buffer.size :=
  (ensure_measuresAs width).fits n width (by rw [h]; rfl)

theorem readUInt32_fits {bits : UInt32} (h : readUInt32 buffer pos = .ok bits) :
    pos + 4 ≤ buffer.size := by
  unfold readUInt32 at h
  cases hnat : readNat 4 buffer pos with
  | error e => rw [hnat] at h; cases h
  | ok n => exact readNat_fits hnat

theorem readBool_fits {b : Bool} (h : readBool buffer pos = .ok b) : pos + 4 ≤ buffer.size := by
  unfold readBool at h
  cases hword : readUInt32 buffer pos with
  | error e => rw [hword] at h; cases h
  | ok bits => exact readUInt32_fits hword

theorem ByteString.sizeOf_measuresAs :
    MeasuresAs (ByteString.sizeOf buffer pos) (ByteString.read buffer pos) buffer pos := by
  unfold ByteString.sizeOf ByteString.read
  cases ByteString.readMark buffer pos with
  | error e => exact MeasuresAs.error e
  | ok found =>
    dsimp only
    unfold ensure
    split
    · exact MeasuresAs.ok _ ‹_›
    · exact MeasuresAs.error _

theorem Vectors.readHeader_fits {boxed : Bool} {count header : Nat}
    (h : Vectors.readHeader buffer pos boxed = .ok (count, header)) :
    pos + header ≤ buffer.size := by
  obtain ⟨rfl, -, hstands⟩ := Vectors.readHeader_eq_ok_iff.mp h
  have hfits := hstands.le_size
  rw [Vectors.size_header] at hfits
  exact hfits

/-- Elements are measured and read up to the same place, if each of them is. -/
theorem Vectors.walkItems_measuresAs {α : Type} {size : Nat → Metered Nat}
    {read : Nat → Except Error (α × Nat)}
    (h : ∀ pos, pos ≤ buffer.size → MeasuresAs (size pos).outcome (read pos) buffer pos) :
    ∀ (count : Nat) (log : WalkLog) (done : Array α) (pos : Nat), pos ≤ buffer.size →
      (Vectors.walkItems size log count pos).outcome =
          (Vectors.readItems read done count pos).map Prod.snd ∧
        ∀ items stop, Vectors.readItems read done count pos = .ok (items, stop) →
          stop ≤ buffer.size ∧ pos ≤ stop := by
  intro count
  induction count with
  | zero =>
    intro log done pos hpos
    exact ⟨rfl, fun items stop heq ↦ by cases heq; exact ⟨hpos, Nat.le_refl _⟩⟩
  | succ count ih =>
    intro log done pos hpos
    obtain ⟨hsize, hfits⟩ := h pos hpos
    cases hread : read pos with
    | error e =>
      rw [hread] at hsize
      have hsize : (size pos).outcome = .error e := hsize
      simp only [Vectors.walkItems, Vectors.readItems, hread, hsize]
      exact ⟨rfl, fun _ _ heq ↦ by cases heq⟩
    | ok pair =>
      obtain ⟨item, n⟩ := pair
      rw [hread] at hsize
      have hsize : (size pos).outcome = .ok n := hsize
      have hfit := hfits item n hread
      cases n with
      | zero =>
        simp only [Vectors.walkItems, Vectors.readItems, hread, hsize]
        exact ⟨rfl, fun items stop heq ↦ by cases heq; exact ⟨hpos, Nat.le_refl _⟩⟩
      | succ n =>
        simp only [Vectors.walkItems, Vectors.readItems, hread, hsize]
        obtain ⟨houtcome, hstop⟩ :=
          ih (log ++ (size pos).log) (done.push item) (pos + (n + 1)) hfit
        refine ⟨houtcome, fun items stop heq ↦ ?_⟩
        obtain ⟨hle, hge⟩ := hstop items stop heq
        exact ⟨hle, by omega⟩

theorem Vectors.sizeOf_measuresAs {α : Type} {size : Nat → Metered Nat}
    {read : Nat → Except Error (α × Nat)}
    (h : ∀ pos, pos ≤ buffer.size → MeasuresAs (size pos).outcome (read pos) buffer pos)
    (boxed : Bool) :
    MeasuresAs (Vectors.sizeOf size buffer pos boxed).outcome
      (Vectors.read read buffer pos boxed) buffer pos := by
  unfold Vectors.sizeOf Vectors.read
  cases hheader : Vectors.readHeader buffer pos boxed with
  | error e => exact MeasuresAs.error e
  | ok found =>
    obtain ⟨count, header⟩ := found
    obtain ⟨houtcome, hstop⟩ := Vectors.walkItems_measuresAs h count .empty #[] (pos + header)
      (Vectors.readHeader_fits hheader)
    simp only [Metered.outcome_bind, Metered.outcome_lift, Metered.outcome_pure]
    show MeasuresAs ((Vectors.walkItems size .empty count (pos + header)).outcome >>=
      fun stop => .ok (stop - pos)) _ _ _
    rw [houtcome]
    cases hitems : Vectors.readItems read #[] count (pos + header) with
    | error e => exact MeasuresAs.error e
    | ok reached =>
      obtain ⟨hle, hge⟩ := hstop reached.1 reached.2 hitems
      exact MeasuresAs.ok _ (by omega)

end Wire

variable {buffer : ByteArray} {measure : Reference → Nat → Metered Nat}
  {read : Reference → Nat → Except Error (Object × Nat)}

/-- Values are measured as they are read, if the objects in them are. -/
theorem Kind.measuresAs
    (h : ∀ r pos, pos ≤ buffer.size → MeasuresAs (measure r pos).outcome (read r pos) buffer pos) :
    ∀ (kind : Kind) (pos : Nat), pos ≤ buffer.size →
      MeasuresAs (kind.measure measure buffer pos).outcome (kind.decode read buffer pos) buffer
        pos := by
  intro kind
  induction kind with
  | vector boxed element ih =>
    intro pos _
    exact (Vectors.sizeOf_measuresAs ih boxed).map Value.vector
  | object typeName bare =>
    intro pos hpos
    exact (h (.typed typeName bare) pos hpos).map Value.object
  | generic _ => intro pos hpos; exact (h .any pos hpos).map Value.object
  | anyObject => intro pos hpos; exact (h .any pos hpos).map Value.object
  | bytes => intro pos _; exact ByteString.sizeOf_measuresAs.map Value.bytes
  | string => intro pos _; exact ByteString.sizeOf_measuresAs.map Value.bytes
  | presence =>
    intro pos hpos
    have hensure : ensure buffer pos 0 = .ok 0 := if_pos hpos
    simp only [Kind.measure, Kind.decode, Metered.outcome_lift, hensure]
    exact MeasuresAs.ok _ hpos
  | bool =>
    intro pos _
    cases hbool : readBool buffer pos with
    | error e => simp only [Kind.measure, Kind.decode, sized, hbool]; exact MeasuresAs.error e
    | ok b =>
      simp only [Kind.measure, Kind.decode, sized, hbool]
      exact MeasuresAs.ok _ (readBool_fits hbool)
  | mask => intro pos _; exact ensure_measuresAs_readUInt32.sized Value.mask
  | int =>
    intro pos _
    exact (ensure_measuresAs_readUInt32.mapValue UInt32.toInt32).sized Value.int
  | long =>
    intro pos _
    exact (ensure_measuresAs_readUInt64.mapValue UInt64.toInt64).sized Value.long
  | double =>
    intro pos _
    exact (ensure_measuresAs_readUInt64.mapValue Double.mk).sized Value.double
  | int128 => intro pos _; exact (ensure_measuresAs_readWord 16).sized Value.int128
  | int256 => intro pos _; exact (ensure_measuresAs_readWord 32).sized Value.int256

namespace Message

/-- The length of a field at a place and the masks behind it. -/
def measureField (size : Kind → Nat → Metered Nat) (buffer : ByteArray) (f : Field) (masks : Masks)
    (pos : Nat) : Except Error (Nat × Masks) :=
  match f.slot with
  | some slot => (readUInt32 buffer pos).map fun bits => (4, masks.set slot bits)
  | none =>
    match masks.asks f with
    | .error e => .error e
    | .ok present =>
      if present then (size f.kind pos).outcome.map fun n => (n, masks)
      else .ok (0, masks)

theorem walkFields_cons_outcome (size : Kind → Nat → Metered Nat) (f : Field) (rest : List Field)
    (masks : Masks) (pos : Nat) :
    (walkFields size buffer (f :: rest) masks pos).outcome =
      match measureField size buffer f masks pos with
      | .error e => .error e
      | .ok (n, masks) => (walkFields size buffer rest masks (pos + n)).outcome := by
  unfold measureField
  rw [walkFields]
  cases hslot : f.slot with
  | some slot =>
    simp only [Metered.outcome_bind, Metered.outcome_lift]
    cases readUInt32 buffer pos <;> rfl
  | none =>
    simp only [Metered.outcome_bind, Metered.outcome_lift]
    cases masks.asks f with
    | error e => rfl
    | ok present =>
      show Metered.outcome (if present then _ else _) = _
      by_cases hopen : present
      · simp only [if_pos hopen, Metered.outcome_bind]
        cases (size f.kind pos).outcome <;> rfl
      · simp only [if_neg hopen, Nat.add_zero]

/-- A field has the same length and the same masks behind it for a walk and for a reader. -/
theorem measureField_eq_decodeField
    {size : Kind → Nat → Metered Nat} {decode : Kind → Nat → Except Error (Value × Nat)}
    {pos : Nat} (h : ∀ kind, MeasuresAs (size kind pos).outcome (decode kind pos) buffer pos)
    (hpresence : (size .presence pos).outcome = .ok 0) (f : Field) (masks : Masks) :
    measureField size buffer f masks pos =
      (decodeField decode buffer f masks pos).map fun (_, n, masks) => (n, masks) := by
  unfold measureField decodeField
  cases hslot : f.slot with
  | some slot =>
    dsimp only
    cases readUInt32 buffer pos <;> rfl
  | none =>
    dsimp only
    cases masks.asks f with
    | error e => rfl
    | ok present =>
      dsimp only
      by_cases hkind : f.isPresence = true
      · have hsize : f.kind = .presence := by simpa [Field.isPresence] using hkind
        rw [if_pos hkind, hsize, hpresence]
        split <;> rfl
      · rw [if_neg hkind]
        cases present with
        | true =>
          rw [if_pos rfl, if_pos rfl, (h f.kind).outcome_eq]
          cases decode f.kind pos <;> rfl
        | false => rfl

theorem decodeField_fits {decode : Kind → Nat → Except Error (Value × Nat)} {pos : Nat}
    (hpos : pos ≤ buffer.size)
    (h : ∀ kind v n, decode kind pos = .ok (v, n) → pos + n ≤ buffer.size) {f : Field}
    {masks masks' : Masks} {v : Value} {n : Nat}
    (hfield : decodeField decode buffer f masks pos = .ok (v, n, masks')) :
    pos + n ≤ buffer.size := by
  unfold decodeField at hfield
  cases hslot : f.slot with
  | some slot =>
    rw [hslot] at hfield
    dsimp only at hfield
    cases hword : readUInt32 buffer pos with
    | error e => rw [hword] at hfield; cases hfield
    | ok bits =>
      rw [hword] at hfield
      cases hfield
      exact readUInt32_fits hword
  | none =>
    rw [hslot] at hfield
    cases hopen : masks.asks f with
    | error e => rw [hopen] at hfield; cases hfield
    | ok present =>
      rw [hopen] at hfield
      dsimp only at hfield
      split at hfield
      · cases hfield; exact hpos
      · split at hfield
        · obtain ⟨⟨w, m⟩, hdecode, hpair⟩ := map_ok_iff.mp hfield
          cases hpair
          exact h _ _ _ hdecode
        · cases hfield; exact hpos

/-- Fields are walked over up to the place where reading them ends. -/
theorem walkFields_measuresAs
    {size : Kind → Nat → Metered Nat} {decode : Kind → Nat → Except Error (Value × Nat)}
    (h : ∀ kind pos, pos ≤ buffer.size →
      MeasuresAs (size kind pos).outcome (decode kind pos) buffer pos)
    (hpresence : ∀ pos, pos ≤ buffer.size → (size .presence pos).outcome = .ok 0) :
    ∀ (fields : List Field) (masks : Masks) (pos : Nat), pos ≤ buffer.size →
      (walkFields size buffer fields masks pos).outcome.map Prod.fst =
          (decodeFields decode buffer fields masks pos).map Prod.snd ∧
        ∀ entries stop, decodeFields decode buffer fields masks pos = .ok (entries, stop) →
          stop ≤ buffer.size ∧ pos ≤ stop := by
  intro fields
  induction fields with
  | nil =>
    intro masks pos hpos
    exact ⟨rfl, fun entries stop heq ↦ by cases heq; exact ⟨hpos, Nat.le_refl _⟩⟩
  | cons f rest ih =>
    intro masks pos hpos
    rw [walkFields_cons_outcome, measureField_eq_decodeField (fun kind ↦ h kind pos hpos)
      (hpresence pos hpos) f masks, decodeFields]
    cases hfield : decodeField decode buffer f masks pos with
    | error e => exact ⟨rfl, fun _ _ heq ↦ by cases heq⟩
    | ok found =>
      obtain ⟨v, n, masks'⟩ := found
      have hfit : pos + n ≤ buffer.size :=
        decodeField_fits hpos (fun kind ↦ (h kind pos hpos).fits) hfield
      obtain ⟨houtcome, hstop⟩ := ih masks' (pos + n) hfit
      dsimp only [Except.map] at houtcome ⊢
      cases hrest : decodeFields decode buffer rest masks' (pos + n) with
      | error e =>
        rw [hrest] at houtcome
        exact ⟨houtcome, fun _ _ heq ↦ by cases heq⟩
      | ok reached =>
        rw [hrest] at houtcome
        refine ⟨houtcome, fun entries stop heq ↦ ?_⟩
        cases heq
        obtain ⟨hle, hge⟩ := hstop reached.1 reached.2 hrest
        exact ⟨hle, by omega⟩

theorem checkHeader_fits {pos header : Nat} (hpos : pos ≤ buffer.size)
    (h : checkHeader buffer pos header = .ok ()) : pos + header ≤ buffer.size := by
  unfold checkHeader ensure at h
  split at h
  · omega
  · split at h
    · assumption
    · cases h

end Message

namespace Schema

/-- An object is measured where a reference leads as it is read there, if it is wherever it may
stand. -/
theorem measureWithin_measuresAs_of {s : Schema} {free : Nat}
    (hobject : ∀ (object : Located) (pos : Nat), pos ≤ buffer.size →
      MeasuresAs (s.measureAt buffer free object pos).outcome
        (s.decodeAt buffer free object pos) buffer pos) (r : Reference) (pos : Nat)
    (hpos : pos ≤ buffer.size) :
    MeasuresAs (s.measureWithin free buffer r pos).outcome (s.readWithin free buffer r pos)
      buffer pos := by
  unfold measureWithin readWithin
  simp only [Metered.outcome_bind, Metered.outcome_lift]
  cases s.locate buffer pos r with
  | error e => exact MeasuresAs.error e
  | ok object => exact hobject object pos hpos

/-- An object is measured as it is read, whatever the number of guards left. -/
theorem measureAt_measuresAs (s : Schema) :
    ∀ (free : Nat) (object : Located) (pos : Nat), pos ≤ buffer.size →
      MeasuresAs (s.measureAt buffer free object pos).outcome
        (s.decodeAt buffer free object pos) buffer pos := by
  intro free
  induction free with
  | zero => intro object pos _; exact MeasuresAs.error _
  | succ free ih =>
    intro object pos hpos
    have hkind := Kind.measuresAs (measureWithin_measuresAs_of ih)
    rw [decodeAt_succ, measureAt_succ]
    simp only [walk, Metered.outcome_bind, Metered.outcome_lift]
    cases hheader : checkHeader buffer pos object.header with
    | error e => exact MeasuresAs.error e
    | ok u =>
      obtain ⟨houtcome, hstop⟩ := walkFields_measuresAs hkind
        (fun pos hpos ↦ by simp only [Kind.measure, Metered.outcome_lift]; exact if_pos hpos)
        object.combinator.fields .empty (pos + object.header) (checkHeader_fits hpos hheader)
      rw [List.take_length]
      cases hwalk : (walkFields (Kind.measure (s.measureWithin free buffer) buffer) buffer
          object.combinator.fields .empty (pos + object.header)).outcome with
      | error e =>
        rw [hwalk] at houtcome
        cases hfields : decodeFields (Kind.decode (s.readWithin free buffer) buffer) buffer
            object.combinator.fields .empty (pos + object.header) with
        | error e' => rw [hfields] at houtcome; cases houtcome; exact MeasuresAs.error e
        | ok reached => rw [hfields] at houtcome; cases houtcome
      | ok walked =>
        rw [hwalk] at houtcome
        cases hfields : decodeFields (Kind.decode (s.readWithin free buffer) buffer) buffer
            object.combinator.fields .empty (pos + object.header) with
        | error e' => rw [hfields] at houtcome; cases houtcome
        | ok reached =>
          rw [hfields] at houtcome
          have hsame : walked.1 = reached.2 := Except.ok.inj houtcome
          obtain ⟨hle, hge⟩ := hstop reached.1 reached.2 hfields
          show MeasuresAs (.ok (walked.1 - pos)) _ buffer pos
          rw [hsame]
          exact MeasuresAs.ok _ (by omega)

theorem measureWithin_measuresAs (s : Schema) (free : Nat) (r : Reference) (pos : Nat)
    (hpos : pos ≤ buffer.size) :
    MeasuresAs (s.measureWithin free buffer r pos).outcome (s.readWithin free buffer r pos)
      buffer pos :=
  measureWithin_measuresAs_of (s.measureAt_measuresAs free) r pos hpos

theorem measureKind_measuresAs (s : Schema) (held : Nat) (kind : Kind) (pos : Nat)
    (hpos : pos ≤ buffer.size) :
    MeasuresAs (s.measureKind held buffer kind pos).outcome (s.decodeKind held buffer kind pos)
      buffer pos := by
  rw [measureKind_eq_measure, decodeKind_eq_decode]
  exact Kind.measuresAs (s.measureWithin_measuresAs (Depth.limit - held)) kind pos hpos

/-- Measuring an object comes to what reading it comes to, with the object dropped: the same number
of bytes, or the same error. -/
theorem sizeOf_outcome_eq_read (s : Schema) (held : Nat) (r : Reference) (buffer : ByteArray)
    (offset : Nat) (hoffset : offset ≤ buffer.size) :
    (s.sizeOf held r buffer offset).outcome = (s.read held r buffer offset).map Prod.snd := by
  rw [sizeOf_eq_measureWithin, read_eq_readWithin]
  exact (s.measureWithin_measuresAs (Depth.limit - held) r offset hoffset).outcome_eq

/-- With 63 guards held, a line may hold no other one. -/
theorem sizeOf_lineBytes_outcome :
    0 ≤ lineBytes.size ∧
      (lineSchema.sizeOf 63 (.named "line") lineBytes 0).outcome =
        (lineSchema.read 63 (.named "line") lineBytes 0).map Prod.snd :=
  ⟨Nat.zero_le _, lineSchema.sizeOf_outcome_eq_read 63 (.named "line") lineBytes 0 (Nat.zero_le _)⟩

end Schema

end TypeLang
