import TypeLang.Proofs.Message.Nesting

/-!
Guards that are counted. Reading and measuring are told how many guards are left to take. Here they
share one count of the guards that are held instead: an object takes a guard before it is looked at
and gives it back behind it, whether it was read or not (`Guarded.within`), and nothing else touches
the count. `Schema.readGuarded_settles` and `Schema.sizeOfGuarded_settles` show that both come to
the same, and that the count is again what it was.
-/

set_option autoImplicit false
set_option relaxedAutoImplicit false

namespace TypeLang

open Wire Message

/-- Steps that share a count of the guards held. The count outlives a failure. Steps that are cut
short come to nothing at all. -/
abbrev Guarded := ExceptT Error (StateT Nat Option)

namespace Guarded

variable {α β : Type}

/-- An outcome that asks for no guard. -/
def lift (outcome : Except Error α) : Guarded α := ExceptT.mk (pure outcome)

/-- Steps that come to no end. -/
def cutShort : Guarded α := ExceptT.mk fun _ => none

/-- Steps taken under one guard more, which is given back behind them, whatever they come to. -/
def within (offset : Nat) (m : Guarded α) : Guarded α := do
  set (← lift (Depth.enter (← get) offset))
  ExceptT.mk do
    let outcome ← m.run
    modify (· - 1)
    return outcome

/-- Steps come to an outcome, and as many guards are held behind them as before. -/
def Settles (m : Guarded α) (held : Nat) (outcome : Except Error α) : Prop :=
  m.run.run held = some (outcome, held)

variable {m : Guarded α} {held offset : Nat} {outcome : Except Error α}

theorem settles_lift (outcome : Except Error α) (held : Nat) :
    (lift outcome).Settles held outcome := rfl

theorem settles_pure (a : α) (held : Nat) : (pure a : Guarded α).Settles held (.ok a) := rfl

theorem Settles.bind {next : α → Guarded β} {nextOutcome : α → Except Error β}
    (h : m.Settles held outcome) (hnext : ∀ a, (next a).Settles held (nextOutcome a)) :
    (m >>= next).Settles held (outcome.bind nextOutcome) := by
  have hrun : (m >>= next).run.run held =
      (m.run.run held).bind fun (found, held) => (ExceptT.bindCont next found).run held := rfl
  unfold Settles at h ⊢
  rw [hrun, h]
  cases outcome with
  | error e => rfl
  | ok a => exact hnext a

theorem Settles.map (h : m.Settles held outcome) (f : α → β) :
    (do return f (← m) : Guarded β).Settles held (outcome.map f) := by
  have hmap : outcome.map f = outcome.bind fun a => .ok (f a) := by cases outcome <;> rfl
  rw [hmap]
  exact h.bind fun a ↦ settles_pure (f a) held

theorem run_within (m : Guarded α) (offset held : Nat) :
    (within offset m).run.run held = match Depth.enter held offset with
      | .error e => some (.error e, held)
      | .ok held => (m.run.run held).map fun (outcome, held) => (outcome, held - 1) := by
  unfold within
  show StateT.run (ExceptT.bindCont _ (Depth.enter held offset)) held = _
  cases Depth.enter held offset with
  | error e => rfl
  | ok entered =>
    show (m.run.run entered).bind _ = (m.run.run entered).map _
    cases m.run.run entered <;> rfl

/-- What settles under one guard more settles, if there is one. -/
theorem Settles.within (h : m.Settles (held + 1) outcome) (hheld : held < Depth.limit)
    (offset : Nat) : (Guarded.within offset m).Settles held outcome := by
  have henter : Depth.enter held offset = .ok (held + 1) := if_pos hheld
  unfold Settles at h ⊢
  rw [run_within, henter]
  simp only [h]
  rfl

theorem settles_within_exceeded (m : Guarded α) (hheld : Depth.limit ≤ held) (offset : Nat) :
    (Guarded.within offset m).Settles held (.error (Depth.exceeded offset)) := by
  have henter : Depth.enter held offset = .error (Depth.exceeded offset) :=
    if_neg (Nat.not_lt.mpr hheld)
  unfold Settles
  rw [run_within, henter]

end Guarded

/-! ### Reading -/

namespace Wire.Vectors

variable {α : Type}

/-- Elements that start at a place, with what stands before them in `done`, and where they end. -/
def readItemsGuarded (read : Nat → Guarded (α × Nat)) (done : Array α) :
    Nat → Nat → Guarded (Array α × Nat)
  | 0, pos => return (done, pos)
  | count + 1, pos => do
    let (item, size) ← read pos
    if size = 0 then return (done.push item, pos)
    else readItemsGuarded read (done.push item) count (pos + size)

/-- The elements of the vector at a place, and the length of the vector. -/
def readGuarded (read : Nat → Guarded (α × Nat)) (buffer : ByteArray) (offset : Nat)
    (boxed : Bool) : Guarded (List α × Nat) := do
  let (count, header) ← .lift (readHeader buffer offset boxed)
  let (items, stop) ← readItemsGuarded read #[] count (offset + header)
  return (items.toList, stop - offset)

/-- Behind an item that occupies bytes stand the others. -/
theorem readItems_succ_bind (read : Nat → Except Error (α × Nat)) (done : Array α)
    (count pos : Nat) :
    readItems read done (count + 1) pos = (read pos).bind fun (item, size) =>
      if size = 0 then .ok (done.push item, pos)
      else readItems read (done.push item) count (pos + size) := by
  rw [readItems]
  cases read pos with
  | error e => rfl
  | ok found =>
    obtain ⟨item, size⟩ := found
    cases size <;> rfl

variable {read : Nat → Except Error (α × Nat)} {guarded : Nat → Guarded (α × Nat)} {held : Nat}

theorem readItemsGuarded_settles (h : ∀ pos, (guarded pos).Settles held (read pos)) :
    ∀ (count : Nat) (done : Array α) (pos : Nat),
      (readItemsGuarded guarded done count pos).Settles held (readItems read done count pos) := by
  intro count
  induction count with
  | zero => exact fun done pos ↦ Guarded.settles_pure (done, pos) held
  | succ count ih =>
    intro done pos
    rw [readItems_succ_bind]
    refine (h pos).bind fun (item, size) ↦ ?_
    by_cases hsize : size = 0
    · simp only [if_pos hsize]
      exact Guarded.settles_pure (done.push item, pos) held
    · simp only [if_neg hsize]
      exact ih (done.push item) (pos + size)

theorem readGuarded_settles (h : ∀ pos, (guarded pos).Settles held (read pos))
    (buffer : ByteArray) (offset : Nat) (boxed : Bool) :
    (readGuarded guarded buffer offset boxed).Settles held
      (Vectors.read read buffer offset boxed) := by
  have hread : Vectors.read read buffer offset boxed =
      (readHeader buffer offset boxed).bind fun (count, header) =>
        (readItems read #[] count (offset + header)).map fun (items, stop) =>
          (items.toList, stop - offset) := by
    unfold Vectors.read
    cases readHeader buffer offset boxed <;> rfl
  rw [hread]
  refine (Guarded.settles_lift _ held).bind fun (count, header) ↦ ?_
  exact (readItemsGuarded_settles h count #[] (offset + header)).map _

end Wire.Vectors

/-- The value of some kind at a place, and the number of bytes it occupies. Objects are read by
`object`, and only objects ask for guards. -/
def Kind.decodeGuarded (object : Reference → Nat → Guarded (Object × Nat)) (buffer : ByteArray) :
    Kind → Nat → Guarded (Value × Nat)
  | vector boxed element, pos => do
    let (items, size) ←
      Vectors.readGuarded (fun at_ => element.decodeGuarded object buffer at_) buffer pos boxed
    return (.vector items, size)
  | .object typeName bare, pos => do
    let (o, size) ← object (.typed typeName bare) pos
    return (.object o, size)
  | generic _, pos | anyObject, pos => do
    let (o, size) ← object .any pos
    return (.object o, size)
  -- The other kinds hold no objects, so it does not matter how these would be read.
  | plain, pos => .lift (plain.decode (fun _ pos => .error (Depth.exceeded pos)) buffer pos)

theorem Kind.decodeGuarded_settles {buffer : ByteArray} {held : Nat}
    {object : Reference → Nat → Except Error (Object × Nat)}
    {guarded : Reference → Nat → Guarded (Object × Nat)}
    (h : ∀ r pos, (guarded r pos).Settles held (object r pos)) (kind : Kind) (pos : Nat) :
    (kind.decodeGuarded guarded buffer pos).Settles held (kind.decode object buffer pos) := by
  induction kind generalizing pos with
  | vector boxed element ih => exact (Vectors.readGuarded_settles ih buffer pos boxed).map _
  | object typeName bare => exact (h (.typed typeName bare) pos).map _
  | generic _ | anyObject => exact (h .any pos).map _
  | _ => exact Guarded.settles_lift _ held

namespace Message

/-- The entry of a field at a place, the bytes it occupies, and the masks behind it. -/
def decodeFieldGuarded (decode : Kind → Nat → Guarded (Value × Nat)) (buffer : ByteArray)
    (f : Field) (masks : Masks) (pos : Nat) : Guarded (Value × Nat × Masks) :=
  match f.slot with
  | some slot => do
    let bits ← .lift (readUInt32 buffer pos)
    return (.mask bits, 4, masks.set slot bits)
  | none => do
    let present ← .lift (masks.asks f)
    if f.isPresence then return (.bool present, 0, masks)
    else if present then do
      let (v, size) ← decode f.kind pos
      return (v, size, masks)
    else return (f.kind.zero, 0, masks)

/-- The entries of fields that start at a place, and where the fields end. -/
def decodeFieldsGuarded (decode : Kind → Nat → Guarded (Value × Nat)) (buffer : ByteArray) :
    List Field → Masks → Nat → Guarded (Entries × Nat)
  | [], _, pos => return ([], pos)
  | f :: rest, masks, pos => do
    let (v, size, masks) ← decodeFieldGuarded decode buffer f masks pos
    let (entries, stop) ← decodeFieldsGuarded decode buffer rest masks (pos + size)
    return ((f.name, v) :: entries, stop)

/-- A field that is no mask is read as its gate says. -/
theorem decodeField_bind_asks (decode : Kind → Nat → Except Error (Value × Nat))
    (buffer : ByteArray) {f : Field} (hslot : f.slot = none) (masks : Masks) (pos : Nat) :
    decodeField decode buffer f masks pos = (masks.asks f).bind fun present =>
      if f.isPresence then .ok (.bool present, 0, masks)
      else if present then (decode f.kind pos).map fun (v, size) => (v, size, masks)
      else .ok (f.kind.zero, 0, masks) := by
  unfold decodeField
  rw [hslot]
  cases masks.asks f <;> rfl

/-- Behind a field stand the others. -/
theorem decodeFields_cons_bind (decode : Kind → Nat → Except Error (Value × Nat))
    (buffer : ByteArray) (f : Field) (rest : List Field) (masks : Masks) (pos : Nat) :
    decodeFields decode buffer (f :: rest) masks pos =
      (decodeField decode buffer f masks pos).bind fun (v, size, behind) =>
        (decodeFields decode buffer rest behind (pos + size)).map fun (entries, stop) =>
          ((f.name, v) :: entries, stop) := by
  rw [decodeFields]
  cases decodeField decode buffer f masks pos <;> rfl

variable {decode : Kind → Nat → Except Error (Value × Nat)}
  {guarded : Kind → Nat → Guarded (Value × Nat)} {held : Nat}

theorem decodeFieldGuarded_settles
    (h : ∀ kind pos, (guarded kind pos).Settles held (decode kind pos)) (buffer : ByteArray)
    (f : Field) (masks : Masks) (pos : Nat) :
    (decodeFieldGuarded guarded buffer f masks pos).Settles held
      (decodeField decode buffer f masks pos) := by
  cases hslot : f.slot with
  | some slot =>
    simp only [decodeFieldGuarded, decodeField, hslot]
    exact (Guarded.settles_lift _ held).map _
  | none =>
    rw [decodeField_bind_asks decode buffer hslot]
    simp only [decodeFieldGuarded, hslot]
    refine (Guarded.settles_lift _ held).bind fun present ↦ ?_
    by_cases hpresence : f.isPresence
    · simp only [if_pos hpresence]
      exact Guarded.settles_pure _ held
    · by_cases hpresent : present
      · simp only [if_neg hpresence, if_pos hpresent]
        exact (h f.kind pos).map _
      · simp only [if_neg hpresence, if_neg hpresent]
        exact Guarded.settles_pure _ held

theorem decodeFieldsGuarded_settles
    (h : ∀ kind pos, (guarded kind pos).Settles held (decode kind pos)) (buffer : ByteArray)
    (fields : List Field) (masks : Masks) (pos : Nat) :
    (decodeFieldsGuarded guarded buffer fields masks pos).Settles held
      (decodeFields decode buffer fields masks pos) := by
  induction fields generalizing masks pos with
  | nil => exact Guarded.settles_pure _ held
  | cons f rest ih =>
    rw [decodeFields_cons_bind]
    exact (decodeFieldGuarded_settles h buffer f masks pos).bind fun (_, size, behind) ↦
      (ih behind (pos + size)).map _

end Message

namespace Schema

/-- The object at a place and the number of bytes it occupies, if no more objects than `steps` are
nested. -/
def decodeAtGuarded (s : Schema) (buffer : ByteArray) :
    Nat → Located → Nat → Guarded (Object × Nat)
  | 0, _, _ => .cutShort
  | steps + 1, object, offset => .within offset do
    let nested (r : Reference) (pos : Nat) : Guarded (Object × Nat) := do
      let inner ← .lift (s.locate buffer pos r)
      s.decodeAtGuarded buffer steps inner pos
    let c := object.combinator
    .lift (checkHeader buffer offset object.header)
    let (entries, stop) ← decodeFieldsGuarded (Kind.decodeGuarded nested buffer) buffer c.fields
      .empty (offset + object.header)
    return (⟨c.name, c.tag, entries⟩, stop - offset)

/-- The object that a reference leads to and the number of bytes it occupies. -/
def readGuarded (s : Schema) (steps : Nat) (buffer : ByteArray) (r : Reference) (offset : Nat) :
    Guarded (Object × Nat) := do
  let object ← .lift (s.locate buffer offset r)
  s.decodeAtGuarded buffer steps object offset

theorem readWithin_eq_bind (s : Schema) (free : Nat) (buffer : ByteArray) (r : Reference)
    (offset : Nat) : s.readWithin free buffer r offset =
      (s.locate buffer offset r).bind fun object => s.decodeAt buffer free object offset := by
  unfold readWithin
  cases s.locate buffer offset r <;> rfl

theorem decodeAt_succ_bind (s : Schema) (buffer : ByteArray) (free : Nat) (object : Located)
    (offset : Nat) : s.decodeAt buffer (free + 1) object offset =
      (checkHeader buffer offset object.header).bind fun _ =>
        (decodeFields (Kind.decode (s.readWithin free buffer) buffer) buffer
          object.combinator.fields .empty (offset + object.header)).map
          fun (entries, stop) =>
            (⟨object.combinator.name, object.combinator.tag, entries⟩, stop - offset) := by
  rw [decodeAt_succ]
  cases checkHeader buffer offset object.header <;> rfl

theorem readGuarded_settles_of {s : Schema} {buffer : ByteArray} {steps free held : Nat}
    (h : ∀ object offset, (s.decodeAtGuarded buffer steps object offset).Settles held
      (s.decodeAt buffer free object offset)) (r : Reference) (offset : Nat) :
    (s.readGuarded steps buffer r offset).Settles held (s.readWithin free buffer r offset) := by
  rw [readWithin_eq_bind]
  exact (Guarded.settles_lift _ held).bind fun object ↦ h object offset

/-- An object is read as if the guards that are not held were left to take. -/
theorem decodeAtGuarded_settles (s : Schema) (buffer : ByteArray) {steps held : Nat}
    (hsteps : Depth.limit - held < steps) (object : Located) (offset : Nat) :
    (s.decodeAtGuarded buffer steps object offset).Settles held
      (s.decodeAt buffer (Depth.limit - held) object offset) := by
  induction steps generalizing held object offset with
  | zero => cases hsteps
  | succ steps ih =>
    rw [decodeAtGuarded]
    rcases Nat.lt_or_ge held Depth.limit with hheld | hheld
    · -- The objects inside are read with one guard more held, so with one less left to take.
      have hfree : Depth.limit - held = (Depth.limit - (held + 1)) + 1 := by omega
      have hnestedSteps : Depth.limit - (held + 1) < steps := by omega
      have hnested := readGuarded_settles_of (s := s) fun inner pos ↦ ih hnestedSteps inner pos
      rw [hfree, decodeAt_succ_bind]
      refine Guarded.Settles.within ?_ hheld offset
      refine (Guarded.settles_lift _ _).bind fun _ ↦ ?_
      exact (decodeFieldsGuarded_settles (Kind.decodeGuarded_settles hnested) buffer _ _ _).map _
    · rw [Nat.sub_eq_zero_of_le hheld]
      exact Guarded.settles_within_exceeded _ hheld offset

/-- Reading with counted guards comes to what reading with a number of guards comes to, and gives
back the guards it took. -/
theorem readGuarded_settles (s : Schema) {steps held : Nat} (hsteps : Depth.limit - held < steps)
    (buffer : ByteArray) (r : Reference) (offset : Nat) :
    (s.readGuarded steps buffer r offset).Settles held (s.read held r buffer offset) :=
  readGuarded_settles_of (s.decodeAtGuarded_settles buffer hsteps) r offset

end Schema

/-! ### Measuring -/

namespace Wire.Vectors

/-- Where some elements end that start at a place, from the lengths of the elements. -/
def walkItemsGuarded (size : Nat → Guarded Nat) : Nat → Nat → Guarded Nat
  | 0, pos => return pos
  | count + 1, pos => do
    let length ← size pos
    if length = 0 then return pos
    else walkItemsGuarded size count (pos + length)

/-- The length of the vector at a place, from the lengths of its elements. -/
def sizeOfGuarded (size : Nat → Guarded Nat) (buffer : ByteArray) (offset : Nat) (boxed : Bool) :
    Guarded Nat := do
  let (count, header) ← .lift (readHeader buffer offset boxed)
  let stop ← walkItemsGuarded size count (offset + header)
  return stop - offset

variable {size : Nat → Metered Nat} {guarded : Nat → Guarded Nat} {held : Nat}

theorem walkItemsGuarded_settles (h : ∀ pos, (guarded pos).Settles held (size pos).outcome) :
    ∀ (count : Nat) (log : WalkLog) (pos : Nat),
      (walkItemsGuarded guarded count pos).Settles held (walkItems size log count pos).outcome := by
  intro count
  induction count with
  | zero => exact fun log pos ↦ Guarded.settles_pure pos held
  | succ count ih =>
    intro log pos
    have hwalk : (walkItems size log (count + 1) pos).outcome =
        (size pos).outcome.bind fun length => if length = 0 then .ok pos
          else (walkItems size (log ++ (size pos).log) count (pos + length)).outcome := by
      rw [walkItems]
      cases (size pos).outcome with
      | error e => rfl
      | ok length => cases length <;> rfl
    rw [hwalk]
    refine (h pos).bind fun length ↦ ?_
    by_cases hlength : length = 0
    · simp only [if_pos hlength]
      exact Guarded.settles_pure pos held
    · simp only [if_neg hlength]
      exact ih (log ++ (size pos).log) (pos + length)

theorem sizeOfGuarded_settles (h : ∀ pos, (guarded pos).Settles held (size pos).outcome)
    (buffer : ByteArray) (offset : Nat) (boxed : Bool) :
    (sizeOfGuarded guarded buffer offset boxed).Settles held
      (Vectors.sizeOf size buffer offset boxed).outcome := by
  unfold Vectors.sizeOf
  simp only [Metered.outcome_bind]
  refine (Guarded.settles_lift _ held).bind fun (count, header) ↦ ?_
  refine (walkItemsGuarded_settles h count .empty (offset + header)).bind fun stop ↦ ?_
  exact Guarded.settles_pure (stop - offset) held

end Wire.Vectors

/-- The length of a value of some kind at a place. The lengths of objects are given by `object`, and
only objects ask for guards. -/
def Kind.measureGuarded (object : Reference → Nat → Guarded Nat) (buffer : ByteArray) :
    Kind → Nat → Guarded Nat
  | vector boxed element, pos =>
    Vectors.sizeOfGuarded (fun at_ => element.measureGuarded object buffer at_) buffer pos boxed
  | .object typeName bare, pos => object (.typed typeName bare) pos
  | generic _, pos | anyObject, pos => object .any pos
  -- The other kinds hold no objects, so it does not matter what their lengths would be.
  | plain, pos => .lift (plain.measure (fun _ pos => .fail (Depth.exceeded pos)) buffer pos).outcome

theorem Kind.measureGuarded_settles {buffer : ByteArray} {held : Nat}
    {object : Reference → Nat → Metered Nat} {guarded : Reference → Nat → Guarded Nat}
    (h : ∀ r pos, (guarded r pos).Settles held (object r pos).outcome) (kind : Kind) (pos : Nat) :
    (kind.measureGuarded guarded buffer pos).Settles held
      (kind.measure object buffer pos).outcome := by
  induction kind generalizing pos with
  | vector boxed element ih => exact Vectors.sizeOfGuarded_settles ih buffer pos boxed
  | object typeName bare => exact h (.typed typeName bare) pos
  | generic _ | anyObject => exact h .any pos
  | _ => exact Guarded.settles_lift _ held

namespace Message

/-- Where some fields end that start at a place, and the masks read up to there. -/
def walkFieldsGuarded (size : Kind → Nat → Guarded Nat) (buffer : ByteArray) :
    List Field → Masks → Nat → Guarded (Nat × Masks)
  | [], masks, pos => return (pos, masks)
  | f :: rest, masks, pos =>
    match f.slot with
    | some slot => do
      let bits ← .lift (readUInt32 buffer pos)
      walkFieldsGuarded size buffer rest (masks.set slot bits) (pos + 4)
    | none => do
      let present ← .lift (masks.asks f)
      if present then do
        let length ← size f.kind pos
        walkFieldsGuarded size buffer rest masks (pos + length)
      else walkFieldsGuarded size buffer rest masks pos

variable {size : Kind → Nat → Metered Nat} {guarded : Kind → Nat → Guarded Nat} {held : Nat}

theorem walkFieldsGuarded_settles
    (h : ∀ kind pos, (guarded kind pos).Settles held (size kind pos).outcome) (buffer : ByteArray)
    (fields : List Field) (masks : Masks) (pos : Nat) :
    (walkFieldsGuarded guarded buffer fields masks pos).Settles held
      (walkFields size buffer fields masks pos).outcome := by
  induction fields generalizing masks pos with
  | nil => exact Guarded.settles_pure (pos, masks) held
  | cons f rest ih =>
    rw [walkFieldsGuarded, walkFields]
    cases f.slot with
    | some slot =>
      simp only [Metered.outcome_bind]
      exact (Guarded.settles_lift _ held).bind fun bits ↦ ih (masks.set slot bits) (pos + 4)
    | none =>
      simp only [Metered.outcome_bind]
      refine (Guarded.settles_lift _ held).bind fun present ↦ ?_
      by_cases hpresent : present
      · simp only [if_pos hpresent, Metered.outcome_bind]
        exact (h f.kind pos).bind fun length ↦ ih masks (pos + length)
      · simp only [if_neg hpresent]
        exact ih masks pos

end Message

namespace Schema

/-- The length of the object at a place, if no more objects than `steps` are nested. -/
def measureAtGuarded (s : Schema) (buffer : ByteArray) : Nat → Located → Nat → Guarded Nat
  | 0, _, _ => .cutShort
  | steps + 1, object, offset => .within offset do
    let nested (r : Reference) (pos : Nat) : Guarded Nat := do
      let inner ← .lift (s.locate buffer pos r)
      s.measureAtGuarded buffer steps inner pos
    .lift (checkHeader buffer offset object.header)
    let (stop, _) ← walkFieldsGuarded (Kind.measureGuarded nested buffer) buffer
      object.combinator.fields .empty (offset + object.header)
    return stop - offset

/-- The number of bytes of the object that a reference leads to. -/
def sizeOfGuarded (s : Schema) (steps : Nat) (buffer : ByteArray) (r : Reference) (offset : Nat) :
    Guarded Nat := do
  let object ← .lift (s.locate buffer offset r)
  s.measureAtGuarded buffer steps object offset

theorem sizeOfGuarded_settles_of {s : Schema} {buffer : ByteArray} {steps free held : Nat}
    (h : ∀ object offset, (s.measureAtGuarded buffer steps object offset).Settles held
      (s.measureAt buffer free object offset).outcome) (r : Reference) (offset : Nat) :
    (s.sizeOfGuarded steps buffer r offset).Settles held
      (s.measureWithin free buffer r offset).outcome := by
  unfold measureWithin
  simp only [Metered.outcome_bind]
  exact (Guarded.settles_lift _ held).bind fun object ↦ h object offset

theorem measureAt_succ_outcome (s : Schema) (buffer : ByteArray) (free : Nat) (object : Located)
    (offset : Nat) : (s.measureAt buffer (free + 1) object offset).outcome =
      (checkHeader buffer offset object.header).bind fun _ =>
        (walkFields (Kind.measure (s.measureWithin free buffer) buffer) buffer
          object.combinator.fields .empty (offset + object.header)).outcome.map
          fun (stop, _) => stop - offset := by
  rw [measureAt_succ]
  simp only [walk, Metered.outcome_bind, List.take_length]
  cases checkHeader buffer offset object.header with
  | error e => rfl
  | ok _ =>
    simp only [Metered.outcome_lift]
    cases (walkFields (Kind.measure (s.measureWithin free buffer) buffer) buffer
      object.combinator.fields .empty (offset + object.header)).outcome <;> rfl

/-- An object is measured as if the guards that are not held were left to take. -/
theorem measureAtGuarded_settles (s : Schema) (buffer : ByteArray) {steps held : Nat}
    (hsteps : Depth.limit - held < steps) (object : Located) (offset : Nat) :
    (s.measureAtGuarded buffer steps object offset).Settles held
      (s.measureAt buffer (Depth.limit - held) object offset).outcome := by
  induction steps generalizing held object offset with
  | zero => cases hsteps
  | succ steps ih =>
    rw [measureAtGuarded]
    rcases Nat.lt_or_ge held Depth.limit with hheld | hheld
    · have hfree : Depth.limit - held = (Depth.limit - (held + 1)) + 1 := by omega
      have hnestedSteps : Depth.limit - (held + 1) < steps := by omega
      have hnested := sizeOfGuarded_settles_of (s := s) fun inner pos ↦ ih hnestedSteps inner pos
      rw [hfree, measureAt_succ_outcome]
      refine Guarded.Settles.within ?_ hheld offset
      refine (Guarded.settles_lift _ _).bind fun _ ↦ ?_
      exact (walkFieldsGuarded_settles (Kind.measureGuarded_settles hnested) buffer _ _ _).map _
    · rw [Nat.sub_eq_zero_of_le hheld]
      exact Guarded.settles_within_exceeded _ hheld offset

/-- Measuring with counted guards comes to what measuring with a number of guards comes to, and
gives back the guards it took. -/
theorem sizeOfGuarded_settles (s : Schema) {steps held : Nat}
    (hsteps : Depth.limit - held < steps) (buffer : ByteArray) (r : Reference) (offset : Nat) :
    (s.sizeOfGuarded steps buffer r offset).Settles held
      (s.sizeOf held r buffer offset).outcome :=
  sizeOfGuarded_settles_of (s.measureAtGuarded_settles buffer hsteps) r offset

end Schema

end TypeLang
