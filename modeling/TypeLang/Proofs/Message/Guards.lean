import TypeLang.Message.Session
import TypeLang.Proofs.Message.Counting
import TypeLang.Proofs.Message.Measurement
import TypeLang.Proofs.Message.Reading

/-!
What guards are for. A reader that has fewer guards left to take than another comes to the same, or
gives up because its guards run out: `Limits` says so of values, of fields and of objects
(`Schema.decodeAt_limits`). Since what is read is never nested deeper than there are guards, and is
read whenever there are as many guards as it is deep, the guards decide on the nesting of objects
and on nothing else (`Session.nesting_limit_exact`).
-/

set_option autoImplicit false
set_option relaxedAutoImplicit false

namespace TypeLang

open Wire Message

/-- An outcome says that objects are nested too deeply. -/
def NestedTooDeeply {α : Type} (outcome : Except Error α) : Prop :=
  ∃ offset, outcome = .error (.malformed offset .nestedTooDeeply)

theorem NestedTooDeeply.map {α β : Type} {outcome : Except Error α} (h : NestedTooDeeply outcome)
    (f : α → β) : NestedTooDeeply (outcome.map f) := by
  obtain ⟨offset, rfl⟩ := h
  exact ⟨offset, rfl⟩

/-- A reading with fewer guards comes to what one with more guards comes to, unless its guards run
out. -/
def Limits {α : Type} (full limited : Except Error α) : Prop :=
  limited = full ∨ NestedTooDeeply limited

namespace Limits

variable {α β : Type} {full limited : Except Error α}

theorem refl (outcome : Except Error α) : Limits outcome outcome := .inl rfl

theorem map (h : Limits full limited) (f : α → β) : Limits (full.map f) (limited.map f) := by
  rcases h with rfl | hdeep
  · exact refl _
  · exact .inr (hdeep.map f)

/-- What goes on behind a reading goes on behind a limited one only where that comes to the same. -/
theorem andThen (h : Limits full limited) {next nextLimited : α → Except Error β}
    (hnext : ∀ a, full = .ok a → Limits (next a) (nextLimited a)) :
    Limits (full.bind next) (limited.bind nextLimited) := by
  rcases h with rfl | ⟨offset, rfl⟩
  · cases limited with
    | error e => exact refl _
    | ok a => exact hnext a rfl
  · exact .inr ⟨offset, rfl⟩

end Limits

/-! ### Values and fields -/

namespace Wire.Vectors

variable {α : Type} {read readLimited : Nat → Except Error (α × Nat)}

theorem readItems_limits (h : ∀ pos, Limits (read pos) (readLimited pos)) :
    ∀ (count : Nat) (done : Array α) (pos : Nat),
      Limits (readItems read done count pos) (readItems readLimited done count pos) := by
  intro count
  induction count with
  | zero => exact fun done pos ↦ .refl _
  | succ count ih =>
    intro done pos
    rw [readItems_succ_bind, readItems_succ_bind]
    refine (h pos).andThen fun (item, size) _ ↦ ?_
    by_cases hsize : size = 0
    · simp only [if_pos hsize]
      exact .refl _
    · simp only [if_neg hsize]
      exact ih (done.push item) (pos + size)

theorem read_limits (h : ∀ pos, Limits (read pos) (readLimited pos)) (buffer : ByteArray)
    (offset : Nat) (boxed : Bool) :
    Limits (Vectors.read read buffer offset boxed)
      (Vectors.read readLimited buffer offset boxed) := by
  unfold Vectors.read
  cases readHeader buffer offset boxed with
  | error e => exact .refl _
  | ok found => exact (readItems_limits h found.1 #[] (offset + found.2)).map _

end Wire.Vectors

variable {buffer : ByteArray}

theorem Kind.decode_limits {object objectLimited : Reference → Nat → Except Error (Object × Nat)}
    (h : ∀ r pos, Limits (object r pos) (objectLimited r pos)) (kind : Kind) (pos : Nat) :
    Limits (kind.decode object buffer pos) (kind.decode objectLimited buffer pos) := by
  induction kind generalizing pos with
  | vector boxed element ih => exact (Vectors.read_limits ih buffer pos boxed).map _
  | object typeName bare => exact (h (.typed typeName bare) pos).map _
  | generic _ | anyObject => exact (h .any pos).map _
  | _ => exact .refl _

namespace Message

variable {decode decodeLimited : Kind → Nat → Except Error (Value × Nat)}

theorem decodeField_limits (h : ∀ kind pos, Limits (decode kind pos) (decodeLimited kind pos))
    (f : Field) (masks : Masks) (pos : Nat) :
    Limits (decodeField decode buffer f masks pos)
      (decodeField decodeLimited buffer f masks pos) := by
  unfold decodeField
  split
  · exact .refl _
  · split
    · exact .refl _
    · split
      · exact .refl _
      · split
        · exact (h f.kind pos).map _
        · exact .refl _

theorem decodeFields_limits (h : ∀ kind pos, Limits (decode kind pos) (decodeLimited kind pos))
    (fields : List Field) (masks : Masks) (pos : Nat) :
    Limits (decodeFields decode buffer fields masks pos)
      (decodeFields decodeLimited buffer fields masks pos) := by
  induction fields generalizing masks pos with
  | nil => exact .refl _
  | cons f rest ih =>
    rw [decodeFields_cons_bind, decodeFields_cons_bind]
    exact (decodeField_limits h f masks pos).andThen fun found _ ↦ (ih _ _).map _

end Message

/-! ### Objects -/

namespace Schema

variable {s : Schema}

theorem readWithin_limits_of {free more : Nat}
    (h : ∀ (object : Located) (pos : Nat),
      Limits (s.decodeAt buffer more object pos) (s.decodeAt buffer free object pos))
    (r : Reference) (pos : Nat) :
    Limits (s.readWithin more buffer r pos) (s.readWithin free buffer r pos) := by
  rw [readWithin_eq_bind, readWithin_eq_bind]
  exact (Limits.refl _).andThen fun object _ ↦ h object pos

/-- An object is read with more guards as it is with fewer, unless the fewer run out. -/
theorem decodeAt_limits (s : Schema) {free more : Nat} (hle : free ≤ more) (object : Located)
    (pos : Nat) :
    Limits (s.decodeAt buffer more object pos) (s.decodeAt buffer free object pos) := by
  induction free generalizing more object pos with
  | zero => exact .inr ⟨pos, rfl⟩
  | succ free ih =>
    cases more with
    | zero => cases hle
    | succ more =>
      have hnested := readWithin_limits_of (ih (Nat.le_of_succ_le_succ hle))
      rw [decodeAt_succ_bind, decodeAt_succ_bind]
      exact (Limits.refl _).andThen fun _ _ ↦
        (decodeFields_limits (Kind.decode_limits hnested) _ _ _).map _

theorem readWithin_limits (s : Schema) {free more : Nat} (hle : free ≤ more) (r : Reference)
    (pos : Nat) : Limits (s.readWithin more buffer r pos) (s.readWithin free buffer r pos) :=
  readWithin_limits_of (s.decodeAt_limits hle) r pos

/-- What is read is nested no deeper than there were guards. -/
theorem height_le_of_readWithin {free pos n : Nat} {r : Reference} {o : Object}
    (hpos : pos ≤ buffer.size) (h : s.readWithin free buffer r pos = .ok (o, n)) :
    o.height ≤ free := by
  unfold readWithin at h
  split at h
  · cases h
  · obtain ⟨_, _, _, _, _, _, _, _, _, hheight⟩ := s.found_of_decodeAt free _ pos o n hpos h
    exact hheight

/-- What is read with some guards is read with fewer, if they are as many as it is deep. -/
theorem readWithin_of_height_le {free more pos n : Nat} {r : Reference} {o : Object}
    (hpos : pos ≤ buffer.size) (h : s.readWithin more buffer r pos = .ok (o, n))
    (hheight : o.height ≤ free) : s.readWithin free buffer r pos = .ok (o, n) := by
  unfold readWithin at h ⊢
  split at h
  · cases h
  · exact decodeAt_of_height_le hpos h hheight

/-- With some guards held a reading comes to what it comes to with none, unless too few are left. -/
theorem read_limits (s : Schema) (held : Nat) (r : Reference) (offset : Nat) :
    Limits (s.read 0 r buffer offset) (s.read held r buffer offset) :=
  s.readWithin_limits (Nat.sub_le Depth.limit held) r offset

variable {held offset n : Nat} {r : Reference} {o : Object}

/-- What is read with no guard held is read with some held, if its height and theirs are together
within the limit. -/
theorem read_of_le_limit (hoffset : offset ≤ buffer.size)
    (h : s.read 0 r buffer offset = .ok (o, n)) (hlimit : held + o.height ≤ Depth.limit) :
    s.read held r buffer offset = .ok (o, n) :=
  readWithin_of_height_le hoffset h (Nat.le_sub_of_add_le' hlimit)

theorem nestedTooDeeply_of_limit_lt (hheld : held ≤ Depth.limit) (hoffset : offset ≤ buffer.size)
    (h : s.read 0 r buffer offset = .ok (o, n)) (hlimit : Depth.limit < held + o.height) :
    NestedTooDeeply (s.read held r buffer offset) := by
  rcases s.read_limits held r offset with hsame | hdeep
  · -- Had it been read, it would be nested no deeper than the guards that are left.
    rw [h] at hsame
    have hheight : o.height ≤ Depth.limit - held := height_le_of_readWithin hoffset hsame
    omega
  · exact hdeep

theorem sizeOf_outcome (s : Schema) (held : Nat) (r : Reference) (hoffset : offset ≤ buffer.size) :
    (s.sizeOf held r buffer offset).outcome = (s.read held r buffer offset).map Prod.snd :=
  (s.measureWithin_measuresAs (Depth.limit - held) r offset hoffset).outcome_eq

end Schema

namespace Session

/-- The guards decide on the nesting of objects and on nothing else. An object that is read with no
guard held is read with some held just when its height and theirs are together within the limit,
and otherwise is nested too deeply; what is not read with no guard held fails for the same reason or
is nested too deeply. The same holds of measuring. Every call gives back the guards it took, also
where they are counted. -/
theorem nesting_limit_exact (x : Session) (hheld : x.held ≤ Depth.limit) (r : Reference)
    (buffer : ByteArray) (offset : Nat) (hoffset : offset ≤ buffer.size) :
    (∀ o n, ((start x.schema).read r buffer offset).1 = .ok (o, n) →
      (x.held + o.height ≤ Depth.limit → (x.read r buffer offset).1 = .ok (o, n)) ∧
      (Depth.limit < x.held + o.height → NestedTooDeeply (x.read r buffer offset).1)) ∧
    (∀ e, ((start x.schema).read r buffer offset).1 = .error e →
      (x.read r buffer offset).1 = .error e ∨ NestedTooDeeply (x.read r buffer offset).1) ∧
    (∀ n, ((start x.schema).sizeOf r buffer offset).1 = .ok n →
      ∃ o, ((start x.schema).read r buffer offset).1 = .ok (o, n) ∧
        (x.held + o.height ≤ Depth.limit → (x.sizeOf r buffer offset).1 = .ok n) ∧
        (Depth.limit < x.held + o.height → NestedTooDeeply (x.sizeOf r buffer offset).1)) ∧
    (∀ e, ((start x.schema).sizeOf r buffer offset).1 = .error e →
      (x.sizeOf r buffer offset).1 = .error e ∨ NestedTooDeeply (x.sizeOf r buffer offset).1) ∧
    (x.read r buffer offset).2.held = x.held ∧ (x.sizeOf r buffer offset).2.held = x.held ∧
    ∀ steps, Depth.limit - x.held < steps →
      (x.schema.readGuarded steps buffer r offset).Settles x.held (x.read r buffer offset).1 ∧
      (x.schema.sizeOfGuarded steps buffer r offset).Settles x.held
        (x.sizeOf r buffer offset).1 := by
  have hread (y : Session) :
      (y.read r buffer offset).1 = y.schema.read y.held r buffer offset := rfl
  have hsize (y : Session) : (y.sizeOf r buffer offset).1 =
      (y.schema.read y.held r buffer offset).map Prod.snd :=
    y.schema.sizeOf_outcome y.held r hoffset
  have hguarded : ∀ steps, Depth.limit - x.held < steps →
      (x.schema.readGuarded steps buffer r offset).Settles x.held (x.read r buffer offset).1 ∧
      (x.schema.sizeOfGuarded steps buffer r offset).Settles x.held
        (x.sizeOf r buffer offset).1 := fun steps hsteps ↦
    ⟨x.schema.readGuarded_settles hsteps buffer r offset,
      x.schema.sizeOfGuarded_settles hsteps buffer r offset⟩
  have hlimits : Limits (x.schema.read 0 r buffer offset)
      (x.schema.read x.held r buffer offset) := x.schema.read_limits x.held r offset
  simp only [hread, hsize] at hguarded ⊢
  refine ⟨fun o n h ↦ ⟨fun hlimit ↦ ?_, fun hlimit ↦ ?_⟩, fun e h ↦ ?_, fun n h ↦ ?_,
    fun e h ↦ ?_, rfl, rfl, hguarded⟩
  · exact Schema.read_of_le_limit hoffset h hlimit
  · exact Schema.nestedTooDeeply_of_limit_lt hheld hoffset h hlimit
  · have h : x.schema.read 0 r buffer offset = .error e := h
    rwa [h] at hlimits
  · obtain ⟨⟨o, _⟩, hfound, rfl⟩ := map_ok_iff.mp h
    refine ⟨o, hfound, fun hlimit ↦ ?_, fun hlimit ↦ ?_⟩
    · exact map_ok_iff.mpr ⟨_, Schema.read_of_le_limit hoffset hfound hlimit, rfl⟩
    · exact (Schema.nestedTooDeeply_of_limit_lt hheld hoffset hfound hlimit).map Prod.snd
  · have h : (x.schema.read 0 r buffer offset).map Prod.snd = .error e := h
    have hsizes := hlimits.map Prod.snd
    rwa [h] at hsizes

/-- A line whose next line has none is read with 62 guards held. With 63 it is nested too deeply,
and 63 guards are held behind that failure. -/
theorem nesting_limit_of_line :
    ∃ o, ((start lineSchema).read (.named "line") lineBytes 0).1 = .ok (o, 32) ∧
      ((⟨lineSchema, 62, .empty⟩ : Session).read (.named "line") lineBytes 0).1 = .ok (o, 32) ∧
      NestedTooDeeply ((⟨lineSchema, 63, .empty⟩ : Session).read (.named "line") lineBytes 0).1 ∧
      NestedTooDeeply
        ((⟨lineSchema, 63, .empty⟩ : Session).sizeOf (.named "line") lineBytes 0).1 ∧
      (lineSchema.readGuarded 2 lineBytes (.named "line") 0).Settles 63
        ((⟨lineSchema, 63, .empty⟩ : Session).read (.named "line") lineBytes 0).1 := by
  have hrun : (lineSchema.read 0 (.named "line") lineBytes 0).toOption.map
      (fun found => (found.1.height, found.2)) = some (2, 32) := by
    decide +kernel
  obtain ⟨⟨o, n⟩, hfound, hpair⟩ := Option.map_eq_some_iff.mp hrun
  obtain ⟨hheight, rfl⟩ := Prod.mk.inj hpair
  have hread : ((start lineSchema).read (.named "line") lineBytes 0).1 = .ok (o, 32) :=
    ok_of_toOption hfound
  have hsize : ((start lineSchema).sizeOf (.named "line") lineBytes 0).1 = .ok 32 :=
    ok_of_toOption (by decide +kernel)
  obtain ⟨hfits, -⟩ := nesting_limit_exact ⟨lineSchema, 62, .empty⟩ (by decide) (.named "line")
    lineBytes 0 (Nat.zero_le _)
  obtain ⟨hdeep, -, hdeepSize, -, -, -, hguarded⟩ := nesting_limit_exact
    ⟨lineSchema, 63, .empty⟩ (by decide) (.named "line") lineBytes 0 (Nat.zero_le _)
  obtain ⟨o', hread', -, hdeepSize⟩ := hdeepSize 32 hsize
  obtain ⟨rfl, -⟩ := Prod.mk.inj (Except.ok.inj (hread.symm.trans hread'))
  have hheight : o.height = 2 := hheight
  have hover : Depth.limit < 63 + o.height := by
    rw [hheight]
    decide
  refine ⟨o, hread, (hfits o 32 hread).1 ?_, (hdeep o 32 hread).2 hover, hdeepSize hover,
    (hguarded 2 (by decide)).1⟩
  rw [hheight]
  decide

end Session

end TypeLang
