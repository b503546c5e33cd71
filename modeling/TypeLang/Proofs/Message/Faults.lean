import TypeLang.Message.View
import TypeLang.Proofs.Message.Nesting
import TypeLang.Proofs.Schema.Resolution

/-!
Failures of reading and of measuring. `ReadingFault` lists them: the bytes are to blame, a type
stands for nothing, or the place is so far beyond the buffer that what stands behind it has no
place. Nothing is read beyond a buffer, so a reading that gets on from where it starts stays within
it, and only the place where it starts can be out of reach. `ReadsFrom` says both, and passes from
the parts of a value to the value and from fields to objects (`Schema.read_readsFrom`,
`Schema.sizeOf_readsFrom`). Where every type that a field refers to stands for something, the bytes
alone are to blame (`BlamesBytes`).
-/

set_option autoImplicit false
set_option relaxedAutoImplicit false

namespace TypeLang

open Wire Message

namespace Wire

/-- A place lies beyond a buffer, and so far that the place four bytes behind it has no number. -/
def OutOfReach (size pos : Nat) : Prop := size < pos ∧ placeLimit ≤ pos + 4

variable {size pos stop : Nat}

/-- What has not got beyond the buffer is out of reach only where it started. -/
theorem OutOfReach.of_le_max (h : OutOfReach size stop) (hstop : stop ≤ max pos size) :
    OutOfReach size pos := by
  unfold OutOfReach at *
  omega

theorem not_outOfReach_of_le (h : pos ≤ size) : ¬ OutOfReach size pos :=
  fun hplace ↦ Nat.not_lt.mpr h hplace.1

end Wire

/-- Why reading at a place of a buffer may fail. Types stand for something unless `dangling`. -/
inductive ReadingFault (dangling : Prop) (size pos : Nat) : Error → Prop
  | bytes {e : Error} (hdecode : e.isDecodeError = true) : ReadingFault dangling size pos e
  | place (hplace : OutOfReach size pos) : ReadingFault dangling size pos .overflow
  | type (hdangling : dangling) (typeName : String) :
      ReadingFault dangling size pos (.unknownType typeName)

/-- Reading that starts at a place fails in one of those ways, or ends at a place, `stop`, that is
not beyond the buffer unless it is not beyond where it started. -/
structure ReadsFrom (dangling : Prop) (buffer : ByteArray) (pos : Nat) {α : Type} (stop : α → Nat)
    (outcome : Except Error α) : Prop where
  fault : ∀ e, outcome = .error e → ReadingFault dangling buffer.size pos e
  stop_le : ∀ a, outcome = .ok a → stop a ≤ max pos buffer.size

namespace ReadsFrom

variable {α β : Type} {dangling : Prop} {buffer : ByteArray} {pos mid : Nat} {stop : α → Nat}
  {next : β → Nat} {outcome : Except Error α}

theorem ok {a : α} (h : stop a ≤ max pos buffer.size) :
    ReadsFrom dangling buffer pos stop (.ok a) :=
  ⟨nofun, fun _ heq ↦ Except.ok.inj heq ▸ h⟩

/-- What ends where it starts. -/
theorem stay {a : α} (h : stop a = pos) : ReadsFrom dangling buffer pos stop (.ok a) :=
  ok (h ▸ Nat.le_max_left _ _)

theorem error {e : Error} (h : ReadingFault dangling buffer.size pos e) :
    ReadsFrom dangling buffer pos stop (.error e) :=
  ⟨fun _ heq ↦ Except.error.inj heq ▸ h, nofun⟩

theorem bytes {e : Error} (h : e.isDecodeError = true) :
    ReadsFrom dangling buffer pos stop (.error e) := error (.bytes h)

/-- What starts where another reading ended starts where that one did. -/
theorem behind (h : ReadsFrom dangling buffer mid stop outcome)
    (hmid : mid ≤ max pos buffer.size) : ReadsFrom dangling buffer pos stop outcome := by
  refine ⟨fun e he ↦ ?_, fun a ha ↦ ?_⟩
  · cases h.fault e he with
    | bytes hdecode => exact .bytes hdecode
    | place hplace => exact .place (hplace.of_le_max hmid)
    | type hdangling typeName => exact .type hdangling typeName
  · have := h.stop_le a ha
    omega

theorem bind (h : ReadsFrom dangling buffer pos stop outcome) {f : α → Except Error β}
    (hf : ∀ a, outcome = .ok a → ReadsFrom dangling buffer (stop a) next (f a)) :
    ReadsFrom dangling buffer pos next (outcome >>= f) := by
  cases outcome with
  | error e => exact error (h.fault e rfl)
  | ok a => exact (hf a rfl).behind (h.stop_le a rfl)

theorem map_le (h : ReadsFrom dangling buffer pos stop outcome) {f : α → β}
    (hf : ∀ a, next (f a) ≤ max pos (stop a)) :
    ReadsFrom dangling buffer pos next (outcome.map f) := by
  cases outcome with
  | error e => exact error (h.fault e rfl)
  | ok a =>
    have hstop := h.stop_le a rfl
    have hnext := hf a
    exact ok (by omega)

theorem map (h : ReadsFrom dangling buffer pos stop outcome) {f : α → β}
    (hf : ∀ a, next (f a) = stop a) : ReadsFrom dangling buffer pos next (outcome.map f) :=
  h.map_le fun a ↦ hf a ▸ Nat.le_max_right _ _

end ReadsFrom

namespace Wire

variable {dangling : Prop} {buffer : ByteArray} {pos : Nat}

theorem slice_readsFrom (width : Nat) :
    ReadsFrom dangling buffer pos (fun _ ↦ pos + width) (slice buffer pos width) := by
  unfold slice
  split
  · rename_i hfits
    exact .ok (Nat.le_trans hfits (Nat.le_max_right _ _))
  · exact .bytes rfl

theorem ensure_readsFrom (width : Nat) :
    ReadsFrom dangling buffer pos (pos + ·) (ensure buffer pos width) := by
  rw [ensure_eq_slice]
  exact (slice_readsFrom width).map fun _ ↦ rfl

theorem readNat_readsFrom (width : Nat) :
    ReadsFrom dangling buffer pos (fun _ ↦ pos + width) (readNat width buffer pos) :=
  (slice_readsFrom width).map fun _ ↦ rfl

theorem readUInt32_readsFrom :
    ReadsFrom dangling buffer pos (fun _ ↦ pos + 4) (readUInt32 buffer pos) :=
  (readNat_readsFrom 4).map fun _ ↦ rfl

theorem readUInt64_readsFrom :
    ReadsFrom dangling buffer pos (fun _ ↦ pos + 8) (readUInt64 buffer pos) :=
  (readNat_readsFrom 8).map fun _ ↦ rfl

theorem readWord_readsFrom (width : Nat) :
    ReadsFrom dangling buffer pos (fun _ ↦ pos + width) (readWord width buffer pos) :=
  (slice_readsFrom width).map fun _ ↦ rfl

theorem readBool_readsFrom :
    ReadsFrom dangling buffer pos (fun _ ↦ pos + 4) (readBool buffer pos) := by
  have hword : ReadsFrom dangling buffer pos (fun _ ↦ pos + 4) (readUInt32 buffer pos) :=
    readUInt32_readsFrom
  unfold readBool
  cases hread : readUInt32 buffer pos with
  | error e => exact .error (hword.fault e hread)
  | ok bits =>
    have hstop := hword.stop_le bits hread
    dsimp only
    split
    · exact .ok hstop
    · split
      · exact .ok hstop
      · exact .bytes rfl

namespace ByteString

/-- A mark that cannot be read is missing or reserved. -/
theorem isDecodeError_of_readMark {e : Error} (h : readMark buffer pos = .error e) :
    e.isDecodeError = true := by
  have hnat : ∀ width pos e, readNat width buffer pos = .error e → e.isDecodeError = true := by
    intro width pos e he
    unfold readNat slice at he
    split at he <;> cases he
    rfl
  unfold readMark at h
  cases hfirst : readNat 1 buffer pos with
  | error e' =>
    rw [hfirst] at h
    cases h
    exact hnat 1 pos e hfirst
  | ok first =>
    rw [hfirst] at h
    dsimp only at h
    split at h
    · cases hlength : readNat 3 buffer (pos + 1) with
      | error e' =>
        rw [hlength] at h
        cases h
        exact hnat 3 (pos + 1) e hlength
      | ok length => rw [hlength] at h; cases h
    · split at h <;> cases h
      rfl

theorem sizeOf_readsFrom :
    ReadsFrom dangling buffer pos (pos + ·) (ByteString.sizeOf buffer pos) := by
  unfold ByteString.sizeOf
  split
  · exact .bytes (isDecodeError_of_readMark ‹_›)
  · exact ensure_readsFrom _

theorem read_readsFrom :
    ReadsFrom dangling buffer pos (fun found ↦ pos + found.2) (ByteString.read buffer pos) := by
  unfold ByteString.read
  split
  · exact .bytes (isDecodeError_of_readMark ‹_›)
  · rename_i mark length _
    have hfits : ReadsFrom dangling buffer pos (pos + ·)
        (ensure buffer pos (roundUp (mark + length))) := ensure_readsFrom _
    split
    · exact .error (hfits.fault _ ‹_›)
    · exact .ok (hfits.stop_le _ ‹_›)

end ByteString

namespace Vectors

/-- The tag of a boxed vector stands where the vector starts, four bytes before the count. -/
theorem checkTag_readsFrom (boxed : Bool) :
    ReadsFrom dangling buffer pos (fun _ ↦ pos + (headerLength boxed - 4))
      (checkTag buffer pos boxed) := by
  cases boxed with
  | false => exact .stay rfl
  | true =>
    have hword : ReadsFrom dangling buffer pos (fun _ ↦ pos + 4) (readUInt32 buffer pos) :=
      readUInt32_readsFrom
    unfold checkTag
    rw [if_pos rfl]
    cases hread : readUInt32 buffer pos with
    | error e => exact .error (hword.fault e hread)
    | ok found =>
      dsimp only
      split
      · exact .ok (hword.stop_le found hread)
      · exact .bytes rfl

/-- The place of the count is looked for behind the tag, so it is out of reach only for a bare
vector that stands beyond the buffer. -/
theorem readHeader_readsFrom (boxed : Bool) :
    ReadsFrom dangling buffer pos (fun found ↦ pos + found.2) (readHeader buffer pos boxed) := by
  have htag : ReadsFrom dangling buffer pos (fun _ ↦ pos + (headerLength boxed - 4))
      (checkTag buffer pos boxed) := checkTag_readsFrom boxed
  have hlength : 4 ≤ headerLength boxed := by cases boxed <;> decide
  unfold readHeader
  cases hcheck : checkTag buffer pos boxed with
  | error e => exact .error (htag.fault e hcheck)
  | ok u =>
    refine ReadsFrom.behind ?_ (htag.stop_le u hcheck)
    dsimp only
    cases hbehind : advance buffer.size pos (headerLength boxed) with
    | error e =>
      unfold advance at hbehind
      split at hbehind <;> cases hbehind
      rename_i hbeyond
      refine .error (.place ?_)
      unfold OutOfReach
      omega
    | ok behind =>
      obtain rfl := eq_add_of_advance hbehind
      dsimp only
      rw [Nat.add_sub_assoc hlength]
      refine (readNat_readsFrom 4).map fun count ↦ ?_
      dsimp only
      omega

theorem walkItems_readsFrom {size : Nat → Metered Nat}
    (h : ∀ pos, ReadsFrom dangling buffer pos (pos + ·) (size pos).outcome) :
    ∀ (count : Nat) (log : WalkLog) (pos : Nat),
      ReadsFrom dangling buffer pos id (walkItems size log count pos).outcome := by
  intro count
  induction count with
  | zero => intro log pos; exact .stay rfl
  | succ count ih =>
    intro log pos
    unfold walkItems
    dsimp only
    split
    · exact .error ((h pos).fault _ ‹_›)
    · exact .stay rfl
    · exact (ih _ _).behind ((h pos).stop_le _ ‹_›)

theorem readItems_readsFrom {α : Type} {read : Nat → Except Error (α × Nat)}
    (h : ∀ pos, ReadsFrom dangling buffer pos (fun found ↦ pos + found.2) (read pos)) :
    ∀ (count : Nat) (done : Array α) (pos : Nat),
      ReadsFrom dangling buffer pos Prod.snd (readItems read done count pos) := by
  intro count
  induction count with
  | zero => intro done pos; exact .stay rfl
  | succ count ih =>
    intro done pos
    unfold readItems
    split
    · exact .error ((h pos).fault _ ‹_›)
    · exact .stay rfl
    · exact (ih _ _).behind ((h pos).stop_le _ ‹_›)

theorem sizeOf_readsFrom {size : Nat → Metered Nat}
    (h : ∀ pos, ReadsFrom dangling buffer pos (pos + ·) (size pos).outcome) (boxed : Bool) :
    ReadsFrom dangling buffer pos (pos + ·) (Vectors.sizeOf size buffer pos boxed).outcome := by
  have hheader : ReadsFrom dangling buffer pos (fun found ↦ pos + found.2)
      (readHeader buffer pos boxed) := readHeader_readsFrom boxed
  unfold Vectors.sizeOf
  simp only [Metered.outcome_bind, Metered.outcome_lift, Metered.outcome_pure]
  cases hread : readHeader buffer pos boxed with
  | error e => exact .error (hheader.fault e hread)
  | ok found =>
    have hitems := (walkItems_readsFrom h found.1 .empty (pos + found.2)).behind
      (hheader.stop_le found hread)
    exact hitems.map_le fun stop ↦ by dsimp only [id]; omega

theorem read_readsFrom {α : Type} {read : Nat → Except Error (α × Nat)}
    (h : ∀ pos, ReadsFrom dangling buffer pos (fun found ↦ pos + found.2) (read pos))
    (boxed : Bool) :
    ReadsFrom dangling buffer pos (fun found ↦ pos + found.2)
      (Vectors.read read buffer pos boxed) := by
  have hheader : ReadsFrom dangling buffer pos (fun found ↦ pos + found.2)
      (readHeader buffer pos boxed) := readHeader_readsFrom boxed
  unfold Vectors.read
  cases hread : readHeader buffer pos boxed with
  | error e => exact .error (hheader.fault e hread)
  | ok found =>
    have hitems := (readItems_readsFrom h found.1 #[] (pos + found.2)).behind
      (hheader.stop_le found hread)
    exact hitems.map_le fun reached ↦ by dsimp only; omega

end Vectors

end Wire

/-! ### References that lead somewhere -/

/-- Whether a reference stands for something: a name for a combinator or a type, a type for what its
objects are. -/
def Reference.Resolves (s : Schema) : Reference → Prop
  | .named name => s.defines name = true
  | .typed typeName bare => s.resolves ⟨typeName, bare⟩ = true
  | .any => True

/-- Whether the type that values of a kind refer to stands for something, if there is one. -/
def Kind.Resolves (s : Schema) (kind : Kind) : Prop :=
  ∀ t, kind.objectType? = some t → s.resolves t = true

/-- Whether every type that a field refers to stands for something. -/
def Schema.Closed (s : Schema) : Prop := ∀ t ∈ s.objectTypes, s.resolves t = true

namespace Schema

variable {s : Schema} {dangling : Prop} {buffer : ByteArray} {pos : Nat}

theorem Closed.kind_resolves (hclosed : s.Closed) {c : Combinator} (hc : c ∈ s.combinators) :
    ∀ f ∈ c.fields, f.kind.Resolves s :=
  fun _ hf _ ht ↦ hclosed _ (mem_objectTypes hc hf ht)

theorem locateMember_readsFrom {typeName : String} (h : dangling ∨ s.hasType typeName = true) :
    ReadsFrom dangling buffer pos (fun _ ↦ pos) (s.locateMember typeName buffer pos) := by
  have hword : ReadsFrom dangling buffer pos (fun _ ↦ pos + 4) (readUInt32 buffer pos) :=
    readUInt32_readsFrom
  unfold locateMember
  split
  · split
    · exact .error (hword.fault _ ‹_›)
    · split
      · exact .stay rfl
      · exact .bytes rfl
  · exact .error (.type (h.resolve_right ‹_›) typeName)

theorem locateTyped_readsFrom {typeName : String} {bare : Bool}
    (h : dangling ∨ s.resolves ⟨typeName, bare⟩ = true) :
    ReadsFrom dangling buffer pos (fun _ ↦ pos) (s.locateTyped typeName bare buffer pos) := by
  unfold locateTyped headerless?
  cases bare with
  | true =>
    rw [resolves_bare] at h
    rw [if_pos rfl]
    cases htarget : s.bareTarget? typeName with
    | some c => exact .stay rfl
    | none =>
      rw [htarget] at h
      exact .error (.type (h.resolve_right Bool.false_ne_true) typeName)
  | false =>
    rw [resolves_boxed] at h
    rw [if_neg Bool.false_ne_true]
    cases s.tagless? typeName with
    | some c => exact .stay rfl
    | none => exact locateMember_readsFrom h

theorem locateAny_readsFrom :
    ReadsFrom dangling buffer pos (fun _ ↦ pos) (s.locateAny buffer pos) := by
  have hword : ReadsFrom dangling buffer pos (fun _ ↦ pos + 4) (readUInt32 buffer pos) :=
    readUInt32_readsFrom
  unfold locateAny
  split
  · exact .error (hword.fault _ ‹_›)
  · split
    · exact .stay rfl
    · exact .bytes rfl

/-- Looking up what stands for something fails only through the tag. -/
theorem locate_readsFrom {r : Reference} (h : dangling ∨ r.Resolves s) :
    ReadsFrom dangling buffer pos (fun _ ↦ pos) (s.locate buffer pos r) := by
  cases r with
  | any => exact locateAny_readsFrom
  | typed typeName bare => exact locateTyped_readsFrom h
  | named name =>
    have hdefines : dangling ∨ (s.combinator? name).isSome = true ∨ s.hasType name = true := by
      rw [← group?_isSome]
      exact h.imp_right Bool.or_eq_true_iff.mp
    unfold locate
    dsimp only
    cases hfind : s.combinator? name with
    | some c =>
      rw [Option.isNone_some, Bool.and_false, if_neg Bool.false_ne_true]
      unfold locateNamed
      rw [hfind]
      exact .stay rfl
    | none =>
      rw [hfind] at hdefines
      cases htype : s.hasType name with
      | true => exact locateTyped_readsFrom (.inr (resolves_boxed.trans htype))
      | false =>
        rw [htype] at hdefines
        have hdangling : dangling := hdefines.resolve_right (by simp)
        rw [Bool.false_and, if_neg Bool.false_ne_true]
        unfold locateNamed
        rw [hfind]
        exact .error (.type hdangling name)

end Schema

/-! ### Values and fields -/

section

variable {s : Schema} {dangling : Prop} {buffer : ByteArray}

theorem Kind.measure_readsFrom {object : Reference → Nat → Metered Nat}
    (h : ∀ r, dangling ∨ r.Resolves s → ∀ pos,
      ReadsFrom dangling buffer pos (pos + ·) (object r pos).outcome) (kind : Kind)
    (hkind : dangling ∨ kind.Resolves s) (pos : Nat) :
    ReadsFrom dangling buffer pos (pos + ·) (kind.measure object buffer pos).outcome := by
  induction kind generalizing pos with
  | mask | int => exact ensure_readsFrom 4
  | long | double => exact ensure_readsFrom 8
  | int128 => exact ensure_readsFrom 16
  | int256 => exact ensure_readsFrom 32
  | presence => exact ensure_readsFrom 0
  | bool => exact readBool_readsFrom.map fun _ ↦ rfl
  | bytes | string => exact ByteString.sizeOf_readsFrom
  | vector boxed element ih => exact Vectors.sizeOf_readsFrom (ih hkind) boxed
  | object typeName bare =>
    exact h (.typed typeName bare) (hkind.imp_right fun hresolves ↦ hresolves _ rfl) pos
  | generic _ | anyObject => exact h .any (.inr trivial) pos

theorem Kind.decode_readsFrom {object : Reference → Nat → Except Error (Object × Nat)}
    (h : ∀ r, dangling ∨ r.Resolves s → ∀ pos,
      ReadsFrom dangling buffer pos (fun found ↦ pos + found.2) (object r pos)) (kind : Kind)
    (hkind : dangling ∨ kind.Resolves s) (pos : Nat) :
    ReadsFrom dangling buffer pos (fun found ↦ pos + found.2) (kind.decode object buffer pos) := by
  have hword : ReadsFrom dangling buffer pos (fun _ ↦ pos + 4) (readUInt32 buffer pos) :=
    readUInt32_readsFrom
  have hlong : ReadsFrom dangling buffer pos (fun _ ↦ pos + 8) (readUInt64 buffer pos) :=
    readUInt64_readsFrom
  induction kind generalizing pos with
  | mask => exact hword.map fun _ ↦ rfl
  | int =>
    have hint : ReadsFrom dangling buffer pos (fun _ ↦ pos + 4) (readInt32 buffer pos) :=
      hword.map fun _ ↦ rfl
    exact hint.map fun _ ↦ rfl
  | long =>
    have hint : ReadsFrom dangling buffer pos (fun _ ↦ pos + 8) (readInt64 buffer pos) :=
      hlong.map fun _ ↦ rfl
    exact hint.map fun _ ↦ rfl
  | double =>
    have hdouble : ReadsFrom dangling buffer pos (fun _ ↦ pos + 8) (readDouble buffer pos) :=
      hlong.map fun _ ↦ rfl
    exact hdouble.map fun _ ↦ rfl
  | int128 => exact (readWord_readsFrom 16).map fun _ ↦ rfl
  | int256 => exact (readWord_readsFrom 32).map fun _ ↦ rfl
  | presence => exact .stay rfl
  | bool => exact readBool_readsFrom.map fun _ ↦ rfl
  | bytes | string => exact ByteString.read_readsFrom.map fun _ ↦ rfl
  | vector boxed element ih =>
    have helement : ∀ pos, ReadsFrom dangling buffer pos (fun found ↦ pos + found.2)
        (element.decode object buffer pos) :=
      fun pos ↦ ih hkind pos readUInt32_readsFrom readUInt64_readsFrom
    exact (Vectors.read_readsFrom helement boxed).map fun _ ↦ rfl
  | object typeName bare =>
    exact (h (.typed typeName bare) (hkind.imp_right fun hresolves ↦ hresolves _ rfl) pos).map
      fun _ ↦ rfl
  | generic _ | anyObject => exact (h .any (.inr trivial) pos).map fun _ ↦ rfl

namespace Message

theorem walkFields_readsFrom {size : Kind → Nat → Metered Nat}
    (h : ∀ kind : Kind, dangling ∨ kind.Resolves s → ∀ pos,
      ReadsFrom dangling buffer pos (pos + ·) (size kind pos).outcome) :
    ∀ (fields : List Field), (∀ f ∈ fields, f.Testable ∧ (dangling ∨ f.kind.Resolves s)) →
      ∀ (masks : Masks) (pos : Nat), ReadsFrom dangling buffer pos Prod.fst
        (walkFields size buffer fields masks pos).outcome := by
  intro fields
  induction fields with
  | nil => intro _ masks pos; exact .stay rfl
  | cons f rest ih =>
    intro hfields masks pos
    obtain ⟨⟨htestable, hkind⟩, hrest⟩ := List.forall_mem_cons.mp hfields
    unfold walkFields
    split
    · simp only [Metered.outcome_bind, Metered.outcome_lift]
      exact readUInt32_readsFrom.bind fun bits _ ↦ ih hrest _ _
    · rw [Masks.asks_eq htestable]
      simp only [Metered.outcome_bind, Metered.outcome_lift]
      show ReadsFrom dangling buffer pos Prod.fst (Metered.outcome (if _ then _ else _))
      split
      · simp only [Metered.outcome_bind]
        exact (h f.kind hkind pos).bind fun length _ ↦ ih hrest _ _
      · exact ih hrest _ _

theorem decodeField_readsFrom {decode : Kind → Nat → Except Error (Value × Nat)}
    (h : ∀ kind : Kind, dangling ∨ kind.Resolves s → ∀ pos,
      ReadsFrom dangling buffer pos (fun found ↦ pos + found.2) (decode kind pos)) {f : Field}
    (htestable : f.Testable) (hkind : dangling ∨ f.kind.Resolves s) (masks : Masks) (pos : Nat) :
    ReadsFrom dangling buffer pos (fun found ↦ pos + found.2.1)
      (decodeField decode buffer f masks pos) := by
  unfold decodeField
  split
  · exact readUInt32_readsFrom.map fun _ ↦ rfl
  · rw [Masks.asks_eq htestable]
    dsimp only
    split
    · exact .stay rfl
    · split
      · exact (h f.kind hkind pos).map fun _ ↦ rfl
      · exact .stay rfl

theorem decodeFields_readsFrom {decode : Kind → Nat → Except Error (Value × Nat)}
    (h : ∀ kind : Kind, dangling ∨ kind.Resolves s → ∀ pos,
      ReadsFrom dangling buffer pos (fun found ↦ pos + found.2) (decode kind pos)) :
    ∀ (fields : List Field), (∀ f ∈ fields, f.Testable ∧ (dangling ∨ f.kind.Resolves s)) →
      ∀ (masks : Masks) (pos : Nat),
        ReadsFrom dangling buffer pos Prod.snd (decodeFields decode buffer fields masks pos) := by
  intro fields
  induction fields with
  | nil => intro _ masks pos; exact .stay rfl
  | cons f rest ih =>
    intro hfields masks pos
    obtain ⟨⟨htestable, hkind⟩, hrest⟩ := List.forall_mem_cons.mp hfields
    have hfield := decodeField_readsFrom h htestable hkind masks pos
    unfold decodeFields
    split
    · exact .error (hfield.fault _ ‹_›)
    · rename_i v size masks' hfound
      have hbehind := (ih hrest masks' (pos + size)).behind (hfield.stop_le _ hfound)
      exact hbehind.map fun _ ↦ rfl

theorem checkHeader_readsFrom (header pos : Nat) :
    ReadsFrom dangling buffer pos (fun _ ↦ pos + header) (checkHeader buffer pos header) := by
  unfold checkHeader
  split
  · rename_i hnone
    exact .stay (by rw [hnone, Nat.add_zero])
  · unfold ensure
    split
    · rename_i hfits
      exact .ok (Nat.le_trans hfits (Nat.le_max_right _ _))
    · exact .bytes rfl

end Message

end

/-! ### Objects -/

namespace Schema

variable {s : Schema} {dangling : Prop} {buffer : ByteArray}

theorem readWithin_readsFrom_of {free : Nat}
    (hobject : ∀ (object : Located), object.combinator ∈ s.combinators → ∀ pos,
      ReadsFrom dangling buffer pos (fun found ↦ pos + found.2)
        (s.decodeAt buffer free object pos)) (r : Reference) (hr : dangling ∨ r.Resolves s)
    (pos : Nat) :
    ReadsFrom dangling buffer pos (fun found ↦ pos + found.2)
      (s.readWithin free buffer r pos) := by
  have hlocate : ReadsFrom dangling buffer pos (fun _ ↦ pos) (s.locate buffer pos r) :=
    locate_readsFrom hr
  unfold readWithin
  split
  · exact .error (hlocate.fault _ ‹_›)
  · rename_i object hfound
    exact hobject object (mem_of_locate hfound) pos

theorem measureWithin_readsFrom_of {free : Nat}
    (hobject : ∀ (object : Located), object.combinator ∈ s.combinators → ∀ pos,
      ReadsFrom dangling buffer pos (pos + ·) (s.measureAt buffer free object pos).outcome)
    (r : Reference) (hr : dangling ∨ r.Resolves s) (pos : Nat) :
    ReadsFrom dangling buffer pos (pos + ·) (s.measureWithin free buffer r pos).outcome := by
  unfold measureWithin
  simp only [Metered.outcome_bind, Metered.outcome_lift]
  exact (locate_readsFrom hr).bind fun object hlocate ↦
    hobject object (mem_of_locate hlocate) pos

theorem fields_askable (hgates : s.Testable) (hclosed : dangling ∨ s.Closed) {c : Combinator}
    (hc : c ∈ s.combinators) :
    ∀ f ∈ c.fields, f.Testable ∧ (dangling ∨ f.kind.Resolves s) :=
  fun f hf ↦ ⟨hgates c hc f hf, hclosed.imp_right fun hclosed ↦ hclosed.kind_resolves hc f hf⟩

theorem decodeAt_readsFrom (hgates : s.Testable) (hclosed : dangling ∨ s.Closed) :
    ∀ (free : Nat) (object : Located), object.combinator ∈ s.combinators → ∀ pos,
      ReadsFrom dangling buffer pos (fun found ↦ pos + found.2)
        (s.decodeAt buffer free object pos) := by
  intro free
  induction free with
  | zero => intro object _ pos; exact .bytes rfl
  | succ free ih =>
    intro object hobject pos
    have hheader : ReadsFrom dangling buffer pos (fun _ ↦ pos + object.header)
        (checkHeader buffer pos object.header) := checkHeader_readsFrom object.header pos
    have hfields := decodeFields_readsFrom (Kind.decode_readsFrom (readWithin_readsFrom_of ih)) _
      (fields_askable hgates hclosed hobject) .empty (pos + object.header)
    rw [decodeAt_succ]
    cases hcheck : checkHeader buffer pos object.header with
    | error e => exact .error (hheader.fault e hcheck)
    | ok u =>
      exact (hfields.behind (hheader.stop_le u hcheck)).map_le fun reached ↦ by dsimp only; omega

theorem measureAt_readsFrom (hgates : s.Testable) (hclosed : dangling ∨ s.Closed) :
    ∀ (free : Nat) (object : Located), object.combinator ∈ s.combinators → ∀ pos,
      ReadsFrom dangling buffer pos (pos + ·) (s.measureAt buffer free object pos).outcome := by
  intro free
  induction free with
  | zero => intro object _ pos; exact .bytes rfl
  | succ free ih =>
    intro object hobject pos
    have hheader : ReadsFrom dangling buffer pos (fun _ ↦ pos + object.header)
        (checkHeader buffer pos object.header) := checkHeader_readsFrom object.header pos
    have hfields := walkFields_readsFrom (Kind.measure_readsFrom (measureWithin_readsFrom_of ih)) _
      (fields_askable hgates hclosed hobject) .empty (pos + object.header)
    rw [measureAt_succ]
    simp only [walk, List.take_length, Metered.outcome_bind, Metered.outcome_lift,
      Metered.outcome_record, Metered.outcome_pure]
    cases hcheck : checkHeader buffer pos object.header with
    | error e => exact .error (hheader.fault e hcheck)
    | ok u =>
      have hwalk := hfields.behind (hheader.stop_le u hcheck)
      cases hreached : (walkFields (Kind.measure (s.measureWithin free buffer) buffer) buffer
          object.combinator.fields .empty (pos + object.header)).outcome with
      | error e =>
        rw [hreached] at hwalk
        exact .error (hwalk.fault e rfl)
      | ok reached =>
        have hstop := hwalk.stop_le reached hreached
        exact .ok (by omega)

/-- Reading an object fails through its bytes, unless its place or a type of it is to blame. -/
theorem read_readsFrom (hgates : s.Testable) (hclosed : dangling ∨ s.Closed) {r : Reference}
    (hr : dangling ∨ r.Resolves s) (held : Nat) (buffer : ByteArray) (offset : Nat) :
    ReadsFrom dangling buffer offset (fun found ↦ offset + found.2)
      (s.read held r buffer offset) :=
  readWithin_readsFrom_of (decodeAt_readsFrom hgates hclosed _) r hr offset

theorem sizeOf_readsFrom (hgates : s.Testable) (hclosed : dangling ∨ s.Closed) {r : Reference}
    (hr : dangling ∨ r.Resolves s) (held : Nat) (buffer : ByteArray) (offset : Nat) :
    ReadsFrom dangling buffer offset (offset + ·) (s.sizeOf held r buffer offset).outcome :=
  measureWithin_readsFrom_of (measureAt_readsFrom hgates hclosed _) r hr offset

theorem readNext_readsFrom (hgates : s.Testable) (hclosed : dangling ∨ s.Closed) {r : Reference}
    (hr : dangling ∨ r.Resolves s) (held : Nat) (buffer : ByteArray) (offset : Nat) :
    ReadsFrom dangling buffer offset (fun found ↦ offset + found.2)
      (s.readNext held r buffer offset) := by
  have hread := read_readsFrom hgates hclosed hr held buffer offset
  unfold readNext
  split
  · exact .error (hread.fault _ ‹_›)
  · exact .bytes rfl
  · exact .ok (hread.stop_le _ ‹_›)

/-- The bytes of a value that is measured on its own are in reach. -/
theorem measureKind_fault (hgates : s.Testable) {held : Nat} {kind : Kind} {e : Error}
    (h : (s.measureKind held buffer kind 0).outcome = .error e) :
    e.isDecodeError = true ∨ ∃ typeName, e = .unknownType typeName := by
  have hall : True ∨ s.Closed := .inl trivial
  have hreads : ReadsFrom True buffer 0 (0 + ·) (s.measureKind held buffer kind 0).outcome :=
    Kind.measure_readsFrom (measureWithin_readsFrom_of (measureAt_readsFrom hgates hall _)) kind
      (.inl trivial) 0
  cases hreads.fault e h with
  | bytes hdecode => exact .inl hdecode
  | place hplace => exact absurd hplace (not_outOfReach_of_le (Nat.zero_le _))
  | type _ typeName => exact .inr ⟨typeName, rfl⟩

end Schema

/-! ### The bytes are to blame -/

/-- The bytes that are read at a place are to blame for a failure, and not the schema or its user.
The one exception is a place beyond the buffer with no place four bytes behind it. -/
def BlamesBytes {α : Type} (buffer : ByteArray) (offset : Nat) (outcome : Except Error α) : Prop :=
  ∀ e, outcome = .error e →
    e.isDecodeError = true ∨
      e = .overflow ∧ buffer.size < offset ∧ placeLimit ≤ offset + 4

namespace BlamesBytes

variable {α : Type} {buffer : ByteArray} {offset : Nat} {stop : α → Nat} {outcome : Except Error α}

theorem of_readsFrom (h : ReadsFrom False buffer offset stop outcome) :
    BlamesBytes buffer offset outcome := by
  intro e he
  cases h.fault e he with
  | bytes hdecode => exact .inl hdecode
  | place hplace => exact .inr ⟨rfl, hplace⟩
  | type hdangling _ => exact hdangling.elim

end BlamesBytes

/-- A view is of bytes that stand at the start of a buffer. -/
theorem Schema.isDecodeError_of_view {s : Schema} (hgates : s.Testable) (hclosed : s.Closed)
    {name : String} (hname : (s.combinator? name).isSome = true) {held : Nat} {bytes : ByteArray}
    {e : Error} (h : (s.view held name bytes).outcome = .error e) : e.isDecodeError = true := by
  obtain ⟨c, hc⟩ := Option.isSome_iff_exists.mp hname
  have hlocate : s.locateNamed name = .ok c.located := locateNamed_eq_ok_iff.mpr ⟨c, hc, rfl⟩
  have hmeasure : ReadsFrom False bytes 0 (0 + ·)
      (s.measureAt bytes (Depth.limit - held) c.located 0).outcome :=
    measureAt_readsFrom hgates (.inr hclosed) _ c.located (mem_of_combinator? hc).1 0
  unfold view View.ofBytes at h
  rw [Metered.outcome_bind, Metered.outcome_lift, hlocate] at h
  change (Metered.outcome (_ >>= _)) = _ at h
  rw [Metered.outcome_bind] at h
  cases hsize : (s.measureAt bytes (Depth.limit - held) c.located 0).outcome with
  | error e' =>
    rw [hsize] at h
    cases h
    rcases BlamesBytes.of_readsFrom hmeasure e hsize with hdecode | ⟨-, hbeyond, -⟩
    · exact hdecode
    · exact absurd hbeyond (Nat.not_lt_zero _)
  | ok size =>
    rw [hsize] at h
    change Metered.outcome (if _ then _ else _) = _ at h
    split at h <;> cases h
    rfl

end TypeLang
