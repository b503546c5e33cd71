import TypeLang.Proofs.Wire.ByteStringForm
import TypeLang.Wire.Emission

/-!
What a writer puts down. `Emission.Puts` says that a writer meets no fault and which bytes it leaves
behind; how the bytes of several writers follow each other is said by one equivalence for each way
of putting writers together.
-/

set_option autoImplicit false
set_option relaxedAutoImplicit false

namespace TypeLang.Wire.Emission

/-- A writer puts down some bytes and meets no fault. -/
def Puts (e : Emission) (bytes : ByteArray) : Prop := e.fault? = none ∧ e.bytes = bytes

variable {e : Emission} {bytes : ByteArray} {limit offset : Nat}

theorem outcome_eq_ok_iff {n : Nat} :
    e.outcome = .ok n ↔ ∃ bytes, e.Puts bytes ∧ bytes.size = n := by
  unfold Puts outcome
  cases e.fault? <;> simp

theorem outcome_map_eq_ok_iff : (e.outcome.map fun _ => e.bytes) = .ok bytes ↔ e.Puts bytes := by
  unfold Puts outcome
  cases e.fault? <;> simp [Except.map]

theorem Puts.fault?_eq (h : e.Puts bytes) : e.fault?.isSome = false := by
  rw [h.1]
  rfl

@[simp] theorem empty_puts_iff : empty.Puts bytes ↔ bytes = .empty :=
  ⟨fun h ↦ h.2.symm, fun h ↦ ⟨rfl, h.symm⟩⟩

@[simp] theorem not_fail_puts (fault : Error) : ¬ (fail fault).Puts bytes := nofun

@[simp] theorem not_refuse_puts (fault : StateFault) : ¬ (refuse fault).Puts bytes := nofun

@[simp] theorem piece_puts_iff {found : ByteArray} :
    (piece limit offset found).Puts bytes ↔ offset + found.size ≤ limit ∧ bytes = found := by
  unfold piece
  split
  · rename_i hfits
    exact ⟨fun h ↦ ⟨hfits, h.2.symm⟩, fun h ↦ ⟨rfl, h.2.symm⟩⟩
  · rename_i hfits
    exact ⟨fun h ↦ absurd h (not_fail_puts _), fun h ↦ absurd h.1 hfits⟩

theorem append_puts_iff {next : Emission} :
    (e.append next).Puts bytes ↔ ∃ back, next.Puts back ∧ bytes = e.bytes ++ back := by
  unfold append Puts
  constructor
  · rintro ⟨hfault, rfl⟩
    exact ⟨next.bytes, ⟨hfault, rfl⟩, rfl⟩
  · rintro ⟨_, ⟨hfault, rfl⟩, rfl⟩
    exact ⟨hfault, rfl⟩

/-- Two writers put down what the one does and then what the other does behind it. -/
theorem andThen_puts_iff {next : Nat → Emission} :
    (e.andThen next).Puts bytes ↔
      ∃ front back, e.Puts front ∧ (next front.size).Puts back ∧ bytes = front ++ back := by
  unfold andThen
  split
  · rename_i fault hfault
    refine ⟨fun h ↦ ?_, fun ⟨front, back, h, _⟩ ↦ ?_⟩
    · rw [h.1] at hfault
      cases hfault
    · rw [h.1] at hfault
      cases hfault
  · rename_i hfault
    rw [append_puts_iff]
    constructor
    · rintro ⟨back, hback, rfl⟩
      exact ⟨e.bytes, back, ⟨hfault, rfl⟩, hback, rfl⟩
    · rintro ⟨_, back, ⟨-, rfl⟩, hback, rfl⟩
      exact ⟨back, hback, rfl⟩

theorem andThen_of_fault {next : Nat → Emission} (h : e.fault?.isSome = true) :
    e.andThen next = e := by
  obtain ⟨fault, hfault⟩ := Option.isSome_iff_exists.mp h
  unfold andThen
  rw [hfault]

theorem andThen_of_none {next : Nat → Emission} (h : e.fault? = none) :
    e.andThen next = e.append (next e.bytes.size) := by
  unfold andThen
  rw [h]

theorem ofMetered_of_error {α : Type} {m : Metered α} {next : α → Emission} {fault : Error}
    (h : m.outcome = .error fault) : ofMetered m next = ⟨.empty, m.log, some fault⟩ := by
  unfold ofMetered
  rw [h]

theorem ofMetered_of_ok {α : Type} {m : Metered α} {next : α → Emission} {a : α}
    (h : m.outcome = .ok a) :
    ofMetered m next = (⟨.empty, m.log, none⟩ : Emission).append (next a) := by
  unfold ofMetered
  rw [h]

theorem ofMetered_puts_iff {α : Type} {m : Metered α} {next : α → Emission} :
    (ofMetered m next).Puts bytes ↔ ∃ a, m.outcome = .ok a ∧ (next a).Puts bytes := by
  unfold ofMetered
  cases m.outcome with
  | error fault =>
    refine ⟨fun h ↦ ?_, fun ⟨_, h, _⟩ ↦ ?_⟩
    · exact absurd h.1 (Option.some_ne_none fault)
    · cases h
  | ok a =>
    rw [append_puts_iff]
    constructor
    · rintro ⟨back, hback, rfl⟩
      rw [ByteArray.empty_append]
      exact ⟨a, rfl, hback⟩
    · rintro ⟨_, hok, hback⟩
      cases hok
      exact ⟨bytes, hback, ByteArray.empty_append.symm⟩

theorem byteString_puts_iff {data : ByteArray} :
    (byteString limit offset data).Puts bytes ↔
      data.size ≤ ByteString.lengthLimit ∧ bytes = ByteString.encode data ∧
        offset + bytes.size ≤ limit := by
  unfold byteString
  split
  · rename_i hlong
    exact ⟨fun h ↦ absurd h (not_refuse_puts _), fun h ↦ absurd h.1 (Nat.not_le.mpr hlong)⟩
  · rename_i hshort
    rw [piece_puts_iff]
    constructor
    · rintro ⟨hfits, rfl⟩
      exact ⟨Nat.not_lt.mp hshort, rfl, hfits⟩
    · rintro ⟨-, rfl, hfits⟩
      exact ⟨hfits, rfl⟩

theorem vectorCount_puts_iff {boxed : Bool} {count : Nat} :
    (vectorCount limit offset boxed count).Puts bytes ↔
      offset + Vectors.headerLength boxed ≤ limit ∧ bytes = encodeNat 4 count := by
  unfold vectorCount
  cases hbehind : advance limit offset (Vectors.headerLength boxed) with
  | error e =>
    have hbeyond := lt_of_advance_eq_error hbehind
    refine ⟨fun h ↦ absurd h.1 (Option.some_ne_none e), fun h ↦ ?_⟩
    have hfits := h.1
    omega
  | ok behind =>
    have hsum := eq_add_of_advance hbehind
    have hend : behind - 4 + (encodeNat 4 count).size = behind := by
      rw [size_encodeNat, hsum]
      cases boxed <;> simp [Vectors.headerLength]
    dsimp only
    rw [piece_puts_iff, ← hsum, hend]

/-- The header of a vector that starts within the buffer is put down piece behind piece. -/
theorem vectorHeader_of_within (h : offset ≤ limit) (boxed : Bool) (count : Nat) :
    vectorHeader limit offset boxed count =
      if boxed then
        (piece limit offset (encodeUInt32 Vectors.tag)).andThen fun n =>
          piece limit (offset + n) (encodeNat 4 count)
      else piece limit offset (encodeNat 4 count) := by
  have hcount : vectorCount limit offset boxed count =
      piece limit (offset + Vectors.headerLength boxed - 4) (encodeNat 4 count) := by
    unfold vectorCount
    rw [advance_of_le h]
  unfold vectorHeader
  rw [hcount]
  cases boxed with
  | false => rfl
  | true =>
    rw [if_pos rfl, if_pos rfl]
    unfold andThen
    split
    · rfl
    · rename_i htag
      have hbytes : (piece limit offset (encodeUInt32 Vectors.tag)).bytes.size = 4 := by
        rw [(piece_puts_iff.mp ⟨htag, rfl⟩).2, size_encodeUInt32]
      rw [hbytes]
      rfl

theorem vectorHeader_puts_iff {boxed : Bool} {count : Nat} :
    (vectorHeader limit offset boxed count).Puts bytes ↔
      bytes = Vectors.header boxed count ∧ offset + bytes.size ≤ limit := by
  unfold vectorHeader Vectors.header
  cases boxed with
  | false =>
    simp only [Bool.false_eq_true, if_false, vectorCount_puts_iff, ByteArray.empty_append]
    constructor
    · rintro ⟨hfits, rfl⟩
      rw [size_encodeNat]
      exact ⟨rfl, hfits⟩
    · rintro ⟨rfl, hfits⟩
      rw [size_encodeNat] at hfits
      exact ⟨hfits, rfl⟩
  | true =>
    simp only [if_true, andThen_puts_iff, piece_puts_iff, vectorCount_puts_iff]
    have hsize : (encodeUInt32 Vectors.tag ++ encodeNat 4 count).size =
        Vectors.headerLength true := Vectors.size_header true count
    constructor
    · rintro ⟨_, _, ⟨-, rfl⟩, ⟨hfits, rfl⟩, rfl⟩
      rw [hsize]
      exact ⟨rfl, hfits⟩
    · rintro ⟨rfl, hfits⟩
      have hroom := hfits
      rw [ByteArray.size_append] at hroom
      rw [hsize] at hfits
      exact ⟨_, _, ⟨by omega, rfl⟩, ⟨hfits, rfl⟩, rfl⟩

theorem checkExact_eq_ok_iff {supplied size : Nat} {what : String} :
    checkExact supplied size what = .ok () ↔ size = supplied := by
  unfold checkExact
  split <;> simp_all

/-! ### Buffers -/

section Buffers

variable {front buffer : ByteArray}

/-- What is put down extends what stands at the front of a buffer. -/
theorem stands_apply_append (h : Stands front buffer 0) (e : Emission) :
    Stands (front ++ e.bytes) (e.apply buffer front.size) 0 := by
  unfold apply
  split
  · rename_i hempty
    have hbytes : e.bytes = .empty := by simpa [ByteArray.isEmpty] using hempty
    rw [hbytes, ByteArray.append_empty]
    exact h
  · exact h.overwrite_append e.bytes

end Buffers

end TypeLang.Wire.Emission
