import TypeLang.Proofs.Message.Faults
import TypeLang.Proofs.Message.Length
import TypeLang.Proofs.Message.Writing

/-!
`Schema.Rejects` says for which value, and why, supplied values cannot be written. It speaks neither
of a buffer nor of the order in which fields are written. A writer settles what is supplied
(`Message.Settles`) if it does the same in all buffers with room enough, and meets no fault there
but such a one. A value without values inside is settled where there is room for the length that is
found for it (`Message.settles_plain`).
-/

set_option autoImplicit false
set_option relaxedAutoImplicit false

namespace TypeLang

open Wire Message

/-- Whether a fault is that of a value which turns out not to be one of its field. -/
def StateFault.isOfValue : StateFault → Bool
  | wrongType .. | longByteString _ | tooManyItems _ | notAConstructor .. | inexact .. => true
  | _ => false

/-- What is supplied cannot be written, with `held` guards taken. The fault is that of the first
value that cannot, and names the field which that value is for. -/
inductive Schema.Rejects (s : Schema) (held : Nat) : String → Supply → Error → Prop
  | mistyped {field : String} {kind : Kind} {v : Value} {width : Nat}
      (hwidth : kind.width? = some width) (hv : ∀ bytes, ¬ kind.PlainWritten v bytes) :
      Rejects s held field (.value kind v) (.invalidState (.wrongType field kind v))
  | longByteString {field : String} {kind : Kind} {data : ByteArray}
      (hkind : kind = .bytes ∨ kind = .string) (hlong : ByteString.lengthLimit < data.size) :
      Rejects s held field (.value kind (.bytes data)) (.invalidState (.longByteString data.size))
  | unmeasured {field : String} {kind : Kind} {raw : ByteArray} {e : Error}
      (hkind : kind.isContainer = true)
      (hfault : (s.measureKind held raw kind 0).outcome = .error e) :
      Rejects s held field (.value kind (.bytes raw)) e
  | inexact {field : String} {kind : Kind} {raw : ByteArray} {size : Nat}
      (hkind : kind.isContainer = true)
      (hsize : (s.measureKind held raw kind 0).outcome = .ok size) (hne : size ≠ raw.size) :
      Rejects s held field (.value kind (.bytes raw))
        (.invalidState (.inexact field raw.size size))
  | tooManyItems {field : String} {boxed : Bool} {element : Kind} {items : List Value}
      (hcount : UInt32.size ≤ items.length) :
      Rejects s held field (.value (.vector boxed element) (.vector items))
        (.invalidState (.tooManyItems field))
  | vector {field : String} {boxed : Bool} {element : Kind} {items : List Value} {e : Error}
      (hcount : items.length < UInt32.size)
      (hitems : Rejects s held field (.items element items) e) :
      Rejects s held field (.value (.vector boxed element) (.vector items)) e
  | notAConstructor {field typeName name : String} {bare : Bool} {tag : Option UInt32}
      {entries : Entries}
      (hlocate : s.locateObject name (.typed typeName bare) =
        .error (.invalidState (.notAConstructor name typeName))) :
      Rejects s held field (.value (.object typeName bare) (.object ⟨name, tag, entries⟩))
        (.invalidState (.notAConstructor name typeName))
  | object {field name : String} {kind : Kind} {r : Reference} {tag : Option UInt32}
      {object : Located} {masks : Masks} {entries : Entries} {e : Error}
      (hkind : kind.reference? = some r) (hlocate : s.locateObject name r = .ok object)
      (hmasks : resolveMasks object.combinator.fields entries = .ok masks)
      (hbody : Rejects s held field (.body masks entries object.combinator.fields) e) :
      Rejects s held field (.value kind (.object ⟨name, tag, entries⟩)) e
  | item {field : String} {element : Kind} {v : Value} {rest : List Value} {e : Error}
      (hitem : Rejects s held field (.value element v) e) :
      Rejects s held field (.items element (v :: rest)) e
  | laterItem {field : String} {element : Kind} {v : Value} {rest : List Value}
      {bytes : ByteArray} {e : Error} (hitem : s.Written held (.value element v) bytes)
      (hrest : Rejects s held field (.items element rest) e) :
      Rejects s held field (.items element (v :: rest)) e
  | field {owner : String} {f : Field} {rest : List Field} {masks : Masks} {entries : Entries}
      {e : Error} (hslot : f.slot = none) (homit : masks.skips f = .ok false)
      (hvalue : Rejects s held f.name
        (.value f.kind ((entries.find? f.name).getD f.kind.zero)) e) :
      Rejects s held owner (.body masks entries (f :: rest)) e
  | laterField {owner : String} {f : Field} {rest : List Field} {masks : Masks}
      {entries : Entries} {bytes : ByteArray} {e : Error}
      (hfield : s.Written held (.body masks entries [f]) bytes)
      (hrest : Rejects s held owner (.body masks entries rest) e) :
      Rejects s held owner (.body masks entries (f :: rest)) e

/-- The fault is that a value is none of its field, or one of the bytes that a value is supplied as,
which are no object or vector or are so only if a type stands for something. -/
theorem Schema.Rejects.cause {s : Schema} (hgates : s.Testable) {held : Nat} {field : String}
    {supply : Supply} {e : Error} (h : s.Rejects held field supply e) :
    (∃ fault, e = .invalidState fault ∧ fault.isOfValue = true) ∨
      ∃ kind raw, kind.isContainer = true ∧ (s.measureKind held raw kind 0).outcome = .error e ∧
        (e.isDecodeError = true ∨ ∃ name, e = .unknownType name) := by
  induction h with
  | mistyped _ _ | longByteString _ _ | inexact _ _ _ | tooManyItems _ | notAConstructor _ =>
    exact .inl ⟨_, rfl, rfl⟩
  | @unmeasured _ kind raw e hkind hfault =>
    exact .inr ⟨kind, raw, hkind, hfault, measureKind_fault hgates hfault⟩
  | vector _ _ ih | object _ _ _ _ ih | item _ ih | laterItem _ _ ih | field _ _ _ ih
  | laterField _ _ ih => exact ih

namespace Message

open Emission

variable {s : Schema} {held limit offset size : Nat} {field : String} {kind : Kind} {v : Value}

/-- Where a writer of what is supplied has room enough in a buffer of `limit` bytes, it does the
same in a larger one, and a fault that it meets is one of what is supplied. -/
structure Settles (s : Schema) (held : Nat) (field : String) (supply : Supply) (limit : Nat)
    (emit : Nat → Emission) : Prop where
  same : ∀ other, limit ≤ other → emit other = emit limit
  rejects : ∀ e, (emit limit).fault? = some e → s.Rejects held field supply e

theorem Settles.of_eq {supply : Supply} {emit : Nat → Emission} (found : Emission)
    (hemit : ∀ room, limit ≤ room → emit room = found)
    (hfault : ∀ e, found.fault? = some e → s.Rejects held field supply e) :
    Settles s held field supply limit emit := by
  have hlimit := hemit limit (Nat.le_refl limit)
  exact ⟨fun other hother ↦ (hemit other hother).trans hlimit.symm,
    fun e he ↦ hfault e (hlimit ▸ he)⟩

/-- A part is put down behind what is put down already, and the rest behind the part. A fault of the
part stops the writer, so only where there is none does the rest have to settle. -/
theorem Settles.andThen {owner : String} {supply part : Supply} (rest : Supply) {done : Emission}
    (emit : Nat → Nat → Emission) (next : Nat → Emission → Emission) (hdone : done.fault? = none)
    (hpart : Settles s held field part limit fun room => emit room (offset + done.bytes.size))
    (hstop : ∀ room faulty, faulty.fault?.isSome = true → next room faulty = faulty)
    (hhere : ∀ e, s.Rejects held field part e → s.Rejects held owner supply e)
    (hrest : (emit limit (offset + done.bytes.size)).fault? = none →
      (Settles s held owner rest limit fun room =>
        next room (done.append (emit limit (offset + done.bytes.size)))) ∧
        ∀ e, s.Rejects held owner rest e → s.Rejects held owner supply e) :
    Settles s held owner supply limit fun room =>
      next room (done.andThen fun n => emit room (offset + n)) := by
  have hfront : ∀ room, limit ≤ room → (done.andThen fun n => emit room (offset + n)) =
      done.append (emit limit (offset + done.bytes.size)) := by
    intro room hle
    rw [andThen_of_none hdone, hpart.same room hle]
  cases hfault : (emit limit (offset + done.bytes.size)).fault? with
  | some fault =>
    have hfaulty : (done.append (emit limit (offset + done.bytes.size))).fault?.isSome = true := by
      rw [append, hfault]
      rfl
    refine .of_eq (done.append (emit limit (offset + done.bytes.size))) (fun room hle ↦ ?_)
      fun e he ↦ hhere e (hpart.rejects e he)
    rw [hfront room hle]
    exact hstop room _ hfaulty
  | none =>
    obtain ⟨hsettles, hlater⟩ := hrest hfault
    refine .of_eq _ (fun room hle ↦ ?_) fun e he ↦ hlater e (hsettles.rejects e he)
    rw [hfront room hle]
    exact hsettles.same room hle

/-! ### Values without values inside -/

theorem piece_of_le {data : ByteArray} (h : offset + data.size ≤ limit) :
    piece limit offset data = ⟨data, .empty, none⟩ := if_pos h

theorem vectorHeader_of_le {boxed : Bool} {count : Nat}
    (h : offset + Vectors.headerLength boxed ≤ limit) :
    vectorHeader limit offset boxed count = ⟨Vectors.header boxed count, .empty, none⟩ := by
  rw [vectorHeader_of_within (Nat.le_of_add_right_le h)]
  cases boxed with
  | false =>
    show piece limit offset (encodeNat 4 count) = ⟨.empty ++ encodeNat 4 count, .empty, none⟩
    rw [ByteArray.empty_append]
    exact piece_of_le (by rw [size_encodeNat]; exact h)
  | true =>
    have hlength : Vectors.headerLength true = 8 := rfl
    have htag : offset + (encodeUInt32 Vectors.tag).size ≤ limit := by
      rw [size_encodeUInt32]
      omega
    have hcount : offset + (encodeUInt32 Vectors.tag).size + (encodeNat 4 count).size ≤ limit := by
      rw [size_encodeUInt32, size_encodeNat]
      omega
    show (piece limit offset (encodeUInt32 Vectors.tag)).andThen
      (fun n => piece limit (offset + n) (encodeNat 4 count)) = _
    rw [piece_of_le htag, andThen_of_none rfl]
    exact congrArg (append _) (piece_of_le hcount)

theorem emitPlain_of_not_written {t : Target} {width : Nat} (hwidth : kind.width? = some width)
    (h : ∀ bytes, ¬ kind.PlainWritten v bytes) :
    emitPlain t field kind offset v = refuse (.wrongType field kind v) := by
  cases kind with
  | mask =>
    unfold emitPlain
    dsimp only
    cases hbits : v.toMask? with
    | none => rfl
    | some bits => exact absurd (.mask hbits) (h _)
  | long =>
    unfold emitPlain
    dsimp only
    cases hx : v.toLong? with
    | none => rfl
    | some x => exact absurd (.long hx) (h _)
  | int =>
    cases v with
    | int x => exact absurd (.int x) (h _)
    | _ => rfl
  | double =>
    cases v with
    | double x => exact absurd (.double x) (h _)
    | _ => rfl
  | int128 =>
    cases v with
    | int128 x => exact absurd (.int128 x) (h _)
    | bytes raw => exact if_neg fun hsize ↦ h _ (.rawInt128 hsize)
    | _ => rfl
  | int256 =>
    cases v with
    | int256 x => exact absurd (.int256 x) (h _)
    | bytes raw => exact if_neg fun hsize ↦ h _ (.rawInt256 hsize)
    | _ => rfl
  | bool =>
    cases v with
    | bool b => exact absurd (.bool b) (h _)
    | _ => rfl
  | presence =>
    cases v with
    | bool b => exact absurd (.presence b) (h _)
    | _ => rfl
  | _ => cases hwidth

theorem emitPlain_of_written {t : Target} {bytes : ByteArray} (h : kind.PlainWritten v bytes)
    (hroom : offset + bytes.size ≤ t.limit) :
    emitPlain t field kind offset v = ⟨bytes, .empty, none⟩ := by
  cases h with
  | mask hbits =>
    unfold emitPlain
    dsimp only
    rw [hbits]
    exact piece_of_le hroom
  | long hx =>
    unfold emitPlain
    dsimp only
    rw [hx]
    exact piece_of_le hroom
  | rawInt128 hsize | rawInt256 hsize => exact (if_pos hsize).trans (piece_of_le hroom)
  | bytes hsize | string hsize =>
    show byteString t.limit offset _ = _
    unfold byteString
    rw [if_neg (Nat.not_lt.mpr hsize), piece_of_le hroom]
  | presence _ => rfl
  | _ => exact piece_of_le hroom

theorem emitRaw_of_error {t : Target} {raw : ByteArray} {fault : Error}
    (h : (t.schema.measureKind t.held raw kind 0).outcome = .error fault) :
    emitRaw t field kind offset raw =
      ⟨.empty, (t.schema.measureKind t.held raw kind 0).log, some fault⟩ := by
  unfold emitRaw
  rw [ofMetered_of_error h]

theorem emitRaw_of_size {t : Target} {raw : ByteArray}
    (h : (t.schema.measureKind t.held raw kind 0).outcome = .ok raw.size) :
    emitRaw t field kind offset raw =
      append ⟨.empty, (t.schema.measureKind t.held raw kind 0).log, none⟩
        (piece t.limit offset raw) := by
  unfold emitRaw
  rw [ofMetered_of_ok h, checkExact_eq_ok_iff.mpr rfl]

theorem emitRaw_of_size_ne {t : Target} {raw : ByteArray}
    (h : (t.schema.measureKind t.held raw kind 0).outcome = .ok size) (hne : size ≠ raw.size) :
    emitRaw t field kind offset raw =
      append ⟨.empty, (t.schema.measureKind t.held raw kind 0).log, none⟩
        (refuse (.inexact field raw.size size)) := by
  have hchecked : checkExact raw.size size field = .error (.inexact field raw.size size) :=
    if_neg hne
  unfold emitRaw
  rw [ofMetered_of_ok h, hchecked]

/-- Bytes that are supplied for a container are measured, and put down if they are all of it. -/
theorem settles_raw {raw : ByteArray} (hkind : kind.isContainer = true)
    (hroom : offset + raw.size ≤ limit) :
    Settles s held field (.value kind (.bytes raw)) limit fun room =>
      emitPlain ⟨s, held, room⟩ field kind offset (.bytes raw) := by
  have hraw : ∀ room, emitPlain ⟨s, held, room⟩ field kind offset (.bytes raw) =
      emitRaw ⟨s, held, room⟩ field kind offset raw := by
    intro room
    cases kind <;> first | exact absurd hkind Bool.false_ne_true | rfl
  simp only [hraw]
  cases hmeasure : (s.measureKind held raw kind 0).outcome with
  | error fault =>
    refine .of_eq ⟨.empty, (s.measureKind held raw kind 0).log, some fault⟩
      (fun room _ ↦ emitRaw_of_error hmeasure) fun e he ↦ ?_
    cases he
    exact .unmeasured hkind hmeasure
  | ok found =>
    by_cases hexact : found = raw.size
    · subst hexact
      refine .of_eq (append ⟨.empty, (s.measureKind held raw kind 0).log, none⟩
        ⟨raw, .empty, none⟩) (fun room hle ↦ ?_) fun e he ↦ ?_
      · rw [emitRaw_of_size hmeasure, piece_of_le (Nat.le_trans hroom hle)]
      · cases he
    · refine .of_eq (append ⟨.empty, (s.measureKind held raw kind 0).log, none⟩
        (refuse (.inexact field raw.size found)))
        (fun room _ ↦ emitRaw_of_size_ne hmeasure hexact) fun e he ↦ ?_
      cases he
      exact .inexact hkind hmeasure hexact

/-- The length of a value without values inside is room enough for it. -/
theorem settles_plain (hlength : plainLength field kind v = .ok size)
    (hroom : offset + size ≤ limit) :
    Settles s held field (.value kind v) limit fun room =>
      emitPlain ⟨s, held, room⟩ field kind offset v := by
  by_cases hwritten : ∃ bytes, kind.PlainWritten v bytes
  · obtain ⟨bytes, h⟩ := hwritten
    rw [h.plainLength_eq] at hlength
    cases hlength
    exact .of_eq _ (fun room hle ↦ emitPlain_of_written h (Nat.le_trans hroom hle)) nofun
  have hnot : ∀ bytes, ¬ kind.PlainWritten v bytes := fun bytes h ↦ hwritten ⟨bytes, h⟩
  unfold plainLength at hlength
  cases hwidth : kind.width? with
  | some width =>
    refine .of_eq _ (fun room _ ↦ emitPlain_of_not_written hwidth hnot) fun e he ↦ ?_
    cases he
    exact .mistyped hwidth hnot
  | none =>
    rw [hwidth] at hlength
    cases v with
    | bytes data =>
      cases kind with
      | bytes | string =>
        have hlong : ByteString.lengthLimit < data.size := by
          refine Nat.not_le.mp fun hshort ↦ ?_
          first
            | exact hnot _ (.bytes hshort)
            | exact hnot _ (.string hshort)
        refine .of_eq (refuse (.longByteString data.size)) (fun room _ ↦ ?_) fun e he ↦ ?_
        · show byteString room offset data = _
          unfold byteString
          rw [if_pos hlong]
        · cases he
          exact .longByteString (by simp) hlong
      | vector _ _ | object _ _ | generic _ | anyObject =>
        cases hlength
        exact settles_raw rfl hroom
      | _ => cases hwidth
    | _ => cases kind <;> cases hlength

/-- The zero of a kind that has one is put down wherever there is room for it. -/
theorem settles_zero (hlength : kind.zeroLength? = some size) (hroom : offset + size ≤ limit) :
    Settles s held field (.value kind kind.zero) limit fun room =>
      emitZero ⟨s, held, room⟩ field kind offset := by
  cases kind with
  | vector boxed element =>
    cases hlength
    exact .of_eq _ (fun room hle ↦ vectorHeader_of_le (Nat.le_trans hroom hle)) nofun
  | object _ _ | generic _ | anyObject => cases hlength
  | _ =>
    cases hlength
    exact settles_plain rfl hroom

end Message

end TypeLang
