import TypeLang.Proofs.Message.Writing
import TypeLang.Proofs.Wire.Confinement

/-!
Whatever is put down of a value lies within the buffer, behind the place where the value starts
(`Message.within_emitValue`). That holds without any condition on the value or the schema, and also
where a fault stops the writer in the middle of a vector or an object.
-/

set_option autoImplicit false
set_option relaxedAutoImplicit false

namespace TypeLang.Message

open Wire Emission

variable {t : Target} {field : String} {kind : Kind} {offset : Nat} {v : Value}

theorem within_emitRaw (h : offset ≤ t.limit) (raw : ByteArray) :
    (emitRaw t field kind offset raw).Within t.limit offset := by
  refine within_ofMetered h fun size ↦ ?_
  cases checkExact raw.size size field with
  | error fault => exact within_refuse h fault
  | ok u => exact within_piece h raw

theorem within_emitPlain (h : offset ≤ t.limit) (field : String) (kind : Kind) (v : Value) :
    (emitPlain t field kind offset v).Within t.limit offset := by
  have hword : ∀ {width : Nat} {raw : ByteArray} {fault : StateFault},
      (if raw.size = width then piece t.limit offset raw else refuse fault).Within t.limit
        offset := by
    intro width raw fault
    split
    · exact within_piece h raw
    · exact within_refuse h fault
  cases kind with
  | mask =>
    unfold emitPlain
    dsimp only
    cases v.toMask? with
    | none => exact within_refuse h _
    | some bits => exact within_piece h _
  | long =>
    unfold emitPlain
    dsimp only
    cases v.toLong? with
    | none => exact within_refuse h _
    | some x => exact within_piece h _
  | int =>
    cases v with
    | int x => exact within_piece h _
    | _ => exact within_refuse h _
  | double =>
    cases v with
    | double x => exact within_piece h _
    | _ => exact within_refuse h _
  | bool =>
    cases v with
    | bool b => exact within_piece h _
    | _ => exact within_refuse h _
  | presence =>
    cases v with
    | bool b => exact within_empty h
    | _ => exact within_refuse h _
  | int128 =>
    cases v with
    | int128 x => exact within_piece h _
    | bytes raw => exact hword
    | _ => exact within_refuse h _
  | int256 =>
    cases v with
    | int256 x => exact within_piece h _
    | bytes raw => exact hword
    | _ => exact within_refuse h _
  | bytes | string =>
    cases v with
    | bytes data => exact within_byteString h data
    | _ => exact within_refuse h _
  | vector _ _ | object _ _ | generic _ | anyObject =>
    cases v with
    | bytes raw => exact within_emitRaw h raw
    | _ => exact within_refuse h _

theorem within_emitZero (h : offset ≤ t.limit) (field : String) (kind : Kind) :
    (emitZero t field kind offset).Within t.limit offset := by
  cases kind with
  | vector boxed element => exact within_vectorHeader h boxed 0
  | object _ _ | generic _ | anyObject => exact within_refuse h _
  | _ => exact within_emitPlain h _ _ _

/-! ### Items and entries -/

theorem within_emitItems {element : Kind} {items : List Value}
    (hitems : ∀ v ∈ items, ∀ offset, offset ≤ t.limit →
      (emitValue t field element offset v).Within t.limit offset) {done : Emission}
    (hdone : done.Within t.limit offset) :
    (emitItems t field element offset done items).Within t.limit offset := by
  induction items generalizing done with
  | nil =>
    rw [emitItems]
    exact hdone
  | cons v rest ih =>
    obtain ⟨hhere, hrest⟩ := List.forall_mem_cons.mp hitems
    rw [emitItems]
    split
    · exact hdone
    · exact ih hrest (hdone.andThen fun n ↦ hhere (offset + n))

theorem within_emitEntry {entries : Entries} (name : String) (kind : Kind)
    (hentries : ∀ e ∈ entries, ∀ field kind offset, offset ≤ t.limit →
      (emitValue t field kind offset e.2).Within t.limit offset) (h : offset ≤ t.limit) :
    (emitEntry t name kind offset entries).Within t.limit offset := by
  rw [emitEntry_eq]
  cases hfind : entries.find? name with
  | none => exact within_emitZero h name kind
  | some v => exact hentries _ (Entries.mem_of_find? hfind) name kind offset h

/-! ### Fields and objects -/

variable {c : Combinator} {masks : Masks} {entries : Entries} {entry : Field → Nat → Emission}

theorem within_emitField {index : Nat} {p : Progress} {done : Emission} {emit : Nat → Emission}
    (hdone : done.Within t.limit offset)
    (hemit : ∀ n, offset + n ≤ t.limit → (emit (offset + n)).Within t.limit (offset + n)) :
    (emitField c offset index v emit (p, done)).2.Within t.limit offset := by
  unfold emitField
  dsimp only
  cases p.accept c index v with
  | error fault => exact hdone.andThen fun n hn ↦ within_fail hn fault
  | ok accepted => exact hdone.andThen hemit

theorem within_emitFields
    (hentry : ∀ f offset, offset ≤ t.limit → (entry f offset).Within t.limit offset) :
    ∀ {fields : List Field} {index : Nat} {state : Progress × Emission},
      state.2.Within t.limit offset →
      (emitFields t c masks entries entry offset index fields state).Within t.limit offset := by
  intro fields
  induction fields with
  | nil =>
    rintro index ⟨p, done⟩ hdone
    rw [emitFields]
    cases p.finish c with
    | ok u => exact hdone
    | error fault => exact hdone.andThen fun n hn ↦ within_fail hn fault
  | cons f rest ih =>
    rintro index ⟨p, done⟩ hdone
    rw [emitFields]
    split
    · exact hdone
    · split
      · exact ih (within_emitField hdone fun n hn ↦ within_emitPlain hn _ _ _)
      · split
        · exact hdone.andThen fun n hn ↦ within_fail hn _
        · exact ih hdone
        · split
          · exact hdone.andThen fun n hn ↦ within_refuse hn _
          · exact ih (within_emitField hdone fun n hn ↦ hentry f _ hn)

theorem within_emitTag (object : Located) (h : offset ≤ t.limit) :
    (emitTag t object offset).Within t.limit offset := by
  unfold emitTag
  split
  · split
    · exact within_empty h
    · exact within_piece h _
  · exact within_empty h

theorem within_emitInstance {located : Except Error Located}
    (hentry : ∀ f offset, offset ≤ t.limit → (entry f offset).Within t.limit offset)
    (h : offset ≤ t.limit) :
    (emitInstance t located entries entry offset).Within t.limit offset := by
  unfold emitInstance
  cases located with
  | error e => exact within_fail h e
  | ok object =>
    dsimp only
    cases resolveMasks object.combinator.fields entries with
    | error fault => exact within_fail h fault
    | ok masks => exact within_emitFields hentry (within_emitTag object h)

/-- Whatever is put down of a value lies within the buffer. -/
theorem within_emitValue : ∀ v field kind offset, offset ≤ t.limit →
    (emitValue t field kind offset v).Within t.limit offset := by
  intro v
  induction v using Value.induction with
  | leaf v hvector hobject =>
    intro field kind offset h
    rw [emitValue_plain (fun _ _ _ ↦ hvector) (fun _ _ ↦ hobject)]
    exact within_emitPlain h field kind v
  | vector items ih =>
    intro field kind offset h
    by_cases hkind : ∃ boxed element, kind = .vector boxed element
    · obtain ⟨boxed, element, rfl⟩ := hkind
      rw [emitValue]
      split
      · exact within_refuse h _
      · exact within_emitItems (fun v hv ↦ ih v hv field element)
          (within_vectorHeader h boxed items.length)
    · rw [emitValue_plain (fun boxed element hsame ↦ absurd ⟨boxed, element, hsame⟩ hkind)
        (fun _ _ ↦ rfl)]
      exact within_emitPlain h field kind _
  | object o ih =>
    obtain ⟨name, tag, entries⟩ := o
    intro field kind offset h
    cases hkind : kind.reference? with
    | some r =>
      rw [emitValue_reference hkind]
      exact within_emitInstance (fun f offset ↦ within_emitEntry f.name f.kind ih) h
    | none =>
      rw [emitValue_plain (fun _ _ _ ↦ rfl) (fun r hr ↦ by rw [hkind] at hr; cases hr)]
      exact within_emitPlain h field kind _

end TypeLang.Message
