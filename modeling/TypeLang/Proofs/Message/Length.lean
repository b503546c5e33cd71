import TypeLang.Message.Encode
import TypeLang.Proofs.Message.Written
import TypeLang.Proofs.Wire.ByteStringForm

/-!
The length that is found before anything is written is the length of what is written
(`Schema.Written.measures`).
-/

set_option autoImplicit false
set_option relaxedAutoImplicit false

namespace TypeLang

open Wire Message

namespace Message

variable {s : Schema} {masks : Masks} {entry : Field → Except Error Nat} {f : Field}
  {rest : List Field} {entries : Entries} {field : String} {kind : Kind}

/-! ### Lengths of entries and fields -/

theorem entryLength_eq (s : Schema) (name : String) (kind : Kind) (entries : Entries) :
    entryLength s name kind entries =
      match entries.find? name with
      | some v => valueLength s name kind v
      | none =>
        match kind.zeroLength? with
        | some length => .ok length
        | none => .error (.invalidState (.missingValue name)) := by
  induction entries with
  | nil => rw [entryLength]; rfl
  | cons first rest ih =>
    obtain ⟨other, v⟩ := first
    rw [entryLength, Entries.find?_cons]
    by_cases hname : other = name
    · rw [if_pos hname, if_pos hname]
    · rw [if_neg hname, if_neg hname, ih]

/-- Values that are neither items nor entries for their kind are measured in one piece. -/
theorem valueLength_plain {v : Value} (hvector : ∀ boxed element, kind = .vector boxed element →
      v.toItems? = none)
    (hobject : ∀ r, kind.reference? = some r → v.toObject? = none) :
    valueLength s field kind v = plainLength field kind v := by
  cases v with
  | vector items =>
    cases kind with
    | vector boxed element => cases hvector boxed element rfl
    | _ =>
      rw [valueLength]
      exact nofun
  | object o =>
    obtain ⟨name, tag, entries⟩ := o
    cases kind with
    | object _ _ | generic _ | anyObject => cases hobject _ rfl
    | _ => rw [valueLength] <;> exact nofun
  | _ => rw [valueLength] <;> exact nofun

theorem valueLength_reference {r : Reference} (hkind : kind.reference? = some r) (name : String)
    (tag : Option UInt32) (entries : Entries) :
    valueLength s field kind (.object ⟨name, tag, entries⟩) =
      instanceLength (s.locateWritten name (s.omitsTag r)) entries
        (fun f => entryLength s f.name f.kind entries) := by
  cases kind <;> cases hkind <;> rw [valueLength] <;> rfl

/-- The length of a field, given the length of its value. -/
def fieldLength (masks : Masks) (entry : Field → Except Error Nat) (f : Field) :
    Except Error Nat :=
  match f.slot with
  | some _ => .ok 4
  | none =>
    match masks.skips f with
    | .error e => .error e
    | .ok true => .ok 0
    | .ok false => entry f

theorem fieldLength_mask {slot : Nat} (hslot : f.slot = some slot) :
    fieldLength masks entry f = .ok 4 := by
  unfold fieldLength
  rw [hslot]

theorem fieldLength_omitted (hslot : f.slot = none) (homit : masks.skips f = .ok true) :
    fieldLength masks entry f = .ok 0 := by
  unfold fieldLength
  rw [hslot, homit]

theorem fieldLength_present (hslot : f.slot = none) (homit : masks.skips f = .ok false) :
    fieldLength masks entry f = entry f := by
  unfold fieldLength
  rw [hslot, homit]

theorem foldlM_length (length : Field → Except Error Nat) (fields : List Field) (first : Nat) :
    fields.foldlM (fun size f => (length f).map (size + ·)) first =
      (fields.foldlM (fun size f => (length f).map (size + ·)) 0).map (first + ·) := by
  induction fields generalizing first with
  | nil => rfl
  | cons f rest ih =>
    rw [List.foldlM_cons, List.foldlM_cons]
    cases length f with
    | error e => rfl
    | ok n =>
      show rest.foldlM _ (first + n) = Except.map _ (rest.foldlM _ (0 + n))
      rw [ih (first + n), ih (0 + n)]
      cases rest.foldlM (fun size f => (length f).map (size + ·)) 0 with
      | error e => rfl
      | ok m =>
        show Except.ok (first + n + m) = Except.ok (first + (0 + n + m))
        congr 1
        omega

theorem bodyLength_eq (fields : List Field) :
    bodyLength masks entry fields =
      fields.foldlM (fun size f => (fieldLength masks entry f).map (size + ·)) 0 := by
  unfold bodyLength
  congr 1
  funext size f
  unfold fieldLength
  cases f.slot with
  | some slot => rfl
  | none =>
    dsimp only
    cases masks.skips f with
    | error e => rfl
    | ok omitted => cases omitted <;> rfl

theorem bodyLength_cons :
    bodyLength masks entry (f :: rest) =
      match fieldLength masks entry f with
      | .error e => .error e
      | .ok first => (bodyLength masks entry rest).map (first + ·) := by
  rw [bodyLength_eq, bodyLength_eq, List.foldlM_cons]
  cases fieldLength masks entry f with
  | error e => rfl
  | ok first =>
    show rest.foldlM _ (0 + first) = _
    rw [foldlM_length, Nat.zero_add]

end Message

/-- The length of what is supplied is found to be a given one. -/
def Supply.Measures (s : Schema) (size : Nat) : Supply → Prop
  | value kind v => ∀ field, valueLength s field kind v = .ok size
  | items element vs => ∀ field done, itemsLength s field element done vs = .ok (done + size)
  | body masks entries fields =>
    bodyLength masks (fun f => entryLength s f.name f.kind entries) fields = .ok size

namespace Kind.PlainWritten

variable {s : Schema} {kind : Kind} {v : Value} {bytes : ByteArray}

theorem plainLength_eq (h : kind.PlainWritten v bytes) (field : String) :
    plainLength field kind v = .ok bytes.size := by
  cases h with
  | rawInt128 h | rawInt256 h => rw [h]; rfl
  | bytes h | string h => rw [ByteString.size_encode h]; rfl
  | mask _ | int _ | long _ | double _ | int128 _ | int256 _ | bool _ | presence _ => simp; rfl

theorem valueLength_eq (h : kind.PlainWritten v bytes) (field : String) :
    valueLength s field kind v = .ok bytes.size := by
  rw [← h.plainLength_eq field]
  cases h with
  | @mask v _ h => cases v <;> cases h <;> rw [valueLength] <;> exact nofun
  | @long v _ h => cases v <;> cases h <;> rw [valueLength] <;> exact nofun
  | _ => rw [valueLength] <;> exact nofun

end Kind.PlainWritten

namespace Schema.Written

variable {s : Schema} {held : Nat} {kind : Kind} {bytes : ByteArray}

theorem zeroLength?_eq (h : s.Written held (.value kind kind.zero) bytes) :
    kind.zeroLength? = some bytes.size := by
  cases kind with
  | vector boxed element =>
    cases h with
    | plain h => cases h
    | vector _ hitems =>
      cases hitems
      rw [ByteArray.append_empty, Vectors.size_header]
      rfl
  | object _ _ | generic _ | anyObject => exact absurd h not_written_null
  | bytes | string =>
    obtain h := (value_iff_plain rfl).mp h
    cases h
    rfl
  | _ =>
    obtain h := (value_iff_plain rfl).mp h
    have hlength := h.plainLength_eq ""
    exact congrArg some (Except.ok.inj hlength)

/-- What is written is as long as it was found to be. -/
theorem measures {supply : Supply} (h : s.Written held supply bytes) :
    supply.Measures s bytes.size := by
  induction h with
  | plain h => exact h.valueLength_eq
  | @raw kind raw hkind _ =>
    intro field
    rw [valueLength_plain (fun _ _ _ ↦ rfl) (fun _ _ ↦ rfl)]
    cases kind <;> first | rfl | cases hkind
  | @vector boxed element items bytes _ _ ih =>
    intro field
    rw [valueLength, ByteArray.size_append, Vectors.size_header]
    exact ih field (Vectors.headerLength boxed)
  | @object kind r name tag object masks entries bytes hkind hlocate hmasks _ ih =>
    intro field
    rw [valueLength_reference hkind, locateWritten_of_locateObject hlocate]
    unfold instanceLength
    dsimp only
    rw [hmasks]
    dsimp only
    rw [ih, ByteArray.size_append, size_tagBytes_of_locateObject hlocate]
    rfl
  | noItems element =>
    intro field done
    rw [itemsLength]
    rfl
  | @item element v rest bytes behind _ _ ihItem ihRest =>
    intro field done
    rw [itemsLength, ihItem field]
    dsimp only
    rw [ihRest field (done + bytes.size), ByteArray.size_append, Nat.add_assoc]
  | noFields masks entries => rfl
  | @mask f slot rest masks entries bytes hslot _ ih =>
    simp only [Supply.Measures] at ih ⊢
    rw [bodyLength_cons, fieldLength_mask hslot]
    dsimp only
    rw [ih, ByteArray.size_append, size_encodeUInt32]
    rfl
  | @omitted f rest masks entries bytes hslot homit _ ih =>
    simp only [Supply.Measures] at ih ⊢
    rw [bodyLength_cons, fieldLength_omitted hslot homit]
    dsimp only
    rw [ih]
    show Except.ok (0 + bytes.size) = _
    rw [Nat.zero_add]
  | @present f rest masks entries bytes behind hslot homit hvalue _ ihValue ihRest =>
    have hfield : fieldLength masks (fun f => entryLength s f.name f.kind entries) f =
        .ok bytes.size := by
      rw [fieldLength_present hslot homit, entryLength_eq]
      cases hfind : entries.find? f.name with
      | some v =>
        rw [hfind] at ihValue
        exact ihValue f.name
      | none =>
        rw [hfind] at hvalue
        dsimp only
        rw [zeroLength?_eq hvalue]
    simp only [Supply.Measures] at ihRest ⊢
    rw [bodyLength_cons, hfield]
    dsimp only
    rw [ihRest, ByteArray.size_append]
    rfl

end Schema.Written

end TypeLang
