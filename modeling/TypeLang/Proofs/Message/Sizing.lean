import TypeLang.Proofs.Message.Building
import TypeLang.Proofs.Message.Settling
import TypeLang.Proofs.Wire.Confinement

/-!
A builder finds the size of an object first and writes it afterwards, and the size is found without
looking at every value: a kind of one width has that width, and bytes count as they are. A writer
that has the room that was found either fills it or meets a fault of what is supplied, and a larger
buffer makes no difference (`Message.settles_value`). So no write of a build runs out of room and
none is out of order (`Schema.build_fills_or_rejects`).
-/

set_option autoImplicit false
set_option relaxedAutoImplicit false

namespace TypeLang

open Wire Message

namespace Message

open Emission

variable {s : Schema} {held limit offset size : Nat} {field : String} {kind : Kind} {v : Value}

/-! ### Items and entries -/

theorem settles_entry {name : String} {entries : Entries}
    (hentries : ∀ v size, entries.find? name = some v → valueLength s name kind v = .ok size →
      offset + size ≤ limit → Settles s held name (.value kind v) limit fun room =>
        emitValue ⟨s, held, room⟩ name kind offset v)
    (hlength : entryLength s name kind entries = .ok size) (hroom : offset + size ≤ limit) :
    Settles s held name (.value kind ((entries.find? name).getD kind.zero)) limit fun room =>
      emitEntry ⟨s, held, room⟩ name kind offset entries := by
  rw [entryLength_eq] at hlength
  simp only [emitEntry_eq]
  cases hfind : entries.find? name with
  | some v =>
    rw [hfind] at hlength
    exact hentries v size hfind hlength hroom
  | none =>
    rw [hfind] at hlength
    dsimp only at hlength
    cases hzero : kind.zeroLength? with
    | none => rw [hzero] at hlength; cases hlength
    | some length =>
      rw [hzero] at hlength
      cases hlength
      exact settles_zero hzero hroom

/-- What has a length is supplied, or is of a kind that has a zero. -/
theorem supplied_or_zero_of_entryLength {name : String} {entries : Entries}
    (h : entryLength s name kind entries = .ok size) :
    ¬ (entries.find? name = none ∧ kind.zeroLength? = none) := by
  rintro ⟨hfind, hzero⟩
  rw [entryLength_eq, hfind] at h
  dsimp only at h
  rw [hzero] at h
  cases h

theorem le_of_itemsLength {element : Kind} {items : List Value} {done : Nat}
    (h : itemsLength s field element done items = .ok size) : done ≤ size := by
  induction items generalizing done with
  | nil =>
    rw [itemsLength] at h
    exact Nat.le_of_eq (Except.ok.inj h)
  | cons v rest ih =>
    rw [itemsLength] at h
    cases hv : valueLength s field element v with
    | error fault => rw [hv] at h; cases h
    | ok length =>
      rw [hv] at h
      exact Nat.le_trans (Nat.le_add_right done length) (ih h)

theorem emitItems_of_fault {t : Target} {element : Kind} {items : List Value} {done : Emission}
    (h : done.fault?.isSome = true) : emitItems t field element offset done items = done := by
  cases items with
  | nil => rw [emitItems]
  | cons v rest => rw [emitItems, if_pos h]

/-- What is put down of a value without a fault is what it is written as, and has the length that
was found for it. -/
theorem written_of_emitValue (hsound : s.Sound) (hlength : valueLength s field kind v = .ok size)
    (hroom : offset + size ≤ limit)
    (hfault : (emitValue ⟨s, held, limit⟩ field kind offset v).fault? = none) :
    ∃ bytes, (emitValue ⟨s, held, limit⟩ field kind offset v).bytes = bytes ∧
      s.Written held (.value kind v) bytes ∧ bytes.size = size := by
  have hoffset : offset ≤ limit := Nat.le_trans (Nat.le_add_right offset size) hroom
  obtain ⟨hwritten, -⟩ := (emitValue_puts_iff (t := ⟨s, held, limit⟩) hsound v field kind offset _
    hoffset).mp ⟨hfault, rfl⟩
  have hmeasured := (hwritten.measures field).symm.trans hlength
  exact ⟨_, rfl, hwritten, Except.ok.inj hmeasured⟩

theorem settles_items (hsound : s.Sound) {element : Kind} {items : List Value}
    (hitems : ∀ v ∈ items, ∀ size offset, valueLength s field element v = .ok size →
      offset + size ≤ limit → Settles s held field (.value element v) limit fun room =>
        emitValue ⟨s, held, room⟩ field element offset v) :
    ∀ done : Emission, done.fault? = none →
      itemsLength s field element done.bytes.size items = .ok size → offset + size ≤ limit →
      Settles s held field (.items element items) limit fun room =>
        emitItems ⟨s, held, room⟩ field element offset done items := by
  induction items with
  | nil =>
    intro done hdone _ _
    refine .of_eq _ (fun room _ ↦ by rw [emitItems]) fun e he ↦ ?_
    rw [hdone] at he
    cases he
  | cons v rest ih =>
    intro done hdone hlength hroom
    obtain ⟨hhere, hrest⟩ := List.forall_mem_cons.mp hitems
    rw [itemsLength] at hlength
    cases hv : valueLength s field element v with
    | error fault => rw [hv] at hlength; cases hlength
    | ok length =>
      rw [hv] at hlength
      have hle := le_of_itemsLength hlength
      have hstep : ∀ room, emitItems ⟨s, held, room⟩ field element offset done (v :: rest) =
          emitItems ⟨s, held, room⟩ field element offset
            (done.andThen fun n => emitValue ⟨s, held, room⟩ field element (offset + n) v)
            rest := by
        intro room
        rw [emitItems, if_neg (by rw [hdone]; exact Bool.false_ne_true)]
      simp only [hstep]
      refine .andThen (.items element rest)
        (fun room at_ => emitValue ⟨s, held, room⟩ field element at_ v)
        (fun room done => emitItems ⟨s, held, room⟩ field element offset done rest) hdone
        (hhere length (offset + done.bytes.size) hv (by omega)) (fun _ _ ↦ emitItems_of_fault)
        (fun e ↦ .item) fun hfault ↦ ?_
      obtain ⟨bytes, hbytes, hwritten, hsize⟩ :=
        written_of_emitValue hsound hv (by omega) hfault
      refine ⟨ih hrest _ hfault ?_ hroom, fun e ↦ .laterItem hwritten⟩
      rw [← hsize] at hlength
      rw [append, ByteArray.size_append, hbytes]
      exact hlength

/-! ### Fields and objects -/

variable {masks : Masks} {entries : Entries} {c : Combinator} {owner : String}

theorem bodyLength_cons_eq_ok_iff {entry : Field → Except Error Nat} {f : Field}
    {rest : List Field} :
    bodyLength masks entry (f :: rest) = .ok size ↔
      ∃ first behind, fieldLength masks entry f = .ok first ∧
        bodyLength masks entry rest = .ok behind ∧ size = first + behind := by
  rw [bodyLength_cons]
  cases fieldLength masks entry f with
  | error fault => simp
  | ok first => cases bodyLength masks entry rest <;> simp [Except.map, eq_comm]

theorem emitFields_of_fault {t : Target} {entry : Field → Nat → Emission} {index : Nat}
    {fields : List Field} {p : Progress} {done : Emission} (h : done.fault?.isSome = true) :
    emitFields t c masks entries entry offset index fields (p, done) = done := by
  cases fields with
  | nil =>
    rw [emitFields]
    cases p.finish c with
    | ok u => rfl
    | error fault => exact andThen_of_fault h
  | cons f rest => rw [emitFields, if_pos h]

/-- A field whose value is put down without a fault is written, and has the length that was found
for it. -/
theorem written_of_emitEntry (hsound : s.Sound) {f : Field} (hslot : f.slot = none)
    (homit : masks.skips f = .ok false)
    (hlength : entryLength s f.name f.kind entries = .ok size) (hroom : offset + size ≤ limit)
    (hfault : (emitEntry ⟨s, held, limit⟩ f.name f.kind offset entries).fault? = none) :
    ∃ bytes, (emitEntry ⟨s, held, limit⟩ f.name f.kind offset entries).bytes.size = size ∧
      s.Written held (.body masks entries [f]) bytes := by
  have hoffset : offset ≤ limit := Nat.le_trans (Nat.le_add_right offset size) hroom
  obtain ⟨hvalue, -⟩ := (emits_entry (t := ⟨s, held, limit⟩) (fun e _ field kind ↦
    emitValue_puts_iff hsound e.2 field kind) offset _ hoffset).mp ⟨hfault, rfl⟩
  have hfield := Schema.Written.present hslot homit hvalue (.noFields masks entries)
  have hmeasured : bodyLength masks (fun f => entryLength s f.name f.kind entries) [f] =
    .ok _ := hfield.measures
  obtain ⟨first, behind, hfirst, hnothing, hsum⟩ := bodyLength_cons_eq_ok_iff.mp hmeasured
  rw [fieldLength_present hslot homit, hlength] at hfirst
  cases hfirst
  cases hnothing
  rw [ByteArray.append_empty] at hsum
  exact ⟨_, hsum, hfield⟩

/-- The length of some fields is room enough for them: the order in which they are put down is never
at fault, and neither are the masks and the zeros of fields that are omitted. -/
theorem settles_fields (hsound : s.Sound) (htestable : ∀ f ∈ c.fields, f.Testable)
    (hentries : ∀ f ∈ c.fields, ∀ v size offset, entries.find? f.name = some v →
      valueLength s f.name f.kind v = .ok size → offset + size ≤ limit →
        Settles s held f.name (.value f.kind v) limit fun room =>
          emitValue ⟨s, held, room⟩ f.name f.kind offset v) :
    ∀ {rest before : List Field} {n size : Nat} {p : Progress} (done : Emission),
      c.fields = before ++ rest → Field.Numbered n rest → p.Follows masks before n →
      done.fault? = none →
      bodyLength masks (fun f => entryLength s f.name f.kind entries) rest = .ok size →
      offset + done.bytes.size + size ≤ limit →
      Settles s held owner (.body masks entries rest) limit fun room =>
        emitFields ⟨s, held, room⟩ c masks entries
          (fun f at_ => emitEntry ⟨s, held, room⟩ f.name f.kind at_ entries) offset before.length
          rest (p, done) := by
  intro rest
  induction rest with
  | nil =>
    intro before n size p done hfields _ hfollows hdone _ _
    have hfinish : p.finish c = .ok () := by
      refine (Progress.finish_eq_ok_iff htestable).mpr ?_
      rw [hfields, List.append_nil]
      exact hfollows.omitted
    refine .of_eq done (fun room _ ↦ by rw [emitFields, hfinish]) fun e he ↦ ?_
    rw [hdone] at he
    cases he
  | cons f rest ih =>
    intro before n size p done hfields hnumbered hfollows hdone hlength hroom
    have hmem : f ∈ c.fields := by rw [hfields]; simp
    have hbehind : c.fields = (before ++ [f]) ++ rest := by rw [hfields]; simp
    have hcount : before.length + 1 = (before ++ [f]).length := by simp
    have hfaultless : ¬ done.fault?.isSome = true := by rw [hdone]; exact Bool.false_ne_true
    obtain ⟨first, behind, hfirst, hrestLength, rfl⟩ := bodyLength_cons_eq_ok_iff.mp hlength
    cases hnumbered with
    | @mask _ name _ hlimit hrest =>
      have hslot : Field.slot ⟨name, .mask, none, some n⟩ = some n := rfl
      have hadmits : p.Admits ⟨name, .mask, none, some n⟩ (.mask (masks n)) := by
        intro g hg
        cases hg
      rw [fieldLength_mask hslot] at hfirst
      cases hfirst
      have hbits : Kind.mask.PlainWritten (.mask (masks n)) (encodeUInt32 (masks n)) := .mask rfl
      have hfits : ∀ room, limit ≤ room →
          offset + done.bytes.size + (encodeUInt32 (masks n)).size ≤ room := by
        intro room hle
        rw [size_encodeUInt32]
        omega
      have hspace : offset + (done.bytes ++ encodeUInt32 (masks n)).size + behind ≤ limit := by
        rw [ByteArray.size_append, size_encodeUInt32]
        omega
      have hbehindMask := ih (done.append ⟨encodeUInt32 (masks n), .empty, none⟩) hbehind hrest
        (Progress.Follows.written hfollows.agree.set_succ _) rfl hrestLength hspace
      refine .of_eq _ (fun room hle ↦ ?_) fun e he ↦
        .laterField (.mask hslot (.noFields masks entries)) (hbehindMask.rejects e he)
      rw [emitFields_mask hfaultless hslot,
        emitField_accepted (hfollows.accept_eq htestable hfields hadmits rfl), hcount,
        andThen_of_none hdone, emitPlain_of_written hbits (hfits room hle)]
      exact hbehindMask.same room hle
    | plain hslot hkind hgate hrest =>
      have hgate : ∀ g, f.gate = some g → g.slot < n := fun g hg ↦ (hgate g hg).1
      have hskips := Masks.skips_eq masks (htestable f hmem)
      by_cases homit : (f.isPresence || !masks.opens f) = true
      · rw [homit] at hskips
        rw [fieldLength_omitted hslot hskips] at hfirst
        cases hfirst
        rw [Nat.zero_add] at hroom
        have hskipped := ih done hbehind hrest
          (hfollows.leaveOut ((hfollows.mayOmit_eq hgate).trans homit)) hdone hrestLength hroom
        simp only [emitFields_omitted hfaultless hslot hskips, hcount]
        exact ⟨hskipped.same, fun e he ↦
          .laterField (.omitted hslot hskips (.noFields masks entries)) (hskipped.rejects e he)⟩
      · have homit := Bool.eq_false_iff.mpr homit
        rw [homit] at hskips
        have hspace : offset + done.bytes.size + first ≤ limit := by omega
        rw [fieldLength_present hslot hskips] at hfirst
        have haccept := hfollows.accept_present htestable hfields hslot hgate homit
        simp only [emitFields_present hfaultless hslot hskips
          (supplied_or_zero_of_entryLength hfirst), emitField_accepted (haccept _), hcount]
        refine .andThen (.body masks entries rest)
          (fun room at_ => emitEntry ⟨s, held, room⟩ f.name f.kind at_ entries)
          (fun room done => emitFields ⟨s, held, room⟩ c masks entries
            (fun f at_ => emitEntry ⟨s, held, room⟩ f.name f.kind at_ entries) offset
            (before ++ [f]).length rest (⟨(before ++ [f]).length, p.masks⟩, done)) hdone
          (settles_entry (fun v size ↦ hentries f hmem v size _) hfirst hspace)
          (fun _ _ ↦ emitFields_of_fault) (fun e ↦ .field hslot hskips) fun hfault ↦ ?_
        obtain ⟨bytes, hsize, hwritten⟩ :=
          written_of_emitEntry hsound hslot hskips hfirst hspace hfault
        refine ⟨ih _ hbehind hrest (Progress.Follows.written hfollows.agree _) hfault
          hrestLength ?_, fun e ↦ .laterField hwritten⟩
        rw [append, ByteArray.size_append, hsize]
        omega

theorem emitTag_of_le {t : Target} {object : Located}
    (h : offset + object.tagBytes.size ≤ t.limit) :
    emitTag t object offset = ⟨object.tagBytes, .empty, none⟩ := by
  by_cases hheader : object.header = 0
  · rw [Located.tagBytes_of_header_eq_zero hheader]
    unfold emitTag
    split
    · exact if_pos hheader
    · rfl
  · unfold emitTag
    split
    · rename_i tag htag
      have hbytes : object.tagBytes = encodeUInt32 tag := by
        unfold Located.tagBytes
        rw [htag]
        exact if_neg hheader
      rw [hbytes] at h ⊢
      exact (if_neg hheader).trans (piece_of_le h)
    · rename_i htag
      unfold Located.tagBytes
      rw [htag]
      rfl

/-- The length of an object is room enough for it, once its masks are found. -/
theorem settles_instance (hsound : s.Sound) {object : Located}
    (hcombinator : object.combinator.Sound) (htag : object.tagBytes.size = object.header)
    (hentries : ∀ f ∈ object.combinator.fields, ∀ v size offset, entries.find? f.name = some v →
      valueLength s f.name f.kind v = .ok size → offset + size ≤ limit →
        Settles s held f.name (.value f.kind v) limit fun room =>
          emitValue ⟨s, held, room⟩ f.name f.kind offset v)
    (hmasks : resolveMasks object.combinator.fields entries = .ok masks)
    (hlength : bodyLength masks (fun f => entryLength s f.name f.kind entries)
      object.combinator.fields = .ok size)
    (hroom : offset + (object.header + size) ≤ limit) :
    Settles s held owner (.body masks entries object.combinator.fields) limit fun room =>
      emitInstance ⟨s, held, room⟩ (.ok object) entries
        (fun f at_ => emitEntry ⟨s, held, room⟩ f.name f.kind at_ entries) offset := by
  rw [← htag] at hroom
  have hspace : offset + object.tagBytes.size + size ≤ limit := by omega
  have hput : ∀ room, limit ≤ room →
      emitTag ⟨s, held, room⟩ object offset = ⟨object.tagBytes, .empty, none⟩ :=
    fun room hle ↦ emitTag_of_le (by show offset + object.tagBytes.size ≤ room; omega)
  have hfields : Settles s held owner (.body masks entries object.combinator.fields) limit _ :=
    settles_fields hsound hcombinator.numbered.testable hentries
      ⟨object.tagBytes, .empty, none⟩ (List.nil_append _).symm hcombinator.numbered
      (Progress.Follows.start masks) rfl hlength hspace
  refine .of_eq _ (fun room hle ↦ ?_) hfields.rejects
  unfold emitInstance
  dsimp only
  rw [hmasks]
  dsimp only
  rw [hput room hle]
  exact hfields.same room hle

theorem instanceLength_eq_ok_iff {located : Except Error Located}
    {entry : Field → Except Error Nat} :
    instanceLength located entries entry = .ok size ↔
      ∃ object masks n, located = .ok object ∧
        resolveMasks object.combinator.fields entries = .ok masks ∧
        bodyLength masks entry object.combinator.fields = .ok n ∧ size = object.header + n := by
  unfold instanceLength
  cases located with
  | error fault => simp
  | ok object =>
    cases hmasks : resolveMasks object.combinator.fields entries with
    | error fault => simp [hmasks]
    | ok masks =>
      cases hbody : bodyLength masks entry object.combinator.fields <;>
        simp [hmasks, hbody, Except.map, eq_comm]

/-- An object whose length is found is one that a reference leads to, or one of another type than
the reference names. -/
theorem locateObject_cases {r : Reference} {name : String} {object : Located}
    (hkind : kind.reference? = some r) (h : s.locateWritten name (s.omitsTag r) = .ok object) :
    s.locateObject name r = .ok object ∨
      ∃ typeName bare, kind = .object typeName bare ∧ r = .typed typeName bare ∧
        s.locateObject name r = .error (.invalidState (.notAConstructor name typeName)) := by
  cases kind with
  | object typeName bare =>
    cases hkind
    have h : s.locateWritten name (s.writesBare typeName bare) = .ok object := h
    have hlocate : s.locateObject name (.typed typeName bare) =
        locateMemberWritten s typeName name (s.writesBare typeName bare) := rfl
    rw [hlocate]
    unfold locateMemberWritten
    rw [h]
    dsimp only
    generalize (if s.writesBare typeName bare = true then
      (s.bareTarget? typeName).any (·.name == object.combinator.name)
      else object.combinator.constructs typeName) = fits
    cases fits with
    | true => exact .inl rfl
    | false => exact .inr ⟨typeName, bare, rfl, rfl, rfl⟩
  | generic _ | anyObject =>
    cases hkind
    exact .inl h
  | _ => cases hkind

/-- The length that is found for a value is room enough for it: a larger buffer makes no difference,
and a fault is one of the value. -/
theorem settles_value (hsound : s.Sound) :
    ∀ v field kind size offset, valueLength s field kind v = .ok size → offset + size ≤ limit →
      Settles s held field (.value kind v) limit fun room =>
        emitValue ⟨s, held, room⟩ field kind offset v := by
  intro v
  induction v using Value.induction with
  | leaf v hvector hobject =>
    intro field kind size offset hlength hroom
    have hvector : ∀ boxed element, kind = .vector boxed element → v.toItems? = none :=
      fun _ _ _ ↦ hvector
    have hobject : ∀ r, kind.reference? = some r → v.toObject? = none := fun _ _ ↦ hobject
    rw [valueLength_plain hvector hobject] at hlength
    simp only [emitValue_plain hvector hobject]
    exact settles_plain hlength hroom
  | vector items ih =>
    intro field kind size offset hlength hroom
    by_cases hkind : ∃ boxed element, kind = .vector boxed element
    · obtain ⟨boxed, element, rfl⟩ := hkind
      rw [valueLength] at hlength
      simp only [emitValue]
      by_cases hcount : UInt32.size ≤ items.length
      · simp only [if_pos hcount]
        refine .of_eq _ (fun _ _ ↦ rfl) fun e he ↦ ?_
        cases he
        exact .tooManyItems hcount
      · have hheader := Vectors.size_header boxed items.length
        have hle := le_of_itemsLength hlength
        have hput : ∀ room, limit ≤ room → vectorHeader room offset boxed items.length =
            ⟨Vectors.header boxed items.length, .empty, none⟩ :=
          fun room hle ↦ vectorHeader_of_le (by omega)
        rw [← hheader] at hlength
        have hitems : Settles s held field (.items element items) limit _ :=
          settles_items hsound (fun v hv size offset ↦ ih v hv field element size offset)
            ⟨Vectors.header boxed items.length, .empty, none⟩ rfl hlength hroom
        refine .of_eq _ (fun room hle ↦ ?_)
          fun e he ↦ .vector (Nat.not_le.mp hcount) (hitems.rejects e he)
        rw [if_neg hcount, hput room hle]
        exact hitems.same room hle
    · have hvector : ∀ boxed element, kind = .vector boxed element →
          (Value.vector items).toItems? = none := fun boxed element h ↦
        absurd ⟨boxed, element, h⟩ hkind
      have hobject : ∀ r, kind.reference? = some r → (Value.vector items).toObject? = none :=
        fun _ _ ↦ rfl
      rw [valueLength_plain hvector hobject] at hlength
      simp only [emitValue_plain hvector hobject]
      exact settles_plain hlength hroom
  | object o ih =>
    obtain ⟨name, tag, entries⟩ := o
    intro field kind size offset hlength hroom
    cases hkind : kind.reference? with
    | some r =>
      rw [valueLength_reference hkind] at hlength
      obtain ⟨object, masks, n, hlocated, hmasks, hbody, rfl⟩ :=
        instanceLength_eq_ok_iff.mp hlength
      simp only [emitValue_reference hkind]
      rcases locateObject_cases hkind hlocated with hlocate | ⟨typeName, bare, rfl, rfl, hlocate⟩
      · have hobject : Settles s held field
            (.body masks entries object.combinator.fields) limit _ :=
          settles_instance hsound (hsound.of_locateObject hlocate)
            (Schema.size_tagBytes_of_locateObject hlocate)
            (fun f _ v size offset hfind ↦
              ih _ (Entries.mem_of_find? hfind) f.name f.kind size offset)
            hmasks hbody hroom
        simp only [hlocate]
        exact ⟨hobject.same, fun e he ↦
          .object hkind hlocate hmasks (hobject.rejects e he)⟩
      · simp only [hlocate]
        refine .of_eq _ (fun _ _ ↦ rfl) fun e he ↦ ?_
        cases he
        exact .notAConstructor hlocate
    | none =>
      have hvector : ∀ boxed element, kind = .vector boxed element →
          (Value.object ⟨name, tag, entries⟩).toItems? = none := fun _ _ _ ↦ rfl
      have hobject : ∀ r, kind.reference? = some r →
          (Value.object ⟨name, tag, entries⟩).toObject? = none := by
        intro r h
        rw [hkind] at h
        cases h
      rw [valueLength_plain hvector hobject] at hlength
      simp only [emitValue_plain hvector hobject]
      exact settles_plain hlength hroom

end Message

namespace Schema

variable {s : Schema} {name : String} {c : Combinator} {masks : Masks} {entries : Entries}

/-- What a build of the combinator of a name puts down in a buffer of some size. -/
def emission (s : Schema) (held : Nat) (name : String) (entries : Entries) (room : Nat) :
    Emission :=
  emitInstance ⟨s, held, room⟩ (s.locateNamed name) entries
    (fun f at_ => emitEntry ⟨s, held, room⟩ f.name f.kind at_ entries) 0

/-- A build whose masks and length are found puts down its object in a buffer of just that length.
It leaves no byte of the buffer as it was, or fails for the first value that cannot be written. A
larger buffer would make no difference, so no write runs out of room. -/
theorem build_fills_or_rejects {source : String} (hcompile : compile source = .ok s)
    (hc : s.combinator? name = some c) (hmasks : resolveMasks c.fields entries = .ok masks)
    {n : Nat}
    (hlength : bodyLength masks (fun f => entryLength s f.name f.kind entries) c.fields = .ok n)
    (held : Nat) :
    let size := c.header + n
    let put := s.emission held name entries size
    s.build held name entries = ⟨put.outcome.map fun _ => put.bytes, put.log⟩ ∧
      (∀ room, size ≤ room → s.emission held name entries room = put) ∧
      (put.outcome = .ok size ∧ put.apply (zeros size) 0 = put.bytes ∨
        ∃ e, put.outcome = .error e ∧ s.Rejects held name (.body masks entries c.fields) e ∧
          ((∃ fault, e = .invalidState fault ∧ fault.isOfValue = true) ∨
            ∃ kind raw, kind.isContainer = true ∧
              (s.measureKind held raw kind 0).outcome = .error e ∧
              (e.isDecodeError = true ∨ ∃ name, e = .unknownType name))) := by
  have hsound := sound_of_compile hcompile
  have hlocate : s.locateNamed name = .ok c.located := locateNamed_eq_ok_iff.mpr ⟨c, hc, rfl⟩
  have hcsound : c.located.combinator.Sound :=
    hsound.combinator_sound c (mem_of_combinator? hc).1
  intro size put
  have hsettles : Settles s held name (.body masks entries c.fields) size
      fun room => s.emission held name entries room := by
    unfold emission
    rw [hlocate]
    exact settles_instance hsound hcsound (size_tagBytes_located c)
      (fun f _ v n at_ _ ↦ settles_value hsound v f.name f.kind n at_) hmasks hlength
      (Nat.le_of_eq (Nat.zero_add size))
  have hinstance : instanceLength (s.locateNamed name) entries
      (fun f => entryLength s f.name f.kind entries) = .ok size :=
    instanceLength_eq_ok_iff.mpr ⟨c.located, masks, n, hlocate, hmasks, hlength, rfl⟩
  have hbuild : s.build held name entries = ⟨put.outcome.map fun _ => put.bytes, put.log⟩ := by
    unfold build
    dsimp only
    rw [hinstance]
    rfl
  refine ⟨hbuild, hsettles.same, ?_⟩
  cases hfault : put.fault? with
  | some e =>
    have hrejects := hsettles.rejects e hfault
    refine .inr ⟨e, ?_, hrejects, hrejects.cause hsound.testable⟩
    rw [Emission.outcome, hfault]
  | none =>
    have hbuilt : (s.build held name entries).outcome = .ok put.bytes := by
      rw [hbuild]
      exact Emission.outcome_map_eq_ok_iff.mpr ⟨hfault, rfl⟩
    obtain ⟨_, _, body, hc', hmasks', hbody, hbytes⟩ := (build_eq_ok_iff hsound).mp hbuilt
    obtain rfl := Option.some.inj (hc.symm.trans hc')
    obtain rfl := Except.ok.inj (hmasks.symm.trans hmasks')
    have hn : body.size = n := Except.ok.inj (hbody.measures.symm.trans hlength)
    have hsize : put.bytes.size = size := by
      rw [hbytes, ByteArray.size_append, size_tagBytes_located, hn]
    have hzeros : (zeros size).size = size := Array.size_replicate
    refine .inl ⟨?_, Emission.apply_eq_bytes (hsize.trans hzeros.symm)⟩
    rw [Emission.outcome, hfault, hsize]

/-- Entries for a line whose second point is no integer. -/
def brokenEntries : Entries := [("points", .vector [.int 7, .null])]

/-- The length of a line is found although one of its points is no integer, and the line is rejected
when it is written; in a larger buffer it would be rejected too. -/
theorem build_line_rejects :
    ∃ masks e, resolveMasks line.fields brokenEntries = .ok masks ∧
      bodyLength masks (fun f => entryLength lineSchema f.name f.kind brokenEntries)
        line.fields = .ok 16 ∧
      (lineSchema.build 0 "line" brokenEntries).outcome = .error e ∧
      lineSchema.Rejects 0 "line" (.body masks brokenEntries line.fields) e ∧
      (lineSchema.emission 0 "line" brokenEntries 64).outcome = .error e := by
  have hfound : ((resolveMasks line.fields brokenEntries).toOption.map fun masks =>
      (bodyLength masks (fun f => entryLength lineSchema f.name f.kind brokenEntries)
        line.fields).toOption) = some (some 16) := by
    decide +kernel
  have hstopped : (lineSchema.emission 0 "line" brokenEntries
      (line.header + 16)).outcome.toOption = none := by
    decide +kernel
  obtain ⟨masks, hmasks, hlength⟩ := Option.map_eq_some_iff.mp hfound
  have hmasks := ok_of_toOption hmasks
  have hlength := ok_of_toOption hlength
  have hline : lineSchema.combinator? "line" = some line := rfl
  obtain ⟨hbuild, hsame, hfills | ⟨e, he, hrejects, -⟩⟩ :=
    build_fills_or_rejects compile_lineSource hline hmasks hlength 0
  · rw [hfills.1] at hstopped
    cases hstopped
  · refine ⟨masks, e, hmasks, hlength, ?_, hrejects, ?_⟩
    · rw [hbuild]
      dsimp only
      rw [he]
      rfl
    · rw [hsame 64 (by decide)]
      exact he

end Schema

end TypeLang
