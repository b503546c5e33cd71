import TypeLang.Proofs.Message.Grammar
import TypeLang.Proofs.Message.Written

/-!
Fields that are absent from an object that was read. A reader gives each of them a zero, and a
writer takes a zero for a value unless it is that of an object. So the masks of such an object are
found again just when its absent fields are presence fields or fields of objects
(`Schema.resolveMasks_eq_iff`).
-/

set_option autoImplicit false
set_option relaxedAutoImplicit false

namespace TypeLang

open Wire Message

mutual

/-- The objects in a value, the value itself among them if it is one. -/
def Value.objects : Value → List Object
  | .vector items => Value.itemsObjects items
  | .object ⟨name, tag, entries⟩ => ⟨name, tag, entries⟩ :: Value.entriesObjects entries
  | _ => []

/-- The objects in the items of a vector. -/
def Value.itemsObjects : List Value → List Object
  | [] => []
  | v :: rest => v.objects ++ Value.itemsObjects rest

/-- The objects in the entries of an object. -/
def Value.entriesObjects : List (String × Value) → List Object
  | [] => []
  | (_, v) :: rest => v.objects ++ Value.entriesObjects rest

end

namespace Schema

/-- No field that is absent from an object has a zero: a field whose bit is clear is a presence
field or one of objects. -/
def AbsentFieldsEmpty (s : Schema) (o : Object) : Prop :=
  ∀ c, s.combinator? o.name = some c → ∀ f ∈ c.fields, ∀ g, f.gate = some g →
    (impliedMasks c.fields o.fields).isSet g = false →
      f.isPresence = true ∨ ∃ r, f.kind.reference? = some r

/-- No field that is absent from an object, or from an object in it, has a zero. -/
def Rebuildable (s : Schema) (o : Object) : Prop :=
  ∀ inner ∈ (Value.object o).objects, s.AbsentFieldsEmpty inner

end Schema

theorem Value.objects_leaf {v : Value} (hvector : v.toItems? = none)
    (hobject : v.toObject? = none) : v.objects = [] := by
  cases v with
  | vector items => cases hvector
  | object o => cases hobject
  | _ => rw [objects] <;> exact nofun

theorem Kind.PlainForm.objects_eq {kind : Kind} {v : Value} {bytes : ByteArray}
    (h : kind.PlainForm v bytes) : v.objects = [] := by
  cases h <;> exact Value.objects_leaf rfl rfl

theorem Kind.objects_zero (kind : Kind) : kind.zero.objects = [] := by
  cases kind with
  | vector _ _ => rw [zero, Value.objects, Value.itemsObjects]
  | _ => exact Value.objects_leaf rfl rfl

/-! ### Entries that are read -/

/-- Some fields and their entries are the last ones of an object that was read, and the masks known
before them are masks of the object. -/
structure Message.Suffix (whole : List Field) (all : Entries) (fields : List Field) (known : Masks)
    (entries : Entries) : Prop where
  whole_numbered : Field.Numbered 0 whole
  fields_mem : ∀ f ∈ fields, f ∈ whole
  entries_eq : ∀ e ∈ entries, all.find? e.1 = some e.2
  numbered : ∃ n, Field.Numbered n fields ∧ Masks.AgreeBelow n known (impliedMasks whole all)

namespace Message.Suffix

variable {whole rest : List Field} {all entries : Entries} {known : Masks} {f : Field}

theorem mask {bits : UInt32} {slot : Nat}
    (h : Suffix whole all (f :: rest) known ((f.name, .mask bits) :: entries))
    (hslot : f.slot = some slot) :
    f.gate = none ∧ impliedMasks whole all slot = bits ∧
      Suffix whole all rest (known.set slot bits) entries := by
  obtain ⟨hhere, hentries⟩ := List.forall_mem_cons.mp h.entries_eq
  obtain ⟨hf, hfields⟩ := List.forall_mem_cons.mp h.fields_mem
  have hbits : impliedMasks whole all slot = bits :=
    impliedMasks_of_supplied h.whole_numbered hf hslot hhere rfl
  obtain ⟨n, hn, hagree⟩ := h.numbered
  cases hn with
  | mask _ hrest =>
    cases hslot
    refine ⟨rfl, hbits, h.whole_numbered, hfields, hentries, _, hrest, ?_⟩
    rw [← hbits]
    exact hagree.set_succ
  | plain hnone _ _ _ => rw [hnone] at hslot; cases hslot

theorem plain {v : Value} (h : Suffix whole all (f :: rest) known ((f.name, v) :: entries))
    (hslot : f.slot = none) :
    all.find? f.name = some v ∧ known.opens f = (impliedMasks whole all).opens f ∧
      Suffix whole all rest known entries := by
  obtain ⟨hhere, hentries⟩ := List.forall_mem_cons.mp h.entries_eq
  obtain ⟨-, hfields⟩ := List.forall_mem_cons.mp h.fields_mem
  obtain ⟨n, hn, hagree⟩ := h.numbered
  cases hn with
  | mask _ _ => cases hslot
  | plain _ _ hgate hrest =>
    exact ⟨hhere, hagree.opens_eq fun g hg ↦ (hgate g hg).1, h.whole_numbered, hfields, hentries,
      n, hrest, hagree⟩

end Message.Suffix

namespace Schema

variable {s : Schema}

theorem WireForm.names_eq {fields : List Field} {known : Masks} {entries : Entries}
    {bytes : ByteArray} {sites : List Site}
    (h : s.WireForm (.fields fields known entries) bytes sites) :
    entries.map Prod.fst = fields.map Field.name := by
  induction fields generalizing known entries bytes sites with
  | nil => cases h; rfl
  | cons f rest ih =>
    cases h with
    | mask _ hrest | presence _ _ _ hrest | absent _ _ _ hrest | present _ _ _ _ hrest =>
      rw [List.map_cons, List.map_cons, ih hrest]

/-- The entry of a field of an object that was read, given the masks of the object: a mask, a bit,
the zero of a field that is absent, or a value that has a wire form. -/
inductive EntryForm (s : Schema) (masks : Masks) (f : Field) : Value → Prop
  | mask {slot : Nat} (hslot : f.slot = some slot) (hgate : f.gate = none) :
      EntryForm s masks f (.mask (masks slot))
  | presence (hslot : f.slot = none) (hpresence : f.isPresence = true) :
      EntryForm s masks f (.bool (masks.opens f))
  | absent (hslot : f.slot = none) (hpresence : f.isPresence = false)
      (hopens : masks.opens f = false) : EntryForm s masks f f.kind.zero
  | present {v : Value} {bytes : ByteArray} {sites : List Site} (hslot : f.slot = none)
      (hpresence : f.isPresence = false) (hopens : masks.opens f = true)
      (hvalue : s.WireForm (.value f.kind v) bytes sites) : EntryForm s masks f v

variable {masks known : Masks} {f : Field} {v : Value} {bytes : ByteArray} {sites : List Site}
  {fields whole : List Field} {entries all : Entries}

theorem WireForm.entryForm (h : s.WireForm (.fields fields known entries) bytes sites)
    (hsuffix : Suffix whole all fields known entries) :
    ∀ f ∈ fields, ∃ v, all.find? f.name = some v ∧
      s.EntryForm (impliedMasks whole all) f v := by
  induction fields generalizing known entries bytes sites with
  | nil => exact nofun
  | cons f rest ih =>
    rw [List.forall_mem_cons]
    cases h with
    | mask hslot hrest =>
      obtain ⟨hgate, rfl, hbehind⟩ := hsuffix.mask hslot
      have hentry := hsuffix.entries_eq _ List.mem_cons_self
      exact ⟨⟨_, hentry, .mask hslot hgate⟩, ih hrest hbehind⟩
    | presence hslot hpresence hasks hrest =>
      obtain ⟨hentry, hopens, hbehind⟩ := hsuffix.plain hslot
      rw [← Masks.opens_of_asks hasks, hopens] at hentry
      exact ⟨⟨_, hentry, .presence hslot hpresence⟩, ih hrest hbehind⟩
    | absent hslot hpresence hasks hrest =>
      obtain ⟨hentry, hopens, hbehind⟩ := hsuffix.plain hslot
      have hclosed := hopens.symm.trans (Masks.opens_of_asks hasks)
      exact ⟨⟨_, hentry, .absent hslot hpresence hclosed⟩, ih hrest hbehind⟩
    | present hslot hpresence hasks hvalue hrest =>
      obtain ⟨hentry, hopens, hbehind⟩ := hsuffix.plain hslot
      have hopen := hopens.symm.trans (Masks.opens_of_asks hasks)
      exact ⟨⟨_, hentry, .present hslot hpresence hopen hvalue⟩, ih hrest hbehind⟩

/-- A value that has a wire form supplies its field. -/
theorem WireForm.isSupplied_eq (h : s.WireForm (.value f.kind v) bytes sites)
    (hpresence : f.isPresence = false) : isSupplied f (some v) = true := by
  have hbool : ∀ b : Bool, isSupplied f (some (.bool b)) = true := by
    intro b
    show (b || !f.isPresence) = true
    rw [hpresence, Bool.not_false, Bool.or_true]
  generalize f.kind = kind at h
  cases h with
  | plain h => cases h <;> first | rfl | exact hbool _
  | byteString _ _ | vector _ _ | object _ _ _ => rfl

/-- A zero does not supply its field just when it is that of objects. -/
theorem isSupplied_zero_eq_false_iff (hpresence : f.isPresence = false) :
    isSupplied f (some f.kind.zero) = false ↔ ∃ r, f.kind.reference? = some r := by
  have hbool : isSupplied f (some (.bool false)) = true := by
    show (false || !f.isPresence) = true
    rw [hpresence]
    rfl
  cases f.kind <;> simp [Kind.zero, Kind.reference?, isSupplied, hpresence]

/-- The entry of a field agrees with its bit, unless the field is absent and has a zero. -/
theorem EntryForm.agrees_iff (h : s.EntryForm masks f v) :
    Agrees masks f (some v) ↔ ∀ g, f.gate = some g → masks.isSet g = false →
      f.isPresence = true ∨ ∃ r, f.kind.reference? = some r := by
  unfold Agrees
  refine forall_congr' fun g ↦ forall_congr' fun hg ↦ ?_
  cases h with
  | mask _ hgate => rw [hgate] at hg; cases hg
  | presence _ hpresence =>
    rw [if_pos hpresence, Masks.isSet_eq_opens hg]
    exact ⟨fun _ _ ↦ .inl hpresence, fun _ b hb ↦ by cases hb; rfl⟩
  | absent _ hpresence hopens =>
    rw [if_neg (Bool.eq_false_iff.mp hpresence), Masks.isSet_eq_opens hg, hopens,
      isSupplied_zero_eq_false_iff hpresence]
    simp [hpresence]
  | present _ hpresence hopens hvalue =>
    rw [if_neg (Bool.eq_false_iff.mp hpresence), Masks.isSet_eq_opens hg, hopens,
      hvalue.isSupplied_eq hpresence]
    simp

theorem WireForm.suffix (h : s.WireForm (.fields fields .empty entries) bytes sites)
    (hn : Field.Numbered 0 fields) (hnodup : (fields.map Field.name).Nodup) :
    Suffix fields entries fields .empty entries := by
  refine ⟨hn, fun _ hf ↦ hf, fun e he ↦ ?_, 0, hn, nofun⟩
  rw [← h.names_eq] at hnodup
  exact Entries.find?_of_mem hnodup he

/-- The masks of an object that was read are found again just when none of its absent fields has a
zero. -/
theorem resolveMasks_eq_iff (hsound : s.Sound) {c : Combinator} (hc : c ∈ s.combinators)
    (h : s.WireForm (.fields c.fields .empty entries) bytes sites) (tag : Option UInt32) :
    resolveMasks c.fields entries = .ok (impliedMasks c.fields entries) ↔
      s.AbsentFieldsEmpty ⟨c.name, tag, entries⟩ := by
  have hcsound := hsound.combinator_sound c hc
  have hforms := h.entryForm (h.suffix hcsound.numbered hcsound.names_nodup)
  have hfit : MasksFit c.fields entries := by
    intro f hf slot hslot v hv
    obtain ⟨v', hv', hform⟩ := hforms f hf
    obtain rfl := Option.some.inj (hv.symm.trans hv')
    cases hform with
    | mask _ _ => exact ⟨_, rfl⟩
    | presence hnone _ | absent hnone _ _ | present hnone _ _ _ =>
      rw [hslot] at hnone
      cases hnone
  have hagrees : ∀ f ∈ c.fields, (Agrees (impliedMasks c.fields entries) f (entries.find? f.name) ↔
      ∀ g, f.gate = some g → (impliedMasks c.fields entries).isSet g = false →
        f.isPresence = true ∨ ∃ r, f.kind.reference? = some r) := by
    intro f hf
    obtain ⟨v, hv, hform⟩ := hforms f hf
    rw [hv]
    exact hform.agrees_iff
  rw [resolveMasks_eq_ok_iff hcsound.numbered]
  unfold AbsentFieldsEmpty
  constructor
  · rintro ⟨-, -, h⟩ d hd f hf
    obtain rfl := Option.some.inj ((hsound.combinator?_eq hc).symm.trans hd)
    exact (hagrees f hf).mp (h f hf)
  · intro h
    exact ⟨rfl, hfit, fun f hf ↦ (hagrees f hf).mpr (h c (hsound.combinator?_eq hc) f hf)⟩

end Schema

end TypeLang
