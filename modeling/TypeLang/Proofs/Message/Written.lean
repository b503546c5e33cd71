import TypeLang.Proofs.Message.Nesting
import TypeLang.Proofs.Message.Masks
import TypeLang.Proofs.Message.Reference

/-!
What supplied values are written as. `Schema.Written` says which bytes a value, the items of a
vector or the fields of an object become, and speaks neither of a buffer nor of the order in which
the fields are checked.
-/

set_option autoImplicit false
set_option relaxedAutoImplicit false

namespace TypeLang

open Wire Message

/-- Whether a kind is one of vectors or objects, whose values can be supplied as bytes. -/
def Kind.isContainer : Kind → Bool
  | vector .. | object .. | generic _ | anyObject => true
  | mask | int | long | double | int128 | int256 | bytes | string | presence | bool => false

/-- What a value without values inside is written as, a container that is supplied as bytes apart.
Masks and long integers may be supplied as integers, and large integers as their bytes. -/
inductive Kind.PlainWritten : Kind → Value → ByteArray → Prop
  | mask {v : Value} {bits : UInt32} (h : v.toMask? = some bits) :
      PlainWritten .mask v (encodeUInt32 bits)
  | int (x : Int32) : PlainWritten .int (.int x) (encodeInt32 x)
  | long {v : Value} {x : Int64} (h : v.toLong? = some x) : PlainWritten .long v (encodeInt64 x)
  | double (x : Double) : PlainWritten .double (.double x) (encodeDouble x)
  | int128 (x : Vector UInt8 16) : PlainWritten .int128 (.int128 x) (encodeWord x)
  | rawInt128 {raw : ByteArray} (h : raw.size = 16) : PlainWritten .int128 (.bytes raw) raw
  | int256 (x : Vector UInt8 32) : PlainWritten .int256 (.int256 x) (encodeWord x)
  | rawInt256 {raw : ByteArray} (h : raw.size = 32) : PlainWritten .int256 (.bytes raw) raw
  | bool (b : Bool) : PlainWritten .bool (.bool b) (encodeBool b)
  | presence (b : Bool) : PlainWritten .presence (.bool b) .empty
  | bytes {data : ByteArray} (h : data.size ≤ ByteString.lengthLimit) :
      PlainWritten .bytes (.bytes data) (ByteString.encode data)
  | string {data : ByteArray} (h : data.size ≤ ByteString.lengthLimit) :
      PlainWritten .string (.bytes data) (ByteString.encode data)

/-- What is supplied to a writer: a value of some kind, the items of a vector, or entries for the
fields of an object whose masks are given. -/
inductive Supply
  | value (kind : Kind) (v : Value)
  | items (element : Kind) (items : List Value)
  | body (masks : Masks) (entries : Entries) (fields : List Field)

/-- What is supplied is written as some bytes, with `held` guards taken. -/
inductive Schema.Written (s : Schema) (held : Nat) : Supply → ByteArray → Prop
  | plain {kind : Kind} {v : Value} {bytes : ByteArray} (h : kind.PlainWritten v bytes) :
      Written s held (.value kind v) bytes
  | raw {kind : Kind} {raw : ByteArray} (hkind : kind.isContainer = true)
      (hsize : (s.measureKind held raw kind 0).outcome = .ok raw.size) :
      Written s held (.value kind (.bytes raw)) raw
  | vector {boxed : Bool} {element : Kind} {items : List Value} {bytes : ByteArray}
      (hcount : items.length < UInt32.size) (hitems : Written s held (.items element items) bytes) :
      Written s held (.value (.vector boxed element) (.vector items))
        (Vectors.header boxed items.length ++ bytes)
  | object {kind : Kind} {r : Reference} {name : String} {tag : Option UInt32}
      {object : Located} {masks : Masks} {entries : Entries} {bytes : ByteArray}
      (hkind : kind.reference? = some r) (hlocate : s.locateObject name r = .ok object)
      (hmasks : resolveMasks object.combinator.fields entries = .ok masks)
      (hbody : Written s held (.body masks entries object.combinator.fields) bytes) :
      Written s held (.value kind (.object ⟨name, tag, entries⟩)) (object.tagBytes ++ bytes)
  | noItems (element : Kind) : Written s held (.items element []) .empty
  | item {element : Kind} {v : Value} {rest : List Value} {bytes behind : ByteArray}
      (hitem : Written s held (.value element v) bytes)
      (hrest : Written s held (.items element rest) behind) :
      Written s held (.items element (v :: rest)) (bytes ++ behind)
  | noFields (masks : Masks) (entries : Entries) : Written s held (.body masks entries []) .empty
  | mask {f : Field} {slot : Nat} {rest : List Field} {masks : Masks} {entries : Entries}
      {bytes : ByteArray} (hslot : f.slot = some slot)
      (hrest : Written s held (.body masks entries rest) bytes) :
      Written s held (.body masks entries (f :: rest)) (encodeUInt32 (masks slot) ++ bytes)
  | omitted {f : Field} {rest : List Field} {masks : Masks} {entries : Entries}
      {bytes : ByteArray} (hslot : f.slot = none)
      (homit : masks.skips f = .ok true)
      (hrest : Written s held (.body masks entries rest) bytes) :
      Written s held (.body masks entries (f :: rest)) bytes
  | present {f : Field} {rest : List Field} {masks : Masks} {entries : Entries}
      {bytes behind : ByteArray} (hslot : f.slot = none)
      (homit : masks.skips f = .ok false)
      (hvalue : Written s held (.value f.kind ((entries.find? f.name).getD f.kind.zero)) bytes)
      (hrest : Written s held (.body masks entries rest) behind) :
      Written s held (.body masks entries (f :: rest)) (bytes ++ behind)

namespace Kind

theorem isContainer_of_reference? {kind : Kind} {r : Reference} (h : kind.reference? = some r) :
    kind.isContainer = true := by
  cases kind <;> cases h <;> rfl

theorem PlainWritten.isContainer_eq {kind : Kind} {v : Value} {bytes : ByteArray}
    (h : kind.PlainWritten v bytes) : kind.isContainer = false := by
  cases h <;> rfl

end Kind

/-! ### Values under names -/

namespace Entries

theorem find?_cons (other name : String) (v : Value) (rest : Entries) :
    Entries.find? ((other, v) :: rest) name = if other = name then some v else rest.find? name := by
  unfold find?
  rw [List.lookup_cons]
  by_cases hname : other = name
  · rw [if_pos hname, hname, beq_self_eq_true]
  · rw [if_neg hname, beq_false_of_ne (Ne.symm hname)]

theorem mem_of_find? {entries : Entries} {name : String} {v : Value}
    (h : entries.find? name = some v) : (name, v) ∈ entries := by
  induction entries with
  | nil => cases h
  | cons first rest ih =>
    obtain ⟨other, w⟩ := first
    rw [find?_cons] at h
    by_cases hname : other = name
    · subst hname
      rw [if_pos rfl] at h
      cases h
      exact List.mem_cons_self
    · rw [if_neg hname] at h
      exact List.mem_cons_of_mem _ (ih h)

theorem find?_of_mem {entries : Entries} (hnodup : (entries.map Prod.fst).Nodup)
    {e : String × Value} (he : e ∈ entries) : entries.find? e.1 = some e.2 := by
  induction entries with
  | nil => cases he
  | cons first rest ih =>
    obtain ⟨other, v⟩ := first
    obtain ⟨hnew, hrest⟩ := List.nodup_cons.mp hnodup
    rw [find?_cons]
    rcases List.mem_cons.mp he with rfl | hmem
    · exact if_pos rfl
    · have hname : e.1 ∈ rest.map Prod.fst := List.mem_map_of_mem hmem
      have hne : ¬ other = e.1 := fun hsame ↦ hnew (hsame ▸ hname)
      rw [if_neg hne]
      exact ih hrest hmem

theorem find?_append (entries others : Entries) (name : String) :
    Entries.find? (entries ++ others) name = (entries.find? name).or (others.find? name) :=
  List.lookup_append

theorem find?_eq_none {entries : Entries} {name : String}
    (h : name ∉ entries.map Prod.fst) : entries.find? name = none := by
  refine List.lookup_eq_none_iff.mpr fun e he ↦ ?_
  have hne : name ≠ e.1 := fun hsame ↦ h (hsame ▸ List.mem_map_of_mem he)
  exact bne_iff_ne.mpr hne

end Entries

/-! ### What values are written as -/

namespace Schema.Written

variable {s : Schema} {held : Nat} {kind : Kind} {v : Value} {bytes : ByteArray}

theorem value_iff_plain (hkind : kind.isContainer = false) :
    s.Written held (.value kind v) bytes ↔ kind.PlainWritten v bytes := by
  constructor
  · intro h
    cases h with
    | plain h => exact h
    | raw hcontainer _ => rw [hkind] at hcontainer; cases hcontainer
    | vector _ _ => cases hkind
    | object hreference _ _ _ =>
      rw [Kind.isContainer_of_reference? hreference] at hkind
      cases hkind
  · exact .plain

theorem value_iff_raw (hkind : kind.isContainer = true)
    (hvector : ∀ boxed element, kind = .vector boxed element → v.toItems? = none)
    (hobject : ∀ r, kind.reference? = some r → v.toObject? = none) :
    s.Written held (.value kind v) bytes ↔
      v = .bytes bytes ∧ (s.measureKind held bytes kind 0).outcome = .ok bytes.size := by
  constructor
  · intro h
    cases h with
    | plain h => rw [h.isContainer_eq] at hkind; cases hkind
    | raw _ hsize => exact ⟨rfl, hsize⟩
    | vector _ _ => cases hvector _ _ rfl
    | object hreference _ _ _ => cases hobject _ hreference
  · rintro ⟨rfl, hsize⟩
    exact .raw hkind hsize

theorem not_written_null : ¬ s.Written held (.value kind .null) bytes := by
  by_cases hkind : kind.isContainer = true
  · rw [value_iff_raw hkind (fun _ _ _ ↦ rfl) (fun _ _ ↦ rfl)]
    exact fun h ↦ nomatch h.1
  · rw [value_iff_plain (Bool.eq_false_iff.mpr hkind)]
    intro h
    cases h with
    | mask h => cases h
    | long h => cases h

/-- A kind without a zero has no value to be written for a field that is omitted. -/
theorem not_written_zero (h : kind.zeroLength? = none) :
    ¬ s.Written held (.value kind kind.zero) bytes := by
  have hzero : kind.zero = .null := by
    cases kind <;> first | rfl | cases h
  rw [hzero]
  exact not_written_null

/-! ### One item or field at a time -/

theorem noItems_iff {element : Kind} : s.Written held (.items element []) bytes ↔ bytes = .empty :=
  ⟨fun h ↦ by cases h; rfl, fun h ↦ h ▸ .noItems element⟩

theorem item_iff {element : Kind} {rest : List Value} :
    s.Written held (.items element (v :: rest)) bytes ↔
      ∃ first back, s.Written held (.value element v) first ∧
        s.Written held (.items element rest) back ∧ bytes = first ++ back := by
  constructor
  · intro h
    cases h with
    | item hitem hrest => exact ⟨_, _, hitem, hrest, rfl⟩
  · rintro ⟨first, back, hitem, hrest, rfl⟩
    exact .item hitem hrest

variable {f : Field} {rest : List Field} {masks : Masks} {entries : Entries}

theorem noFields_iff : s.Written held (.body masks entries []) bytes ↔ bytes = .empty :=
  ⟨fun h ↦ by cases h; rfl, fun h ↦ h ▸ .noFields masks entries⟩

theorem mask_iff {slot : Nat} (hslot : f.slot = some slot) :
    s.Written held (.body masks entries (f :: rest)) bytes ↔
      ∃ first back, first = encodeUInt32 (masks slot) ∧
        s.Written held (.body masks entries rest) back ∧ bytes = first ++ back := by
  constructor
  · intro h
    cases h with
    | mask hslot' hrest =>
      obtain rfl := Option.some.inj (hslot.symm.trans hslot')
      exact ⟨_, _, rfl, hrest, rfl⟩
    | omitted hslot' _ _ => rw [hslot] at hslot'; cases hslot'
    | present hslot' _ _ _ => rw [hslot] at hslot'; cases hslot'
  · rintro ⟨_, back, rfl, hrest, rfl⟩
    exact .mask hslot hrest

theorem omitted_iff (hslot : f.slot = none) (homit : masks.skips f = .ok true) :
    s.Written held (.body masks entries (f :: rest)) bytes ↔
      s.Written held (.body masks entries rest) bytes := by
  refine ⟨fun h ↦ ?_, .omitted hslot homit⟩
  cases h with
  | mask hslot' _ => rw [hslot] at hslot'; cases hslot'
  | omitted _ _ hrest => exact hrest
  | present _ homit' _ _ => rw [homit] at homit'; cases homit'

theorem present_iff (hslot : f.slot = none) (homit : masks.skips f = .ok false) :
    s.Written held (.body masks entries (f :: rest)) bytes ↔
      ∃ first back,
        s.Written held (.value f.kind ((entries.find? f.name).getD f.kind.zero)) first ∧
          s.Written held (.body masks entries rest) back ∧ bytes = first ++ back := by
  constructor
  · intro h
    cases h with
    | mask hslot' _ => rw [hslot] at hslot'; cases hslot'
    | omitted _ homit' _ => rw [homit] at homit'; cases homit'
    | present _ _ hvalue hrest => exact ⟨_, _, hvalue, hrest, rfl⟩
  · rintro ⟨first, back, hvalue, hrest, rfl⟩
    exact .present hslot homit hvalue hrest

/-! ### Several fields -/

theorem body_append {before behind : List Field} {front back : ByteArray}
    (h : s.Written held (.body masks entries before) front)
    (h' : s.Written held (.body masks entries behind) back) :
    s.Written held (.body masks entries (before ++ behind)) (front ++ back) := by
  induction before generalizing front with
  | nil =>
    rw [noFields_iff.mp h, ByteArray.empty_append]
    exact h'
  | cons f rest ih =>
    cases h with
    | mask hslot hrest =>
      rw [ByteArray.append_assoc]
      exact .mask hslot (ih hrest)
    | omitted hslot homit hrest => exact .omitted hslot homit (ih hrest)
    | present hslot homit hvalue hrest =>
      rw [ByteArray.append_assoc]
      exact .present hslot homit hvalue (ih hrest)

/-- What fields are written as depends on what concerns them alone. -/
theorem body_congr {fields : List Field} {other : Masks} {others : Entries}
    (h : s.Written held (.body masks entries fields) bytes)
    (hsame : ∀ f ∈ fields, SeesSame f masks other entries others) :
    s.Written held (.body other others fields) bytes := by
  induction fields generalizing bytes with
  | nil => exact noFields_iff.mpr (noFields_iff.mp h)
  | cons f rest ih =>
    obtain ⟨hhere, hbehind⟩ := List.forall_mem_cons.mp hsame
    cases h with
    | mask hslot hrest =>
      rw [hhere.slot_eq _ hslot]
      exact .mask hslot (ih hrest hbehind)
    | omitted hslot homit hrest =>
      rw [Masks.skips_congr hhere.opens_eq] at homit
      exact .omitted hslot homit (ih hrest hbehind)
    | present hslot homit hvalue hrest =>
      rw [Masks.skips_congr hhere.opens_eq] at homit
      rw [hhere.entry_eq] at hvalue
      exact .present hslot homit hvalue (ih hrest hbehind)

theorem body_omitted {fields : List Field} (hslot : ∀ f ∈ fields, f.slot = none)
    (homit : ∀ f ∈ fields, masks.skips f = .ok true) :
    s.Written held (.body masks entries fields) .empty := by
  induction fields with
  | nil => exact .noFields masks entries
  | cons f rest ih =>
    obtain ⟨hhere, hbehind⟩ := List.forall_mem_cons.mp hslot
    obtain ⟨hclosed, hrest⟩ := List.forall_mem_cons.mp homit
    exact .omitted hhere hclosed (ih hbehind hrest)

end Schema.Written

end TypeLang
