import TypeLang.Proofs.Message.Nesting
import TypeLang.Proofs.Message.Reference
import TypeLang.Proofs.Wire.ByteStringForm

/-!
The grammar of messages. `Schema.WireForm` says which bytes are a value of some kind, the items of a
vector or the fields of an object, and keeps a list of the sites where the bytes are not settled by
the value. A reader finds what has a wire form where its bytes stand (`Schema.WireForm.readsAt`).
Whether values of a kind occupy bytes does not depend on the values
(`Schema.WireForm.size_eq_zero_iff`).
-/

set_option autoImplicit false
set_option relaxedAutoImplicit false

namespace TypeLang

open Wire Message

/-- A site of a message whose bytes are not settled by the value there: a byte string, or a vector
whose items may occupy no bytes. -/
inductive Site
  | byteString (form : ByteString.Form)
  | vector (count itemsSize : Nat)

/-- Whether the bytes at a site are those a writer puts down. A vector whose items occupy no bytes
counts at most one. -/
def Site.IsCanonical : Site → Prop
  | byteString form => form.IsCanonical
  | vector count itemsSize => itemsSize = 0 → count ≤ 1

/-- A part of a message: a value of some kind, the items of a vector and how many of them it
announces, or the entries of some fields behind fields with given masks. -/
inductive Part
  | value (kind : Kind) (v : Value)
  | items (element : Kind) (count : Nat) (items : List Value)
  | fields (fields : List Field) (masks : Masks) (entries : Entries)

/-- How deep the objects in a part are nested. -/
def Part.height : Part → Nat
  | value _ v => v.height
  | items _ _ vs => Value.itemsHeight vs
  | fields _ _ entries => Value.entriesHeight entries

/-- The bytes of a value of fixed width. -/
inductive Kind.PlainForm : Kind → Value → ByteArray → Prop
  | mask (bits : UInt32) : PlainForm .mask (.mask bits) (encodeUInt32 bits)
  | int (x : Int32) : PlainForm .int (.int x) (encodeInt32 x)
  | long (x : Int64) : PlainForm .long (.long x) (encodeInt64 x)
  | double (x : Double) : PlainForm .double (.double x) (encodeDouble x)
  | int128 (x : Vector UInt8 16) : PlainForm .int128 (.int128 x) (encodeWord x)
  | int256 (x : Vector UInt8 32) : PlainForm .int256 (.int256 x) (encodeWord x)
  | bool (b : Bool) : PlainForm .bool (.bool b) (encodeBool b)
  | presence : PlainForm .presence (.bool true) .empty

/-- Whether values of a kind are byte strings. -/
def Kind.IsText (kind : Kind) : Prop := kind = .bytes ∨ kind = .string

/-- Bytes are a part of a message, with these sites in it. An item without bytes ends a vector. -/
inductive Schema.WireForm (s : Schema) : Part → ByteArray → List Site → Prop
  | plain {kind : Kind} {v : Value} {bytes : ByteArray} (h : kind.PlainForm v bytes) :
      WireForm s (.value kind v) bytes []
  | byteString {kind : Kind} (hkind : kind.IsText) (form : ByteString.Form) :
      WireForm s (.value kind (.bytes form.data)) form.bytes [.byteString form]
  | vector {boxed : Bool} {element : Kind} {count : Nat} {items : List Value}
      {bytes : ByteArray} {sites : List Site} (hcount : count < UInt32.size)
      (hitems : WireForm s (.items element count items) bytes sites) :
      WireForm s (.value (.vector boxed element) (.vector items))
        (Vectors.header boxed count ++ bytes) (.vector count bytes.size :: sites)
  | object {kind : Kind} {r : Reference} {object : Located} {entries : Entries}
      {bytes : ByteArray} {sites : List Site} (hkind : kind.reference? = some r)
      (hleads : s.Leads r object)
      (hfields : WireForm s (.fields object.combinator.fields .empty entries) bytes sites) :
      WireForm s
        (.value kind (.object ⟨object.combinator.name, object.combinator.tag, entries⟩))
        (object.tagBytes ++ bytes) sites
  | noItems (element : Kind) : WireForm s (.items element 0 []) .empty []
  | lastItem {element : Kind} {count : Nat} {v : Value} {bytes : ByteArray} {sites : List Site}
      (hsize : bytes.size = 0) (hitem : WireForm s (.value element v) bytes sites) :
      WireForm s (.items element (count + 1) [v]) bytes sites
  | item {element : Kind} {count : Nat} {v : Value} {rest : List Value}
      {bytes behind : ByteArray} {sites sitesBehind : List Site} (hsize : bytes.size ≠ 0)
      (hitem : WireForm s (.value element v) bytes sites)
      (hrest : WireForm s (.items element count rest) behind sitesBehind) :
      WireForm s (.items element (count + 1) (v :: rest)) (bytes ++ behind)
        (sites ++ sitesBehind)
  | noFields (masks : Masks) : WireForm s (.fields [] masks []) .empty []
  | mask {f : Field} {slot : Nat} {rest : List Field} {masks : Masks} {bits : UInt32}
      {entries : Entries} {bytes : ByteArray} {sites : List Site} (hslot : f.slot = some slot)
      (hrest : WireForm s (.fields rest (masks.set slot bits) entries) bytes sites) :
      WireForm s (.fields (f :: rest) masks ((f.name, .mask bits) :: entries))
        (encodeUInt32 bits ++ bytes) sites
  | presence {f : Field} {rest : List Field} {masks : Masks} {present : Bool}
      {entries : Entries} {bytes : ByteArray} {sites : List Site} (hslot : f.slot = none)
      (hpresence : f.isPresence = true) (hopens : masks.asks f = .ok present)
      (hrest : WireForm s (.fields rest masks entries) bytes sites) :
      WireForm s (.fields (f :: rest) masks ((f.name, .bool present) :: entries)) bytes sites
  | absent {f : Field} {rest : List Field} {masks : Masks} {entries : Entries}
      {bytes : ByteArray} {sites : List Site} (hslot : f.slot = none)
      (hpresence : f.isPresence = false) (hopens : masks.asks f = .ok false)
      (hrest : WireForm s (.fields rest masks entries) bytes sites) :
      WireForm s (.fields (f :: rest) masks ((f.name, f.kind.zero) :: entries)) bytes sites
  | present {f : Field} {rest : List Field} {masks : Masks} {v : Value} {entries : Entries}
      {bytes behind : ByteArray} {sites sitesBehind : List Site} (hslot : f.slot = none)
      (hpresence : f.isPresence = false) (hopens : masks.asks f = .ok true)
      (hvalue : WireForm s (.value f.kind v) bytes sites)
      (hrest : WireForm s (.fields rest masks entries) behind sitesBehind) :
      WireForm s (.fields (f :: rest) masks ((f.name, v) :: entries)) (bytes ++ behind)
        (sites ++ sitesBehind)

/-- A part is what a reader finds at a place, with `free` guards left to take for objects. -/
def Part.ReadsAt (s : Schema) (free : Nat) (buffer : ByteArray) (pos size : Nat) : Part → Prop
  | value kind v =>
    kind.decode (s.readWithin free buffer) buffer pos = .ok (v, size)
  | items element count vs => ∀ done : Array Value,
    Vectors.readItems (fun at_ => element.decode (s.readWithin free buffer) buffer at_) done count
      pos = .ok (done ++ vs.toArray, pos + size)
  | fields fs masks entries =>
    decodeFields (Kind.decode (s.readWithin free buffer) buffer) buffer fs masks pos =
      .ok (entries, pos + size)

/-- Values of a kind, or entries of some fields, occupy no bytes, whatever they are. -/
def Part.OccupiesNothing (s : Schema) : Part → Prop
  | value kind _ =>
    ∀ v bytes sites, s.WireForm (.value kind v) bytes sites → bytes.size = 0
  | items .. => True
  | fields fs masks _ =>
    ∀ entries bytes sites, s.WireForm (.fields fs masks entries) bytes sites → bytes.size = 0

/-! ### Values without values inside -/

theorem sized_eq_ok_iff {α : Type} {wrap : α → Value} {width size : Nat} {v : Value}
    {outcome : Except Error α} :
    sized wrap width outcome = .ok (v, size) ↔
      ∃ a, outcome = .ok a ∧ wrap a = v ∧ width = size := by
  unfold sized
  rw [map_ok_iff]
  simp

namespace Kind

variable {object : Reference → Nat → Except Error (Object × Nat)} {buffer : ByteArray}
  {kind : Kind} {pos size : Nat} {v : Value} {bytes : ByteArray}

theorem PlainForm.height_eq (h : kind.PlainForm v bytes) : v.height = 0 := by
  cases h <;> rfl

theorem PlainForm.eq_presence (h : kind.PlainForm v bytes) (hsize : bytes.size = 0) :
    kind = .presence := by
  cases h <;> simp at hsize
  rfl

theorem PlainForm.reference?_eq (h : kind.PlainForm v bytes) : kind.reference? = none := by
  cases h <;> rfl

theorem PlainForm.decode_eq (h : kind.PlainForm v bytes) (hstands : Stands bytes buffer pos) :
    kind.decode object buffer pos = .ok (v, bytes.size) := by
  cases h with
  | mask bits => exact sized_eq_ok_iff.mpr ⟨bits, readUInt32_eq_ok_iff.mpr hstands, rfl, by simp⟩
  | int x => exact sized_eq_ok_iff.mpr ⟨x, readInt32_eq_ok_iff.mpr hstands, rfl, by simp⟩
  | long x => exact sized_eq_ok_iff.mpr ⟨x, readInt64_eq_ok_iff.mpr hstands, rfl, by simp⟩
  | double x => exact sized_eq_ok_iff.mpr ⟨x, readDouble_eq_ok_iff.mpr hstands, rfl, by simp⟩
  | int128 x => exact sized_eq_ok_iff.mpr ⟨x, readWord_eq_ok_iff.mpr hstands, rfl, by simp⟩
  | int256 x => exact sized_eq_ok_iff.mpr ⟨x, readWord_eq_ok_iff.mpr hstands, rfl, by simp⟩
  | bool b => exact sized_eq_ok_iff.mpr ⟨b, readBool_eq_ok_iff.mpr hstands, rfl, by simp⟩
  | presence => rfl

theorem decode_byteString (hkind : kind.IsText) (form : ByteString.Form)
    (hstands : Stands form.bytes buffer pos) :
    kind.decode object buffer pos = .ok (.bytes form.data, form.bytes.size) := by
  have hread := ByteString.read_eq_ok_iff.mpr ⟨form, rfl, rfl, hstands⟩
  rcases hkind with rfl | rfl
  · rw [decode, hread]
    rfl
  · rw [decode, hread]
    rfl

theorem decode_reference {r : Reference} (hkind : kind.reference? = some r) :
    kind.decode object buffer pos =
      (object r pos).map fun (o, size) => (.object o, size) := by
  cases kind <;> cases hkind <;> rfl

end Kind

namespace Message

variable {buffer : ByteArray}

theorem decodeField_mask {decode : Kind → Nat → Except Error (Value × Nat)} {f : Field}
    {slot : Nat} (hslot : f.slot = some slot) (masks : Masks) {bits : UInt32} {pos : Nat}
    (hstands : Stands (encodeUInt32 bits) buffer pos) :
    decodeField decode buffer f masks pos = .ok (.mask bits, 4, masks.set slot bits) := by
  unfold decodeField
  rw [hslot]
  dsimp only
  rw [readUInt32_eq_ok_iff.mpr hstands]
  rfl

section

variable {decode : Kind → Nat → Except Error (Value × Nat)} {f : Field} {masks : Masks} {pos : Nat}

theorem decodeField_presence (hslot : f.slot = none) (hpresence : f.isPresence = true)
    {present : Bool} (hopens : masks.asks f = .ok present) :
    decodeField decode buffer f masks pos = .ok (.bool present, 0, masks) := by
  unfold decodeField
  rw [hslot, hopens]
  exact if_pos hpresence

theorem decodeField_absent (hslot : f.slot = none) (hpresence : f.isPresence = false)
    (hopens : masks.asks f = .ok false) :
    decodeField decode buffer f masks pos = .ok (f.kind.zero, 0, masks) := by
  unfold decodeField
  rw [hslot, hopens]
  simp only [hpresence, Bool.false_eq_true, if_false]

theorem decodeField_present (hslot : f.slot = none) (hpresence : f.isPresence = false)
    (hopens : masks.asks f = .ok true) {v : Value} {size : Nat}
    (hvalue : decode f.kind pos = .ok (v, size)) :
    decodeField decode buffer f masks pos = .ok (v, size, masks) := by
  unfold decodeField
  rw [hslot, hopens]
  simp only [hpresence, Bool.false_eq_true, if_false, if_true, hvalue]
  rfl

end

theorem decodeFields_cons {decode : Kind → Nat → Except Error (Value × Nat)} {f : Field}
    {rest : List Field} {masks behind : Masks} {pos size : Nat} {v : Value}
    (h : decodeField decode buffer f masks pos = .ok (v, size, behind)) :
    decodeFields decode buffer (f :: rest) masks pos =
      (decodeFields decode buffer rest behind (pos + size)).map fun (entries, stop) =>
        ((f.name, v) :: entries, stop) := by
  rw [decodeFields, h]

end Message

/-! ### A reader finds what has a wire form -/

namespace Schema

variable {s : Schema} {buffer : ByteArray}

/-- An object is read where bytes stand that are as long as its tag, whatever they are, and behind
them its fields. -/
theorem decodeAt_eq_ok {free : Nat} {object : Located} {pos size : Nat} {header : ByteArray}
    {entries : Entries} (hheader : header.size = object.header) (hstands : Stands header buffer pos)
    (hfields : (Part.fields object.combinator.fields .empty entries).ReadsAt s free buffer
      (pos + header.size) size) :
    s.decodeAt buffer (free + 1) object pos =
      .ok (⟨object.combinator.name, object.combinator.tag, entries⟩, header.size + size) := by
  have hfits := hstands.le_size
  have hcheck : checkHeader buffer pos object.header = .ok () := by
    unfold checkHeader ensure
    split
    · rfl
    · rw [if_pos (by omega)]
      rfl
  simp only [Part.ReadsAt] at hfields
  rw [decodeAt_succ, hcheck, ← hheader]
  dsimp only
  rw [hfields]
  show Except.ok (_, _) = Except.ok (_, _)
  congr 2
  omega

theorem readWithin_eq_ok {free : Nat} {kind : Kind} {r : Reference} {object : Located}
    (hkind : kind.reference? = some r) (hleads : s.Leads r object) {pos size : Nat}
    {entries : Entries} (hstands : Stands object.tagBytes buffer pos)
    (hfields : (Part.fields object.combinator.fields .empty entries).ReadsAt s free buffer
      (pos + object.tagBytes.size) size) :
    s.readWithin (free + 1) buffer r pos =
      .ok (⟨object.combinator.name, object.combinator.tag, entries⟩,
        object.tagBytes.size + size) := by
  have hfits := hstands.le_size
  unfold readWithin
  rw [(locate_eq_ok_iff hkind (by omega)).mpr ⟨hleads, hstands⟩]
  exact decodeAt_eq_ok (Located.size_tagBytes hleads.tag_of_header) hstands hfields

/-- A field is read, and then the fields behind it. -/
theorem readsAt_cons {free pos size sizeBehind : Nat} {f : Field} {rest : List Field}
    {masks behind : Masks} {v : Value} {entries : Entries}
    (hfield : decodeField (Kind.decode (s.readWithin free buffer) buffer) buffer f masks pos =
      .ok (v, size, behind))
    (hrest : (Part.fields rest behind entries).ReadsAt s free buffer (pos + size) sizeBehind) :
    (Part.fields (f :: rest) masks ((f.name, v) :: entries)).ReadsAt s free buffer pos
      (size + sizeBehind) := by
  simp only [Part.ReadsAt] at hrest ⊢
  rw [decodeFields_cons hfield, hrest, Nat.add_assoc]
  rfl

/-- The header of a vector is read, and then its items. -/
theorem readsAt_vector {free pos size count : Nat} {boxed : Bool} {element : Kind}
    {items : List Value} (hcount : count < UInt32.size)
    (hheader : Stands (Vectors.header boxed count) buffer pos)
    (hitems : (Part.items element count items).ReadsAt s free buffer
      (pos + Vectors.headerLength boxed) size) :
    (Part.value (.vector boxed element) (.vector items)).ReadsAt s free buffer pos
      (Vectors.headerLength boxed + size) := by
  have hread := hitems #[]
  show Except.map _ (Vectors.read _ buffer pos boxed) = _
  unfold Vectors.read
  rw [Vectors.readHeader_eq_ok_iff.mpr ⟨rfl, hcount, hheader⟩]
  dsimp only
  rw [hread]
  show Except.ok (Value.vector (#[] ++ items.toArray).toList,
    pos + Vectors.headerLength boxed + size - pos) = _
  rw [Array.empty_append, Nat.add_assoc, Nat.add_sub_cancel_left]

/-- An item that occupies bytes is read, and then the items behind it. -/
theorem readsAt_item {free pos size sizeBehind count : Nat} {element : Kind} {v : Value}
    {rest : List Value} (hsize : size ≠ 0)
    (hitem : (Part.value element v).ReadsAt s free buffer pos size)
    (hrest : (Part.items element count rest).ReadsAt s free buffer (pos + size) sizeBehind) :
    (Part.items element (count + 1) (v :: rest)).ReadsAt s free buffer pos (size + sizeBehind) := by
  intro done
  obtain ⟨before, rfl⟩ := Nat.exists_eq_succ_of_ne_zero hsize
  have hbehind := hrest (done.push v)
  simp only [Part.ReadsAt] at hitem
  rw [Vectors.readItems, hitem]
  show Vectors.readItems _ (done.push v) count (pos + before.succ) = _
  rw [hbehind, Nat.add_assoc]
  simp

/-- A reader with guards enough finds what has a wire form where its bytes stand. -/
theorem WireForm.readsAt {part : Part} {bytes : ByteArray} {sites : List Site}
    (h : s.WireForm part bytes sites) : ∀ {free pos : Nat}, part.height ≤ free →
      Stands bytes buffer pos → part.ReadsAt s free buffer pos bytes.size := by
  induction h with
  | plain h =>
    intro free pos _ hstands
    exact h.decode_eq hstands
  | byteString hkind form =>
    intro free pos _ hstands
    exact Kind.decode_byteString hkind form hstands
  | @vector boxed element count items bytes sites hcount _ ih =>
    intro free pos hfree hstands
    obtain ⟨hheader, hitems⟩ := Stands.append_iff.mp hstands
    rw [Vectors.size_header] at hitems
    rw [ByteArray.size_append, Vectors.size_header]
    exact readsAt_vector hcount hheader (ih hfree hitems)
  | @object kind r object entries bytes sites hkind hleads _ ih =>
    intro free pos hfree hstands
    obtain ⟨htag, hfields⟩ := Stands.append_iff.mp hstands
    cases free with
    | zero => cases hfree
    | succ free =>
      have hread := readWithin_eq_ok hkind hleads htag (ih (Nat.le_of_succ_le_succ hfree) hfields)
      show kind.decode _ buffer pos = _
      rw [Kind.decode_reference hkind, hread, ByteArray.size_append]
      rfl
  | noItems element =>
    intro free pos _ _ done
    simp [Vectors.readItems]
  | @lastItem element count v bytes sites hsize _ ih =>
    intro free pos hfree hstands done
    have hread := ih (Nat.le_trans (Nat.le_max_left _ _) hfree) hstands
    simp only [Part.ReadsAt] at hread
    rw [hsize] at hread ⊢
    rw [Vectors.readItems, hread]
    simp
  | item hsize _ _ ihItem ihRest =>
    intro free pos hfree hstands
    obtain ⟨hitem, hrest⟩ := Stands.append_iff.mp hstands
    rw [ByteArray.size_append]
    exact readsAt_item hsize (ihItem (Nat.le_trans (Nat.le_max_left _ _) hfree) hitem)
      (ihRest (Nat.le_trans (Nat.le_max_right _ _) hfree) hrest)
  | noFields masks =>
    intro free pos _ _
    rfl
  | @mask f slot rest masks bits entries bytes sites hslot _ ih =>
    intro free pos hfree hstands
    obtain ⟨hbits, hrest⟩ := Stands.append_iff.mp hstands
    rw [size_encodeUInt32] at hrest
    rw [ByteArray.size_append, size_encodeUInt32]
    exact readsAt_cons (decodeField_mask hslot masks hbits)
      (ih (Nat.le_trans (Nat.le_max_right _ _) hfree) hrest)
  | presence hslot hpresence hopens _ ih =>
    intro free pos hfree hstands
    rw [← Nat.zero_add (ByteArray.size _)]
    exact readsAt_cons (decodeField_presence hslot hpresence hopens)
      (ih (Nat.le_trans (Nat.le_max_right _ _) hfree) hstands)
  | absent hslot hpresence hopens _ ih =>
    intro free pos hfree hstands
    rw [← Nat.zero_add (ByteArray.size _)]
    exact readsAt_cons (decodeField_absent hslot hpresence hopens)
      (ih (Nat.le_trans (Nat.le_max_right _ _) hfree) hstands)
  | present hslot hpresence hopens _ _ ihValue ihRest =>
    intro free pos hfree hstands
    obtain ⟨hvalue, hrest⟩ := Stands.append_iff.mp hstands
    have hread := ihValue (Nat.le_trans (Nat.le_max_left _ _) hfree) hvalue
    rw [ByteArray.size_append]
    exact readsAt_cons (decodeField_present hslot hpresence hopens hread)
      (ihRest (Nat.le_trans (Nat.le_max_right _ _) hfree) hrest)

/-- The object of a combinator is read under its name. -/
theorem read_named_eq_ok (hsound : s.Sound) {c : Combinator} (hc : c ∈ s.combinators)
    {held pos : Nat} {header body : ByteArray} {sites : List Site} {entries : Entries}
    (hheader : header.size = c.header)
    (hform : s.WireForm (.fields c.fields .empty entries) body sites)
    (hheight : Object.height ⟨c.name, c.tag, entries⟩ ≤ Depth.limit - held)
    (hstands : Stands (header ++ body) buffer pos) :
    s.read held (.named c.name) buffer pos =
      .ok (⟨c.name, c.tag, entries⟩, (header ++ body).size) := by
  obtain ⟨htag, hbody⟩ := Stands.append_iff.mp hstands
  have hfind := hsound.combinator?_eq hc
  have hlocate : s.locate buffer pos (.named c.name) = .ok c.located := by
    unfold locate
    dsimp only
    rw [hfind, Option.isNone_some, Bool.and_false, if_neg Bool.false_ne_true]
    exact locateNamed_eq_ok_iff.mpr ⟨c, hfind, rfl⟩
  rw [read_eq_readWithin]
  unfold readWithin
  rw [hlocate]
  dsimp only
  cases hfree : Depth.limit - held with
  | zero => rw [hfree] at hheight; cases hheight
  | succ free =>
    rw [hfree] at hheight
    rw [decodeAt_eq_ok hheader htag (hform.readsAt (Nat.le_of_succ_le_succ hheight) hbody),
      ByteArray.size_append]
    rfl

/-! ### Parts without bytes -/

/-- A value that occupies no bytes is of a kind whose values never do, and so for fields. -/
theorem WireForm.occupiesNothing {part : Part} {bytes : ByteArray} {sites : List Site}
    (h : s.WireForm part bytes sites) : bytes.size = 0 → part.OccupiesNothing s := by
  induction h with
  | @plain kind v bytes h =>
    intro hsize v' bytes' sites' hother
    obtain rfl := h.eq_presence hsize
    cases hother with
    | plain h => cases h; rfl
    | byteString hkind _ => rcases hkind with hkind | hkind <;> cases hkind
    | object hkind _ _ => cases hkind
  | byteString _ form =>
    intro hsize
    exact absurd hsize (Nat.ne_of_gt form.size_bytes_pos)
  | @vector boxed =>
    intro hsize
    rw [ByteArray.size_append, Vectors.size_header] at hsize
    cases boxed <;> simp [Vectors.headerLength] at hsize
  | @object kind r object entries bytes sites hkind hleads _ ih =>
    intro hsize v' bytes' sites' hother
    rw [ByteArray.size_append, Located.size_tagBytes hleads.tag_of_header] at hsize
    cases hother with
    | plain h => rw [h.reference?_eq] at hkind; cases hkind
    | byteString hkind' _ => rcases hkind' with rfl | rfl <;> cases hkind
    | vector _ _ => cases hkind
    | object hkind' hleads' hfields' =>
      obtain rfl := Option.some.inj (hkind.symm.trans hkind')
      obtain rfl := hleads.eq_of_header_eq_zero (by omega) hleads'
      rw [ByteArray.size_append, Located.size_tagBytes hleads.tag_of_header,
        ih (by omega) _ _ _ hfields']
      omega
  | noItems | lastItem | item => exact fun _ ↦ trivial
  | noFields =>
    intro _ entries' bytes' sites' hother
    cases hother
    rfl
  | mask =>
    intro hsize
    simp at hsize
  | presence hslot hpresence _ _ ih =>
    intro hsize entries' bytes' sites' hother
    cases hother with
    | mask hslot' _ => rw [hslot] at hslot'; cases hslot'
    | presence _ _ _ hrest => exact ih hsize _ _ _ hrest
    | absent _ hpresence' _ _ => rw [hpresence] at hpresence'; cases hpresence'
    | present _ hpresence' _ _ _ => rw [hpresence] at hpresence'; cases hpresence'
  | absent hslot hpresence hopens _ ih =>
    intro hsize entries' bytes' sites' hother
    cases hother with
    | mask hslot' _ => rw [hslot] at hslot'; cases hslot'
    | presence _ hpresence' _ _ => rw [hpresence] at hpresence'; cases hpresence'
    | absent _ _ _ hrest => exact ih hsize _ _ _ hrest
    | present _ _ hopens' _ _ => rw [hopens] at hopens'; cases hopens'
  | present hslot hpresence hopens _ _ ihValue ihRest =>
    intro hsize entries' bytes' sites' hother
    rw [ByteArray.size_append] at hsize
    cases hother with
    | mask hslot' _ => rw [hslot] at hslot'; cases hslot'
    | presence _ hpresence' _ _ => rw [hpresence] at hpresence'; cases hpresence'
    | absent _ _ hopens' _ => rw [hopens] at hopens'; cases hopens'
    | present _ _ _ hvalue hrest =>
      rw [ByteArray.size_append, ihValue (by omega) _ _ _ hvalue, ihRest (by omega) _ _ _ hrest]

theorem WireForm.size_eq_zero_iff {kind : Kind} {v v' : Value} {bytes bytes' : ByteArray}
    {sites sites' : List Site} (h : s.WireForm (.value kind v) bytes sites)
    (h' : s.WireForm (.value kind v') bytes' sites') : bytes'.size = 0 ↔ bytes.size = 0 :=
  ⟨fun hsize ↦ h'.occupiesNothing hsize _ _ _ h, fun hsize ↦ h.occupiesNothing hsize _ _ _ h'⟩

/-- A vector has as many items as it announces, unless it announces several without bytes. -/
theorem WireForm.length_items {element : Kind} {count : Nat} {items : List Value}
    {bytes : ByteArray} {sites : List Site}
    (h : s.WireForm (.items element count items) bytes sites) :
    items.length = count ↔ (bytes.size = 0 → count ≤ 1) := by
  induction items generalizing count bytes sites with
  | nil =>
    cases h
    simp
  | cons v rest ih =>
    cases h with
    | lastItem hsize _ =>
      simp only [List.length_cons, List.length_nil]
      omega
    | @item _ count _ _ front behind _ _ hsize hitem hrest =>
      have hbehind : behind.size = 0 → count ≤ 1 := by
        intro hnone
        cases hrest with
        | noItems => exact Nat.zero_le _
        | lastItem hsize' hitem' => exact absurd ((hitem.size_eq_zero_iff hitem').mp hsize') hsize
        | item hsize' _ _ => rw [ByteArray.size_append] at hnone; omega
      rw [List.length_cons, (ih hrest).mpr hbehind, ByteArray.size_append]
      refine ⟨fun _ hnone ↦ ?_, fun _ ↦ rfl⟩
      omega

end Schema

end TypeLang
