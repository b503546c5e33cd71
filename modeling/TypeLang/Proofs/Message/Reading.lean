import TypeLang.Proofs.Message.Grammar

/-!
What a reader finds has a wire form: values (`Schema.foundAt_of_decode`), the items of vectors, the
fields of objects, and objects themselves (`Schema.found_of_decodeAt`). Nobody checks the tag of an
object that is read by name, so of such an object only the length of the tag is known.
-/

set_option autoImplicit false
set_option relaxedAutoImplicit false

namespace TypeLang

open Wire Message

/-- A part stands at a place in some wire form, with objects nested no deeper than `free`. -/
def Part.FoundAt (s : Schema) (free : Nat) (buffer : ByteArray) (pos size : Nat) (part : Part) :
    Prop :=
  ∃ bytes sites, s.WireForm part bytes sites ∧ Stands bytes buffer pos ∧ bytes.size = size ∧
    part.height ≤ free

/-- The object of a combinator stands at a place: some bytes that are as long as its tag, and its
fields. -/
def Located.FoundAt (s : Schema) (free : Nat) (buffer : ByteArray) (pos size : Nat) (o : Object)
    (object : Located) : Prop :=
  ∃ header body sites entries, o = ⟨object.combinator.name, object.combinator.tag, entries⟩ ∧
    header.size = object.header ∧
    s.WireForm (.fields object.combinator.fields .empty entries) body sites ∧
    Stands (header ++ body) buffer pos ∧ (header ++ body).size = size ∧ o.height ≤ free

namespace Schema

variable {s : Schema} {buffer : ByteArray} {free : Nat}

theorem foundAt_of_plainForm {kind : Kind} {v : Value} {bytes : ByteArray} {pos size : Nat}
    (h : kind.PlainForm v bytes) (hstands : Stands bytes buffer pos) (hsize : bytes.size = size) :
    (Part.value kind v).FoundAt s free buffer pos size := by
  refine ⟨bytes, [], .plain h, hstands, hsize, ?_⟩
  show v.height ≤ free
  rw [h.height_eq]
  exact Nat.zero_le _

theorem foundAt_byteString {kind : Kind} (hkind : kind.IsText) {data : ByteArray} {pos size : Nat}
    (h : ByteString.read buffer pos = .ok (data, size)) :
    (Part.value kind (.bytes data)).FoundAt s free buffer pos size := by
  obtain ⟨form, rfl, hsize, hstands⟩ := ByteString.read_eq_ok_iff.mp h
  exact ⟨form.bytes, _, .byteString hkind form, hstands, hsize, Nat.zero_le _⟩

theorem foundAt_items {element : Kind} {read : Nat → Except Error (Value × Nat)}
    (hread : ∀ pos v size, pos ≤ buffer.size → read pos = .ok (v, size) →
      (Part.value element v).FoundAt s free buffer pos size) :
    ∀ (count : Nat) (done found : Array Value) (pos stop : Nat), pos ≤ buffer.size →
      Vectors.readItems read done count pos = .ok (found, stop) →
        ∃ items size, found = done ++ items.toArray ∧ stop = pos + size ∧
          (Part.items element count items).FoundAt s free buffer pos size := by
  intro count
  induction count with
  | zero =>
    intro done found pos stop hpos h
    cases h
    exact ⟨[], 0, by simp, rfl, .empty, [], .noItems element, Stands.empty_iff.mpr hpos, rfl,
      Nat.zero_le _⟩
  | succ count ih =>
    intro done found pos stop hpos h
    rw [Vectors.readItems] at h
    cases hitem : read pos with
    | error e => rw [hitem] at h; cases h
    | ok pair =>
      obtain ⟨v, size⟩ := pair
      rw [hitem] at h
      obtain ⟨bytes, sites, hform, hstands, rfl, hheight⟩ := hread pos v size hpos hitem
      have hfits := hstands.le_size
      by_cases hsize : bytes.size = 0
      · rw [hsize] at h
        cases h
        refine ⟨[v], 0, by simp, rfl, bytes, sites, .lastItem hsize hform, hstands, hsize, ?_⟩
        exact Nat.max_le.mpr ⟨hheight, Nat.zero_le _⟩
      · obtain ⟨before, hsucc⟩ := Nat.exists_eq_succ_of_ne_zero hsize
        rw [hsucc] at h
        have h : Vectors.readItems read (done.push v) count (pos + (before + 1)) =
          .ok (found, stop) := h
        obtain ⟨rest, sizeRest, rfl, rfl, behind, sitesBehind, hrest, hstandsRest, rfl,
          hheightRest⟩ := ih (done.push v) found _ stop (by omega) h
        have hboth : Stands (bytes ++ behind) buffer pos :=
          Stands.append_iff.mpr ⟨hstands, by rw [hsucc]; exact hstandsRest⟩
        refine ⟨v :: rest, bytes.size + behind.size, by simp, by omega, bytes ++ behind,
          sites ++ sitesBehind, .item hsize hform hrest, hboth, ByteArray.size_append, ?_⟩
        exact Nat.max_le.mpr ⟨hheight, hheightRest⟩

theorem foundAt_vector {boxed : Bool} {element : Kind} {read : Nat → Except Error (Value × Nat)}
    {pos size : Nat} {items : List Value}
    (hread : ∀ pos v size, pos ≤ buffer.size → read pos = .ok (v, size) →
      (Part.value element v).FoundAt s free buffer pos size)
    (h : Vectors.read read buffer pos boxed = .ok (items, size)) :
    (Part.value (.vector boxed element) (.vector items)).FoundAt s free buffer pos size := by
  unfold Vectors.read at h
  cases hheader : Vectors.readHeader buffer pos boxed with
  | error e => rw [hheader] at h; cases h
  | ok found =>
    obtain ⟨count, header⟩ := found
    rw [hheader] at h
    obtain ⟨⟨array, stop⟩, hitems, hpair⟩ := map_ok_iff.mp h
    cases hpair
    obtain ⟨rfl, hcount, hstands⟩ := Vectors.readHeader_eq_ok_iff.mp hheader
    have hfits := hstands.le_size
    rw [Vectors.size_header] at hfits
    obtain ⟨vs, size, rfl, rfl, bytes, sites, hform, hbytes, rfl, hheight⟩ :=
      foundAt_items hread count #[] array _ stop hfits hitems
    have hboth : Stands (Vectors.header boxed count ++ bytes) buffer pos :=
      Stands.append_iff.mpr ⟨hstands, by rw [Vectors.size_header]; exact hbytes⟩
    rw [Array.empty_append]
    refine ⟨_, _, .vector hcount hform, hboth, ?_, hheight⟩
    rw [ByteArray.size_append, Vectors.size_header]
    show _ = pos + Vectors.headerLength boxed + bytes.size - pos
    omega

theorem foundAt_of_decode {object : Reference → Nat → Except Error (Object × Nat)}
    (hobject : ∀ (kind : Kind) (r : Reference), kind.reference? = some r →
      ∀ pos o size, pos ≤ buffer.size → object r pos = .ok (o, size) →
        (Part.value kind (.object o)).FoundAt s free buffer pos size) :
    ∀ (kind : Kind) (pos : Nat) (v : Value) (size : Nat), pos ≤ buffer.size →
      kind.decode object buffer pos = .ok (v, size) →
        (Part.value kind v).FoundAt s free buffer pos size := by
  have hreference : ∀ kind r, kind.reference? = some r → ∀ pos v size, pos ≤ buffer.size →
      kind.decode object buffer pos = .ok (v, size) →
        (Part.value kind v).FoundAt s free buffer pos size := by
    intro kind r hkind pos v size hpos h
    rw [Kind.decode_reference hkind] at h
    obtain ⟨⟨o, n⟩, ho, hpair⟩ := map_ok_iff.mp h
    cases hpair
    exact hobject kind r hkind pos o size hpos ho
  intro kind
  induction kind with
  | mask =>
    intro pos v size _ h
    obtain ⟨x, hx, rfl, rfl⟩ := sized_eq_ok_iff.mp h
    exact foundAt_of_plainForm (.mask x) (readUInt32_eq_ok_iff.mp hx) (by simp)
  | int =>
    intro pos v size _ h
    obtain ⟨x, hx, rfl, rfl⟩ := sized_eq_ok_iff.mp h
    exact foundAt_of_plainForm (.int x) (readInt32_eq_ok_iff.mp hx) (by simp)
  | long =>
    intro pos v size _ h
    obtain ⟨x, hx, rfl, rfl⟩ := sized_eq_ok_iff.mp h
    exact foundAt_of_plainForm (.long x) (readInt64_eq_ok_iff.mp hx) (by simp)
  | double =>
    intro pos v size _ h
    obtain ⟨x, hx, rfl, rfl⟩ := sized_eq_ok_iff.mp h
    exact foundAt_of_plainForm (.double x) (readDouble_eq_ok_iff.mp hx) (by simp)
  | int128 =>
    intro pos v size _ h
    obtain ⟨x, hx, rfl, rfl⟩ := sized_eq_ok_iff.mp h
    exact foundAt_of_plainForm (.int128 x) (readWord_eq_ok_iff.mp hx) (by simp)
  | int256 =>
    intro pos v size _ h
    obtain ⟨x, hx, rfl, rfl⟩ := sized_eq_ok_iff.mp h
    exact foundAt_of_plainForm (.int256 x) (readWord_eq_ok_iff.mp hx) (by simp)
  | bool =>
    intro pos v size _ h
    obtain ⟨x, hx, rfl, rfl⟩ := sized_eq_ok_iff.mp h
    exact foundAt_of_plainForm (.bool x) (readBool_eq_ok_iff.mp hx) (by simp)
  | presence =>
    intro pos v size hpos h
    cases h
    exact foundAt_of_plainForm .presence (Stands.empty_iff.mpr hpos) rfl
  | bytes =>
    intro pos v size _ h
    obtain ⟨⟨data, n⟩, hdata, hpair⟩ := map_ok_iff.mp h
    cases hpair
    exact foundAt_byteString (.inl rfl) hdata
  | string =>
    intro pos v size _ h
    obtain ⟨⟨data, n⟩, hdata, hpair⟩ := map_ok_iff.mp h
    cases hpair
    exact foundAt_byteString (.inr rfl) hdata
  | vector boxed element ih =>
    intro pos v size _ h
    obtain ⟨⟨items, n⟩, hvector, hpair⟩ := map_ok_iff.mp h
    cases hpair
    exact foundAt_vector ih hvector
  | object typeName bare => exact hreference _ _ rfl
  | generic parameter => exact hreference _ _ rfl
  | anyObject => exact hreference _ _ rfl

/-- What a field is read as: a mask, a bit, the zero of a field that is absent, or a value. -/
theorem decodeField_cases {decode : Kind → Nat → Except Error (Value × Nat)} {f : Field}
    {masks behind : Masks} {pos size : Nat} {v : Value}
    (h : decodeField decode buffer f masks pos = .ok (v, size, behind)) :
    (∃ slot bits, f.slot = some slot ∧ Stands (encodeUInt32 bits) buffer pos ∧ .mask bits = v ∧
        4 = size ∧ masks.set slot bits = behind) ∨
      (f.slot = none ∧ f.isPresence = true ∧
        (∃ present, masks.asks f = .ok present ∧ .bool present = v) ∧ 0 = size ∧ masks = behind) ∨
      (f.slot = none ∧ f.isPresence = false ∧ masks.asks f = .ok false ∧ f.kind.zero = v ∧
        0 = size ∧ masks = behind) ∨
      (f.slot = none ∧ f.isPresence = false ∧ masks.asks f = .ok true ∧
        decode f.kind pos = .ok (v, size) ∧ masks = behind) := by
  unfold decodeField at h
  cases hslot : f.slot with
  | some slot =>
    rw [hslot] at h
    obtain ⟨bits, hbits, hpair⟩ := map_ok_iff.mp h
    cases hpair
    exact .inl ⟨slot, bits, rfl, readUInt32_eq_ok_iff.mp hbits, rfl, rfl, rfl⟩
  | none =>
    rw [hslot] at h
    cases hopens : masks.asks f with
    | error e => rw [hopens] at h; cases h
    | ok present =>
      rw [hopens] at h
      dsimp only at h
      by_cases hpresence : f.isPresence = true
      · rw [if_pos hpresence] at h
        cases h
        exact .inr (.inl ⟨rfl, hpresence, ⟨present, rfl, rfl⟩, rfl, rfl⟩)
      · rw [if_neg hpresence] at h
        have hpresence := Bool.eq_false_iff.mpr hpresence
        cases present with
        | true =>
          obtain ⟨⟨w, n⟩, hvalue, hpair⟩ := map_ok_iff.mp h
          cases hpair
          exact .inr (.inr (.inr ⟨rfl, hpresence, rfl, hvalue, rfl⟩))
        | false =>
          cases h
          exact .inr (.inr (.inl ⟨rfl, hpresence, rfl, rfl, rfl, rfl⟩))

theorem foundAt_fields {decode : Kind → Nat → Except Error (Value × Nat)}
    (hdecode : ∀ kind pos v size, pos ≤ buffer.size → decode kind pos = .ok (v, size) →
      (Part.value kind v).FoundAt s free buffer pos size) :
    ∀ (fields : List Field) (masks : Masks) (pos stop : Nat) (entries : Entries),
      pos ≤ buffer.size → decodeFields decode buffer fields masks pos = .ok (entries, stop) →
        ∃ size, stop = pos + size ∧
          (Part.fields fields masks entries).FoundAt s free buffer pos size := by
  intro fields
  induction fields with
  | nil =>
    intro masks pos stop entries hpos h
    cases h
    exact ⟨0, rfl, .empty, [], .noFields masks, Stands.empty_iff.mpr hpos, rfl, Nat.zero_le _⟩
  | cons f rest ih =>
    intro masks pos stop entries hpos h
    cases hfield : decodeField decode buffer f masks pos with
    | error e => rw [decodeFields, hfield] at h; cases h
    | ok found =>
      obtain ⟨v, size, behind⟩ := found
      rw [decodeFields_cons hfield] at h
      obtain ⟨⟨others, end_⟩, hrest, hpair⟩ := map_ok_iff.mp h
      cases hpair
      rcases decodeField_cases hfield with ⟨slot, bits, hslot, hstands, rfl, rfl, rfl⟩ |
        ⟨hslot, hpresence, ⟨present, hopens, rfl⟩, rfl, rfl⟩ |
        ⟨hslot, hpresence, hopens, rfl, rfl, rfl⟩ | ⟨hslot, hpresence, hopens, hvalue, rfl⟩
      · have hfits := hstands.le_size
        rw [size_encodeUInt32] at hfits
        obtain ⟨_, rfl, bytes, sites, hform, hbytes, rfl, hheight⟩ := ih _ _ _ _ hfits hrest
        have hboth : Stands (encodeUInt32 bits ++ bytes) buffer pos :=
          Stands.append_iff.mpr ⟨hstands, by rw [size_encodeUInt32]; exact hbytes⟩
        refine ⟨4 + bytes.size, by omega, _, sites, .mask hslot hform, hboth, by simp, ?_⟩
        exact Nat.max_le.mpr ⟨Nat.zero_le _, hheight⟩
      · obtain ⟨_, rfl, bytes, sites, hform, hbytes, rfl, hheight⟩ := ih _ _ _ _ hpos hrest
        refine ⟨bytes.size, rfl, _, sites, .presence hslot hpresence hopens hform, hbytes, rfl, ?_⟩
        exact Nat.max_le.mpr ⟨Nat.zero_le _, hheight⟩
      · obtain ⟨_, rfl, bytes, sites, hform, hbytes, rfl, hheight⟩ := ih _ _ _ _ hpos hrest
        refine ⟨bytes.size, rfl, _, sites, .absent hslot hpresence hopens hform, hbytes, rfl, ?_⟩
        refine Nat.max_le.mpr ⟨?_, hheight⟩
        cases f.kind <;> exact Nat.zero_le _
      · obtain ⟨front, sites, hform, hfront, rfl, hheight⟩ := hdecode _ _ _ _ hpos hvalue
        obtain ⟨_, rfl, bytes, sitesBehind, hformRest, hbytes, rfl, hheightRest⟩ :=
          ih _ _ _ _ hfront.le_size hrest
        have hboth : Stands (front ++ bytes) buffer pos :=
          Stands.append_iff.mpr ⟨hfront, hbytes⟩
        refine ⟨front.size + bytes.size, by omega, _, _,
          .present hslot hpresence hopens hform hformRest, hboth, by simp, ?_⟩
        exact Nat.max_le.mpr ⟨hheight, hheightRest⟩

/-- The tag of an object that a reference leads to has been read, so it is the declared one. -/
theorem foundAt_of_located {kind : Kind} {r : Reference} (hkind : kind.reference? = some r)
    {pos size : Nat} (hpos : pos ≤ buffer.size) {object : Located} {o : Object}
    (hlocate : s.locate buffer pos r = .ok object)
    (hfound : object.FoundAt s free buffer pos size o) :
    (Part.value kind (.object o)).FoundAt s free buffer pos size := by
  obtain ⟨hleads, htag⟩ := (locate_eq_ok_iff hkind hpos).mp hlocate
  obtain ⟨header, body, sites, entries, rfl, hsize, hform, hstands, hsizes, hheight⟩ := hfound
  obtain ⟨hheader, -⟩ := Stands.append_iff.mp hstands
  obtain rfl := hheader.unique htag
    (hsize.trans (Located.size_tagBytes hleads.tag_of_header).symm)
  exact ⟨_, sites, .object hkind hleads hform, hstands, hsizes, hheight⟩

/-- An object that a reader finds consists of as many bytes as its tag has, whatever they are, and
of its fields. -/
theorem found_of_decodeAt (s : Schema) :
    ∀ (free : Nat) (object : Located) (pos : Nat) (o : Object) (size : Nat), pos ≤ buffer.size →
      s.decodeAt buffer free object pos = .ok (o, size) →
        object.FoundAt s free buffer pos size o := by
  intro free
  induction free with
  | zero => intro object pos o size _ h; cases h
  | succ free ih =>
    intro object pos o size hpos h
    rw [decodeAt_succ] at h
    cases hcheck : checkHeader buffer pos object.header with
    | error e => rw [hcheck] at h; cases h
    | ok u =>
      rw [hcheck] at h
      obtain ⟨⟨entries, stop⟩, hfields, hpair⟩ := map_ok_iff.mp h
      cases hpair
      have hfits : pos + object.header ≤ buffer.size := by
        unfold checkHeader ensure at hcheck
        split at hcheck
        · omega
        · split at hcheck
          · assumption
          · cases hcheck
      obtain ⟨header, -, hsize, hheader⟩ :=
        Stands.exists_of_le buffer pos object.header hfits
      have hobject : ∀ (kind : Kind) (r : Reference), kind.reference? = some r →
          ∀ pos o size, pos ≤ buffer.size → s.readWithin free buffer r pos = .ok (o, size) →
            (Part.value kind (.object o)).FoundAt s free buffer pos size := by
        intro kind r hkind pos o size hpos h
        unfold readWithin at h
        cases hlocate : s.locate buffer pos r with
        | error e => rw [hlocate] at h; cases h
        | ok inner =>
          rw [hlocate] at h
          exact foundAt_of_located hkind hpos hlocate (ih inner pos o size hpos h)
      obtain ⟨_, rfl, body, sites, hform, hbody, rfl, hheight⟩ :=
        foundAt_fields (foundAt_of_decode hobject) object.combinator.fields .empty _ stop entries
          hfits hfields
      refine ⟨header, body, sites, entries, rfl, hsize, hform,
        Stands.append_iff.mpr ⟨hheader, by rw [hsize]; exact hbody⟩, ?_,
        Nat.succ_le_succ hheight⟩
      rw [ByteArray.size_append, hsize]
      show _ = pos + object.header + body.size - pos
      omega

/-- An object that is read with some guards left is read with any number of them that is no smaller
than its height. -/
theorem decodeAt_of_height_le {more pos size : Nat} {object : Located} {o : Object}
    (hpos : pos ≤ buffer.size) (h : s.decodeAt buffer more object pos = .ok (o, size))
    (hheight : o.height ≤ free) : s.decodeAt buffer free object pos = .ok (o, size) := by
  obtain ⟨header, body, sites, entries, rfl, hheader, hform, hstands, rfl, -⟩ :=
    s.found_of_decodeAt more object pos o size hpos h
  obtain ⟨htag, hbody⟩ := Stands.append_iff.mp hstands
  -- The object takes a guard for itself, so there is at least one.
  cases free with
  | zero => cases hheight
  | succ free =>
    rw [ByteArray.size_append]
    exact decodeAt_eq_ok hheader htag (hform.readsAt (Nat.le_of_succ_le_succ hheight) hbody)

/-- A value that a reader finds stands there in some wire form. -/
theorem foundAt_of_decodeKind {held : Nat} {kind : Kind} {pos size : Nat} {v : Value}
    (hpos : pos ≤ buffer.size) (h : s.decodeKind held buffer kind pos = .ok (v, size)) :
    (Part.value kind v).FoundAt s (Depth.limit - held) buffer pos size := by
  refine foundAt_of_decode (fun kind r hkind pos o size hpos h ↦ ?_) kind pos v size hpos h
  unfold read at h
  cases hlocate : s.locate buffer pos r with
  | error e => rw [hlocate] at h; cases h
  | ok object =>
    rw [hlocate] at h
    exact foundAt_of_located hkind hpos hlocate (s.found_of_decodeAt _ object pos o size hpos h)

end Schema

end TypeLang
