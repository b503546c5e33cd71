import TypeLang.Proofs.Message.Absent
import TypeLang.Proofs.Message.Building
import TypeLang.Proofs.Message.Reading

/-!
Objects that are read and built again. An object that was read is built again just when no field
that is absent from it, or from an object in it, has a zero, and is then read as before; the bytes
are those it was read from just when these are canonical (`Schema.rebuild_of_read`). Every part of a
message that was read is shown to be restored (`Schema.WireForm.rebuilds`) or, where an absent field
has a zero, to be refused for that (`Schema.WireForm.refuses`).
-/

set_option autoImplicit false
set_option relaxedAutoImplicit false

namespace TypeLang

open Wire Message

/-! ### Bytes that are put back -/

theorem Kind.PlainForm.written {kind : Kind} {v : Value} {bytes : ByteArray}
    (h : kind.PlainForm v bytes) : kind.PlainWritten v bytes := by
  cases h with
  | mask bits => exact .mask rfl
  | int x => exact .int x
  | long x => exact .long rfl
  | double x => exact .double x
  | int128 x => exact .int128 x
  | int256 x => exact .int256 x
  | bool b => exact .bool b
  | presence => exact .presence true

/-- What is supplied is written as bytes that are a part of a message again. They are the bytes the
part was read from just when all sites in these are canonical. -/
def Schema.Restores (s : Schema) (held : Nat) (supply : Supply) (part : Part) (bytes : ByteArray)
    (sites : List Site) : Prop :=
  ∃ again sitesAgain, s.Written held supply again ∧ s.WireForm part again sitesAgain ∧
    (again = bytes ↔ ∀ site ∈ sites, site.IsCanonical)

/-- A part of a message is restored if no object in it has an absent field with a zero. A vector
that is restored counts the items it has. -/
def Part.Rebuilds (s : Schema) (held : Nat) (bytes : ByteArray) (sites : List Site) : Part → Prop
  | value kind v =>
    (∀ o ∈ v.objects, s.AbsentFieldsEmpty o) →
      s.Restores held (.value kind v) (.value kind v) bytes sites
  | items element _ vs =>
    (∀ o ∈ Value.itemsObjects vs, s.AbsentFieldsEmpty o) →
      s.Restores held (.items element vs) (.items element vs.length vs) bytes sites
  | fields fs known entries => ∀ whole all, Suffix whole all fs known entries →
    (∀ o ∈ Value.entriesObjects entries, s.AbsentFieldsEmpty o) →
      s.Restores held (.body (impliedMasks whole all) all fs) (.fields fs known entries) bytes sites

namespace Schema

variable {s : Schema} {held : Nat}

/-- The bytes of a value end where a reader stops, so they are told apart from what comes behind. -/
theorem WireForm.append_inj {kind : Kind} {v : Value} {bytes bytes' behind behind' : ByteArray}
    {sites sites' : List Site} (h : s.WireForm (.value kind v) bytes sites)
    (h' : s.WireForm (.value kind v) bytes' sites') :
    bytes ++ behind = bytes' ++ behind' ↔ bytes = bytes' ∧ behind = behind' := by
  refine ⟨fun happend ↦ ?_, fun ⟨hbytes, hbehind⟩ ↦ by rw [hbytes, hbehind]⟩
  have hstands : Stands bytes (bytes ++ behind) 0 := (Stands.append_iff.mp (Stands.self _)).1
  have hstands' : Stands bytes' (bytes ++ behind) 0 := by
    rw [happend]
    exact (Stands.append_iff.mp (Stands.self _)).1
  have hread := h.readsAt (Nat.le_refl _) hstands
  have hread' := h'.readsAt (Nat.le_refl _) hstands'
  simp only [Part.ReadsAt] at hread hread'
  rw [hread] at hread'
  have hsize : bytes.size = bytes'.size := congrArg Prod.snd (Except.ok.inj hread')
  obtain rfl := hstands.unique hstands' hsize
  exact ⟨rfl, (ByteArray.append_right_inj bytes).mp happend⟩

theorem WireForm.length_le {element : Kind} {count : Nat} {items : List Value}
    {bytes : ByteArray} {sites : List Site}
    (h : s.WireForm (.items element count items) bytes sites) : items.length ≤ count := by
  induction items generalizing count bytes sites with
  | nil => exact Nat.zero_le _
  | cons v rest ih =>
    cases h with
    | lastItem _ _ => exact Nat.succ_le_succ (Nat.zero_le _)
    | item _ _ hrest => exact Nat.succ_le_succ (ih hrest)

theorem restores_byteString {kind : Kind} (hkind : kind.IsText) (form : ByteString.Form) :
    s.Restores held (.value kind (.bytes form.data)) (.value kind (.bytes form.data)) form.bytes
      [.byteString form] := by
  have hfits := form.size_data_le
  refine ⟨ByteString.encode form.data, [.byteString (ByteString.canonicalForm form.data hfits)],
    ?_, ?_, ?_⟩
  · rcases hkind with rfl | rfl
    · exact .plain (.bytes hfits)
    · exact .plain (.string hfits)
  · rw [← ByteString.bytes_canonicalForm form.data hfits]
    exact .byteString hkind (ByteString.canonicalForm form.data hfits)
  · rw [List.forall_mem_singleton, eq_comm]
    exact form.bytes_eq_encode_iff

/-- A vector is restored with its items, and its count is the one it was read with unless it
collapsed. -/
theorem restores_vector {boxed : Bool} {element : Kind} {count : Nat} {items : List Value}
    {bytes : ByteArray} {sites : List Site} (hcount : count < UInt32.size)
    (hitems : s.WireForm (.items element count items) bytes sites)
    (h : s.Restores held (.items element items) (.items element items.length items) bytes sites) :
    s.Restores held (.value (.vector boxed element) (.vector items))
      (.value (.vector boxed element) (.vector items)) (Vectors.header boxed count ++ bytes)
      (.vector count bytes.size :: sites) := by
  obtain ⟨again, sitesAgain, hwritten, hform, hsame⟩ := h
  have hlength : items.length < UInt32.size := Nat.lt_of_le_of_lt hitems.length_le hcount
  refine ⟨Vectors.header boxed items.length ++ again, .vector items.length again.size :: sitesAgain,
    .vector hlength hwritten, .vector hlength hform, ?_⟩
  have hcollapsed : (Site.vector count bytes.size).IsCanonical ↔ items.length = count :=
    hitems.length_items.symm
  have hheader : Vectors.header boxed items.length = Vectors.header boxed count ↔
      items.length = count :=
    ⟨Vectors.header_injective hlength hcount, fun h ↦ by rw [h]⟩
  rw [List.forall_mem_cons, hcollapsed, ← hsame, append_eq_append_iff (by simp), hheader]

theorem restores_item {element : Kind} {v : Value} {rest : List Value} {bytes behind : ByteArray}
    {sites sitesBehind : List Site} (hsize : bytes.size ≠ 0)
    (hitem : s.WireForm (.value element v) bytes sites)
    (h : s.Restores held (.value element v) (.value element v) bytes sites)
    (hrest : s.Restores held (.items element rest) (.items element rest.length rest) behind
      sitesBehind) :
    s.Restores held (.items element (v :: rest)) (.items element (v :: rest).length (v :: rest))
      (bytes ++ behind) (sites ++ sitesBehind) := by
  obtain ⟨again, sitesAgain, hwritten, hform, hsame⟩ := h
  obtain ⟨back, sitesBack, hwrittenRest, hformRest, hsameRest⟩ := hrest
  have hsome : again.size ≠ 0 := fun hnone ↦ hsize ((hitem.size_eq_zero_iff hform).mp hnone)
  refine ⟨again ++ back, sitesAgain ++ sitesBack, .item hwritten hwrittenRest,
    .item hsome hform hformRest, ?_⟩
  rw [hform.append_inj hitem, List.forall_mem_append, hsame, hsameRest]

/-- Every part of a message is restored if no object in it has an absent field with a zero. -/
theorem WireForm.rebuilds (hsound : s.Sound) (hnames : s.NamesApart) {part : Part}
    {bytes : ByteArray} {sites : List Site} (h : s.WireForm part bytes sites) :
    part.Rebuilds s held bytes sites := by
  induction h with
  | plain h =>
    intro _
    exact ⟨_, [], .plain h.written, .plain h, by simp⟩
  | @byteString kind hkind form =>
    intro _
    exact restores_byteString hkind form
  | @vector boxed element count items bytes sites hcount hitems ih =>
    intro hempty
    rw [Value.objects] at hempty
    exact restores_vector hcount hitems (ih hempty)
  | @object kind r object entries bytes sites hkind hleads hfields ih =>
    intro hempty
    rw [Value.objects, List.forall_mem_cons] at hempty
    obtain ⟨hhere, hinside⟩ := hempty
    have hcsound := hsound.combinator_sound _ hleads.mem
    have hmasks := (resolveMasks_eq_iff hsound hleads.mem hfields object.combinator.tag).mpr hhere
    obtain ⟨again, sitesAgain, hwritten, hform, hsame⟩ :=
      ih _ _ (hfields.suffix hcsound.numbered hcsound.names_nodup) hinside
    refine ⟨object.tagBytes ++ again, sitesAgain,
      .object hkind (hleads.locateObject_eq hsound hnames) hmasks hwritten,
      .object hkind hleads hform, ?_⟩
    rw [ByteArray.append_right_inj, hsame]
  | noItems element =>
    intro _
    exact ⟨.empty, [], .noItems element, .noItems element, by simp⟩
  | @lastItem element count v bytes sites hsize hitem ih =>
    intro hempty
    simp only [Value.itemsObjects, List.append_nil] at hempty
    obtain ⟨again, sitesAgain, hwritten, hform, hsame⟩ := ih hempty
    have hnone := (hitem.size_eq_zero_iff hform).mpr hsize
    have hitems : s.Written held (.items element [v]) (again ++ .empty) :=
      .item hwritten (.noItems element)
    rw [ByteArray.append_empty] at hitems
    exact ⟨again, sitesAgain, hitems, .lastItem hnone hform, hsame⟩
  | @item element count v rest bytes behind sites sitesBehind hsize hitem hrest ihItem ihRest =>
    intro hempty
    simp only [Value.itemsObjects, List.forall_mem_append] at hempty
    exact restores_item hsize hitem (ihItem hempty.1) (ihRest hempty.2)
  | noFields masks =>
    intro whole all _ _
    exact ⟨.empty, [], .noFields _ _, .noFields masks, by simp⟩
  | @mask f slot rest masks bits entries bytes sites hslot _ ih =>
    intro whole all hsuffix hempty
    simp only [Value.entriesObjects, List.forall_mem_append] at hempty
    obtain ⟨-, hbits, hbehind⟩ := hsuffix.mask hslot
    obtain ⟨again, sitesAgain, hwritten, hform, hsame⟩ := ih whole all hbehind hempty.2
    have hmask := Written.mask hslot hwritten
    rw [hbits] at hmask
    refine ⟨encodeUInt32 bits ++ again, sitesAgain, hmask, .mask hslot hform, ?_⟩
    rw [ByteArray.append_right_inj, hsame]
  | @presence f rest masks present entries bytes sites hslot hpresence hopens _ ih =>
    intro whole all hsuffix hempty
    simp only [Value.entriesObjects, List.forall_mem_append] at hempty
    obtain ⟨-, -, hbehind⟩ := hsuffix.plain hslot
    obtain ⟨again, sitesAgain, hwritten, hform, hsame⟩ := ih whole all hbehind hempty.2
    have homit := (impliedMasks whole all).skips_of_isPresence hpresence
    exact ⟨again, sitesAgain, .omitted hslot homit hwritten,
      .presence hslot hpresence hopens hform, hsame⟩
  | @absent f rest masks entries bytes sites hslot hpresence hopens _ ih =>
    intro whole all hsuffix hempty
    simp only [Value.entriesObjects, List.forall_mem_append] at hempty
    obtain ⟨-, hknown, hbehind⟩ := hsuffix.plain hslot
    obtain ⟨again, sitesAgain, hwritten, hform, hsame⟩ := ih whole all hbehind hempty.2
    have homit : (impliedMasks whole all).skips f = .ok true :=
      Masks.skips_of_asks hpresence hopens hknown
    exact ⟨again, sitesAgain, .omitted hslot homit hwritten,
      .absent hslot hpresence hopens hform, hsame⟩
  | @present f rest masks v entries bytes behind sites sitesBehind hslot hpresence hopens hvalue _
      ihValue ihRest =>
    intro whole all hsuffix hempty
    simp only [Value.entriesObjects, List.forall_mem_append] at hempty
    obtain ⟨hentry, hknown, hbehind⟩ := hsuffix.plain hslot
    obtain ⟨again, sitesAgain, hwritten, hform, hsame⟩ := ihValue hempty.1
    obtain ⟨back, sitesBack, hwrittenRest, hformRest, hsameRest⟩ :=
      ihRest whole all hbehind hempty.2
    have homit : (impliedMasks whole all).skips f = .ok false :=
      Masks.skips_of_asks hpresence hopens hknown
    have hfound : s.Written held (.value f.kind ((all.find? f.name).getD f.kind.zero)) again := by
      rw [hentry]
      exact hwritten
    refine ⟨again ++ back, sitesAgain ++ sitesBack, .present hslot homit hfound hwrittenRest,
      .present hslot hpresence hopens hform hformRest, ?_⟩
    rw [hform.append_inj hvalue, List.forall_mem_append, hsame, hsameRest]

end Schema

/-! ### Zeros that are refused -/

/-- An outcome is a fault of the values that are supplied. -/
def Refused {α : Type} (outcome : Except Error α) : Prop :=
  ∃ fault, outcome = .error (.invalidState fault)

/-- A part of a message is refused if an object in it has an absent field with a zero. -/
def Part.Refuses (s : Schema) : Part → Prop
  | value kind v =>
    ¬ (∀ o ∈ v.objects, s.AbsentFieldsEmpty o) → ∀ field, Refused (valueLength s field kind v)
  | items element _ vs =>
    ¬ (∀ o ∈ Value.itemsObjects vs, s.AbsentFieldsEmpty o) →
      ∀ field done, Refused (itemsLength s field element done vs)
  | fields fs known entries => ∀ whole all, Suffix whole all fs known entries →
    ¬ (∀ o ∈ Value.entriesObjects entries, s.AbsentFieldsEmpty o) →
      Refused (bodyLength (impliedMasks whole all) (fun f => entryLength s f.name f.kind all) fs)

namespace Schema

variable {s : Schema}

theorem refused_bodyLength {masks : Masks} {entry : Field → Except Error Nat} {f : Field}
    {rest : List Field} {size : Nat} (hfield : fieldLength masks entry f = .ok size)
    (hrest : Refused (bodyLength masks entry rest)) :
    Refused (bodyLength masks entry (f :: rest)) := by
  obtain ⟨fault, hfault⟩ := hrest
  rw [bodyLength_cons, hfield, hfault]
  exact ⟨fault, rfl⟩

/-- An object that was read is refused for a zero in it: for one of its own when its masks are
looked for, and for one of an object inside it when its fields are measured. -/
theorem refused_instanceLength (hsound : s.Sound) {object : Located}
    (hc : object.combinator ∈ s.combinators) {entries : Entries} {bytes : ByteArray}
    {sites : List Site}
    (hform : s.WireForm (.fields object.combinator.fields .empty entries) bytes sites)
    (hrefuses : (Part.fields object.combinator.fields .empty entries).Refuses s)
    (hzero : ¬ s.Rebuildable ⟨object.combinator.name, object.combinator.tag, entries⟩) :
    Refused (instanceLength (.ok object) entries fun f => entryLength s f.name f.kind entries) := by
  have hcsound := hsound.combinator_sound _ hc
  have hmasks := resolveMasks_eq_iff hsound hc hform object.combinator.tag
  unfold Rebuildable at hzero
  rw [Value.objects, List.forall_mem_cons] at hzero
  unfold instanceLength
  dsimp only
  cases hresolve : resolveMasks object.combinator.fields entries with
  | error e =>
    obtain ⟨fault, rfl⟩ := invalidState_of_resolveMasks hcsound.numbered hresolve
    exact ⟨fault, rfl⟩
  | ok masks =>
    obtain ⟨rfl, -, -⟩ := (resolveMasks_eq_ok_iff hcsound.numbered).mp hresolve
    have hinside := fun h ↦ hzero ⟨hmasks.mp hresolve, h⟩
    obtain ⟨fault, hfault⟩ :=
      hrefuses _ _ (hform.suffix hcsound.numbered hcsound.names_nodup) hinside
    dsimp only
    rw [hfault]
    exact ⟨fault, rfl⟩

/-- Every part of a message is refused if an object in it has an absent field with a zero. -/
theorem WireForm.refuses (hsound : s.Sound) (hnames : s.NamesApart) {part : Part}
    {bytes : ByteArray} {sites : List Site} (h : s.WireForm part bytes sites) : part.Refuses s := by
  have hmeasured : ∀ {kind : Kind} {v : Value} {bytes : ByteArray} {sites : List Site},
      s.WireForm (.value kind v) bytes sites → (∀ o ∈ v.objects, s.AbsentFieldsEmpty o) →
        ∃ size, ∀ field, valueLength s field kind v = .ok size := by
    intro kind v bytes sites hform hempty
    have hrebuilds : (Part.value kind v).Rebuilds s 0 bytes sites := hform.rebuilds hsound hnames
    obtain ⟨again, -, hwritten, -, -⟩ := hrebuilds hempty
    exact ⟨again.size, hwritten.measures⟩
  induction h with
  | plain h =>
    intro hzero
    rw [h.objects_eq] at hzero
    exact absurd (List.forall_mem_nil _) hzero
  | byteString _ form =>
    intro hzero
    rw [Value.objects_leaf rfl rfl] at hzero
    exact absurd (List.forall_mem_nil _) hzero
  | vector _ _ ih =>
    intro hzero field
    rw [Value.objects] at hzero
    rw [valueLength]
    exact ih hzero field _
  | object hkind hleads hfields ih =>
    intro hzero field
    rw [valueLength_reference hkind,
      locateWritten_of_locateObject (hleads.locateObject_eq hsound hnames)]
    exact refused_instanceLength hsound hleads.mem hfields ih hzero
  | noItems element =>
    intro hzero
    rw [Value.itemsObjects] at hzero
    exact absurd (List.forall_mem_nil _) hzero
  | lastItem _ hitem ih =>
    intro hzero field done
    simp only [Value.itemsObjects, List.append_nil] at hzero
    obtain ⟨fault, hfault⟩ := ih hzero field
    rw [itemsLength, hfault]
    exact ⟨fault, rfl⟩
  | @item element count v rest _ _ _ _ _ hitem _ ihItem ihRest =>
    intro hzero field done
    simp only [Value.itemsObjects, List.forall_mem_append] at hzero
    rw [itemsLength]
    by_cases hempty : ∀ o ∈ v.objects, s.AbsentFieldsEmpty o
    · obtain ⟨size, hsize⟩ := hmeasured hitem hempty
      rw [hsize field]
      exact ihRest (fun hrest ↦ hzero ⟨hempty, hrest⟩) field (done + size)
    · obtain ⟨fault, hfault⟩ := ihItem hempty field
      rw [hfault]
      exact ⟨fault, rfl⟩
  | noFields masks =>
    intro whole all _ hzero
    rw [Value.entriesObjects] at hzero
    exact absurd (List.forall_mem_nil _) hzero
  | @mask f slot rest masks bits entries bytes sites hslot _ ih =>
    intro whole all hsuffix hzero
    rw [Value.entriesObjects, Value.objects_leaf rfl rfl, List.nil_append] at hzero
    obtain ⟨-, -, hbehind⟩ := hsuffix.mask hslot
    exact refused_bodyLength (fieldLength_mask hslot) (ih whole all hbehind hzero)
  | @presence f rest masks present entries bytes sites hslot hpresence _ _ ih =>
    intro whole all hsuffix hzero
    rw [Value.entriesObjects, Value.objects_leaf rfl rfl, List.nil_append] at hzero
    obtain ⟨-, -, hbehind⟩ := hsuffix.plain hslot
    have homit := (impliedMasks whole all).skips_of_isPresence hpresence
    exact refused_bodyLength (fieldLength_omitted hslot homit) (ih whole all hbehind hzero)
  | @absent f rest masks entries bytes sites hslot hpresence hopens _ ih =>
    intro whole all hsuffix hzero
    rw [Value.entriesObjects, Kind.objects_zero, List.nil_append] at hzero
    obtain ⟨-, hknown, hbehind⟩ := hsuffix.plain hslot
    have homit : (impliedMasks whole all).skips f = .ok true :=
      Masks.skips_of_asks hpresence hopens hknown
    exact refused_bodyLength (fieldLength_omitted hslot homit) (ih whole all hbehind hzero)
  | @present f rest masks v entries bytes behind sites sitesBehind hslot hpresence hopens hvalue _
      ihValue ihRest =>
    intro whole all hsuffix hzero
    simp only [Value.entriesObjects, List.forall_mem_append] at hzero
    obtain ⟨hentry, hknown, hbehind⟩ := hsuffix.plain hslot
    have homit : (impliedMasks whole all).skips f = .ok false :=
      Masks.skips_of_asks hpresence hopens hknown
    have hfield : fieldLength (impliedMasks whole all)
        (fun f => entryLength s f.name f.kind all) f = valueLength s f.name f.kind v := by
      rw [fieldLength_present hslot homit, entryLength_eq, hentry]
    by_cases hempty : ∀ o ∈ v.objects, s.AbsentFieldsEmpty o
    · obtain ⟨size, hsize⟩ := hmeasured hvalue hempty
      have hrest := ihRest whole all hbehind fun hrest ↦ hzero ⟨hempty, hrest⟩
      exact refused_bodyLength (hfield.trans (hsize f.name)) hrest
    · obtain ⟨fault, hfault⟩ := ihValue hempty f.name
      rw [bodyLength_cons, hfield, hfault]
      exact ⟨fault, rfl⟩

end Schema

/-! ### Objects that are read -/

/-- How bytes are an object of a combinator: a header as long as its tag, whatever bytes these are,
and its fields, with some sites in them. -/
structure Schema.ObjectForm (s : Schema) (c : Combinator) (entries : Entries)
    (bytes : ByteArray) where
  header : ByteArray
  body : ByteArray
  sites : List Site
  size_header : header.size = c.header
  bytes_eq : bytes = header ++ body
  fields_form : s.WireForm (.fields c.fields .empty entries) body sites

namespace Schema

variable {s : Schema} {c : Combinator} {entries : Entries} {bytes : ByteArray} {held : Nat}

/-- Whether the tag is the declared one and every site is as a writer puts it down. -/
def ObjectForm.IsCanonical (form : s.ObjectForm c entries bytes) : Prop :=
  form.header = c.located.tagBytes ∧ ∀ site ∈ form.sites, site.IsCanonical

namespace ObjectForm

theorem build_eq (form : s.ObjectForm c entries bytes) (hsound : s.Sound) (hnames : s.NamesApart)
    (hc : c ∈ s.combinators) (hempty : s.Rebuildable ⟨c.name, c.tag, entries⟩) (held : Nat) :
    ∃ again sitesAgain,
      (s.build held c.name entries).outcome = .ok (c.located.tagBytes ++ again) ∧
        s.WireForm (.fields c.fields .empty entries) again sitesAgain ∧
        (c.located.tagBytes ++ again = bytes ↔ form.IsCanonical) := by
  obtain ⟨header, body, sites, hsize, rfl, hfields⟩ := form
  unfold Rebuildable at hempty
  rw [Value.objects, List.forall_mem_cons] at hempty
  obtain ⟨hhere, hinside⟩ := hempty
  have hcsound := hsound.combinator_sound c hc
  have hmasks := (resolveMasks_eq_iff hsound hc hfields c.tag).mpr hhere
  have hsuffix := hfields.suffix hcsound.numbered hcsound.names_nodup
  obtain ⟨again, sitesAgain, hwritten, hform, hsame⟩ :=
    hfields.rebuilds hsound hnames _ _ hsuffix hinside
  have hbuild := (build_eq_ok_iff hsound).mpr
    ⟨c, _, again, hsound.combinator?_eq hc, hmasks, hwritten, rfl⟩
  refine ⟨again, sitesAgain, hbuild, hform, ?_⟩
  show _ ↔ header = _ ∧ ∀ site ∈ sites, site.IsCanonical
  rw [← hsame, append_eq_append_iff ((size_tagBytes_located c).trans hsize.symm), eq_comm]

theorem refused_build (form : s.ObjectForm c entries bytes) (hsound : s.Sound)
    (hnames : s.NamesApart) (hc : c ∈ s.combinators)
    (hzero : ¬ s.Rebuildable ⟨c.name, c.tag, entries⟩) (held : Nat) :
    Refused (s.build held c.name entries).outcome := by
  have hrefuses : (Part.fields c.fields .empty entries).Refuses s :=
    form.fields_form.refuses hsound hnames
  obtain ⟨fault, hfault⟩ := @refused_instanceLength s hsound c.located hc _ _ _ form.fields_form
    hrefuses hzero
  unfold build
  dsimp only
  rw [locateNamed_eq_ok_iff.mpr ⟨c, hsound.combinator?_eq hc, rfl⟩, hfault]
  exact ⟨fault, rfl⟩

end ObjectForm

/-- An object that is read by name is one of a combinator, and its bytes are in some form. -/
theorem objectForm_of_read {name : String} {buffer : ByteArray} {o : Object} {n : Nat}
    (h : s.read held (.named name) buffer 0 = .ok (o, n)) :
    ∃ c ∈ s.combinators, ∃ entries, o = ⟨c.name, c.tag, entries⟩ ∧
      o.height ≤ Depth.limit - held ∧
      Nonempty (s.ObjectForm c entries (buffer.extract 0 n)) := by
  rw [read_eq_readWithin] at h
  unfold readWithin at h
  cases hlocate : s.locate buffer 0 (.named name) with
  | error e => rw [hlocate] at h; cases h
  | ok object =>
    rw [hlocate] at h
    obtain ⟨hc, hheader⟩ := header_of_locate_named (Nat.zero_le _) hlocate
    obtain ⟨header, body, sites, entries, rfl, hsize, hform, hstands, rfl, hheight⟩ :=
      found_of_decodeAt s _ object 0 o n (Nat.zero_le _) h
    refine ⟨object.combinator, hc, entries, rfl, hheight,
      ⟨⟨header, body, sites, hsize.trans hheader, ?_, hform⟩⟩⟩
    have hextract := hstands.2
    rw [Nat.zero_add] at hextract
    exact hextract

/-- An object that was read is built again just when no absent field in it has a zero, and is
refused for such a zero otherwise. What is built is read as the same object, and is the bytes that
were read just when these are canonical. -/
theorem rebuild_of_read {source name : String} (hcompile : compile source = .ok s)
    (hnames : s.NamesApart) {buffer : ByteArray} {o : Object} {n : Nat}
    (hread : s.read held (.named name) buffer 0 = .ok (o, n)) (heldAgain : Nat) :
    ((∃ bytes, (s.build heldAgain o.name o.fields).outcome = .ok bytes) ↔ s.Rebuildable o) ∧
      (¬ s.Rebuildable o → Refused (s.build heldAgain o.name o.fields).outcome) ∧
      ∃ c, s.combinator? o.name = some c ∧
        Nonempty (s.ObjectForm c o.fields (buffer.extract 0 n)) ∧
        ∀ bytes, (s.build heldAgain o.name o.fields).outcome = .ok bytes →
          s.read held (.named o.name) bytes 0 = .ok (o, bytes.size) ∧
            ∀ form : s.ObjectForm c o.fields (buffer.extract 0 n),
              bytes = buffer.extract 0 n ↔ form.IsCanonical := by
  have hsound := sound_of_compile hcompile
  obtain ⟨c, hc, entries, rfl, hheight, ⟨form⟩⟩ := objectForm_of_read hread
  have hfind := hsound.combinator?_eq hc
  by_cases hempty : s.Rebuildable ⟨c.name, c.tag, entries⟩
  · obtain ⟨again, sites, hbuild, hform, -⟩ := form.build_eq hsound hnames hc hempty heldAgain
    refine ⟨⟨fun _ ↦ hempty, fun _ ↦ ⟨_, hbuild⟩⟩, fun hzero ↦ absurd hempty hzero, c, hfind,
      ⟨form⟩, fun bytes hbytes ↦ ⟨?_, fun other ↦ ?_⟩⟩
    · obtain rfl := Except.ok.inj (hbuild.symm.trans hbytes)
      exact read_named_eq_ok hsound hc (size_tagBytes_located c) hform hheight (Stands.self _)
    · obtain ⟨againOther, -, hbuildOther, -, hsame⟩ :=
        other.build_eq hsound hnames hc hempty heldAgain
      obtain rfl := Except.ok.inj (hbuildOther.symm.trans hbytes)
      exact hsame
  · obtain ⟨fault, hfault⟩ := form.refused_build hsound hnames hc hempty heldAgain
    have hnot : ∀ bytes, (s.build heldAgain c.name entries).outcome ≠ .ok bytes := by
      intro bytes hbuild
      rw [hfault] at hbuild
      cases hbuild
    exact ⟨⟨fun ⟨bytes, hbuild⟩ ↦ absurd hbuild (hnot bytes), fun h ↦ absurd h hempty⟩,
      fun _ ↦ ⟨fault, hfault⟩, c, hfind, ⟨form⟩, fun bytes hbuild ↦ absurd hbuild (hnot bytes)⟩

/-- A line under another tag, whose label has a long mark and padding that is not zero, is built
again with its own tag, a short mark and zeros. -/
theorem rebuild_line_of_read :
    ∃ o, lineSchema.read 0 (.named "line")
        ⟨#[5, 0, 0, 0, 1, 0, 0, 0, 254, 1, 0, 0, 97, 1, 2, 3, 0, 0, 0, 0]⟩ 0 = .ok (o, 20) ∧
      lineSchema.Rebuildable o ∧
      (lineSchema.build 0 o.name o.fields).outcome =
        .ok ⟨#[1, 0, 0, 0, 1, 0, 0, 0, 1, 97, 0, 0, 0, 0, 0, 0]⟩ ∧
      lineSchema.read 0 (.named o.name) ⟨#[1, 0, 0, 0, 1, 0, 0, 0, 1, 97, 0, 0, 0, 0, 0, 0]⟩ 0 =
        .ok (o, 16) := by
  have hrun : ((lineSchema.read 0 (.named "line")
      ⟨#[5, 0, 0, 0, 1, 0, 0, 0, 254, 1, 0, 0, 97, 1, 2, 3, 0, 0, 0, 0]⟩ 0).toOption.map
      fun found => (found.2, (lineSchema.build 0 found.1.name found.1.fields).outcome.toOption)) =
      some (20, some ⟨#[1, 0, 0, 0, 1, 0, 0, 0, 1, 97, 0, 0, 0, 0, 0, 0]⟩) := by
    decide +kernel
  obtain ⟨⟨o, n⟩, hfound, hboth⟩ := Option.map_eq_some_iff.mp hrun
  obtain ⟨rfl, hagain⟩ := Prod.mk.inj hboth
  have hread := ok_of_toOption hfound
  have hbuild := ok_of_toOption hagain
  obtain ⟨hiff, -, c, -, -, hbytes⟩ :=
    rebuild_of_read compile_lineSource (by decide +kernel) hread 0
  exact ⟨o, hread, hiff.mp ⟨_, hbuild⟩, hbuild, (hbytes _ hbuild).1⟩

end Schema

end TypeLang
