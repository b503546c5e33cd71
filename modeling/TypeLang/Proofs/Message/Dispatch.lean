import TypeLang.Proofs.Message.Measurement
import TypeLang.Proofs.Message.Reading
import TypeLang.Proofs.Schema.Compatibility
import TypeLang.Proofs.Schema.Resolution

/-!
Three ways to an object that has a tag: by the tag alone, by the name of its combinator, and by the
name of its type. They differ in the look-up only, and reading and measuring both start with one
(`Schema.read_eq_bind`, `Schema.sizeOf_outcome_eq_bind`). A tag leads to its combinator also under
the name of that (`Schema.locate_any_eq_named`). Under the name of a type it leads to a constructor
of the type or to nothing (`Schema.TaggedType.dispatchesByTag`).
-/

set_option autoImplicit false
set_option relaxedAutoImplicit false

namespace TypeLang

open Wire Message

theorem Wire.readUInt32_of_short {buffer : ByteArray} {offset : Nat}
    (h : buffer.size < offset + 4) :
    readUInt32 buffer offset = .error (truncated buffer.size offset 4) := by
  unfold readUInt32 readNat slice
  rw [if_neg (Nat.not_le.mpr h)]
  rfl

namespace Schema

variable {s : Schema} {held : Nat} {buffer : ByteArray} {offset : Nat} {tag : UInt32}
  {c : Combinator} {typeName : String}

/-! ### Where the three ways lead -/

theorem locate_any_of_tag (hs : s.Sound) (hc : c ∈ s.combinators) (htag : c.tag = some tag)
    (hword : readUInt32 buffer offset = .ok tag) :
    s.locate buffer offset .any = .ok ⟨c, tagLength⟩ := by
  show s.locateAny buffer offset = _
  unfold locateAny
  rw [hword]
  dsimp only
  rw [hs.byTag?_eq hc htag]

/-- A combinator is found under its name, also where a type has the same name. -/
theorem locate_named (hs : s.Sound) (hc : c ∈ s.combinators) :
    s.locate buffer offset (.named c.name) = .ok c.located := by
  have hfind := hs.combinator?_eq hc
  unfold locate
  dsimp only
  rw [hfind, Option.isNone_some, Bool.and_false, if_neg Bool.false_ne_true]
  exact locateNamed_eq_ok_iff.mpr ⟨c, hfind, rfl⟩

/-- A combinator is found by its tag as it is under its name. -/
theorem locate_any_eq_named (hs : s.Sound) (hc : c ∈ s.combinators) (htag : c.tag = some tag)
    (hword : readUInt32 buffer offset = .ok tag) :
    s.locate buffer offset .any = s.locate buffer offset (.named c.name) := by
  rw [locate_any_of_tag hs hc htag hword, locate_named hs hc]
  unfold Combinator.located Combinator.header
  rw [htag]
  rfl

/-- A name stands for a type that is read by the tags of its constructors. -/
structure TaggedType (s : Schema) (typeName : String) : Prop where
  hasType : s.hasType typeName = true
  combinator? : s.combinator? typeName = none
  tagged : ∀ c ∈ s.constructors typeName, c.tag ≠ none

theorem TaggedType.tagless?_eq (h : s.TaggedType typeName) : s.tagless? typeName = none := by
  rw [Schema.tagless?_eq, Option.filter_eq_none_iff]
  intro only honly
  have hmem : only ∈ s.constructors typeName := by
    rw [onlyConstructor?_eq_some_iff.mp honly]
    exact List.mem_singleton.mpr rfl
  rw [Option.isNone_iff_eq_none]
  exact h.tagged only hmem

theorem locate_type_eq (h : s.TaggedType typeName) :
    s.locate buffer offset (.named typeName) = s.locateMember typeName buffer offset := by
  have hheader : s.headerless? typeName false = .ok none := by
    unfold headerless?
    rw [if_neg Bool.false_ne_true, h.tagless?_eq]
  unfold locate locateTyped
  dsimp only
  rw [h.hasType, h.combinator?, Option.isNone_none, Bool.and_true, if_pos rfl, hheader]

theorem locate_type_of_tag (hs : s.Sound) (h : s.TaggedType typeName)
    (hc : c ∈ s.constructors typeName) (htag : c.tag = some tag)
    (hword : readUInt32 buffer offset = .ok tag) :
    s.locate buffer offset (.named typeName) = .ok ⟨c, tagLength⟩ := by
  obtain ⟨hmem, hconstructs⟩ := mem_constructors_iff.mp hc
  have hfind : s.constructorByTag? typeName tag = some c :=
    constructorByTag?_eq_some_iff.mpr ⟨hs.byTag?_eq hmem htag, hconstructs⟩
  rw [locate_type_eq h]
  unfold locateMember
  rw [if_pos h.hasType, hword]
  dsimp only
  rw [hfind]

theorem locate_type_of_other (h : s.TaggedType typeName)
    (hother : ∀ c ∈ s.constructors typeName, c.tag ≠ some tag)
    (hword : readUInt32 buffer offset = .ok tag) :
    s.locate buffer offset (.named typeName) = .error (.unknownConstructor tag) := by
  have hfind : s.constructorByTag? typeName tag = none := by
    rw [Option.eq_none_iff_forall_ne_some]
    intro c hc
    obtain ⟨hbyTag, hconstructs⟩ := constructorByTag?_eq_some_iff.mp hc
    obtain ⟨hmem, htag⟩ := mem_of_byTag? hbyTag
    exact hother c (mem_constructors_iff.mpr ⟨hmem, hconstructs⟩) htag
  rw [locate_type_eq h]
  unfold locateMember
  rw [if_pos h.hasType, hword]
  dsimp only
  rw [hfind]

theorem locate_type_of_short (h : s.TaggedType typeName) (hshort : buffer.size < offset + 4) :
    s.locate buffer offset (.named typeName) = .error (truncated buffer.size offset 4) := by
  rw [locate_type_eq h]
  unfold locateMember
  rw [if_pos h.hasType, readUInt32_of_short hshort]

/-! ### What is done with what is found -/

theorem read_eq_bind (s : Schema) (held : Nat) (r : Reference) (buffer : ByteArray)
    (offset : Nat) :
    s.read held r buffer offset = (s.locate buffer offset r).bind fun object =>
      s.decodeAt buffer (Depth.limit - held) object offset := by
  unfold read
  cases s.locate buffer offset r <;> rfl

theorem sizeOf_outcome_eq_bind (s : Schema) (held : Nat) (r : Reference) (buffer : ByteArray)
    (offset : Nat) :
    (s.sizeOf held r buffer offset).outcome = (s.locate buffer offset r).bind fun object =>
      (s.measureAt buffer (Depth.limit - held) object offset).outcome :=
  Metered.outcome_bind _ _

/-- Under the name of a type there is what is found by the tag at a place, if that is the tag of a
constructor of the type. Any other tag is unknown, and no tag is a buffer that is too short. -/
structure DispatchesByTag {α : Type} (s : Schema) (typeName : String) (buffer : ByteArray)
    (offset : Nat) (run : Reference → Except Error α) : Prop where
  of_tag : ∀ tag, readUInt32 buffer offset = .ok tag →
    ∀ c ∈ s.constructors typeName, c.tag = some tag → run (.named typeName) = run .any
  of_other : ∀ tag, readUInt32 buffer offset = .ok tag →
    (∀ c ∈ s.constructors typeName, c.tag ≠ some tag) →
      run (.named typeName) = .error (.unknownConstructor tag)
  of_short : buffer.size < offset + 4 →
    run (.named typeName) = .error (truncated buffer.size offset 4)

/-- Whatever starts with a look-up goes by the tag where the look-up does. -/
theorem TaggedType.dispatchesByTag {α : Type} (hs : s.Sound) (h : s.TaggedType typeName)
    {run : Reference → Except Error α} {body : Located → Except Error α}
    (hrun : ∀ r, run r = (s.locate buffer offset r).bind body) :
    s.DispatchesByTag typeName buffer offset run where
  of_tag tag hword c hc htag := by
    have hmem := (mem_constructors_iff.mp hc).1
    rw [hrun, hrun, locate_type_of_tag hs h hc htag hword, locate_any_of_tag hs hmem htag hword]
  of_other tag hword hother := by
    rw [hrun, locate_type_of_other h hother hword]
    rfl
  of_short hshort := by
    rw [hrun, locate_type_of_short h hshort]
    rfl

theorem le_size_of_locate_any {object : Located}
    (h : s.locate buffer offset .any = .ok object) : offset ≤ buffer.size :=
  Nat.le_of_add_right_le (locateAny_eq_ok_iff.mp h).2.le_size

theorem read_named_of_read_any (hs : s.Sound) {o : Object} {n : Nat}
    (h : s.read held .any buffer offset = .ok (o, n)) :
    s.read held (.named o.name) buffer offset = .ok (o, n) := by
  rw [read_eq_bind] at h
  cases hlocate : s.locate buffer offset .any with
  | error e => rw [hlocate] at h; cases h
  | ok object =>
    rw [hlocate] at h
    obtain ⟨hleads, hstands⟩ := locateAny_eq_ok_iff.mp hlocate
    obtain ⟨_, _, _, _, rfl, -⟩ :=
      s.found_of_decodeAt _ object offset o n (le_size_of_locate_any hlocate) h
    cases hleads with
    | any hfind =>
      obtain ⟨hc, htag⟩ := mem_of_byTag? hfind
      rw [Located.tagBytes_of_tag rfl htag] at hstands
      have hsame := locate_any_eq_named hs hc htag (readUInt32_eq_ok_iff.mpr hstands)
      rw [read_eq_bind, ← hsame, hlocate]
      exact h

/-- What is measured by its tag is read by it, and is measured the same under its name. -/
theorem sizeOf_named_of_sizeOf_any (hs : s.Sound) {n : Nat}
    (h : (s.sizeOf held .any buffer offset).outcome = .ok n) :
    ∃ o, s.read held .any buffer offset = .ok (o, n) ∧
      (s.sizeOf held (.named o.name) buffer offset).outcome = .ok n := by
  have hoffset : offset ≤ buffer.size := by
    rw [sizeOf_outcome_eq_bind] at h
    cases hlocate : s.locate buffer offset .any with
    | error e => rw [hlocate] at h; cases h
    | ok object => exact le_size_of_locate_any hlocate
  rw [s.sizeOf_outcome_eq_read held .any buffer offset hoffset] at h
  obtain ⟨⟨o, _⟩, hread, rfl⟩ := map_ok_iff.mp h
  refine ⟨o, hread, ?_⟩
  rw [s.sizeOf_outcome_eq_read held _ buffer offset hoffset, read_named_of_read_any hs hread]
  rfl

/-- What is read or measured by its tag is so under its own name, and under the name of its type, to
which no other tags lead. -/
theorem dispatches_agree {source : String} (hs : compile source = .ok s) (held : Nat)
    (buffer : ByteArray) (offset : Nat) :
    (∀ o n, s.read held .any buffer offset = .ok (o, n) →
      s.read held (.named o.name) buffer offset = .ok (o, n)) ∧
    (∀ n, (s.sizeOf held .any buffer offset).outcome = .ok n →
      ∃ o, s.read held .any buffer offset = .ok (o, n) ∧
        (s.sizeOf held (.named o.name) buffer offset).outcome = .ok n) ∧
    ∀ typeName, s.TaggedType typeName →
      s.DispatchesByTag typeName buffer offset (fun r => s.read held r buffer offset) ∧
        s.DispatchesByTag typeName buffer offset
          fun r => (s.sizeOf held r buffer offset).outcome := by
  have hsound := sound_of_compile hs
  refine ⟨fun o n ↦ read_named_of_read_any hsound, fun n ↦ sizeOf_named_of_sizeOf_any hsound,
    fun typeName htype ↦ ⟨?_, ?_⟩⟩
  · exact htype.dispatchesByTag hsound fun r ↦ s.read_eq_bind held r buffer offset
  · exact htype.dispatchesByTag hsound fun r ↦ s.sizeOf_outcome_eq_bind held r buffer offset

theorem taggedType_tree : gardenSchema.TaggedType "Tree" :=
  ⟨by decide, by decide, by decide⟩

/-- What is planted in a garden is found by its tag as it is by its name, but not as a tree,
although that is what planting returns. The leaf behind the tag is found as a tree, and behind its
own tag there is none. -/
theorem dispatches_garden_agree :
    (∃ o, gardenSchema.read 0 .any gardenBytes 0 = .ok (o, 16) ∧ o.name = "plant" ∧
      gardenSchema.read 0 (.named "plant") gardenBytes 0 = .ok (o, 16)) ∧
    gardenSchema.read 0 (.named "Tree") gardenBytes 0 = .error (.unknownConstructor 3) ∧
    gardenSchema.read 0 (.named "Tree") gardenBytes 4 = gardenSchema.read 0 .any gardenBytes 4 ∧
    (gardenSchema.sizeOf 0 (.named "Tree") gardenBytes 4).outcome =
      (gardenSchema.sizeOf 0 .any gardenBytes 4).outcome ∧
    gardenSchema.read 0 (.named "Tree") gardenBytes 13 = .error (truncated 16 13 4) := by
  obtain ⟨hcall, -, hstart⟩ := dispatches_agree compile_gardenSource 0 gardenBytes 0
  obtain ⟨-, -, hbehind⟩ := dispatches_agree compile_gardenSource 0 gardenBytes 4
  obtain ⟨-, -, hend⟩ := dispatches_agree compile_gardenSource 0 gardenBytes 13
  have hread : (gardenSchema.read 0 .any gardenBytes 0).toOption.map
      (fun found => (found.1.name, found.2)) = some ("plant", 16) := by
    decide +kernel
  obtain ⟨⟨o, n⟩, hread, hfound⟩ := Option.map_eq_some_iff.mp hread
  obtain ⟨hname, rfl⟩ := Prod.mk.inj hfound
  have hread := ok_of_toOption hread
  have hleaf : Combinator.ofDeclaration garden[0] ∈ gardenSchema.constructors "Tree" := by decide
  exact ⟨⟨o, hread, hname, hname ▸ hcall o 16 hread⟩,
    (hstart "Tree" taggedType_tree).1.of_other 3 (by rfl) (by decide),
    (hbehind "Tree" taggedType_tree).1.of_tag 1 (by rfl) _ hleaf rfl,
    (hbehind "Tree" taggedType_tree).2.of_tag 1 (by rfl) _ hleaf rfl,
    (hend "Tree" taggedType_tree).1.of_short (by decide)⟩

end Schema

end TypeLang
