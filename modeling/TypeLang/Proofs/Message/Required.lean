import TypeLang.Message.Required
import TypeLang.Proofs.Message.Building

/-!
The length of an object from the lengths of its parts. `SizeInputs.Describes` says what has to be
given for a field: its length where that varies and it is there, that it is there where it is
conditional, and nothing about it where it is not there. From such inputs the length comes out that
the object has when it is built (`Schema.requiredSize_eq_size_of_build`).
-/

set_option autoImplicit false
set_option relaxedAutoImplicit false

namespace TypeLang

open Wire Message

namespace SizeInputs

/-- What is given for a field of an object. The length of a byte string is that of its data and the
length of a vector or an object is that of what it is written as; where a byte string or vector is
omitted, it may be left out. A presence field has no length, so anything may be said about it. -/
structure Describes (inputs : SizeInputs) (s : Schema) (held : Nat) (masks : Masks)
    (entries : Entries) (f : Field) : Prop where
  data : masks.opens f = true → f.kind = .bytes ∨ f.kind = .string →
    ∀ data, entries.find? f.name = some (.bytes data) → inputs.length? f.name = some data.size
  encoded : masks.opens f = true → f.kind.isContainer = true →
    ∀ v bytes, entries.find? f.name = some v → s.Written held (.value f.kind v) bytes →
      inputs.length? f.name = some bytes.size
  omitted : masks.opens f = true → entries.find? f.name = none →
    ∀ length, inputs.length? f.name = some length →
      (f.kind = .bytes ∨ f.kind = .string → length = 0) ∧
        ∀ boxed element, f.kind = .vector boxed element → length = Vectors.headerLength boxed
  marked : masks.opens f = true → f.gate.isSome = true → f.isPresence = false →
    f.kind.width?.isSome = true → inputs.isPresent f.name = true
  absent : masks.opens f = false → f.isPresence = false → inputs.isPresent f.name = false

variable {inputs : SizeInputs} {s : Schema} {held : Nat} {masks : Masks} {entries : Entries}
  {f : Field} {rest : List Field} {bytes : ByteArray} {width : Nat}

/-! ### One field -/

theorem isPresent_of_length? {field : String} {length : Nat}
    (h : inputs.length? field = some length) : inputs.isPresent field = true := by
  unfold isPresent
  rw [h]
  exact Bool.or_true _

theorem fieldLength_of_width (h : f.kind.width? = some width) :
    inputs.fieldLength f = .ok width := by
  unfold fieldLength
  rw [h]

theorem fieldsLength_skip (hgate : f.gate.isSome = true)
    (habsent : inputs.isPresent f.name = false) (done : Nat) :
    inputs.fieldsLength done (f :: rest) = inputs.fieldsLength done rest := by
  rw [fieldsLength, hgate, habsent]
  rfl

theorem fieldsLength_cons (hthere : f.gate.isSome = true → inputs.isPresent f.name = true)
    {length : Nat} (hlength : inputs.fieldLength f = .ok length) (done : Nat) :
    inputs.fieldsLength done (f :: rest) = inputs.fieldsLength (done + length) rest := by
  have hgate : (f.gate.isSome && !inputs.isPresent f.name) = false := by
    cases hg : f.gate.isSome with
    | false => rfl
    | true => rw [hthere hg]; rfl
  rw [fieldsLength, hgate, if_neg Bool.false_ne_true, hlength]

/-- A presence field adds nothing, whatever is said about it. -/
theorem fieldsLength_presence (hpresence : f.isPresence = true) (done : Nat) :
    inputs.fieldsLength done (f :: rest) = inputs.fieldsLength done rest := by
  have hkind : f.kind = .presence := eq_of_beq hpresence
  have hlength : inputs.fieldLength f = .ok 0 := fieldLength_of_width (by rw [hkind]; rfl)
  by_cases hthere : f.gate.isSome = true → inputs.isPresent f.name = true
  · exact fieldsLength_cons hthere hlength done
  · obtain ⟨hgate, habsent⟩ := Classical.not_imp.mp hthere
    exact fieldsLength_skip hgate (Bool.eq_false_iff.mpr habsent) done

theorem fieldLength_of_data (hkind : f.kind = .bytes ∨ f.kind = .string) :
    inputs.fieldLength f = .ok (ByteString.encodedLength ((inputs.length? f.name).getD 0)) := by
  unfold fieldLength
  rcases hkind with hkind | hkind <;> rw [hkind] <;> rfl

theorem fieldLength_of_container (hkind : f.kind.isContainer = true) {length : Nat}
    (hlength : inputs.length? f.name = some length) : inputs.fieldLength f = .ok length := by
  unfold fieldLength
  rw [hlength]
  cases hf : f.kind with
  | vector _ _ | object _ _ | generic _ | anyObject => rfl
  | _ => rw [hf] at hkind; cases hkind

/-- A kind has values of one width, or is one of byte strings, vectors or objects. -/
theorem width?_cases (kind : Kind) :
    (∃ width, kind.width? = some width) ∨ (kind = .bytes ∨ kind = .string) ∨
      kind.isContainer = true := by
  cases kind <;> first
    | exact .inl ⟨_, rfl⟩
    | exact .inr (.inr rfl)
    | simp

theorem size_of_written_width {kind : Kind} {v : Value} (hwidth : kind.width? = some width)
    (h : s.Written held (.value kind v) bytes) : bytes.size = width := by
  have hkind : kind.isContainer = false := by
    cases kind <;> first | rfl | cases hwidth
  have hlength := ((Schema.Written.value_iff_plain hkind).mp h).plainLength_eq ""
  unfold plainLength at hlength
  rw [hwidth] at hlength
  exact (Except.ok.inj hlength).symm

theorem data_of_written {kind : Kind} {v : Value} (hkind : kind = .bytes ∨ kind = .string)
    (h : s.Written held (.value kind v) bytes) :
    ∃ data, v = .bytes data ∧ bytes.size = ByteString.encodedLength data.size := by
  rcases hkind with rfl | rfl <;>
    cases (Schema.Written.value_iff_plain rfl).mp h <;>
      exact ⟨_, rfl, ByteString.size_encode ‹_›⟩

namespace Describes

/-- A field that is supplied adds the length of what it is written as, and is said to be there if it
is conditional. -/
theorem supplied (h : inputs.Describes s held masks entries f) (hopens : masks.opens f = true)
    (hpresence : f.isPresence = false) {v : Value} (hv : entries.find? f.name = some v)
    (hvalue : s.Written held (.value f.kind v) bytes) :
    (f.gate.isSome = true → inputs.isPresent f.name = true) ∧
      inputs.fieldLength f = .ok bytes.size := by
  rcases width?_cases f.kind with ⟨width, hwidth⟩ | hdata | hcontainer
  · rw [size_of_written_width hwidth hvalue]
    refine ⟨fun hgate ↦ h.marked hopens hgate hpresence ?_, fieldLength_of_width hwidth⟩
    rw [hwidth]
    rfl
  · obtain ⟨data, rfl, hsize⟩ := data_of_written hdata hvalue
    have hlength := h.data hopens hdata data hv
    rw [fieldLength_of_data hdata, hlength, hsize]
    exact ⟨fun _ ↦ isPresent_of_length? hlength, rfl⟩
  · have hlength := h.encoded hopens hcontainer v bytes hv hvalue
    exact ⟨fun _ ↦ isPresent_of_length? hlength, fieldLength_of_container hcontainer hlength⟩

/-- A field that is omitted adds the length of its zero. -/
theorem unsupplied (h : inputs.Describes s held masks entries f) (hopens : masks.opens f = true)
    (hnone : entries.find? f.name = none)
    (hvalue : s.Written held (.value f.kind f.kind.zero) bytes) :
    inputs.fieldLength f = .ok bytes.size := by
  rcases width?_cases f.kind with ⟨width, hwidth⟩ | hdata | hcontainer
  · rw [size_of_written_width hwidth hvalue]
    exact fieldLength_of_width hwidth
  · obtain ⟨data, hzero, hsize⟩ := data_of_written hdata hvalue
    have hempty : data.size = 0 := by
      rcases hdata with hkind | hkind <;> rw [hkind] at hzero <;> cases hzero <;> rfl
    have hgiven : (inputs.length? f.name).getD 0 = 0 := by
      cases hlength : inputs.length? f.name with
      | none => rfl
      | some length => exact (h.omitted hopens hnone length hlength).1 hdata
    rw [fieldLength_of_data hdata, hgiven, hsize, hempty]
  · have hlength := hvalue.zeroLength?_eq
    cases hkind : f.kind with
    | vector boxed element =>
      rw [hkind] at hlength
      have hsize : Vectors.headerLength boxed = bytes.size := Option.some.inj hlength
      rw [← hsize]
      cases hgiven : inputs.length? f.name with
      | none =>
        unfold fieldLength
        rw [hkind, hgiven]
        rfl
      | some length =>
        rw [fieldLength_of_container hcontainer hgiven,
          (h.omitted hopens hnone length hgiven).2 boxed element hkind]
    | object _ _ | generic _ | anyObject => rw [hkind] at hlength; cases hlength
    | _ => rw [hkind] at hcontainer; cases hcontainer

end Describes

/-! ### All fields -/

/-- The length of described fields is the length of what they are written as. -/
theorem fieldsLength_eq {fields : List Field} {n : Nat} (hn : Field.Numbered n fields)
    (hdescribes : ∀ f ∈ fields, inputs.Describes s held masks entries f)
    (hagrees : ∀ f ∈ fields, Agrees masks f (entries.find? f.name))
    (hbody : s.Written held (.body masks entries fields) bytes) (done : Nat) :
    inputs.fieldsLength done fields = .ok (done + bytes.size) := by
  induction hn generalizing bytes done with
  | nil =>
    rw [Schema.Written.noFields_iff.mp hbody, fieldsLength]
    rfl
  | @mask slot name rest _ _ ih =>
    obtain ⟨-, hrest⟩ := List.forall_mem_cons.mp hdescribes
    obtain ⟨_, back, rfl, hback, rfl⟩ :=
      (Schema.Written.mask_iff (f := ⟨name, .mask, none, some slot⟩) rfl).mp hbody
    rw [fieldsLength_cons (fun hgate ↦ by cases hgate) (fieldLength_of_width rfl),
      ih hrest (List.forall_mem_cons.mp hagrees).2 hback, ByteArray.size_append,
      size_encodeUInt32, Nat.add_assoc]
  | @plain slot f rest hslot _ hgate _ ih =>
    have htestable : f.Testable := fun g hg ↦ (hgate g hg).2
    obtain ⟨hhere, hrest⟩ := List.forall_mem_cons.mp hdescribes
    obtain ⟨hagree, hagrees⟩ := List.forall_mem_cons.mp hagrees
    by_cases homit : (f.isPresence || !masks.opens f) = true
    · have hskips := Masks.skips_of_omits htestable homit
      have hback := ih hrest hagrees ((Schema.Written.omitted_iff hslot hskips).mp hbody) done
      by_cases hpresence : f.isPresence = true
      · rw [fieldsLength_presence hpresence, hback]
      · have hpresence := Bool.eq_false_iff.mpr hpresence
        have hclosed : masks.opens f = false := by simpa [hpresence] using homit
        have hgate : f.gate.isSome = true := by
          cases hg : f.gate with
          | none => rw [Masks.opens_of_gate_eq_none hg] at hclosed; cases hclosed
          | some g => rfl
        rw [fieldsLength_skip hgate (hhere.absent hclosed hpresence), hback]
    · have homit := Bool.eq_false_iff.mpr homit
      obtain ⟨hpresence, hclosed⟩ := Bool.or_eq_false_iff.mp homit
      have hopens : masks.opens f = true := by simpa using hclosed
      obtain ⟨first, back, hvalue, hback, rfl⟩ :=
        (Schema.Written.present_iff hslot (Masks.skips_of_omits htestable homit)).mp hbody
      have hfield : (f.gate.isSome = true → inputs.isPresent f.name = true) ∧
          inputs.fieldLength f = .ok first.size := by
        cases hv : entries.find? f.name with
        | some v =>
          rw [hv] at hvalue
          exact hhere.supplied hopens hpresence hv hvalue
        | none =>
          -- A conditional field whose bit is set would have to be supplied.
          rw [hv] at hvalue hagree
          refine ⟨fun hgate ↦ ?_, hhere.unsupplied hopens hv hvalue⟩
          obtain ⟨g, hg⟩ := Option.isSome_iff_exists.mp hgate
          have hbit := hagree g hg
          rw [hpresence, if_neg Bool.false_ne_true, Masks.isSet_eq_opens hg, hopens] at hbit
          cases hbit
      rw [fieldsLength_cons hfield.1 hfield.2, ih hrest hagrees hback, ByteArray.size_append,
        Nat.add_assoc]

end SizeInputs

namespace Schema

/-- An object is as long as is found from the lengths of its parts. -/
theorem requiredSize_eq_size_of_build {source name : String} {s : Schema} {c : Combinator}
    {held : Nat} {entries : Entries} {masks : Masks} {bytes : ByteArray} {inputs : SizeInputs}
    (hcompile : compile source = .ok s) (hc : s.combinator? name = some c)
    (hmasks : resolveMasks c.fields entries = .ok masks)
    (hbuild : (s.build held name entries).outcome = .ok bytes)
    (hdescribes : ∀ f ∈ c.fields, inputs.Describes s held masks entries f) :
    s.requiredSize name inputs = .ok bytes.size := by
  have hsound := sound_of_compile hcompile
  obtain ⟨_, _, body, hc', hmasks', hbody, rfl⟩ := (build_eq_ok_iff hsound).mp hbuild
  obtain rfl := Option.some.inj (hc.symm.trans hc')
  obtain rfl := Except.ok.inj (hmasks.symm.trans hmasks')
  have hn := (hsound.combinator_sound c (mem_of_combinator? hc).1).numbered
  obtain ⟨-, -, hagrees⟩ := (resolveMasks_eq_ok_iff hn).mp hmasks
  unfold requiredSize
  rw [locateNamed_eq_ok_iff.mpr ⟨c, hc, rfl⟩]
  dsimp only
  rw [show c.located.combinator = c from rfl,
    SizeInputs.fieldsLength_eq hn hdescribes hagrees hbody, ByteArray.size_append,
    size_tagBytes_located]
  rfl

/-- The entries of a line with a label and a next line, without points. -/
def labelledEntries : Entries := [("label", .bytes ⟨#[97]⟩), ("next", .object ⟨"line", none, []⟩)]

/-- The lengths of the label and of the next line. -/
def labelledLengths : SizeInputs := ⟨[("label", 1), ("next", 12)], []⟩

/-- The length of a line with a label and a next line is found from the lengths of these two, and
without one of the points, which are omitted. -/
theorem requiredSize_line_eq_size :
    ∃ bytes masks, resolveMasks line.fields labelledEntries = .ok masks ∧
      (lineSchema.build 0 "line" labelledEntries).outcome = .ok bytes ∧
      bytes.size = 28 ∧
      (∀ f ∈ line.fields, labelledLengths.Describes lineSchema 0 masks labelledEntries f) ∧
      lineSchema.requiredSize "line" labelledLengths = .ok bytes.size := by
  have hfound : ((resolveMasks line.fields labelledEntries).toOption.map fun masks => masks 0) =
      some 3 := by
    decide +kernel
  have hbuilt : ((lineSchema.build 0 "line" labelledEntries).outcome.toOption.map ByteArray.size) =
      some 28 := by
    decide +kernel
  have hnext : (valueLength lineSchema "next" (.object "Line" false)
      (.object ⟨"line", none, []⟩)).toOption = some 12 := by
    decide +kernel
  obtain ⟨masks, hmasks, hmask⟩ := Option.map_eq_some_iff.mp hfound
  obtain ⟨bytes, hbytes, hsize⟩ := Option.map_eq_some_iff.mp hbuilt
  have hlabel : masks.isSet ⟨0, 0⟩ = true := by
    unfold Masks.isSet
    rw [hmask]
    decide
  have hother : masks.isSet ⟨0, 1⟩ = true := by
    unfold Masks.isSet
    rw [hmask]
    decide
  have hdescribes : ∀ f ∈ line.fields,
      labelledLengths.Describes lineSchema 0 masks labelledEntries f := by
    intro f hf
    simp only [line, List.mem_cons, List.not_mem_nil, or_false] at hf
    rcases hf with rfl | rfl | rfl | rfl
    · refine ⟨fun _ h ↦ (by simp at h), fun _ h ↦ (by cases h), fun _ _ length h ↦ ?_,
        fun _ h ↦ (by cases h), fun h ↦ (by cases h)⟩
      exact nomatch (show none = some length from h)
    · refine ⟨fun _ _ data h ↦ ?_, fun _ h ↦ (by cases h), fun _ h ↦ ?_, fun _ _ _ h ↦ (by cases h),
        fun h ↦ ?_⟩
      · cases (show some (Value.bytes ⟨#[97]⟩) = some (Value.bytes data) from h)
        rfl
      · exact nomatch (show some (Value.bytes ⟨#[97]⟩) = none from h)
      · exact absurd (hlabel.symm.trans h) nofun
    · refine ⟨fun _ h ↦ (by simp at h), fun _ _ v bytes hv h ↦ ?_, fun _ h ↦ ?_,
        fun _ _ _ h ↦ (by cases h), fun h ↦ ?_⟩
      · cases (show some (Value.object ⟨"line", none, []⟩) = some v from hv)
        have hlength := (h.measures "next").symm.trans (ok_of_toOption hnext)
        rw [Except.ok.inj hlength]
        rfl
      · exact nomatch (show some (Value.object ⟨"line", none, []⟩) = none from h)
      · exact absurd (hother.symm.trans h) nofun
    · refine ⟨fun _ h ↦ (by simp at h), fun _ _ v bytes hv h ↦ ?_, fun _ _ length h ↦ ?_,
        fun _ h ↦ (by cases h), fun h ↦ (by cases h)⟩
      · exact nomatch (show none = some v from hv)
      · exact nomatch (show none = some length from h)
  exact ⟨bytes, masks, ok_of_toOption hmasks, ok_of_toOption hbytes, hsize, hdescribes,
    requiredSize_eq_size_of_build compile_lineSource rfl (ok_of_toOption hmasks)
      (ok_of_toOption hbytes) hdescribes⟩

end Schema

end TypeLang
