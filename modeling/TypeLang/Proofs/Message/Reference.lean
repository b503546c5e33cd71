import TypeLang.Message.Encode
import TypeLang.Proofs.Schema.Soundness

/-!
Where references lead. `Schema.Leads` says which objects a reference can lead to, without a buffer.
A reader finds such an object where its tag stands (`Schema.locate_eq_ok_iff`), and a writer accepts
the name of its combinator (`Schema.Leads.locateObject_eq`) if no combinator has the name of a type.
-/

set_option autoImplicit false
set_option relaxedAutoImplicit false

namespace TypeLang

open Wire Message

namespace Located

/-- The tag before the fields of an object, if it has one there. -/
def tagBytes (object : Located) : ByteArray :=
  match object.combinator.tag with
  | some tag => if object.header = 0 then .empty else encodeUInt32 tag
  | none => .empty

variable {object : Located}

theorem tagBytes_of_header_eq_zero (h : object.header = 0) : object.tagBytes = .empty := by
  unfold Located.tagBytes
  split
  · rw [if_pos h]
  · rfl

theorem tagBytes_of_tag {tag : UInt32} (hheader : object.header = tagLength)
    (htag : object.combinator.tag = some tag) : object.tagBytes = encodeUInt32 tag := by
  unfold Located.tagBytes
  rw [htag]
  dsimp only
  rw [hheader]
  rfl

theorem size_tagBytes
    (h : object.header = 0 ∨
      object.header = tagLength ∧ ∃ tag, object.combinator.tag = some tag) :
    object.tagBytes.size = object.header := by
  rcases h with h | ⟨hheader, tag, htag⟩
  · rw [tagBytes_of_header_eq_zero h, h]
    rfl
  · rw [tagBytes_of_tag hheader htag, hheader]
    exact size_encodeUInt32 tag

end Located

theorem Combinator.tag_of_header {c : Combinator} (h : c.header ≠ 0) :
    c.header = tagLength ∧ ∃ tag, c.tag = some tag := by
  unfold Combinator.header at h ⊢
  cases htag : c.tag with
  | none => rw [htag] at h; exact absurd rfl h
  | some tag => exact ⟨rfl, tag, rfl⟩

/-- How a value of some kind refers to an object, if it is one. -/
def Kind.reference? : Kind → Option Reference
  | object typeName bare => some (.typed typeName bare)
  | generic _ | anyObject => some .any
  | _ => none

namespace Schema

/-- No combinator has the name of a type. -/
def NamesApart (s : Schema) : Prop := ∀ c ∈ s.combinators, s.hasType c.name = false

instance (s : Schema) : Decidable s.NamesApart :=
  inferInstanceAs (Decidable (∀ c ∈ s.combinators, s.hasType c.name = false))

/-- A reference leads to an object: to the one that it reads without a tag, or to any constructor of
its type, or to any combinator with a tag. -/
inductive Leads (s : Schema) : Reference → Located → Prop
  | headerless {typeName : String} {bare : Bool} {c : Combinator}
      (h : s.headerless? typeName bare = .ok (some c)) : Leads s (.typed typeName bare) ⟨c, 0⟩
  | member {typeName : String} {bare : Bool} {tag : UInt32} {c : Combinator}
      (hheader : s.headerless? typeName bare = .ok none)
      (h : s.constructorByTag? typeName tag = some c) :
      Leads s (.typed typeName bare) ⟨c, tagLength⟩
  | any {tag : UInt32} {c : Combinator} (h : s.byTag? tag = some c) : Leads s .any ⟨c, tagLength⟩

variable {s : Schema} {c : Combinator} {object other : Located} {r : Reference}

/-! ### Types and their constructors -/

theorem mem_constructors_iff {typeName : String} :
    c ∈ s.constructors typeName ↔ c ∈ s.combinators ∧ c.constructs typeName = true := by
  unfold constructors
  rw [List.mem_filter]

theorem hasType_of_constructs {typeName : String} (hc : c ∈ s.combinators)
    (h : c.constructs typeName = true) : s.hasType typeName = true :=
  List.any_eq_true.mpr ⟨c, hc, h⟩

theorem constructorByTag?_eq_some_iff {typeName : String} {tag : UInt32} :
    s.constructorByTag? typeName tag = some c ↔
      s.byTag? tag = some c ∧ c.constructs typeName = true := by
  unfold constructorByTag?
  rw [Option.filter_eq_some_iff]

theorem tagless?_eq_some {typeName : String} (h : s.tagless? typeName = some c) :
    s.constructors typeName = [c] := by
  unfold tagless? at h
  split at h
  · rename_i only hconstructors
    split at h
    · cases h
      exact hconstructors
    · cases h
  · cases h

theorem header_of_tagless? {typeName : String} (h : s.tagless? typeName = some c) :
    c.header = 0 := by
  unfold tagless? at h
  split at h
  · split at h
    · rename_i hnone
      cases h
      unfold Combinator.header
      rw [Option.isNone_iff_eq_none.mp hnone]
      rfl
    · cases h
  · cases h

theorem mem_of_bareTarget? {name : String} (h : s.bareTarget? name = some c) :
    c ∈ s.combinators := by
  unfold bareTarget? at h
  split at h
  · rename_i found hfind
    cases h
    exact (mem_of_combinator? hfind).1
  · split at h
    · rename_i only hconstructors
      cases h
      have hmem : c ∈ s.constructors name := by rw [hconstructors]; exact List.mem_singleton.mpr rfl
      exact (mem_constructors_iff.mp hmem).1
    · cases h

/-- A type with a single constructor that has no tag is that constructor, written bare or not. -/
theorem NamesApart.bareTarget?_eq (hnames : s.NamesApart) {typeName : String}
    (h : s.tagless? typeName = some c) : s.bareTarget? typeName = some c := by
  have hconstructors := tagless?_eq_some h
  have hmem : c ∈ s.constructors typeName := by
    rw [hconstructors]
    exact List.mem_singleton.mpr rfl
  obtain ⟨hc, hconstructs⟩ := mem_constructors_iff.mp hmem
  have htype := hasType_of_constructs hc hconstructs
  unfold bareTarget?
  cases hfind : s.combinator? typeName with
  | none => rw [hconstructors]
  | some d =>
    obtain ⟨hd, hname⟩ := mem_of_combinator? hfind
    have hnone := hnames d hd
    rw [hname, htype] at hnone
    cases hnone

theorem headerless?_eq_some {typeName : String} {bare : Bool}
    (h : s.headerless? typeName bare = .ok (some c)) :
    bare = true ∧ s.bareTarget? typeName = some c ∨
      bare = false ∧ s.tagless? typeName = some c := by
  unfold headerless? at h
  cases bare with
  | true =>
    rw [if_pos rfl] at h
    cases hfind : s.bareTarget? typeName with
    | none => rw [hfind] at h; cases h
    | some d => rw [hfind] at h; cases h; exact .inl ⟨rfl, rfl⟩
  | false =>
    rw [if_neg Bool.false_ne_true] at h
    exact .inr ⟨rfl, Except.ok.inj h⟩

theorem headerless?_eq_none {typeName : String} {bare : Bool}
    (h : s.headerless? typeName bare = .ok none) :
    bare = false ∧ s.tagless? typeName = none := by
  unfold headerless? at h
  cases bare with
  | true =>
    rw [if_pos rfl] at h
    cases hfind : s.bareTarget? typeName with
    | none => rw [hfind] at h; cases h
    | some d => rw [hfind] at h; cases h
  | false =>
    rw [if_neg Bool.false_ne_true] at h
    exact ⟨rfl, Except.ok.inj h⟩

/-! ### Objects that are read -/

namespace Leads

theorem mem (h : s.Leads r object) : object.combinator ∈ s.combinators := by
  cases h with
  | headerless h =>
    rcases headerless?_eq_some h with ⟨-, htarget⟩ | ⟨-, htagless⟩
    · exact mem_of_bareTarget? htarget
    · have hmem := tagless?_eq_some htagless
      exact (mem_constructors_iff.mp (by rw [hmem]; exact List.mem_singleton.mpr rfl)).1
  | member _ h => exact (mem_of_byTag? (constructorByTag?_eq_some_iff.mp h).1).1
  | any h => exact (mem_of_byTag? h).1

/-- An object has no tag on the wire, or the one its combinator is declared with. -/
theorem tag_of_header (h : s.Leads r object) :
    object.header = 0 ∨
      object.header = tagLength ∧ ∃ tag, object.combinator.tag = some tag := by
  cases h with
  | headerless _ => exact .inl rfl
  | member _ h => exact .inr ⟨rfl, _, (mem_of_byTag? (constructorByTag?_eq_some_iff.mp h).1).2⟩
  | any h => exact .inr ⟨rfl, _, (mem_of_byTag? h).2⟩

/-- What a reference reads without a tag is the only object it leads to. -/
theorem eq_of_header_eq_zero (h : s.Leads r object) (hheader : object.header = 0)
    (hother : s.Leads r other) : other = object := by
  cases h with
  | headerless h =>
    cases hother with
    | headerless hother => rw [h] at hother; cases hother; rfl
    | member hother _ => rw [h] at hother; cases hother
  | member _ _ => cases hheader
  | any _ => cases hheader

end Leads

theorem locateTyped_eq_ok_iff {typeName : String} {bare : Bool} {buffer : ByteArray} {pos : Nat}
    (hpos : pos ≤ buffer.size) :
    s.locateTyped typeName bare buffer pos = .ok object ↔
      s.Leads (.typed typeName bare) object ∧ Stands object.tagBytes buffer pos := by
  unfold locateTyped
  constructor
  · intro h
    cases hheader : s.headerless? typeName bare with
    | error e => rw [hheader] at h; cases h
    | ok found =>
      rw [hheader] at h
      cases found with
      | some c =>
        cases h
        refine ⟨.headerless hheader, ?_⟩
        rw [Located.tagBytes_of_header_eq_zero rfl]
        exact Stands.empty_iff.mpr hpos
      | none =>
        have h : s.locateMember typeName buffer pos = .ok object := h
        unfold locateMember at h
        split at h
        · cases hword : readUInt32 buffer pos with
          | error e => rw [hword] at h; cases h
          | ok tag =>
            rw [hword] at h
            dsimp only at h
            cases hmember : s.constructorByTag? typeName tag with
            | none => rw [hmember] at h; cases h
            | some c =>
              rw [hmember] at h
              cases h
              have htag := (mem_of_byTag? (constructorByTag?_eq_some_iff.mp hmember).1).2
              refine ⟨.member hheader hmember, ?_⟩
              rw [Located.tagBytes_of_tag rfl htag]
              exact readUInt32_eq_ok_iff.mp hword
        · cases h
  · rintro ⟨hleads, hstands⟩
    cases hleads with
    | headerless h => rw [h]
    | member hheader h =>
      rw [hheader]
      obtain ⟨htag, hconstructs⟩ := constructorByTag?_eq_some_iff.mp h
      obtain ⟨hc, hctag⟩ := mem_of_byTag? htag
      rw [Located.tagBytes_of_tag rfl hctag] at hstands
      show s.locateMember typeName buffer pos = _
      unfold locateMember
      rw [if_pos (hasType_of_constructs hc hconstructs), readUInt32_eq_ok_iff.mpr hstands]
      dsimp only
      rw [h]

theorem locateAny_eq_ok_iff {buffer : ByteArray} {pos : Nat} :
    s.locateAny buffer pos = .ok object ↔
      s.Leads .any object ∧ Stands object.tagBytes buffer pos := by
  unfold locateAny
  constructor
  · intro h
    cases hword : readUInt32 buffer pos with
    | error e => rw [hword] at h; cases h
    | ok tag =>
      rw [hword] at h
      dsimp only at h
      cases hfind : s.byTag? tag with
      | none => rw [hfind] at h; cases h
      | some c =>
        rw [hfind] at h
        cases h
        refine ⟨.any hfind, ?_⟩
        rw [Located.tagBytes_of_tag rfl (mem_of_byTag? hfind).2]
        exact readUInt32_eq_ok_iff.mp hword
  · rintro ⟨hleads, hstands⟩
    cases hleads with
    | any h =>
      rw [Located.tagBytes_of_tag rfl (mem_of_byTag? h).2] at hstands
      rw [readUInt32_eq_ok_iff.mpr hstands]
      dsimp only
      rw [h]

/-- A reader finds an object that a reference leads to where its tag stands. -/
theorem locate_eq_ok_iff {kind : Kind} (hkind : kind.reference? = some r) {buffer : ByteArray}
    {pos : Nat} (hpos : pos ≤ buffer.size) :
    s.locate buffer pos r = .ok object ↔
      s.Leads r object ∧ Stands object.tagBytes buffer pos := by
  cases r with
  | named name => cases kind <;> cases hkind
  | typed typeName bare => exact locateTyped_eq_ok_iff hpos
  | any => exact locateAny_eq_ok_iff

/-! ### Objects that are written -/

/-- Whether an object is written without a tag where a reference stands. -/
def omitsTag (s : Schema) : Reference → Bool
  | .typed typeName bare => s.writesBare typeName bare
  | .named _ | .any => false

/-- The object of a name that is written where a reference stands. -/
def locateObject (s : Schema) (name : String) : Reference → Except Error Located
  | .typed typeName bare => locateMemberWritten s typeName name (s.writesBare typeName bare)
  | .named _ | .any => s.locateWritten name false

theorem locateNamed_eq_ok_iff {name : String} :
    s.locateNamed name = .ok object ↔ ∃ c, s.combinator? name = some c ∧ c.located = object := by
  unfold locateNamed
  cases s.combinator? name <;> simp

/-- An object that is read by its name, or by that of its type, has its own tag if it has one. -/
theorem header_of_locate_named {name : String} {buffer : ByteArray} {pos : Nat}
    (hpos : pos ≤ buffer.size) (h : s.locate buffer pos (.named name) = .ok object) :
    object.combinator ∈ s.combinators ∧ object.header = object.combinator.header := by
  unfold locate at h
  dsimp only at h
  split at h
  · obtain ⟨hleads, -⟩ := (locateTyped_eq_ok_iff hpos).mp h
    refine ⟨hleads.mem, ?_⟩
    cases hleads with
    | headerless hheader =>
      rcases headerless?_eq_some hheader with ⟨hbare, -⟩ | ⟨-, htagless⟩
      · cases hbare
      · exact (header_of_tagless? htagless).symm
    | member _ hmember =>
      have htag := (mem_of_byTag? (constructorByTag?_eq_some_iff.mp hmember).1).2
      unfold Combinator.header
      rw [htag]
      rfl
  · obtain ⟨c, hc, rfl⟩ := locateNamed_eq_ok_iff.mp h
    exact ⟨(mem_of_combinator? hc).1, rfl⟩

theorem locateWritten_eq_ok_iff {name : String} {bare : Bool} :
    s.locateWritten name bare = .ok object ↔
      ∃ c, s.combinator? name = some c ∧
        (bare = true ∧ object = ⟨c, 0⟩ ∨ bare = false ∧ c.header ≠ 0 ∧ object = c.located) := by
  unfold locateWritten locateNamed
  cases s.combinator? name with
  | none => simp
  | some c =>
    cases bare with
    | true => simp [Combinator.located, eq_comm]
    | false =>
      have hlocated : c.located.header = c.header := rfl
      by_cases hheader : c.header = 0
      · simp [hlocated, hheader]
      · simp only [hlocated, hheader, if_neg, Bool.false_eq_true, not_false_eq_true,
          Option.some.injEq, exists_eq_left', false_and, ne_eq, true_and, false_or,
          Except.ok.injEq]
        exact eq_comm

theorem locateWritten_of_locateObject {name : String}
    (h : s.locateObject name r = .ok object) :
    s.locateWritten name (s.omitsTag r) = .ok object := by
  cases r with
  | named _ => exact h
  | any => exact h
  | typed typeName bare =>
    have h : locateMemberWritten s typeName name (s.writesBare typeName bare) = .ok object := h
    unfold locateMemberWritten at h
    show s.locateWritten name (s.writesBare typeName bare) = .ok object
    cases hwritten : s.locateWritten name (s.writesBare typeName bare) with
    | error e => rw [hwritten] at h; cases h
    | ok found =>
      rw [hwritten] at h
      dsimp only at h
      split at h <;> split at h <;> cases h <;> rfl

theorem size_tagBytes_of_locateObject {name : String}
    (h : s.locateObject name r = .ok object) : object.tagBytes.size = object.header := by
  obtain ⟨c, -, hbare⟩ := locateWritten_eq_ok_iff.mp (locateWritten_of_locateObject h)
  apply Located.size_tagBytes
  rcases hbare with ⟨-, rfl⟩ | ⟨-, hheader, rfl⟩
  · exact .inl rfl
  · exact .inr (Combinator.tag_of_header hheader)

theorem Sound.of_locateObject {name : String} (hs : s.Sound)
    (h : s.locateObject name r = .ok object) : object.combinator.Sound := by
  obtain ⟨c, hc, hbare⟩ := locateWritten_eq_ok_iff.mp (locateWritten_of_locateObject h)
  have hcsound := hs.combinator_sound c (mem_of_combinator? hc).1
  rcases hbare with ⟨-, rfl⟩ | ⟨-, -, rfl⟩ <;> exact hcsound

/-- The name of an object that a reference leads to is accepted where the reference stands. -/
theorem Leads.locateObject_eq (hs : s.Sound) (hnames : s.NamesApart) (h : s.Leads r object) :
    s.locateObject object.combinator.name r = .ok object := by
  have hfind := hs.combinator?_eq h.mem
  cases h with
  | any h =>
    have htag := (mem_of_byTag? h).2
    refine locateWritten_eq_ok_iff.mpr ⟨_, hfind, .inr ⟨rfl, ?_, ?_⟩⟩ <;>
      simp [Combinator.header, Combinator.located, htag, tagLength]
  | @headerless typeName bare c h =>
    have hbare : s.writesBare typeName bare = true ∧ s.bareTarget? typeName = some c := by
      unfold writesBare
      rcases headerless?_eq_some h with ⟨rfl, htarget⟩ | ⟨rfl, htagless⟩
      · exact ⟨rfl, htarget⟩
      · exact ⟨by rw [htagless]; rfl, hnames.bareTarget?_eq htagless⟩
    have hwritten : s.locateWritten c.name true = .ok ⟨c, 0⟩ :=
      locateWritten_eq_ok_iff.mpr ⟨c, hfind, .inl ⟨rfl, rfl⟩⟩
    show locateMemberWritten s typeName c.name (s.writesBare typeName bare) = _
    unfold locateMemberWritten
    rw [hbare.1, hwritten]
    simp [hbare.2]
  | @member typeName bare tag c hheader h =>
    obtain ⟨hfound, hconstructs⟩ := constructorByTag?_eq_some_iff.mp h
    obtain ⟨-, htag⟩ := mem_of_byTag? hfound
    obtain ⟨rfl, htagless⟩ := headerless?_eq_none hheader
    have hbare : s.writesBare typeName false = false := by
      unfold writesBare
      rw [htagless]
      rfl
    have hwritten : s.locateWritten c.name false = .ok ⟨c, tagLength⟩ := by
      refine locateWritten_eq_ok_iff.mpr ⟨c, hfind, .inr ⟨rfl, ?_, ?_⟩⟩ <;>
        simp [Combinator.header, Combinator.located, htag, tagLength]
    show locateMemberWritten s typeName c.name (s.writesBare typeName false) = _
    unfold locateMemberWritten
    rw [hbare, hwritten]
    simp [hconstructs]

/-- A reference leads to what is written where it stands. -/
theorem leads_of_locateObject (hs : s.Sound) (hnames : s.NamesApart) {kind : Kind}
    (hkind : kind.reference? = some r) {name : String}
    (h : s.locateObject name r = .ok object) :
    s.Leads r object ∧ object.combinator.name = name := by
  obtain ⟨c, hfind, hbare⟩ := locateWritten_eq_ok_iff.mp (locateWritten_of_locateObject h)
  obtain ⟨hc, hname⟩ := mem_of_combinator? hfind
  cases r with
  | named _ => cases kind <;> cases hkind
  | any =>
    rcases hbare with ⟨hfalse, -⟩ | ⟨-, hheader, rfl⟩
    · cases hfalse
    · obtain ⟨hheader, tag, htag⟩ := Combinator.tag_of_header hheader
      refine ⟨?_, hname⟩
      unfold Combinator.located
      rw [hheader]
      exact .any (hs.byTag?_eq hc htag)
  | typed typeName bare =>
    have hwritten := locateWritten_of_locateObject h
    have h : locateMemberWritten s typeName name (s.writesBare typeName bare) = .ok object := h
    have hwritten : s.locateWritten name (s.writesBare typeName bare) = .ok object := hwritten
    unfold locateMemberWritten at h
    rw [hwritten] at h
    rcases hbare with ⟨hbare, rfl⟩ | ⟨hbare, hheader, rfl⟩
    · have hbare : s.writesBare typeName bare = true := hbare
      refine ⟨.headerless ?_, hname⟩
      have htarget : s.bareTarget? typeName = some c := by
        rw [hbare] at h
        cases htarget : s.bareTarget? typeName with
        | none => simp [htarget] at h
        | some d =>
          by_cases hsame : d.name = c.name
          · rw [hs.name_injective d (mem_of_bareTarget? htarget) c hc hsame]
          · simp [htarget, hsame] at h
      unfold headerless?
      unfold writesBare at hbare
      cases bare with
      | true =>
        rw [if_pos rfl, htarget]
      | false =>
        rw [if_neg Bool.false_ne_true]
        cases htagless : s.tagless? typeName with
        | none => rw [htagless] at hbare; cases hbare
        | some d =>
          rw [hnames.bareTarget?_eq htagless] at htarget
          rw [htarget]
    · have hbare : s.writesBare typeName bare = false := hbare
      obtain ⟨hheader, tag, htag⟩ := Combinator.tag_of_header hheader
      have hconstructs : c.constructs typeName = true := by
        by_cases hfits : c.constructs typeName = true
        · exact hfits
        · simp [hbare, Combinator.located, hfits] at h
      obtain ⟨rfl, htagless⟩ := Bool.or_eq_false_iff.mp hbare
      refine ⟨?_, hname⟩
      unfold Combinator.located
      rw [hheader]
      refine .member ?_
        (constructorByTag?_eq_some_iff.mpr ⟨hs.byTag?_eq hc htag, hconstructs⟩)
      unfold headerless?
      rw [if_neg Bool.false_ne_true,
        Option.isNone_iff_eq_none.mp (Option.isSome_eq_false_iff.mp htagless)]

end Schema

end TypeLang
