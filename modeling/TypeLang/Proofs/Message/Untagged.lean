import TypeLang.Proofs.Message.Writing
import TypeLang.Proofs.Schema.Resolution

/-!
Objects without a tag, as they are written and as they are read. Nothing in the bytes says which
combinator such an object belongs to, so a writer and a reader have to take the same one from the
reference. They do for bare references. A boxed reference to a type whose only constructor has no
tag is read as that constructor, but a writer looks the type up as a bare reference does: where a
combinator has the name of the type, the writer takes that one, and refuses the constructor that is
read. The two agree just where no other combinator has the name (`Schema.untaggedAgree_iff`).
-/

set_option autoImplicit false
set_option relaxedAutoImplicit false

namespace TypeLang

open Wire Message

namespace Schema

/-- A type has a constructor that is read without a tag, and another combinator has its name. -/
structure Shadows (s : Schema) (typeName : String) (c d : Combinator) : Prop where
  tagless : s.tagless? typeName = some c
  named : s.combinator? typeName = some d
  differ : d ≠ c

/-- Where a reference stands, objects without a tag are written as the combinator that is read, and
the combinator that is read is one that may be written. -/
structure UntaggedAgree (s : Schema) (typeName : String) (bare : Bool) : Prop where
  reads : ∀ (t : Target) (field : String) (offset : Nat) (o : Object) (bytes : ByteArray)
    (c : Combinator), t.schema = s → s.writesBare typeName bare = true →
    s.combinator? o.name = some c →
    (emitValue t field (.object typeName bare) offset (.object o)).Puts bytes →
    s.headerless? typeName bare = .ok (some c)
  fits : ∀ c, s.headerless? typeName bare = .ok (some c) →
    s.locateObject c.name (.typed typeName bare) = .ok ⟨c, 0⟩

variable {s : Schema} {typeName : String} {bare : Bool} {c d : Combinator}

/-! ### The combinator that a writer takes -/

/-- An object is written without a tag if it belongs to the combinator that a bare reference stands
for. -/
theorem Sound.locateMemberWritten_bare (hs : s.Sound) {name : String}
    (hc : s.combinator? name = some c) :
    locateMemberWritten s typeName name true =
      if s.bareTarget? typeName = some c then .ok ⟨c, 0⟩
      else .error (.invalidState (.notAConstructor name typeName)) := by
  have hwritten : s.locateWritten name true = .ok ⟨c, 0⟩ :=
    locateWritten_eq_ok_iff.mpr ⟨c, hc, .inl ⟨rfl, rfl⟩⟩
  unfold locateMemberWritten
  rw [hwritten]
  dsimp only
  rw [if_pos rfl]
  cases htarget : s.bareTarget? typeName with
  | none => rfl
  | some d =>
    have hsame : d.name = c.name ↔ d = c := by
      constructor
      · exact hs.name_injective d (mem_of_bareTarget? htarget) c (mem_of_combinator? hc).1
      · rintro rfl
        rfl
    simp only [Option.any_some, Option.some.injEq, beq_iff_eq, hsame]

theorem writesBare_of_headerless? (h : s.headerless? typeName bare = .ok (some c)) :
    s.writesBare typeName bare = true := by
  unfold writesBare
  rcases headerless?_eq_some h with ⟨rfl, -⟩ | ⟨rfl, htagless⟩
  · rfl
  · rw [htagless]
    rfl

/-- Without a combinator of its name, the type stands for its constructor. -/
theorem bareTarget?_of_tagless? (h : s.tagless? typeName = some c)
    (hnamed : ∀ d, s.combinator? typeName = some d → d = c) : s.bareTarget? typeName = some c := by
  have honly := onlyConstructor?_eq_some_iff.mpr (tagless?_eq_some h)
  rw [bareTarget?_eq, honly]
  cases hfind : s.combinator? typeName with
  | none => rfl
  | some d =>
    rw [hnamed d hfind]
    rfl

/-- The combinator that is read without a tag is the one that a bare reference stands for, unless
another one has the name of the type. -/
theorem headerless?_iff_bareTarget? (hclear : bare = true ∨ ∀ c d, ¬ s.Shadows typeName c d)
    (hbare : s.writesBare typeName bare = true) :
    s.headerless? typeName bare = .ok (some c) ↔ s.bareTarget? typeName = some c := by
  unfold headerless?
  cases bare with
  | true =>
    rw [if_pos rfl]
    cases s.bareTarget? typeName <;> simp
  | false =>
    obtain ⟨d, htagless⟩ := Option.isSome_iff_exists.mp hbare
    have hnamed : ∀ e, s.combinator? typeName = some e → e = d := by
      intro e he
      refine Decidable.byContradiction fun hdiffer ↦ ?_
      rcases hclear with hfalse | hnone
      · cases hfalse
      · exact hnone d e ⟨htagless, he, hdiffer⟩
    rw [if_neg Bool.false_ne_true, htagless, bareTarget?_of_tagless? htagless hnamed,
      Except.ok.injEq]

/-! ### Agreement -/

theorem Sound.untaggedAgree (hs : s.Sound)
    (hclear : bare = true ∨ ∀ c d, ¬ s.Shadows typeName c d) : s.UntaggedAgree typeName bare where
  reads t field offset o bytes c ht hbare hc hputs := by
    obtain ⟨name, tag, entries⟩ := o
    subst ht
    have hlocated : t.schema.locateObject name (.typed typeName bare) =
        locateMemberWritten t.schema typeName name true := by
      rw [← hbare]
      rfl
    rw [emitValue_reference rfl, hlocated, hs.locateMemberWritten_bare hc] at hputs
    refine (headerless?_iff_bareTarget? hclear hbare).mpr
      (Decidable.byContradiction fun hother ↦ ?_)
    rw [if_neg hother] at hputs
    exact Emission.not_fail_puts _ hputs
  fits c h := by
    have hbare := writesBare_of_headerless? h
    have hfind := hs.combinator?_eq (mem_of_headerless? h)
    show locateMemberWritten s typeName c.name (s.writesBare typeName bare) = _
    rw [hbare, hs.locateMemberWritten_bare hfind,
      if_pos ((headerless?_iff_bareTarget? hclear hbare).mp h)]

namespace Shadows

variable (h : s.Shadows typeName c d)
include h

theorem headerless?_eq : s.headerless? typeName false = .ok (some c) := by
  unfold headerless?
  rw [if_neg Bool.false_ne_true, h.tagless]

theorem bareTarget?_eq : s.bareTarget? typeName = some d := by
  rw [Schema.bareTarget?_eq, h.named]
  rfl

theorem locateObject_eq (hs : s.Sound) {e : Combinator} (he : e ∈ s.combinators) :
    s.locateObject e.name (.typed typeName false) =
      if d = e then .ok ⟨e, 0⟩ else .error (.invalidState (.notAConstructor e.name typeName)) := by
  show locateMemberWritten s typeName e.name (s.writesBare typeName false) = _
  rw [writesBare_of_headerless? h.headerless?_eq,
    hs.locateMemberWritten_bare (hs.combinator?_eq he), h.bareTarget?_eq]
  simp only [Option.some.injEq]

theorem not_untaggedAgree (hs : s.Sound) : ¬ s.UntaggedAgree typeName false := by
  intro hagree
  have hfits := hagree.fits c h.headerless?_eq
  rw [h.locateObject_eq hs (mem_of_headerless? h.headerless?_eq), if_neg h.differ] at hfits
  cases hfits

end Shadows

/-- Objects without a tag are written as they are read, where references are bare or no other
combinator has the name of the type. Where another one has it, the constructor that is read is
refused, and the other one is written in its place. -/
theorem untaggedAgree_iff {source : String} (hcompile : compile source = .ok s)
    (typeName : String) (bare : Bool) :
    (s.UntaggedAgree typeName bare ↔ bare = true ∨ ∀ c d, ¬ s.Shadows typeName c d) ∧
      ∀ c d, s.Shadows typeName c d → s.headerless? typeName false = .ok (some c) ∧
        ∀ (t : Target) (field : String) (offset : Nat) (tag : Option UInt32) (entries : Entries),
          t.schema = s →
          emitValue t field (.object typeName false) offset (.object ⟨c.name, tag, entries⟩) =
            .refuse (.notAConstructor c.name typeName) ∧
          emitValue t field (.object typeName false) offset (.object ⟨d.name, tag, entries⟩) =
            emitInstance t (.ok ⟨d, 0⟩) entries
              (fun f at_ => emitEntry t f.name f.kind at_ entries) offset := by
  have hs := sound_of_compile hcompile
  refine ⟨⟨fun hagree ↦ ?_, hs.untaggedAgree⟩, fun c d h ↦ ⟨h.headerless?_eq, ?_⟩⟩
  · cases bare with
    | true => exact .inl rfl
    | false => exact .inr fun c d h ↦ h.not_untaggedAgree hs hagree
  · rintro t field offset tag entries rfl
    have hc := mem_of_headerless? h.headerless?_eq
    have hd := (mem_of_combinator? h.named).1
    rw [emitValue_reference rfl, emitValue_reference rfl, h.locateObject_eq hs hc,
      h.locateObject_eq hs hd, if_neg h.differ, if_pos rfl]
    exact ⟨rfl, rfl⟩

/-- The source of a schema in which a combinator has the name of a type, and the constructor of the
type has another one. -/
def cellSource : String :=
  "Cell value:long = Entry; cell at:long = Cell; row first:Cell = Row;"

/-- A row, as bytes. -/
def rowBytes : ByteArray := ⟨#[7, 0, 0, 0, 0, 0, 0, 0]⟩

/-- What the look-ups of the schema of cells say about the two combinators. -/
theorem shadows_cell {s : Schema} (h : compile cellSource = .ok s) :
    s.combinator? "Entry" = none ∧ ∃ c d, s.Shadows "Cell" c d := by
  have hrun : (compile cellSource).toOption.map (fun s =>
      (s.combinator? "Entry", (s.tagless? "Cell").map Combinator.name,
        (s.combinator? "Cell").map Combinator.name)) =
      some (none, some "cell", some "Cell") := by
    decide +kernel
  rw [h] at hrun
  obtain ⟨hentry, hrun⟩ := Prod.mk.inj (Option.some.inj hrun)
  obtain ⟨htagless, hnamed⟩ := Prod.mk.inj hrun
  obtain ⟨c, htagless, hc⟩ := Option.map_eq_some_iff.mp htagless
  obtain ⟨d, hnamed, hd⟩ := Option.map_eq_some_iff.mp hnamed
  refine ⟨hentry, c, d, htagless, hnamed, ?_⟩
  rintro rfl
  exact absurd (hc.symm.trans hd) (by decide)

/-- References to entries and bare ones to cells agree, and boxed ones to cells do not. -/
theorem untaggedAgree_cells :
    ∃ s, compile cellSource = .ok s ∧ s.UntaggedAgree "Entry" false ∧
      s.UntaggedAgree "Cell" true ∧ ¬ s.UntaggedAgree "Cell" false := by
  have hrun : (compile cellSource).toOption.isSome = true := by decide +kernel
  obtain ⟨s, hs⟩ := Option.isSome_iff_exists.mp hrun
  have hcompile := ok_of_toOption hs
  obtain ⟨hentry, c, d, hcell⟩ := shadows_cell hcompile
  refine ⟨s, hcompile, ?_, ?_, fun hagree ↦ ?_⟩
  · refine (untaggedAgree_iff hcompile "Entry" false).1.mpr (.inr fun _ _ h ↦ ?_)
    cases hentry.symm.trans h.named
  · exact (untaggedAgree_iff hcompile "Cell" true).1.mpr (.inl rfl)
  · rcases (untaggedAgree_iff hcompile "Cell" false).1.mp hagree with hfalse | hclear
    · cases hfalse
    · exact hclear c d hcell

/-- A row is read with the constructor of cells and cannot be built again from what is read. Built
with the other combinator, it has the same bytes. -/
theorem not_untaggedAgree_cell :
    ∃ s, compile cellSource = .ok s ∧ ¬ s.UntaggedAgree "Cell" false ∧
      (∃ o, s.read 0 (.named "row") rowBytes 0 = .ok (o, 8) ∧
        ∀ bytes, (s.build 0 o.name o.fields).outcome ≠ .ok bytes) ∧
      (s.build 0 "row" [("first", .object ⟨"Cell", none, [("value", .long 7)]⟩)]).outcome =
        .ok rowBytes := by
  have hrun : (compile cellSource).toOption.map (fun s =>
      ((s.read 0 (.named "row") rowBytes 0).toOption.map fun found =>
          (found.2, (s.build 0 found.1.name found.1.fields).outcome.toOption),
        (s.build 0 "row"
          [("first", .object ⟨"Cell", none, [("value", .long 7)]⟩)]).outcome.toOption)) =
      some (some (8, none), some rowBytes) := by
    decide +kernel
  obtain ⟨s, hs, hrun⟩ := Option.map_eq_some_iff.mp hrun
  obtain ⟨hagain, hbuild⟩ := Prod.mk.inj hrun
  obtain ⟨⟨o, n⟩, hread, hagain⟩ := Option.map_eq_some_iff.mp hagain
  obtain ⟨rfl, hfails⟩ := Prod.mk.inj hagain
  have hcompile := ok_of_toOption hs
  obtain ⟨-, c, d, hcell⟩ := shadows_cell hcompile
  refine ⟨s, hcompile, hcell.not_untaggedAgree (sound_of_compile hcompile),
    ⟨o, ok_of_toOption hread, fun bytes h ↦ ?_⟩, ok_of_toOption hbuild⟩
  rw [h] at hfails
  cases hfails

end Schema

end TypeLang
