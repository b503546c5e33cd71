import TypeLang.Proofs.Message.Counting
import TypeLang.Proofs.Schema.Extension

/-!
Messages of a schema that is added to. An outcome of the schema before is kept if, being a success,
it is what the schema after comes to: `Keeps` says so of readings and `KeepsMetered` of measurings,
with the walks they take. Both pass from the objects inside a value to the value and from values to
objects, since the objects that fields refer to are found in the schema after as they were before
(`Schema.ExtendedBy.read_keeps`). So declarations that leave earlier ones as they are change no
message that could be read (`Schema.read_of_undisturbed`).
-/

set_option autoImplicit false
set_option relaxedAutoImplicit false

namespace TypeLang

open Wire Message Declaration

/-- What was a success is the same success. -/
def Keeps {α : Type} (before after : Except Error α) : Prop :=
  ∀ a, before = .ok a → after = .ok a

/-- What was measured is measured by the same walks. -/
def KeepsMetered {α : Type} (before after : Metered α) : Prop :=
  ∀ a, before.outcome = .ok a → after = before

namespace Keeps

variable {α β : Type} {before after : Except Error α}

theorem refl (outcome : Except Error α) : Keeps outcome outcome := fun _ h ↦ h

theorem andThen (h : Keeps before after) {next nextAfter : α → Except Error β}
    (hnext : ∀ a, before = .ok a → Keeps (next a) (nextAfter a)) :
    Keeps (before.bind next) (after.bind nextAfter) := by
  intro b hb
  cases hbefore : before with
  | error e => rw [hbefore] at hb; cases hb
  | ok a =>
    rw [hbefore] at hb
    rw [h a hbefore]
    exact hnext a hbefore b hb

theorem map (h : Keeps before after) (f : α → β) : Keeps (before.map f) (after.map f) := by
  intro b hb
  obtain ⟨a, ha, rfl⟩ := map_ok_iff.mp hb
  rw [h a ha]
  rfl

end Keeps

namespace KeepsMetered

variable {α β : Type} {before after : Metered α}

theorem refl (m : Metered α) : KeepsMetered m m := fun _ _ ↦ rfl

theorem bind (h : KeepsMetered before after) {next nextAfter : α → Metered β}
    (hnext : ∀ a, before.outcome = .ok a → KeepsMetered (next a) (nextAfter a)) :
    KeepsMetered (before >>= next) (after >>= nextAfter) := by
  intro b hb
  rw [Metered.outcome_bind] at hb
  cases hbefore : before.outcome with
  | error e => rw [hbefore] at hb; cases hb
  | ok a =>
    rw [hbefore] at hb
    rw [h a hbefore]
    show Metered.bind before nextAfter = Metered.bind before next
    unfold Metered.bind
    rw [hbefore]
    dsimp only
    rw [hnext a hbefore b hb]

end KeepsMetered

/-! ### Vectors -/

namespace Wire.Vectors

theorem readItems_keeps {α : Type} {read readAfter : Nat → Except Error (α × Nat)}
    (h : ∀ pos, Keeps (read pos) (readAfter pos)) :
    ∀ (count : Nat) (done : Array α) (pos : Nat),
      Keeps (readItems read done count pos) (readItems readAfter done count pos) := by
  intro count
  induction count with
  | zero => exact fun done pos ↦ .refl _
  | succ count ih =>
    intro done pos
    rw [readItems_succ_bind, readItems_succ_bind]
    refine (h pos).andThen fun (item, size) _ ↦ ?_
    by_cases hsize : size = 0
    · simp only [if_pos hsize]
      exact .refl _
    · simp only [if_neg hsize]
      exact ih (done.push item) (pos + size)

theorem read_keeps {α : Type} {read readAfter : Nat → Except Error (α × Nat)}
    (h : ∀ pos, Keeps (read pos) (readAfter pos)) (buffer : ByteArray) (offset : Nat)
    (boxed : Bool) :
    Keeps (Vectors.read read buffer offset boxed) (Vectors.read readAfter buffer offset boxed) := by
  unfold Vectors.read
  cases readHeader buffer offset boxed with
  | error e => exact .refl _
  | ok found => exact (readItems_keeps h found.1 #[] (offset + found.2)).map _

variable {size sizeAfter : Nat → Metered Nat}

theorem walkItems_keeps (h : ∀ pos, KeepsMetered (size pos) (sizeAfter pos)) :
    ∀ (count : Nat) (log : WalkLog) (pos : Nat),
      KeepsMetered (walkItems size log count pos) (walkItems sizeAfter log count pos) := by
  intro count
  induction count with
  | zero => exact fun log pos ↦ .refl _
  | succ count ih =>
    intro log pos stop hstop
    rw [walkItems] at hstop ⊢
    rw [walkItems]
    cases hstep : (size pos).outcome with
    | error e => rw [hstep] at hstop; cases hstop
    | ok length =>
      rw [h pos length hstep]
      rw [hstep] at hstop ⊢
      cases length with
      | zero => rfl
      | succ length => exact ih _ _ stop hstop

theorem sizeOf_keeps (h : ∀ pos, KeepsMetered (size pos) (sizeAfter pos)) (buffer : ByteArray)
    (offset : Nat) (boxed : Bool) :
    KeepsMetered (Vectors.sizeOf size buffer offset boxed)
      (Vectors.sizeOf sizeAfter buffer offset boxed) := by
  unfold Vectors.sizeOf
  exact (KeepsMetered.refl _).bind fun found _ ↦
    (walkItems_keeps h found.1 .empty (offset + found.2)).bind fun stop _ ↦ .refl _

end Wire.Vectors

/-! ### Values and fields -/

section

variable {s : Schema} {buffer : ByteArray}

theorem Kind.decode_keeps {object objectAfter : Reference → Nat → Except Error (Object × Nat)}
    (h : ∀ r, r.MadeBy s → ∀ pos, Keeps (object r pos) (objectAfter r pos)) (kind : Kind)
    (hkind : ∀ t, kind.objectType? = some t → t ∈ s.objectTypes) (pos : Nat) :
    Keeps (kind.decode object buffer pos) (kind.decode objectAfter buffer pos) := by
  induction kind generalizing pos with
  | vector boxed element ih => exact (Vectors.read_keeps (ih hkind) buffer pos boxed).map _
  | object typeName bare => exact (h (.typed typeName bare) (hkind _ rfl) pos).map _
  | generic _ | anyObject => exact (h .any trivial pos).map _
  | _ => exact .refl _

theorem Kind.measure_keeps {object objectAfter : Reference → Nat → Metered Nat}
    (h : ∀ r, r.MadeBy s → ∀ pos, KeepsMetered (object r pos) (objectAfter r pos)) (kind : Kind)
    (hkind : ∀ t, kind.objectType? = some t → t ∈ s.objectTypes) (pos : Nat) :
    KeepsMetered (kind.measure object buffer pos) (kind.measure objectAfter buffer pos) := by
  induction kind generalizing pos with
  | vector boxed element ih => exact Vectors.sizeOf_keeps (ih hkind) buffer pos boxed
  | object typeName bare => exact h (.typed typeName bare) (hkind _ rfl) pos
  | generic _ | anyObject => exact h .any trivial pos
  | _ => exact .refl _

namespace Message

theorem decodeFields_keeps {decode decodeAfter : Kind → Nat → Except Error (Value × Nat)}
    {fields : List Field}
    (h : ∀ f ∈ fields, ∀ pos, Keeps (decode f.kind pos) (decodeAfter f.kind pos))
    (masks : Masks) (pos : Nat) :
    Keeps (decodeFields decode buffer fields masks pos)
      (decodeFields decodeAfter buffer fields masks pos) := by
  induction fields generalizing masks pos with
  | nil => exact .refl _
  | cons f rest ih =>
    obtain ⟨hhere, hrest⟩ := List.forall_mem_cons.mp h
    have hfield : Keeps (decodeField decode buffer f masks pos)
        (decodeField decodeAfter buffer f masks pos) := by
      cases hslot : f.slot with
      | some slot =>
        simp only [decodeField, hslot]
        exact .refl _
      | none =>
        rw [decodeField_bind_asks decode buffer hslot,
          decodeField_bind_asks decodeAfter buffer hslot]
        refine (Keeps.refl _).andThen fun present _ ↦ ?_
        split
        · exact .refl _
        · split
          · exact (hhere pos).map _
          · exact .refl _
    rw [decodeFields_cons_bind, decodeFields_cons_bind]
    exact hfield.andThen fun found _ ↦ (ih hrest _ _).map _

theorem walkFields_keeps {size sizeAfter : Kind → Nat → Metered Nat} {fields : List Field}
    (h : ∀ f ∈ fields, ∀ pos, KeepsMetered (size f.kind pos) (sizeAfter f.kind pos))
    (masks : Masks) (pos : Nat) :
    KeepsMetered (walkFields size buffer fields masks pos)
      (walkFields sizeAfter buffer fields masks pos) := by
  induction fields generalizing masks pos with
  | nil => exact .refl _
  | cons f rest ih =>
    obtain ⟨hhere, hrest⟩ := List.forall_mem_cons.mp h
    unfold walkFields
    split
    · exact (KeepsMetered.refl _).bind fun bits _ ↦ ih hrest _ _
    · refine (KeepsMetered.refl _).bind fun present _ ↦ ?_
      split
      · exact (hhere pos).bind fun length _ ↦ ih hrest _ _
      · exact ih hrest _ _

theorem walk_keeps {size sizeAfter : Kind → Nat → Metered Nat} {object : Located}
    (h : ∀ f ∈ object.combinator.fields, ∀ pos,
      KeepsMetered (size f.kind pos) (sizeAfter f.kind pos)) (offset count : Nat) :
    KeepsMetered (walk size buffer object offset count)
      (walk sizeAfter buffer object offset count) := by
  unfold walk
  refine (KeepsMetered.refl _).bind fun _ _ ↦ KeepsMetered.bind ?_ fun _ _ ↦ .refl _
  exact walkFields_keeps (fun f hf ↦ h f (List.mem_of_mem_take hf)) _ _

end Message

end

/-! ### Objects -/

namespace Schema

namespace ExtendedBy

variable {s t : Schema} (h : ExtendedBy s t) {buffer : ByteArray}
include h

theorem readWithin_keeps_of {free : Nat}
    (hobject : ∀ object : Located, object.combinator ∈ s.combinators → ∀ pos,
      Keeps (s.decodeAt buffer free object pos) (t.decodeAt buffer free object pos))
    (r : Reference) (hr : r.MadeBy s) (pos : Nat) :
    Keeps (s.readWithin free buffer r pos) (t.readWithin free buffer r pos) := by
  intro found hfound
  unfold readWithin at hfound ⊢
  cases hlocate : s.locate buffer pos r with
  | error e => rw [hlocate] at hfound; cases hfound
  | ok object =>
    rw [hlocate] at hfound
    rw [h.locate_eq hr hlocate]
    exact hobject object (mem_of_locate hlocate) pos found hfound

theorem measureWithin_keeps_of {free : Nat}
    (hobject : ∀ object : Located, object.combinator ∈ s.combinators → ∀ pos,
      KeepsMetered (s.measureAt buffer free object pos) (t.measureAt buffer free object pos))
    (r : Reference) (hr : r.MadeBy s) (pos : Nat) :
    KeepsMetered (s.measureWithin free buffer r pos) (t.measureWithin free buffer r pos) := by
  unfold measureWithin
  refine KeepsMetered.bind (fun object hlocate ↦ ?_) fun object hlocate ↦
    hobject object (mem_of_locate hlocate) pos
  have hlocate : s.locate buffer pos r = .ok object := hlocate
  rw [h.locate_eq hr hlocate, hlocate]

theorem decodeAt_keeps (free : Nat) (object : Located)
    (hobject : object.combinator ∈ s.combinators) (pos : Nat) :
    Keeps (s.decodeAt buffer free object pos) (t.decodeAt buffer free object pos) := by
  induction free generalizing object pos with
  | zero => exact .refl _
  | succ free ih =>
    have hkinds : ∀ f ∈ object.combinator.fields, ∀ pos,
        Keeps (f.kind.decode (s.readWithin free buffer) buffer pos)
          (f.kind.decode (t.readWithin free buffer) buffer pos) := fun f hf ↦
      Kind.decode_keeps (h.readWithin_keeps_of ih) f.kind fun _ ht ↦
        mem_objectTypes hobject hf ht
    rw [decodeAt_succ_bind, decodeAt_succ_bind]
    exact (Keeps.refl _).andThen fun _ _ ↦ (decodeFields_keeps hkinds _ _).map _

theorem measureAt_keeps (free : Nat) (object : Located)
    (hobject : object.combinator ∈ s.combinators) (pos : Nat) :
    KeepsMetered (s.measureAt buffer free object pos) (t.measureAt buffer free object pos) := by
  induction free generalizing object pos with
  | zero => exact .refl _
  | succ free ih =>
    have hkinds : ∀ f ∈ object.combinator.fields, ∀ pos,
        KeepsMetered (f.kind.measure (s.measureWithin free buffer) buffer pos)
          (f.kind.measure (t.measureWithin free buffer) buffer pos) := fun f hf ↦
      Kind.measure_keeps (h.measureWithin_keeps_of ih) f.kind fun _ ht ↦
        mem_objectTypes hobject hf ht
    rw [measureAt_succ, measureAt_succ]
    exact (walk_keeps hkinds _ _).bind fun _ _ ↦ .refl _

/-- What a reference leads to is read as it was, if it was. -/
theorem read_keeps {r : Reference} (hr : r.MadeBy s) (held : Nat) (offset : Nat) :
    Keeps (s.read held r buffer offset) (t.read held r buffer offset) :=
  h.readWithin_keeps_of (h.decodeAt_keeps _) r hr offset

theorem sizeOf_keeps {r : Reference} (hr : r.MadeBy s) (held : Nat) (offset : Nat) :
    KeepsMetered (s.sizeOf held r buffer offset) (t.sizeOf held r buffer offset) :=
  h.measureWithin_keeps_of (h.measureAt_keeps _) r hr offset

end ExtendedBy

/-- Declarations that leave earlier ones as they are change no message. What can be read or measured
by the name of a combinator or of a type, or by its tag alone, is read as the same object and
measured as the same length once they are added. -/
theorem read_of_undisturbed {ds es : List Declaration} {s t : Schema}
    (hs : ofDeclarations ds = .ok s) (ht : ofDeclarations (ds ++ es) = .ok t)
    (h : Undisturbed ds es) (held : Nat) (r : Reference)
    (hr : r = .any ∨ ∃ name, r = .named name) (buffer : ByteArray) (offset : Nat) :
    (∀ o n, s.read held r buffer offset = .ok (o, n) →
      t.read held r buffer offset = .ok (o, n)) ∧
    ∀ n, (s.sizeOf held r buffer offset).outcome = .ok n →
      t.sizeOf held r buffer offset = s.sizeOf held r buffer offset := by
  obtain ⟨-, rfl⟩ := ofDeclarations_eq_ok_iff.mp hs
  obtain ⟨-, rfl⟩ := ofDeclarations_eq_ok_iff.mp ht
  have hextended := extendedBy_of_undisturbed h
  have hmade : r.MadeBy ⟨ds.map .ofDeclaration⟩ := by
    rcases hr with rfl | ⟨name, rfl⟩
    · trivial
    · trivial
  exact ⟨fun o n hread ↦ hextended.read_keeps hmade held offset (o, n) hread,
    hextended.sizeOf_keeps hmade held offset⟩

/-- A tree is read as it was when trees may have a third constructor and functions take them. -/
theorem read_tree_of_undisturbed :
    ∃ ds es s t, Declaration.parse treeSource = .ok ds ∧
      Declaration.parse "fork#00000003 = Tree; ---functions--- prune#00000004 t:Tree = Tree;" =
        .ok es ∧
      ofDeclarations ds = .ok s ∧ ofDeclarations (ds ++ es) = .ok t ∧ Undisturbed ds es ∧
      ∃ o, s.read 0 (.named "Tree") treeBytes 0 = .ok (o, 20) ∧
        t.read 0 (.named "Tree") treeBytes 0 = .ok (o, 20) := by
  have hrun : ((Declaration.parse treeSource).toOption.bind fun ds =>
      (Declaration.parse
        "fork#00000003 = Tree; ---functions--- prune#00000004 t:Tree = Tree;").toOption.bind
        fun es => (ofDeclarations ds).toOption.bind fun s =>
          (ofDeclarations (ds ++ es)).toOption.bind fun _ =>
            (s.read 0 (.named "Tree") treeBytes 0).toOption.map fun found =>
              (decide (Undisturbed ds es), found.2)) = some (true, 20) := by
    decide +kernel
  obtain ⟨ds, hds, hrun⟩ := Option.bind_eq_some_iff.mp hrun
  obtain ⟨es, hes, hrun⟩ := Option.bind_eq_some_iff.mp hrun
  obtain ⟨s, hs, hrun⟩ := Option.bind_eq_some_iff.mp hrun
  obtain ⟨t, ht, hrun⟩ := Option.bind_eq_some_iff.mp hrun
  obtain ⟨⟨o, n⟩, hread, hpair⟩ := Option.map_eq_some_iff.mp hrun
  obtain ⟨hundisturbed, rfl⟩ := Prod.mk.inj hpair
  have hs := ok_of_toOption hs
  have ht := ok_of_toOption ht
  have hread := ok_of_toOption hread
  have hundisturbed := of_decide_eq_true hundisturbed
  exact ⟨ds, es, s, t, ok_of_toOption hds, ok_of_toOption hes, hs, ht, hundisturbed, o, hread,
    (read_of_undisturbed hs ht hundisturbed 0 (.named "Tree") (.inr ⟨_, rfl⟩) treeBytes 0).1 o 20
      hread⟩

end Schema

end TypeLang
