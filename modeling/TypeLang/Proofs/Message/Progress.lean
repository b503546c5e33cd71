import TypeLang.Message.Progress
import TypeLang.Proofs.Message.Masks

/-!
How far an object has been written. `Progress.accept_eq_ok_iff` says all that has to hold for a
value to be written now, and `Progress.Follows` keeps what is known behind some fields: those not
written may be left out, and the masks written are the ones to be written.
-/

set_option autoImplicit false
set_option relaxedAutoImplicit false

namespace TypeLang.Message.Progress

variable {p q : Progress} {c : Combinator} {f : Field} {v : Value} {index n : Nat}

/-- A value agrees with the bit of its field as far as the masks written say. -/
def Admits (p : Progress) (f : Field) (v : Value) : Prop :=
  ∀ g, f.gate = some g →
    if f.isPresence then ∀ b, v = .bool b → b = p.masks.isSet g else p.masks.isSet g = true

/-- Whether a field may be left out, as far as the masks written say. -/
def mayOmit (p : Progress) (f : Field) : Bool := f.isPresence || !p.masks.opens f

theorem checkBit_eq_ok_iff (htestable : f.Testable) :
    p.checkBit f v = .ok () ↔ p.Admits f v := by
  unfold checkBit Admits
  cases hg : f.gate with
  | none => simp
  | some g =>
    simp only [Option.some.injEq, forall_eq', Masks.test_eq (htestable g hg)]
    by_cases hpresence : f.isPresence = true
    · simp only [if_pos hpresence]
      split
      · rename_i b
        by_cases hsame : b = p.masks.isSet g
        · simp [hsame]
        · simp [hsame]
      · rename_i hother
        refine ⟨fun _ b hb ↦ absurd hb (hother b), fun _ ↦ rfl⟩
    · simp only [if_neg hpresence]
      by_cases hset : p.masks.isSet g = true
      · simp [hset]
      · simp [hset]

theorem required?_eq {fields : List Field} (h : ∀ f ∈ fields, f.Testable) :
    p.required? fields = .ok (fields.find? (!p.mayOmit ·)) := by
  induction fields with
  | nil => rfl
  | cons f rest ih =>
    obtain ⟨hhere, hrest⟩ := List.forall_mem_cons.mp h
    rw [required?, Masks.skips_eq _ hhere, List.find?_cons, ← mayOmit]
    cases p.mayOmit f with
    | true => exact ih hrest
    | false => rfl

theorem required?_eq_none_iff {fields : List Field} (h : ∀ f ∈ fields, f.Testable) :
    p.required? fields = .ok none ↔ ∀ f ∈ fields, p.mayOmit f = true := by
  rw [required?_eq h, Except.ok.injEq, List.find?_eq_none]
  simp

theorem gap?_eq_none_iff (h : ∀ f ∈ c.fields, f.Testable) :
    p.gap? c index = .ok none ↔
      ∀ f ∈ (c.fields.take index).drop p.next, p.mayOmit f = true :=
  required?_eq_none_iff fun f hf ↦ h f (List.mem_of_mem_take (List.mem_of_mem_drop hf))

theorem finish_eq_ok_iff (h : ∀ f ∈ c.fields, f.Testable) :
    p.finish c = .ok () ↔ ∀ f ∈ c.fields.drop p.next, p.mayOmit f = true := by
  have hgap : p.gap? c c.fields.length = .ok none ↔ _ := gap?_eq_none_iff h
  rw [List.take_length] at hgap
  rw [← hgap]
  unfold finish
  rcases p.gap? c c.fields.length with _ | _ | _ <;> simp

/-- What is accepted is a value for the field of its number, and the next one comes behind it. -/
theorem field_of_accept (h : p.accept c index v = .ok (f, q)) :
    c.fields[index]? = some f ∧ ∃ masks, q = ⟨index + 1, masks⟩ := by
  unfold accept at h
  cases hfield : c.fields[index]? with
  | none => rw [hfield] at h; cases h
  | some found =>
    rw [hfield] at h
    dsimp only at h
    split at h
    · cases h
    · split at h
      · cases h
      · cases h
      · split at h
        · cases h
        · obtain ⟨masks, -, hpair⟩ := Wire.map_ok_iff.mp h
          cases hpair
          exact ⟨rfl, masks, rfl⟩

/-- A value is accepted for a field that does not stand before one already written, if every field
skipped may be left out and the value agrees with its bit. -/
theorem accept_eq_ok_iff (htestable : ∀ f ∈ c.fields, f.Testable) :
    p.accept c index v = .ok (f, q) ↔
      c.fields[index]? = some f ∧ p.next ≤ index ∧
        (∀ e ∈ (c.fields.take index).drop p.next, p.mayOmit e = true) ∧ p.Admits f v ∧
        ∃ masks, p.masksBehind f v = .ok masks ∧ q = ⟨index + 1, masks⟩ := by
  rw [← gap?_eq_none_iff htestable]
  unfold accept
  cases hfield : c.fields[index]? with
  | none => simp
  | some found =>
    dsimp only
    by_cases hnext : index < p.next
    · rw [if_pos hnext]
      simp only [reduceCtorEq, false_iff, not_and]
      intro _ hle
      omega
    · rw [if_neg hnext]
      have hhere := htestable found (List.mem_of_getElem? hfield)
      rcases p.gap? c index with e | _ | earlier
      case error | ok.some => simp
      case ok.none =>
        cases hcheck : p.checkBit found v with
        | error fault =>
          simp only [reduceCtorEq, Option.some.injEq, false_iff]
          rintro ⟨rfl, -, -, hadmits, -⟩
          rw [(checkBit_eq_ok_iff hhere).mpr hadmits] at hcheck
          cases hcheck
        | ok u =>
          have hadmits := (checkBit_eq_ok_iff hhere).mp hcheck
          cases hbehind : p.masksBehind found v with
          | error fault =>
            simp only [Except.map, reduceCtorEq, Option.some.injEq, false_iff]
            rintro ⟨rfl, -, -, -, masks, hmasks, -⟩
            rw [hbehind] at hmasks
            cases hmasks
          | ok masks =>
            simp only [Except.map, Except.ok.injEq, Prod.mk.injEq, Option.some.injEq]
            constructor
            · rintro ⟨rfl, rfl⟩
              exact ⟨rfl, Nat.not_lt.mp hnext, trivial, hadmits, masks, hbehind, rfl⟩
            · rintro ⟨rfl, -, -, -, masks', hmasks', rfl⟩
              rw [hbehind] at hmasks'
              cases hmasks'
              exact ⟨rfl, rfl⟩

/-- Behind some fields, with `n` masks among them, those not written may be left out, and the masks
written are the given ones. -/
structure Follows (p : Progress) (masks : Masks) (before : List Field) (n : Nat) : Prop where
  next_le : p.next ≤ before.length
  omitted : ∀ f ∈ before.drop p.next, p.mayOmit f = true
  agree : Masks.AgreeBelow n p.masks masks

namespace Follows

variable {masks : Masks} {before : List Field}

theorem start (masks : Masks) : Follows .start masks [] 0 :=
  ⟨Nat.le_refl _, nofun, nofun⟩

theorem leaveOut (h : p.Follows masks before n) (hf : p.mayOmit f = true) :
    p.Follows masks (before ++ [f]) n := by
  refine ⟨Nat.le_trans h.next_le (by simp), ?_, h.agree⟩
  rw [List.drop_append_of_le_length h.next_le]
  intro e he
  rcases List.mem_append.mp he with he | he
  · exact h.omitted e he
  · rw [List.mem_singleton.mp he]
    exact hf

theorem written {behind : Masks} (h : Masks.AgreeBelow n behind masks) (before : List Field) :
    Follows ⟨before.length, behind⟩ masks before n := by
  refine ⟨Nat.le_refl _, ?_, h⟩
  rw [List.drop_length]
  exact nofun

/-- What may be left out is what the masks to be written say. -/
theorem mayOmit_eq (h : p.Follows masks before n) (hgate : ∀ g, f.gate = some g → g.slot < n) :
    p.mayOmit f = (f.isPresence || !masks.opens f) := by
  unfold mayOmit
  rw [h.agree.opens_eq hgate]

theorem accept_eq (h : p.Follows masks before n) {rest : List Field}
    (htestable : ∀ f ∈ c.fields, f.Testable) (hfields : c.fields = before ++ f :: rest)
    (hadmits : p.Admits f v) {behind : Masks} (hbehind : p.masksBehind f v = .ok behind) :
    p.accept c before.length v = .ok (f, ⟨before.length + 1, behind⟩) := by
  refine (accept_eq_ok_iff htestable).mpr ⟨?_, h.next_le, ?_, hadmits, behind, hbehind, rfl⟩
  · rw [hfields]
    simp
  · rw [hfields, List.take_left]
    exact h.omitted

/-- Any value is accepted for a field that is there and is no mask. -/
theorem accept_present (h : p.Follows masks before n) {rest : List Field}
    (htestable : ∀ f ∈ c.fields, f.Testable) (hfields : c.fields = before ++ f :: rest)
    (hslot : f.slot = none) (hgate : ∀ g, f.gate = some g → g.slot < n)
    (homit : (f.isPresence || !masks.opens f) = false) (v : Value) :
    p.accept c before.length v = .ok (f, ⟨before.length + 1, p.masks⟩) := by
  obtain ⟨hpresence, hopens⟩ := Bool.or_eq_false_iff.mp homit
  have hadmits : p.Admits f v := by
    intro g hg
    rw [if_neg (Bool.eq_false_iff.mp hpresence), Masks.isSet_eq_opens hg,
      h.agree.opens_eq hgate]
    simpa using hopens
  have hmasks : p.masksBehind f v = .ok p.masks := by
    unfold masksBehind
    rw [hslot]
  exact h.accept_eq htestable hfields hadmits hmasks

end Follows

end TypeLang.Message.Progress
