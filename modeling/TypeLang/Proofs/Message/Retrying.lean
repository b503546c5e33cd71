import TypeLang.Proofs.Message.Confinement
import TypeLang.Proofs.Message.FieldByField

/-!
Calls that fail. A writer that could not put down a value may know the bits of a mask that it has
not written, and bytes of the value may stand behind its position. Neither is looked at again: a
mask is written before any field that its bits decide about (`Progress.Alike.accept`), and a byte
behind the position is either written again or stays where nothing was written. So from then on the
writer answers every call as one does that never saw the failing call, and differs from it only in
bytes that neither of them has written since (`Writer.Alike.run`, `Writer.write_frame`).
-/

set_option autoImplicit false
set_option relaxedAutoImplicit false

namespace TypeLang

open Wire Message

/-! ### How far an object has been written -/

/-- Behind fields that are no masks the numbers go on as before them. -/
theorem Field.Numbered.behind {m : Nat} {before rest : List Field}
    (h : Field.Numbered m (before ++ rest)) (hslot : ∀ f ∈ before, f.slot = none) :
    Field.Numbered m rest := by
  induction before with
  | nil => exact h
  | cons f before ih =>
    obtain ⟨hnone, hothers⟩ := List.forall_mem_cons.mp hslot
    cases h with
    | mask _ _ => cases hnone
    | plain _ _ _ hrest => exact ih hrest hothers

/-- Masks that agree do so too when one of them is written. -/
theorem Masks.agreeBelow_set {masks other : Masks} {m slot : Nat} {bits : UInt32}
    (h : ∀ n, n < m → n ≠ slot → masks n = other n) :
    AgreeBelow m (masks.set slot bits) (other.set slot bits) := by
  intro n hn
  by_cases hsame : n = slot
  · rw [hsame, set_self, set_self]
  · rw [set_of_ne hsame, set_of_ne hsame]
    exact h n hn hsame

namespace Message.Progress

/-- The same fields are still to be written, and the masks are the same as far as the bits say
anything about a field before its mask is written. -/
structure Alike (c : Combinator) (p q : Progress) : Prop where
  next_eq : p.next = q.next
  agree : ∃ m, Field.Numbered m (c.fields.drop p.next) ∧ Masks.AgreeBelow m p.masks q.masks

variable {c : Combinator} {p q : Progress} {f : Field} {v : Value} {m index : Nat}
  {fields : List Field}

/-- The first field that may not be left out comes no later than the first mask, and up to there
bits decide that were written before. -/
theorem required?_congr (hn : Field.Numbered m fields)
    (h : Masks.AgreeBelow m p.masks q.masks) (k : Nat) :
    p.required? (fields.take k) = q.required? (fields.take k) := by
  induction hn generalizing k with
  | nil =>
    rw [List.take_nil]
    rfl
  | mask _ _ _ => cases k <;> rfl
  | @plain n f rest _ _ hgate _ ih =>
    cases k with
    | zero => rfl
    | succ k =>
      have hskips := Masks.skips_congr (h.opens_eq fun g hg ↦ (hgate g hg).1)
      rw [List.take_succ_cons, required?, required?, hskips, ih h k]

namespace Alike

theorem gap?_eq (h : Alike c p q) (index : Nat) : p.gap? c index = q.gap? c index := by
  obtain ⟨m, hn, hagree⟩ := h.agree
  unfold gap?
  rw [← h.next_eq, List.drop_take]
  exact required?_congr hn hagree (index - p.next)

theorem finish_eq (h : Alike c p q) : p.finish c = q.finish c := by
  unfold finish
  rw [h.gap?_eq]

/-- A field that may be written now has no mask before it that is still to be written. -/
theorem numbered (h : Alike c p q) (hfield : c.fields[index]? = some f) (hnext : p.next ≤ index)
    (hgap : p.gap? c index = .ok none) :
    ∃ m, Field.Numbered m (f :: c.fields.drop (index + 1)) ∧
      Masks.AgreeBelow m p.masks q.masks := by
  obtain ⟨m, hn, hagree⟩ := h.agree
  obtain ⟨hlt, hget⟩ := List.getElem?_eq_some_iff.mp hfield
  have hsplit := List.take_append_drop (index - p.next) (c.fields.drop p.next)
  rw [← List.drop_take, List.drop_drop, Nat.add_sub_cancel' hnext,
    List.drop_eq_getElem_cons hlt, hget] at hsplit
  have hmem : ∀ e ∈ (c.fields.take index).drop p.next, e ∈ c.fields.drop p.next := by
    intro e he
    rw [← hsplit]
    exact List.mem_append_left _ he
  have homitted := (required?_eq_none_iff fun e he ↦ hn.testable e (hmem e he)).mp hgap
  have hslot : ∀ e ∈ (c.fields.take index).drop p.next, e.slot = none :=
    fun e he ↦ hn.slot_eq_none (hmem e he) (homitted e he)
  rw [← hsplit] at hn
  exact ⟨m, hn.behind hslot, hagree⟩

theorem checkBit_eq (hgate : ∀ g, f.gate = some g → g.slot < m)
    (h : Masks.AgreeBelow m p.masks q.masks) (v : Value) : p.checkBit f v = q.checkBit f v := by
  unfold checkBit
  cases hg : f.gate with
  | none => rfl
  | some g =>
    have htest : p.masks.test g = q.masks.test g := by
      unfold Masks.test
      rw [h g.slot (hgate g hg)]
    dsimp only
    rw [htest]

/-- A value is refused alike, or it is taken and what may be written then is alike, whether or not
it can be put down. -/
theorem accept (h : Alike c p q) (index : Nat) (v : Value) :
    (∃ fault, p.accept c index v = .error fault ∧ q.accept c index v = .error fault) ∨
      ∃ f masks other, p.accept c index v = .ok (f, ⟨index + 1, masks⟩) ∧
        q.accept c index v = .ok (f, ⟨index + 1, other⟩) ∧
        Alike c ⟨index + 1, masks⟩ ⟨index + 1, other⟩ ∧
        Alike c ⟨p.next, masks⟩ ⟨q.next, other⟩ := by
  unfold Progress.accept
  rw [← h.gap?_eq, ← h.next_eq]
  cases hfield : c.fields[index]? with
  | none => exact .inl ⟨_, rfl, rfl⟩
  | some f =>
    dsimp only
    by_cases hpast : index < p.next
    · rw [if_pos hpast, if_pos hpast]
      exact .inl ⟨_, rfl, rfl⟩
    rw [if_neg hpast, if_neg hpast]
    rcases hgap : p.gap? c index with e | _ | earlier
    case error | ok.some => exact .inl ⟨_, rfl, rfl⟩
    case ok.none =>
      dsimp only
      obtain ⟨m, hn, hagree⟩ := h.numbered hfield (Nat.not_lt.mp hpast) hgap
      obtain ⟨before, hbefore, hsame⟩ := h.agree
      cases hn with
      | @mask _ name rest hlimit hrest =>
        have hchecked : ∀ r : Progress, r.checkBit ⟨name, .mask, none, some m⟩ v = .ok () :=
          fun _ ↦ rfl
        rw [hchecked, hchecked]
        unfold masksBehind
        cases v.toMask? with
        | none => exact .inl ⟨_, rfl, rfl⟩
        | some bits =>
          refine .inr ⟨_, _, _, rfl, rfl, ⟨rfl, m + 1, hrest, ?_⟩, ⟨rfl, before, hbefore, ?_⟩⟩
          · exact Masks.agreeBelow_set fun slot hlt hne ↦ hagree slot (by omega)
          · exact Masks.agreeBelow_set fun slot hlt _ ↦ hsame slot hlt
      | plain hslot hkind hgate hrest =>
        rw [checkBit_eq (fun g hg ↦ (hgate g hg).1) hagree v]
        cases q.checkBit f v with
        | error fault => exact .inl ⟨_, rfl, rfl⟩
        | ok u =>
          have hbehind : ∀ r : Progress, r.masksBehind f v = .ok r.masks :=
            fun r ↦ masksBehind_eq_ok_iff.mpr (.inl ⟨hslot, rfl⟩)
          rw [hbehind, hbehind]
          exact .inr ⟨f, p.masks, q.masks, rfl, rfl, ⟨rfl, m, hrest, hagree⟩,
            ⟨rfl, before, hbefore, hsame⟩⟩

/-- A mask that is known but not written says nothing about the fields before it. -/
theorem of_accept (hn : Field.Numbered 0 c.fields) (h : p.accept c index v = .ok (f, q)) :
    Alike c p ⟨p.next, q.masks⟩ := by
  obtain ⟨hfield, hnext, -, -, masks, hbehind, rfl⟩ := (accept_eq_ok_iff hn.testable).mp h
  rw [← List.take_append_drop p.next c.fields] at hn
  obtain ⟨m, -, hm, -, -⟩ := hn.split
  have hmem : f ∈ c.fields.drop p.next := by
    refine List.mem_of_getElem? (i := index - p.next) ?_
    rw [List.getElem?_drop, Nat.add_sub_cancel' hnext]
    exact hfield
  refine ⟨rfl, m, hm, fun slot hslot ↦ (masksBehind_of_ne hbehind fun hown ↦ ?_).symm⟩
  have hle := (hm.slot_bounds f hmem slot hown).1
  omega

theorem refl (hn : Field.Numbered 0 c.fields) (p : Progress) : Alike c p p := by
  rw [← List.take_append_drop p.next c.fields] at hn
  obtain ⟨m, -, hm, -, -⟩ := hn.split
  exact ⟨rfl, m, hm, fun _ _ ↦ rfl⟩

end Alike

end Message.Progress

/-! ### Calls on a writer -/

namespace Writer

/-- A call on a writer: the guards that are held, the number of a field, and a value for it. -/
structure Call where
  held : Nat
  index : Nat
  value : Value

/-- The reply to a call, and the writer that it leaves. -/
def answer (w : Writer) (s : Schema) (call : Call) : Metered Unit × Writer :=
  w.write s call.held call.index call.value

/-- The writer that some calls leave. -/
def after (w : Writer) (s : Schema) : List Call → Writer
  | [] => w
  | call :: rest => (w.answer s call).2.after s rest

/-- The replies to some calls, and where the next field would start behind each of them. -/
def replies (w : Writer) (s : Schema) : List Call → List (Metered Unit × Nat)
  | [] => []
  | call :: rest =>
    let done := w.answer s call
    (done.1, done.2.position) :: done.2.replies s rest

/-- What a call puts down. -/
def emission (w : Writer) (s : Schema) (call : Call) : Emission :=
  match w.progress.accept w.combinator call.index call.value with
  | .error e => .fail e
  | .ok (f, _) =>
    emitValue ⟨s, call.held, w.buffer.size⟩ f.name f.kind w.position call.value

/-- A byte of the buffer is one that a call puts down. -/
def Covers (w : Writer) (s : Schema) (call : Call) (i : Nat) : Prop :=
  w.position ≤ i ∧ i < w.position + (w.emission s call).bytes.size

/-- A byte of the buffer is one that some of the calls put down. -/
def Overwrites (w : Writer) (s : Schema) : List Call → Nat → Prop
  | [], _ => False
  | call :: rest, i => w.Covers s call i ∨ (w.answer s call).2.Overwrites s rest i

/-- The next field starts within the buffer. -/
def Fits (w : Writer) : Prop := w.position ≤ w.buffer.size

variable {w u : Writer} {s : Schema} {call : Call}

/-! ### What a call does -/

/-- How far an object has been written behind a call. If its value was taken but not put down, the
writer knows the bits of the value, and the field is still to be written. -/
def progressBehind (w : Writer) (s : Schema) (call : Call) : Progress :=
  match w.progress.accept w.combinator call.index call.value with
  | .error _ => w.progress
  | .ok (_, progress) =>
    if (w.emission s call).fault?.isSome then ⟨w.progress.next, progress.masks⟩ else progress

/-- A call replies with the outcome of what it puts down, and the position moves behind that unless
a fault was met. -/
theorem answer_eq (w : Writer) (s : Schema) (call : Call) :
    w.answer s call =
      (⟨(w.emission s call).outcome.map fun _ => (), (w.emission s call).log⟩,
        ⟨w.combinator, (w.emission s call).apply w.buffer w.position,
          w.position + (w.emission s call).outcome.toOption.getD 0, w.progressBehind s call⟩) := by
  unfold answer write progressBehind
  cases haccept : w.progress.accept w.combinator call.index call.value with
  | error fault =>
    have hemission : w.emission s call = .fail fault := by
      unfold emission
      rw [haccept]
    rw [hemission]
    rfl
  | ok accepted =>
    have hemission : w.emission s call = emitValue ⟨s, call.held, w.buffer.size⟩ accepted.1.name
        accepted.1.kind w.position call.value := by
      unfold emission
      rw [haccept]
    rw [hemission]
    dsimp only
    cases hfault : (emitValue ⟨s, call.held, w.buffer.size⟩ accepted.1.name accepted.1.kind
      w.position call.value).fault? <;> simp [Emission.outcome, hfault, Except.map, Except.toOption]

theorem Fits.within (h : w.Fits) (s : Schema) (call : Call) :
    (w.emission s call).Within w.buffer.size w.position := by
  unfold emission
  cases w.progress.accept w.combinator call.index call.value with
  | error fault => exact Emission.within_fail h fault
  | ok accepted => exact within_emitValue (t := ⟨s, call.held, w.buffer.size⟩) _ _ _ _ h

theorem size_answer (h : w.Fits) (s : Schema) (call : Call) :
    (w.answer s call).2.buffer.size = w.buffer.size := by
  rw [answer_eq]
  exact Emission.size_apply (h.within s call)

/-- A call moves the position at most behind what it puts down. -/
theorem position_answer_le (w : Writer) (s : Schema) (call : Call) :
    (w.answer s call).2.position ≤ w.position + (w.emission s call).bytes.size := by
  rw [answer_eq]
  dsimp only
  unfold Emission.outcome
  cases (w.emission s call).fault? <;> simp [Except.toOption]

theorem Fits.answer (h : w.Fits) (s : Schema) (call : Call) : (w.answer s call).2.Fits := by
  have hle := position_answer_le w s call
  have hwithin : w.position + (w.emission s call).bytes.size ≤ w.buffer.size := h.within s call
  show (w.answer s call).2.position ≤ (w.answer s call).2.buffer.size
  rw [size_answer h]
  omega

/-- A call changes no bytes but those that it puts down. -/
theorem getElem?_answer (h : w.Fits) (s : Schema) (call : Call) {i : Nat}
    (hi : ¬ w.Covers s call i) :
    (w.answer s call).2.buffer.data[i]? = w.buffer.data[i]? := by
  rw [answer_eq]
  exact (Emission.getElem?_apply (h.within s call) i).trans (if_neg hi)

theorem getElem?_answer_of_covers (h : w.Fits) (s : Schema) (call : Call) {i : Nat}
    (hi : w.Covers s call i) :
    (w.answer s call).2.buffer.data[i]? = (w.emission s call).bytes.data[i - w.position]? := by
  rw [answer_eq]
  exact (Emission.getElem?_apply (h.within s call) i).trans (if_pos hi)

/-! ### Writers that answer alike -/

/-- Writers that stand at the same place and will take the same values. Their buffers may differ in
stale bytes, which nothing has been written over and which stand behind the position. -/
structure Alike (w u : Writer) (stale : Nat → Prop) : Prop where
  combinator_eq : w.combinator = u.combinator
  progress : w.progress.Alike w.combinator u.progress
  position_eq : w.position = u.position
  size_eq : w.buffer.size = u.buffer.size
  fits : w.Fits
  behind : ∀ i, stale i → w.position ≤ i
  same : ∀ i, ¬ stale i → w.buffer.data[i]? = u.buffer.data[i]?

namespace Alike

variable {stale : Nat → Prop}

theorem emission_eq (h : w.Alike u stale) (s : Schema) (call : Call) :
    w.emission s call = u.emission s call := by
  unfold emission
  rcases h.progress.accept call.index call.value with
    ⟨fault, hw, hu⟩ | ⟨f, masks, other, hw, hu, -, -⟩
  · rw [hw, ← h.combinator_eq, hu]
  · rw [hw, ← h.combinator_eq, hu, h.position_eq, h.size_eq]

theorem progressBehind (h : w.Alike u stale) (s : Schema) (call : Call) :
    (w.progressBehind s call).Alike w.combinator (u.progressBehind s call) := by
  unfold Writer.progressBehind
  rw [← h.emission_eq, ← h.combinator_eq]
  rcases h.progress.accept call.index call.value with
    ⟨fault, hw, hu⟩ | ⟨f, masks, other, hw, hu, htaken, hknown⟩
  · rw [hw, hu]
    exact h.progress
  · rw [hw, hu]
    dsimp only
    split
    · exact hknown
    · exact htaken

theorem fits_right (h : w.Alike u stale) : u.Fits := by
  show u.position ≤ u.buffer.size
  rw [← h.position_eq, ← h.size_eq]
  exact h.fits

theorem covers_iff (h : w.Alike u stale) (s : Schema) (call : Call) {i : Nat} :
    w.Covers s call i ↔ u.Covers s call i := by
  unfold Covers
  rw [h.position_eq, h.emission_eq]

/-- Writers that are alike reply alike and stay so. What the call puts down is stale no more. -/
theorem answer (h : w.Alike u stale) (s : Schema) (call : Call) :
    (w.answer s call).1 = (u.answer s call).1 ∧
      (w.answer s call).2.Alike (u.answer s call).2
        fun i => stale i ∧ ¬ w.Covers s call i := by
  have hemission := h.emission_eq s call
  refine ⟨by rw [answer_eq, answer_eq, hemission], ?_, ?_, ?_, ?_, h.fits.answer s call, ?_, ?_⟩
  · rw [answer_eq, answer_eq]
    exact h.combinator_eq
  · rw [answer_eq, answer_eq]
    exact h.progressBehind s call
  · rw [answer_eq, answer_eq, hemission, h.position_eq]
  · rw [size_answer h.fits, size_answer h.fits_right]
    exact h.size_eq
  · rintro i ⟨hstale, huncovered⟩
    have hbehind := h.behind i hstale
    have hle := position_answer_le w s call
    unfold Covers at huncovered
    omega
  · intro i hi
    by_cases hcovered : w.Covers s call i
    · rw [getElem?_answer_of_covers h.fits s call hcovered,
        getElem?_answer_of_covers h.fits_right s call ((h.covers_iff s call).mp hcovered),
        hemission, h.position_eq]
    · have hfresh : ¬ stale i := fun hstale ↦ hi ⟨hstale, hcovered⟩
      rw [getElem?_answer h.fits s call hcovered,
        getElem?_answer h.fits_right s call fun hother ↦
          hcovered ((h.covers_iff s call).mpr hother)]
      exact h.same i hfresh

/-- Writers that are alike reply alike to any calls, and no byte is stale that one of the calls has
put down. -/
theorem run (h : w.Alike u stale) (s : Schema) (calls : List Call) :
    w.replies s calls = u.replies s calls ∧
      (w.after s calls).Alike (u.after s calls) fun i => stale i ∧ ¬ w.Overwrites s calls i := by
  induction calls generalizing w u stale with
  | nil =>
    refine ⟨rfl, ?_⟩
    simp only [after, Overwrites, not_false_eq_true, and_true]
    exact h
  | cons call rest ih =>
    obtain ⟨hreply, hnext⟩ := h.answer s call
    obtain ⟨hreplies, hafter⟩ := ih hnext
    constructor
    · simp only [replies, hreply, hnext.position_eq, hreplies]
    · simp only [after, Overwrites, not_or, ← and_assoc]
      exact hafter

theorem finish_eq (h : w.Alike u stale) : w.finish = u.finish := by
  unfold finish
  rw [h.progress.finish_eq, h.combinator_eq, h.position_eq]

end Alike

/-- A call that fails leaves a writer that is like the one it found, but for the bytes that it put
down. -/
theorem alike_of_fault (hn : Field.Numbered 0 w.combinator.fields) (h : w.Fits) {e : Error}
    (he : (w.answer s call).1.outcome = .error e) :
    w.Alike (w.answer s call).2 (w.Covers s call) := by
  have hfault : (w.emission s call).outcome = .error e := by
    rw [answer_eq] at he
    dsimp only at he
    cases hout : (w.emission s call).outcome with
    | ok n => rw [hout] at he; cases he
    | error fault =>
      rw [hout] at he
      cases he
      rfl
  have hposition : (w.answer s call).2.position = w.position := by
    rw [answer_eq, hfault]
    rfl
  have hprogress : w.progress.Alike w.combinator (w.progressBehind s call) := by
    unfold progressBehind
    cases haccept : w.progress.accept w.combinator call.index call.value with
    | error fault => exact .refl hn w.progress
    | ok accepted =>
      have hsome : (w.emission s call).fault?.isSome = true := by
        unfold Emission.outcome at hfault
        cases hnone : (w.emission s call).fault? with
        | none => rw [hnone] at hfault; cases hfault
        | some fault => rfl
      dsimp only
      rw [if_pos hsome]
      exact .of_accept hn haccept
  refine ⟨?_, ?_, hposition.symm, (size_answer h s call).symm, h, fun i hi ↦ hi.1,
    fun i hi ↦ (getElem?_answer h s call hi).symm⟩
  · rw [answer_eq]
  · rw [answer_eq]
    exact hprogress

/-- A call that succeeds moves the position behind what it puts down. -/
theorem position_of_success (he : (w.answer s call).1.outcome = .ok ()) :
    (w.answer s call).2.position = w.position + (w.emission s call).bytes.size := by
  rw [answer_eq] at he ⊢
  dsimp only at he ⊢
  unfold Emission.outcome at he ⊢
  cases hfault : (w.emission s call).fault? with
  | some fault => rw [hfault] at he; cases he
  | none => rfl

/-! ### Runs -/

theorem combinator_after (w : Writer) (s : Schema) (calls : List Call) :
    (w.after s calls).combinator = w.combinator := by
  induction calls generalizing w with
  | nil => rfl
  | cons call rest ih =>
    rw [after, ih, answer_eq]

theorem Fits.after (h : w.Fits) (s : Schema) (calls : List Call) : (w.after s calls).Fits := by
  induction calls generalizing w with
  | nil => exact h
  | cons call rest ih => exact ih (h.answer s call)

theorem fits_start {name : String} {buffer : ByteArray} (h : start s name buffer = .ok w) :
    w.Fits := by
  obtain ⟨c, -, htracks⟩ := tracks_start h 0
  have hle := htracks.stands.le_size
  show w.position ≤ w.buffer.size
  rw [htracks.position_eq]
  omega

/-- A call on a writer that has come about by any calls. If it succeeds, it changes no bytes but
those from the position to the new one. If it fails, the position and the bytes before it are as
they were, and whatever is called then, the replies, the positions and the end are those there
would be without the failed call. So are the bytes before the position, and those that are put down
behind it by later calls. -/
theorem write_frame {source name : String} {buffer : ByteArray} {first : Writer}
    (hcompile : Schema.compile source = .ok s) (hstart : start s name buffer = .ok first)
    (calls : List Call) (call : Call) :
    let w := first.after s calls
    let next := (w.answer s call).2
    ((w.answer s call).1.outcome = .ok () →
      w.position ≤ next.position ∧ next.buffer.size = w.buffer.size ∧
        ∀ i, i < w.position ∨ next.position ≤ i → next.buffer.data[i]? = w.buffer.data[i]?) ∧
    ∀ e, (w.answer s call).1.outcome = .error e →
      next.position = w.position ∧ next.buffer.size = w.buffer.size ∧
        (∀ i, i < w.position → next.buffer.data[i]? = w.buffer.data[i]?) ∧
        ∀ later,
          next.replies s later = w.replies s later ∧
          (next.after s later).position = (w.after s later).position ∧
          (next.after s later).finish = (w.after s later).finish ∧
          (next.after s later).buffer.size = (w.after s later).buffer.size ∧
          ∀ i, i < (w.after s later).position ∨ w.Overwrites s later i →
            (next.after s later).buffer.data[i]? = (w.after s later).buffer.data[i]? := by
  intro w next
  obtain ⟨c, hc, htracks⟩ := tracks_start hstart 0
  have hfits : w.Fits := (fits_start hstart).after s calls
  have hnumbered : Field.Numbered 0 w.combinator.fields := by
    rw [combinator_after, htracks.combinator_eq]
    exact ((Schema.sound_of_compile hcompile).combinator_sound c
      (Schema.mem_of_combinator? hc).1).numbered
  constructor
  · intro hsuccess
    have hposition : next.position = w.position + (w.emission s call).bytes.size :=
      position_of_success hsuccess
    refine ⟨Nat.le.intro hposition.symm, size_answer hfits s call, fun i hi ↦ ?_⟩
    refine getElem?_answer hfits s call fun hcovered ↦ ?_
    unfold Covers at hcovered
    omega
  · intro e he
    have halike := alike_of_fault hnumbered hfits he
    refine ⟨halike.position_eq.symm, halike.size_eq.symm, fun i hi ↦ ?_, fun later ↦ ?_⟩
    · exact (halike.same i fun hcovered ↦ Nat.not_lt.mpr hcovered.1 hi).symm
    · obtain ⟨hreplies, hafter⟩ := halike.run s later
      refine ⟨hreplies.symm, hafter.position_eq.symm, hafter.finish_eq.symm, hafter.size_eq.symm,
        fun i hi ↦ (hafter.same i ?_).symm⟩
      rintro ⟨hstale, huntouched⟩
      rcases hi with hbefore | hwritten
      · exact Nat.not_lt.mpr (hafter.behind i ⟨hstale, huntouched⟩) hbefore
      · exact huntouched hwritten

/-- Calls that write the mask and the label of a line. -/
def labelCalls : List Call := [⟨0, 0, .mask 3⟩, ⟨0, 1, .bytes ⟨#[97]⟩⟩]

/-- A call for the next line that puts down its tag and its mask, and then meets a fault. -/
def refusedCall : Call := ⟨0, 2, .object ⟨"line", none, [("points", .null)]⟩⟩

/-- Calls for the next line, as it should be, and for the points. -/
def remainingCalls : List Call := [⟨0, 2, .object ⟨"line", none, []⟩⟩, ⟨0, 3, .vector []⟩]

/-- A line is written on behind a call that failed halfway, and ends where it would have ended. -/
theorem write_frame_line :
    ∃ first e, start lineSchema "line" ⟨Array.replicate 40 255⟩ = .ok first ∧
      ∃ w, first.after lineSchema labelCalls = w ∧ ∃ next, w.answer lineSchema refusedCall = next ∧
        next.1.outcome = .error e ∧ next.2.position = w.position ∧
        next.2.replies lineSchema remainingCalls = w.replies lineSchema remainingCalls ∧
        (next.2.after lineSchema remainingCalls).finish = .ok 28 := by
  have hrun : ((start lineSchema "line" ⟨Array.replicate 40 255⟩).toOption.map fun first =>
      let w := first.after lineSchema labelCalls
      ((w.answer lineSchema refusedCall).1.outcome.toOption.isNone,
        (w.after lineSchema remainingCalls).finish.toOption)) = some (true, some 28) := by
    decide +kernel
  obtain ⟨first, hfirst, hafter⟩ := Option.map_eq_some_iff.mp hrun
  obtain ⟨hfailed, hfinish⟩ := Prod.mk.inj hafter
  have hstart := ok_of_toOption hfirst
  obtain ⟨-, hframe⟩ := write_frame compile_lineSource hstart labelCalls refusedCall
  cases hout : ((first.after lineSchema labelCalls).answer lineSchema refusedCall).1.outcome with
  | ok u => rw [hout] at hfailed; cases hfailed
  | error e =>
    obtain ⟨hposition, -, -, hlater⟩ := hframe e hout
    obtain ⟨hreplies, -, hend, -⟩ := hlater remainingCalls
    exact ⟨first, e, hstart, _, rfl, _, rfl, hout, hposition, hreplies,
      hend.trans (ok_of_toOption hfinish)⟩

end Writer

end TypeLang
