import TypeLang.Message.Writer
import TypeLang.Proofs.Message.Building
import TypeLang.Proofs.Message.Progress

/-!
Objects that are written field by field. `Schema.Filled` says what the fields up to some point are
written as and that nothing about them is open; one more value that a writer takes, or fields that
it skips, keep it. A writer whose calls may fail, and may leave bytes of a failed call behind,
tracks the fields it has written (`Writer.Tracks`), and if it can be finished the bytes in front of
the end are the ones built from the values that were taken (`Writer.build_eq_of_finish`).
-/

set_option autoImplicit false
set_option relaxedAutoImplicit false

namespace TypeLang

open Wire Message

/-! ### One field more -/

namespace Message.Progress

variable {p : Progress} {f : Field} {v : Value} {behind : Masks} {entries : Entries}
  {rest : List Field} {n : Nat} {s : Schema} {held : Nat} {bytes : ByteArray}

theorem masksBehind_eq_ok_iff :
    p.masksBehind f v = .ok behind ↔
      (f.slot = none ∧ behind = p.masks) ∨
        ∃ slot bits, f.slot = some slot ∧ v.toMask? = some bits ∧
          behind = p.masks.set slot bits := by
  unfold masksBehind
  cases f.slot with
  | none => simp [eq_comm]
  | some slot => cases v.toMask? <;> simp [eq_comm]

/-- The masks behind a field are those before it, its own one apart. -/
theorem masksBehind_of_ne (h : p.masksBehind f v = .ok behind) {slot : Nat}
    (hslot : f.slot ≠ some slot) : behind slot = p.masks slot := by
  rcases masksBehind_eq_ok_iff.mp h with ⟨-, rfl⟩ | ⟨own, bits, hown, -, rfl⟩
  · rfl
  · refine Masks.set_of_ne fun hsame ↦ hslot ?_
    rw [hown, hsame]

/-- Fields in front of a field see the same masks before it and behind it. -/
theorem seesSame_behind {before : List Field} {more : Entries}
    (hn : Field.Numbered 0 (before ++ f :: rest)) (hbehind : p.masksBehind f v = .ok behind)
    (hentries : ∀ e ∈ before, entries.find? e.name = more.find? e.name) :
    ∀ e ∈ before, SeesSame e p.masks behind entries more := by
  obtain ⟨m, -, hm, -, hbound⟩ := hn.split
  have hother : ∀ slot, slot < m → p.masks slot = behind slot := by
    intro slot hslot
    refine (masksBehind_of_ne hbehind fun hown ↦ ?_).symm
    have hle := (hm.slot_bounds f List.mem_cons_self slot hown).1
    omega
  exact fun e he ↦ ⟨fun slot hslot ↦ hother slot ((hbound e he).1 slot hslot),
    fun g hg ↦ hother g.slot ((hbound e he).2 g hg), hentries e he⟩

/-- A value that is there and agrees with its bit settles its field. -/
theorem Admits.settled (h : p.Admits f v) (hn : Field.Numbered n (f :: rest))
    (hbehind : p.masksBehind f v = .ok behind) (hnull : v ≠ .null)
    (hentry : entries.find? f.name = some v) : Settled behind entries [f] := by
  constructor
  · rw [List.forall_mem_singleton]
    intro slot hslot
    rcases masksBehind_eq_ok_iff.mp hbehind with ⟨hnone, -⟩ | ⟨own, bits, hown, hbits, rfl⟩
    · rw [hslot] at hnone
      cases hnone
    · obtain rfl := Option.some.inj (hown.symm.trans hslot)
      exact ⟨v, hentry, by rw [Masks.set_self, hbits]⟩
  · rw [List.forall_mem_singleton, hentry]
    cases hn with
    | mask _ _ => exact nofun
    | plain hslot _ _ _ =>
      obtain rfl : behind = p.masks := by
        rcases masksBehind_eq_ok_iff.mp hbehind with ⟨-, h⟩ | ⟨own, _, hown, -, -⟩
        · exact h
        · rw [hslot] at hown
          cases hown
      intro g hg
      have hbit := h g hg
      by_cases hpresence : f.isPresence = true
      · rw [if_pos hpresence] at hbit ⊢
        exact fun b hb ↦ hbit b (Option.some.inj hb)
      · rw [if_neg hpresence] at hbit ⊢
        rw [hbit]
        cases v with
        | null => exact absurd rfl hnull
        | bool b => simp [isSupplied, hpresence]
        | _ => rfl

/-- A field is written as its value, which may be a mask or occupy no bytes. -/
theorem Admits.written (h : p.Admits f v) (hn : Field.Numbered n (f :: rest))
    (hbehind : p.masksBehind f v = .ok behind) (hentry : entries.find? f.name = some v)
    (hvalue : s.Written held (.value f.kind v) bytes) :
    s.Written held (.body behind entries [f]) bytes := by
  have htestable := hn.testable f List.mem_cons_self
  rcases masksBehind_eq_ok_iff.mp hbehind with ⟨hslot, rfl⟩ | ⟨slot, bits, hslot, hbits, rfl⟩
  · by_cases hpresence : f.isPresence = true
    · have hkind : f.kind = .presence := eq_of_beq hpresence
      rw [hkind, Schema.Written.value_iff_plain rfl] at hvalue
      cases hvalue
      exact .omitted hslot (p.masks.skips_of_isPresence hpresence) (.noFields _ _)
    · have hopens : p.masks.opens f = true := by
        cases hg : f.gate with
        | none => exact Masks.opens_of_gate_eq_none hg
        | some g =>
          have hbit := h g hg
          rw [if_neg hpresence, Masks.isSet_eq_opens hg] at hbit
          exact hbit
      have hpresent : (f.isPresence || !p.masks.opens f) = false := by
        rw [hopens, Bool.eq_false_iff.mpr hpresence]
        rfl
      have hfound : s.Written held (.value f.kind ((entries.find? f.name).getD f.kind.zero))
          bytes := by
        rw [hentry]
        exact hvalue
      have hfield := Schema.Written.present hslot (Masks.skips_of_omits htestable hpresent) hfound
        (.noFields _ _)
      rwa [ByteArray.append_empty] at hfield
  · have hkind := hn.kind_eq_mask List.mem_cons_self hslot
    rw [hkind, Schema.Written.value_iff_plain rfl] at hvalue
    cases hvalue with
    | mask hfound =>
      obtain rfl := Option.some.inj (hbits.symm.trans hfound)
      have hmask : s.Written held (.body (p.masks.set slot bits) entries [f])
          (encodeUInt32 (p.masks.set slot bits slot) ++ .empty) :=
        .mask hslot (.noFields _ _)
      rwa [Masks.set_self, ByteArray.append_empty] at hmask

end Message.Progress

/-! ### Fields that are filled -/

/-- Some fields are written as some bytes, every entry is for one of them, and they are settled. -/
structure Schema.Filled (s : Schema) (held : Nat) (masks : Masks) (entries : Entries)
    (fields : List Field) (bytes : ByteArray) : Prop where
  settled : Settled masks entries fields
  written : s.Written held (.body masks entries fields) bytes
  named : ∀ name ∈ entries.map Prod.fst, name ∈ fields.map Field.name

namespace Schema.Filled

variable {s : Schema} {held : Nat} {masks : Masks} {entries : Entries} {bytes : ByteArray}
  {before : List Field}

theorem nil (s : Schema) (held : Nat) (masks : Masks) : s.Filled held masks [] [] .empty :=
  ⟨.nil, .noFields masks [], nofun⟩

/-- Fields that may be left out are filled by nothing. -/
theorem leaveOut {gap : List Field} (h : s.Filled held masks entries before bytes)
    (hnames : ((before ++ gap).map Field.name).Nodup) (htestable : ∀ f ∈ gap, f.Testable)
    (hslot : ∀ f ∈ gap, f.slot = none)
    (homit : ∀ f ∈ gap, (f.isPresence || !masks.opens f) = true) :
    s.Filled held masks entries (before ++ gap) bytes := by
  have hnone : ∀ f ∈ gap, entries.find? f.name = none := by
    intro f hf
    rw [List.map_append, List.nodup_append] at hnames
    refine Entries.find?_eq_none fun hname ↦ ?_
    exact hnames.2.2 f.name (h.named _ hname) f.name (List.mem_map_of_mem hf) rfl
  refine ⟨h.settled.append (.of_omitted hslot homit hnone), ?_, fun name hname ↦ ?_⟩
  · have hgap : s.Written held (.body masks entries gap) .empty :=
      .body_omitted hslot fun f hf ↦ Masks.skips_of_omits (htestable f hf) (homit f hf)
    have happend := h.written.body_append hgap
    rwa [ByteArray.append_empty] at happend
  · rw [List.map_append]
    exact List.mem_append_left _ (h.named name hname)

/-- Masks that are the same for all fields so far change nothing. -/
theorem congr {behind : Masks} (h : s.Filled held masks entries before bytes)
    (hsame : ∀ f ∈ before, SeesSame f masks behind entries entries) :
    s.Filled held behind entries before bytes :=
  ⟨h.settled.congr hsame, h.written.body_congr hsame, h.named⟩

/-- A field is filled by a value that is there and agrees with its bit, and by the mask that the
value may be. -/
theorem add {p : Progress} {f : Field} {v : Value} {rest : List Field} {value : ByteArray}
    {behind : Masks} (h : s.Filled held p.masks entries before bytes)
    (hn : Field.Numbered 0 (before ++ f :: rest))
    (hnames : ((before ++ f :: rest).map Field.name).Nodup) (hadmits : p.Admits f v)
    (hbehind : p.masksBehind f v = .ok behind)
    (hvalue : s.Written held (.value f.kind v) value) :
    s.Filled held behind (entries ++ [(f.name, v)]) (before ++ [f]) (bytes ++ value) := by
  have hnew : f.name ∉ before.map Field.name := by
    rw [List.map_append, List.nodup_append] at hnames
    exact fun hmem ↦ hnames.2.2 f.name hmem f.name List.mem_cons_self rfl
  have hnone : entries.find? f.name = none :=
    Entries.find?_eq_none fun hname ↦ hnew (h.named _ hname)
  have hentry : Entries.find? (entries ++ [(f.name, v)]) f.name = some v := by
    rw [Entries.find?_append, hnone, Entries.find?_cons, if_pos rfl]
    rfl
  have hsame : ∀ e ∈ before, SeesSame e p.masks behind entries (entries ++ [(f.name, v)]) := by
    refine Progress.seesSame_behind hn hbehind fun e he ↦ ?_
    have hne : f.name ≠ e.name := fun hsame ↦ hnew (hsame ▸ List.mem_map_of_mem he)
    rw [Entries.find?_append, Entries.find?_cons, if_neg hne]
    exact Option.or_none.symm
  obtain ⟨m, -, hm, -, -⟩ := hn.split
  have hnull : v ≠ .null := fun hnull ↦ Schema.Written.not_written_null (hnull ▸ hvalue)
  refine ⟨(h.settled.congr hsame).append (hadmits.settled hm hbehind hnull hentry),
    (h.written.body_congr hsame).body_append (hadmits.written hm hbehind hentry hvalue), ?_⟩
  intro name hname
  rw [List.map_append] at hname ⊢
  rcases List.mem_append.mp hname with hname | hname
  · exact List.mem_append_left _ (h.named name hname)
  · exact List.mem_append_right _ hname

/-- The object of a combinator all of whose fields are filled is built. -/
theorem build_eq {c : Combinator} {name : String} (hsound : s.Sound)
    (hc : s.combinator? name = some c) (h : s.Filled held masks entries c.fields bytes) :
    (s.build held name entries).outcome = .ok (c.located.tagBytes ++ bytes) := by
  have hnumbered := (hsound.combinator_sound c (mem_of_combinator? hc).1).numbered
  obtain ⟨hmasks, hsame⟩ := h.settled.resolveMasks_eq hnumbered
  exact (build_eq_ok_iff hsound).mpr
    ⟨c, _, bytes, hc, hmasks, h.written.body_congr hsame, rfl⟩

end Schema.Filled

/-! ### Runs of a writer -/

namespace Writer

/-- A call on a writer: the number of a field and a value for it. It leaves a writer, and the entry
for the field if the value was taken. -/
def step (w : Writer) (s : Schema) (held : Nat) (call : Nat × Value) : Writer × Entries :=
  let done := w.write s held call.1 call.2
  match done.1.outcome, w.combinator.fields[call.1]? with
  | .ok (), some f => (done.2, [(f.name, call.2)])
  | _, _ => (done.2, [])

/-- Calls one after the other, and the entries for the values that were taken. -/
def run (w : Writer) (s : Schema) (held : Nat) : List (Nat × Value) → Writer × Entries
  | [] => (w, [])
  | call :: rest =>
    let first := w.step s held call
    let later := first.1.run s held rest
    (later.1, first.2 ++ later.2)

/-- The entries are those of the fields that a writer has written, and what these are written as
stands behind the tag at the front of its buffer. -/
structure Tracks (w : Writer) (s : Schema) (held : Nat) (c : Combinator) (entries : Entries)
    (body : ByteArray) : Prop where
  combinator_eq : w.combinator = c
  filled : s.Filled held w.progress.masks entries (c.fields.take w.progress.next) body
  stands : Stands (c.located.tagBytes ++ body) w.buffer 0
  position_eq : w.position = (c.located.tagBytes ++ body).size

variable {w : Writer} {s : Schema} {held : Nat} {c : Combinator} {entries : Entries}
  {body : ByteArray}

/-- What a call does. A value that is not accepted changes nothing. One that is accepted and cannot
be put down may change masks and leave bytes behind, and one that is put down is an entry. -/
theorem step_cases (w : Writer) (s : Schema) (held index : Nat) (v : Value) :
    w.step s held (index, v) = (w, []) ∨
      ∃ f masks, w.progress.accept w.combinator index v = .ok (f, ⟨index + 1, masks⟩) ∧
        ∃ e, emitValue ⟨s, held, w.buffer.size⟩ f.name f.kind w.position v = e ∧
          (w.step s held (index, v) =
              (⟨w.combinator, e.apply w.buffer w.position, w.position,
                ⟨w.progress.next, masks⟩⟩, []) ∨
            ∃ bytes, e.Puts bytes ∧ w.step s held (index, v) =
              (⟨w.combinator, e.apply w.buffer w.position, w.position + bytes.size,
                ⟨index + 1, masks⟩⟩, [(f.name, v)])) := by
  unfold step write
  cases haccept : w.progress.accept w.combinator index v with
  | error fault => exact .inl rfl
  | ok accepted =>
    obtain ⟨f, behind⟩ := accepted
    obtain ⟨hfield, masks, rfl⟩ := Progress.field_of_accept haccept
    refine .inr ⟨f, masks, rfl, _, rfl, ?_⟩
    dsimp only
    generalize emitValue ⟨s, held, w.buffer.size⟩ f.name f.kind w.position v = e
    cases hfault : e.fault? with
    | some fault =>
      left
      rw [Emission.outcome, hfault]
    | none =>
      refine .inr ⟨e.bytes, ⟨hfault, rfl⟩, ?_⟩
      rw [Emission.outcome, hfault]
      dsimp only
      rw [hfield]

/-- The fields in front of the next one, those skipped, and the field that is written make up the
fields up to it. -/
theorem fields_split {fields : List Field} {f : Field} {next index : Nat}
    (hfield : fields[index]? = some f) (hnext : next ≤ index) :
    fields.take (index + 1) = fields.take next ++ (fields.take index).drop next ++ [f] ∧
      fields = fields.take next ++ (fields.take index).drop next ++
        f :: fields.drop (index + 1) := by
  have hfront : fields.take next ++ (fields.take index).drop next = fields.take index := by
    have htake := List.take_append_drop next (fields.take index)
    rwa [List.take_take, Nat.min_eq_left hnext] at htake
  have htake : fields.take (index + 1) = fields.take index ++ [f] := by
    rw [List.take_add_one, hfield]
    rfl
  rw [hfront]
  refine ⟨htake, ?_⟩
  have hall := List.take_append_drop (index + 1) fields
  rw [htake, List.append_assoc] at hall
  exact hall.symm

/-- Every call is tracked, whether its value is taken or not. -/
theorem Tracks.step (h : w.Tracks s held c entries body) (hsound : s.Sound)
    (hc : c ∈ s.combinators) (call : Nat × Value) :
    ∃ more, (w.step s held call).1.Tracks s held c
      (entries ++ (w.step s held call).2) (body ++ more) := by
  obtain ⟨index, v⟩ := call
  rcases step_cases w s held index v with hrefused | ⟨f, masks, haccept, e, hemit, hdone⟩
  · rw [hrefused, List.append_nil]
    exact ⟨.empty, by rwa [ByteArray.append_empty]⟩
  · have hcsound := hsound.combinator_sound c hc
    have hnumbered := hcsound.numbered
    have htestable := hnumbered.testable
    have hnodup := hcsound.names_nodup
    rw [h.combinator_eq] at haccept
    obtain ⟨hfield, hnext, homitted, hadmits, _, hbehind, hprogress⟩ :=
      (Progress.accept_eq_ok_iff htestable).mp haccept
    obtain rfl := congrArg Progress.masks hprogress
    obtain ⟨htake, hfields⟩ := fields_split hfield hnext
    have hstands := Emission.stands_apply_append h.stands e
    rw [← h.position_eq] at hstands
    rcases hdone with hfaulty | ⟨bytes, hputs, htaken⟩
    · -- The bytes of the failed call stand behind the position, and no field uses its mask yet.
      rw [hfaulty, List.append_nil]
      refine ⟨.empty, h.combinator_eq, ?_, ?_, ?_⟩
      · rw [ByteArray.append_empty]
        rw [hfields] at hnumbered
        exact h.filled.congr fun d hd ↦
          Progress.seesSame_behind hnumbered hbehind (fun _ _ ↦ rfl) d (List.mem_append_left _ hd)
      · rw [ByteArray.append_empty]
        exact (Stands.append_iff.mp hstands).1
      · rw [ByteArray.append_empty]
        exact h.position_eq
    · rw [htaken]
      have hoffset : w.position ≤ w.buffer.size := by
        have hle := h.stands.le_size
        rw [h.position_eq]
        omega
      obtain ⟨hvalue, -⟩ :=
        (emitValue_puts_iff hsound v f.name f.kind w.position bytes hoffset).mp (hemit ▸ hputs)
      refine ⟨bytes, h.combinator_eq, ?_, ?_, ?_⟩
      · show s.Filled held _ _ (c.fields.take (index + 1)) _
        rw [htake]
        have hslot : ∀ d ∈ (c.fields.take index).drop w.progress.next, d.slot = none :=
          fun d hd ↦ hnumbered.slot_eq_none (List.mem_of_mem_take (List.mem_of_mem_drop hd))
            (homitted d hd)
        have hasked : ∀ d ∈ (c.fields.take index).drop w.progress.next, d.Testable :=
          fun d hd ↦ htestable d (List.mem_of_mem_take (List.mem_of_mem_drop hd))
        rw [hfields] at hnumbered hnodup
        refine Schema.Filled.add (h.filled.leaveOut ?_ hasked hslot homitted) hnumbered hnodup
          hadmits hbehind hvalue
        rw [List.map_append, List.nodup_append] at hnodup
        exact hnodup.1
      · rw [← ByteArray.append_assoc, ← hputs.2]
        exact hstands
      · rw [← ByteArray.append_assoc, ByteArray.size_append, ← h.position_eq]

theorem Tracks.run (h : w.Tracks s held c entries body) (hsound : s.Sound)
    (hc : c ∈ s.combinators) (calls : List (Nat × Value)) :
    ∃ more, (w.run s held calls).1.Tracks s held c
      (entries ++ (w.run s held calls).2) (body ++ more) := by
  induction calls generalizing w entries body with
  | nil => exact ⟨.empty, by rw [Writer.run, List.append_nil, ByteArray.append_empty]; exact h⟩
  | cons call rest ih =>
    obtain ⟨more, hstep⟩ := h.step hsound hc call
    obtain ⟨later, hrun⟩ := ih hstep
    rw [List.append_assoc, ByteArray.append_assoc] at hrun
    exact ⟨more ++ later, hrun⟩

/-- A writer at the start of a buffer has written the tag. -/
theorem tracks_start {name : String} {buffer : ByteArray} (h : start s name buffer = .ok w)
    (held : Nat) : ∃ c, s.combinator? name = some c ∧ w.Tracks s held c [] .empty := by
  unfold start at h
  cases hobject : s.locateNamed name with
  | error e => rw [hobject] at h; cases h
  | ok object =>
    rw [hobject] at h
    obtain ⟨size, hsize, rfl⟩ := map_ok_iff.mp h
    obtain ⟨c, hc, rfl⟩ := Schema.locateNamed_eq_ok_iff.mp hobject
    obtain ⟨tag, hputs, rfl⟩ := Emission.outcome_eq_ok_iff.mp hsize
    obtain ⟨rfl, -⟩ := (emitTag_puts_iff (Nat.zero_le _)).mp hputs
    have hfront : Stands .empty buffer 0 := Stands.empty_iff.mpr (Nat.zero_le _)
    have hstands := Emission.stands_apply_append hfront (emitTag ⟨s, 0, buffer.size⟩ c.located 0)
    rw [ByteArray.empty_append, hputs.2] at hstands
    refine ⟨c, hc, rfl, Schema.Filled.nil s held _, ?_, ?_⟩
    · rw [ByteArray.append_empty]
      exact hstands
    · rw [ByteArray.append_empty]

/-- The bytes in front of the end that a writer finishes at are those built from its entries. -/
theorem Tracks.build_eq (h : w.Tracks s held c entries body) (hsound : s.Sound) {name : String}
    (hc : s.combinator? name = some c) {stop : Nat} (hfinish : w.finish = .ok stop) :
    (s.build held name entries).outcome = .ok (w.buffer.extract 0 stop) := by
  have hcsound := hsound.combinator_sound c (Schema.mem_of_combinator? hc).1
  unfold finish at hfinish
  rw [h.combinator_eq] at hfinish
  cases hgap : w.progress.finish c with
  | error fault => rw [hgap] at hfinish; cases hfinish
  | ok u =>
    rw [hgap] at hfinish
    cases hfinish
    have htestable := hcsound.numbered.testable
    have homitted := (Progress.finish_eq_ok_iff htestable).mp hgap
    have hfilled : s.Filled held w.progress.masks entries
        (c.fields.take w.progress.next ++ c.fields.drop w.progress.next) body := by
      refine h.filled.leaveOut ?_ (fun f hf ↦ htestable f (List.mem_of_mem_drop hf))
        (fun f hf ↦ ?_) homitted
      · rw [List.take_append_drop]
        exact hcsound.names_nodup
      · exact hcsound.numbered.slot_eq_none (List.mem_of_mem_drop hf) (homitted f hf)
    rw [List.take_append_drop] at hfilled
    rw [hfilled.build_eq hsound hc, h.position_eq]
    have hfront := h.stands.2
    rw [Nat.zero_add] at hfront
    rw [hfront]

/-- An object that a writer has written field by field, in calls of which any may have failed, is
the one built from the values that were taken. -/
theorem build_eq_of_finish {source name : String} {buffer : ByteArray}
    (hcompile : Schema.compile source = .ok s) (hstart : start s name buffer = .ok w)
    (calls : List (Nat × Value)) {stop : Nat}
    (hfinish : (w.run s held calls).1.finish = .ok stop) :
    (s.build held name (w.run s held calls).2).outcome =
      .ok ((w.run s held calls).1.buffer.extract 0 stop) := by
  have hsound := Schema.sound_of_compile hcompile
  obtain ⟨c, hc, htracks⟩ := tracks_start hstart held
  obtain ⟨body, hrun⟩ := htracks.run hsound (Schema.mem_of_combinator? hc).1 calls
  exact hrun.build_eq hsound hc hfinish

/-- A line is written into a buffer of other bytes. The label is refused before the mask is written,
and a next line without points leaves bytes behind before it is written as it should be. -/
theorem build_line_eq_of_finish :
    ∃ w, start lineSchema "line" ⟨Array.replicate 40 255⟩ = .ok w ∧
      ∃ after, w.run lineSchema 0
          [(1, .bytes ⟨#[97]⟩), (0, .mask 3), (1, .bytes ⟨#[97]⟩),
            (2, .object ⟨"line", none, [("points", .null)]⟩),
            (2, .object ⟨"line", none, [("points", .vector [.int 7])]⟩), (3, .vector [])] = after ∧
        after.1.finish = .ok 32 ∧ after.2.map Prod.fst = ["flags", "label", "next", "points"] ∧
        (lineSchema.build 0 "line" after.2).outcome = .ok (after.1.buffer.extract 0 32) := by
  have hrun : ((start lineSchema "line" ⟨Array.replicate 40 255⟩).toOption.map fun w =>
      let after := w.run lineSchema 0
        [(1, .bytes ⟨#[97]⟩), (0, .mask 3), (1, .bytes ⟨#[97]⟩),
          (2, .object ⟨"line", none, [("points", .null)]⟩),
          (2, .object ⟨"line", none, [("points", .vector [.int 7])]⟩), (3, .vector [])]
      (after.1.finish.toOption, after.2.map Prod.fst)) =
      some (some 32, ["flags", "label", "next", "points"]) := by
    decide +kernel
  obtain ⟨w, hw, hafter⟩ := Option.map_eq_some_iff.mp hrun
  obtain ⟨hfinish, hnames⟩ := Prod.mk.inj hafter
  have hstart := ok_of_toOption hw
  exact ⟨w, hstart, _, rfl, ok_of_toOption hfinish, hnames,
    build_eq_of_finish compile_lineSource hstart _ (ok_of_toOption hfinish)⟩

end Writer

end TypeLang
