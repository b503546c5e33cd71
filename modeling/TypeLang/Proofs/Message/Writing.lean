import TypeLang.Proofs.Message.Progress
import TypeLang.Proofs.Message.Written
import TypeLang.Proofs.Wire.Emission

/-!
A writer puts down what supplied values are written as, if there is room for it, and nothing else
(`Message.emitValue_puts_iff`). The fields of an object are put down in their order, so that the
checks of the order never fail (`Message.emitFields_puts_iff`).
-/

set_option autoImplicit false
set_option relaxedAutoImplicit false

namespace TypeLang.Message

open Wire Emission

variable {t : Target} {field : String} {kind : Kind} {offset : Nat} {v : Value}
  {bytes : ByteArray}

/-! ### Values without values inside -/

theorem piece_puts_and_iff {P : ByteArray → Prop} {limit : Nat} {found : ByteArray}
    (h : ∀ other, P other ↔ other = found) :
    (piece limit offset found).Puts bytes ↔ P bytes ∧ offset + bytes.size ≤ limit := by
  rw [piece_puts_iff, h]
  constructor
  · rintro ⟨hfits, rfl⟩
    exact ⟨rfl, hfits⟩
  · rintro ⟨rfl, hfits⟩
    exact ⟨hfits, rfl⟩

theorem refuse_puts_and_iff {P : ByteArray → Prop} {Q : Prop} {fault : StateFault}
    (h : ∀ other, ¬ P other) : (refuse fault).Puts bytes ↔ P bytes ∧ Q :=
  ⟨fun hputs ↦ absurd hputs (not_refuse_puts fault), fun hboth ↦ absurd hboth.1 (h bytes)⟩

theorem word_puts_and_iff {P : ByteArray → Prop} {limit width : Nat} {raw : ByteArray}
    {fault : StateFault} (h : ∀ other, P other ↔ raw.size = width ∧ other = raw) :
    (if raw.size = width then piece limit offset raw else refuse fault).Puts bytes ↔
      P bytes ∧ offset + bytes.size ≤ limit := by
  by_cases hsize : raw.size = width
  · rw [if_pos hsize]
    exact piece_puts_and_iff fun other ↦ by rw [h, and_iff_right hsize]
  · rw [if_neg hsize]
    exact refuse_puts_and_iff fun other hother ↦ hsize ((h other).mp hother).1

theorem byteString_puts_and_iff {P : ByteArray → Prop} {limit : Nat} {data : ByteArray}
    (h : ∀ other, P other ↔ data.size ≤ ByteString.lengthLimit ∧
      other = ByteString.encode data) :
    (byteString limit offset data).Puts bytes ↔ P bytes ∧ offset + bytes.size ≤ limit := by
  rw [byteString_puts_iff, h, and_assoc]

theorem emitPlain_puts_iff (hkind : kind.isContainer = false) (hoffset : offset ≤ t.limit) :
    (emitPlain t field kind offset v).Puts bytes ↔
      kind.PlainWritten v bytes ∧ offset + bytes.size ≤ t.limit := by
  cases kind with
  | mask =>
    unfold emitPlain
    dsimp only
    cases hbits : v.toMask? with
    | none => exact refuse_puts_and_iff fun other h ↦ by cases h with | mask h => simp_all
    | some bits =>
      refine piece_puts_and_iff fun other ↦ ⟨fun h ↦ ?_, fun h ↦ h ▸ .mask hbits⟩
      cases h with
      | mask h => simp_all
  | long =>
    unfold emitPlain
    dsimp only
    cases hx : v.toLong? with
    | none => exact refuse_puts_and_iff fun other h ↦ by cases h with | long h => simp_all
    | some x =>
      refine piece_puts_and_iff fun other ↦ ⟨fun h ↦ ?_, fun h ↦ h ▸ .long hx⟩
      cases h with
      | long h => simp_all
  | int =>
    cases v with
    | int x => exact piece_puts_and_iff fun other ↦ ⟨fun h ↦ by cases h; rfl, fun h ↦ h ▸ .int x⟩
    | _ => exact refuse_puts_and_iff fun _ h ↦ by cases h
  | double =>
    cases v with
    | double x =>
      exact piece_puts_and_iff fun other ↦ ⟨fun h ↦ by cases h; rfl, fun h ↦ h ▸ .double x⟩
    | _ => exact refuse_puts_and_iff fun _ h ↦ by cases h
  | int128 =>
    cases v with
    | int128 x =>
      exact piece_puts_and_iff fun other ↦ ⟨fun h ↦ by cases h; rfl, fun h ↦ h ▸ .int128 x⟩
    | bytes raw =>
      refine word_puts_and_iff fun other ↦ ⟨fun h ↦ ?_, fun h ↦ by rw [h.2]; exact .rawInt128 h.1⟩
      cases h with
      | rawInt128 hsize => exact ⟨hsize, rfl⟩
    | _ => exact refuse_puts_and_iff fun _ h ↦ by cases h
  | int256 =>
    cases v with
    | int256 x =>
      exact piece_puts_and_iff fun other ↦ ⟨fun h ↦ by cases h; rfl, fun h ↦ h ▸ .int256 x⟩
    | bytes raw =>
      refine word_puts_and_iff fun other ↦ ⟨fun h ↦ ?_, fun h ↦ by rw [h.2]; exact .rawInt256 h.1⟩
      cases h with
      | rawInt256 hsize => exact ⟨hsize, rfl⟩
    | _ => exact refuse_puts_and_iff fun _ h ↦ by cases h
  | bool =>
    cases v with
    | bool b => exact piece_puts_and_iff fun other ↦ ⟨fun h ↦ by cases h; rfl, fun h ↦ h ▸ .bool b⟩
    | _ => exact refuse_puts_and_iff fun _ h ↦ by cases h
  | presence =>
    cases v with
    | bool b =>
      show empty.Puts bytes ↔ _
      rw [empty_puts_iff]
      constructor
      · rintro rfl
        exact ⟨.presence b, hoffset⟩
      · rintro ⟨h, -⟩
        cases h
        rfl
    | _ => exact refuse_puts_and_iff fun _ h ↦ by cases h
  | bytes =>
    cases v with
    | bytes data =>
      refine byteString_puts_and_iff fun other ↦ ⟨fun h ↦ ?_, fun h ↦ h.2 ▸ .bytes h.1⟩
      cases h with
      | bytes hsize => exact ⟨hsize, rfl⟩
    | _ => exact refuse_puts_and_iff fun _ h ↦ by cases h
  | string =>
    cases v with
    | bytes data =>
      refine byteString_puts_and_iff fun other ↦ ⟨fun h ↦ ?_, fun h ↦ h.2 ▸ .string h.1⟩
      cases h with
      | string hsize => exact ⟨hsize, rfl⟩
    | _ => exact refuse_puts_and_iff fun _ h ↦ by cases h
  | vector _ _ | object _ _ | generic _ | anyObject => cases hkind

theorem emitRaw_puts_iff {raw : ByteArray} :
    (emitRaw t field kind offset raw).Puts bytes ↔
      raw = bytes ∧ (t.schema.measureKind t.held bytes kind 0).outcome = .ok bytes.size ∧
        offset + bytes.size ≤ t.limit := by
  unfold emitRaw
  rw [ofMetered_puts_iff]
  constructor
  · rintro ⟨size, hsize, hputs⟩
    cases hexact : checkExact raw.size size field with
    | error fault => rw [hexact] at hputs; exact absurd hputs (not_refuse_puts fault)
    | ok u =>
      rw [hexact] at hputs
      obtain ⟨hfits, rfl⟩ := piece_puts_iff.mp hputs
      obtain rfl := checkExact_eq_ok_iff.mp hexact
      exact ⟨rfl, hsize, hfits⟩
  · rintro ⟨rfl, hsize, hfits⟩
    refine ⟨_, hsize, ?_⟩
    rw [checkExact_eq_ok_iff.mpr rfl]
    exact piece_puts_iff.mpr ⟨hfits, rfl⟩

theorem emitPlain_eq_refuse (hkind : kind.isContainer = true) (hbytes : v.toBytes? = none) :
    emitPlain t field kind offset v = refuse (.wrongType field kind v) := by
  cases v with
  | bytes raw => cases hbytes
  | _ => cases kind <;> first | exact absurd hkind Bool.false_ne_true | rfl

theorem emitPlain_puts_iff_raw (hkind : kind.isContainer = true) :
    (emitPlain t field kind offset v).Puts bytes ↔
      (v = .bytes bytes ∧ (t.schema.measureKind t.held bytes kind 0).outcome = .ok bytes.size) ∧
        offset + bytes.size ≤ t.limit := by
  cases v with
  | bytes raw =>
    have hraw : emitPlain t field kind offset (.bytes raw) = emitRaw t field kind offset raw := by
      cases kind <;> first | exact absurd hkind Bool.false_ne_true | rfl
    rw [hraw, emitRaw_puts_iff, Value.bytes.injEq, and_assoc]
  | _ =>
    rw [emitPlain_eq_refuse hkind rfl]
    exact ⟨fun h ↦ absurd h (not_refuse_puts _), fun h ↦ by cases h.1.1⟩

/-- A value that is put down in one piece is one that is written so. -/
theorem emitPlain_puts_iff_written
    (hvector : ∀ boxed element, kind = .vector boxed element → v.toItems? = none)
    (hobject : ∀ r, kind.reference? = some r → v.toObject? = none) (hoffset : offset ≤ t.limit) :
    (emitPlain t field kind offset v).Puts bytes ↔
      t.schema.Written t.held (.value kind v) bytes ∧ offset + bytes.size ≤ t.limit := by
  by_cases hkind : kind.isContainer = true
  · rw [emitPlain_puts_iff_raw hkind, Schema.Written.value_iff_raw hkind hvector hobject]
  · have hkind := Bool.eq_false_iff.mpr hkind
    rw [emitPlain_puts_iff hkind hoffset, Schema.Written.value_iff_plain hkind]

theorem emitZero_puts_iff (hoffset : offset ≤ t.limit) :
    (emitZero t field kind offset).Puts bytes ↔
      t.schema.Written t.held (.value kind kind.zero) bytes ∧ offset + bytes.size ≤ t.limit := by
  have hnone : kind.zeroLength? = none →
      (emitZero t field kind offset = refuse (.missingValue field)) := by
    cases kind <;> first | exact fun _ ↦ rfl | exact nofun
  cases hzero : kind.zeroLength? with
  | none =>
    rw [hnone hzero]
    exact refuse_puts_and_iff fun other ↦ Schema.Written.not_written_zero hzero
  | some length =>
    by_cases hkind : kind.isContainer = true
    · -- Of the containers only vectors have a zero.
      obtain ⟨boxed, element, rfl⟩ : ∃ boxed element, kind = .vector boxed element := by
        cases kind with
        | vector boxed element => exact ⟨boxed, element, rfl⟩
        | object _ _ | generic _ | anyObject => cases hzero
        | _ => cases hkind
      show (vectorHeader t.limit offset boxed 0).Puts bytes ↔ _
      rw [vectorHeader_puts_iff]
      refine and_congr_left fun _ ↦ ⟨fun h ↦ ?_, fun h ↦ ?_⟩
      · rw [h, ← ByteArray.append_empty (b := Vectors.header boxed 0)]
        exact .vector (by decide) (.noItems element)
      · cases h with
        | plain h => cases h
        | vector _ hitems => cases hitems; exact ByteArray.append_empty
    · have hkind := Bool.eq_false_iff.mpr hkind
      have hplain : emitZero t field kind offset = emitPlain t field kind offset kind.zero := by
        cases kind <;> first | rfl | cases hkind
      rw [hplain, emitPlain_puts_iff hkind hoffset, Schema.Written.value_iff_plain hkind]

/-! ### One piece behind another -/

theorem exists_puts_andThen_iff {done : Emission} {emit : Nat → Emission} {limit : Nat}
    {P Q : ByteArray → Prop} (hdone : ∀ front, done.Puts front → offset + front.size ≤ limit)
    (hemit : ∀ at_ first, at_ ≤ limit →
      ((emit at_).Puts first ↔ P first ∧ at_ + first.size ≤ limit)) :
    (∃ front back, (done.andThen fun n => emit (offset + n)).Puts front ∧ bytes = front ++ back ∧
        Q back ∧ offset + bytes.size ≤ limit) ↔
      ∃ front both, done.Puts front ∧ bytes = front ++ both ∧
        (∃ first back, P first ∧ Q back ∧ both = first ++ back) ∧
          offset + bytes.size ≤ limit := by
  constructor
  · rintro ⟨_, back, hputs, rfl, hback, hfits⟩
    obtain ⟨front, first, hfront, hfirst, rfl⟩ := andThen_puts_iff.mp hputs
    obtain ⟨hfirst, -⟩ := (hemit _ first (hdone front hfront)).mp hfirst
    exact ⟨front, first ++ back, hfront, ByteArray.append_assoc, ⟨first, back, hfirst, hback, rfl⟩,
      hfits⟩
  · rintro ⟨front, _, hfront, rfl, ⟨first, back, hfirst, hback, rfl⟩, hfits⟩
    have hroom : offset + front.size + first.size ≤ limit := by
      simp only [ByteArray.size_append] at hfits
      omega
    have hputs := (hemit _ first (hdone front hfront)).mpr ⟨hfirst, hroom⟩
    exact ⟨front ++ first, back, andThen_puts_iff.mpr ⟨front, first, hfront, hputs, rfl⟩,
      ByteArray.append_assoc.symm, hback, hfits⟩

theorem andThen_fits {done : Emission} {emit : Nat → Emission} {limit : Nat}
    {P : ByteArray → Prop} (hdone : ∀ front, done.Puts front → offset + front.size ≤ limit)
    (hemit : ∀ at_ first, at_ ≤ limit →
      ((emit at_).Puts first ↔ P first ∧ at_ + first.size ≤ limit)) :
    ∀ front, (done.andThen fun n => emit (offset + n)).Puts front →
      offset + front.size ≤ limit := by
  intro _ hputs
  obtain ⟨front, first, hfront, hfirst, rfl⟩ := andThen_puts_iff.mp hputs
  obtain ⟨-, hroom⟩ := (hemit _ first (hdone front hfront)).mp hfirst
  rw [ByteArray.size_append]
  omega

theorem exists_puts_empty_iff {done : Emission} {limit : Nat} {Q : ByteArray → Prop}
    (hdone : ∀ front, done.Puts front → offset + front.size ≤ limit)
    (hback : ∀ back, Q back ↔ back = .empty) :
    done.Puts bytes ↔
      ∃ front back, done.Puts front ∧ bytes = front ++ back ∧ Q back ∧
        offset + bytes.size ≤ limit := by
  constructor
  · intro h
    exact ⟨bytes, .empty, h, ByteArray.append_empty.symm, (hback _).mpr rfl, hdone _ h⟩
  · rintro ⟨front, back, hfront, rfl, hQ, -⟩
    rw [(hback back).mp hQ, ByteArray.append_empty]
    exact hfront

theorem faulty_puts_iff {done : Emission} (hfault : done.fault?.isSome = true)
    {P : ByteArray → ByteArray → Prop} :
    done.Puts bytes ↔ ∃ front back, done.Puts front ∧ P front back := by
  have hnot : ∀ front, ¬ done.Puts front := by
    intro front h
    rw [h.fault?_eq] at hfault
    cases hfault
  exact ⟨fun h ↦ absurd h (hnot _), fun ⟨front, _, h, _⟩ ↦ absurd h (hnot front)⟩

/-! ### Items and entries -/

/-- A writer of a value puts down what the value is written as, wherever there is room for it. -/
def Emits (t : Target) (kind : Kind) (v : Value) (emit : Nat → Emission) : Prop :=
  ∀ offset bytes, offset ≤ t.limit →
    ((emit offset).Puts bytes ↔
      t.schema.Written t.held (.value kind v) bytes ∧ offset + bytes.size ≤ t.limit)

theorem emitItems_puts_iff {element : Kind} {items : List Value}
    (hitems : ∀ v ∈ items, Emits t element v fun at_ => emitValue t field element at_ v) :
    ∀ {done : Emission}, (∀ front, done.Puts front → offset + front.size ≤ t.limit) →
      ((emitItems t field element offset done items).Puts bytes ↔
        ∃ front back, done.Puts front ∧ bytes = front ++ back ∧
          t.schema.Written t.held (.items element items) back ∧
          offset + bytes.size ≤ t.limit) := by
  induction items with
  | nil =>
    intro done hdone
    rw [emitItems]
    exact exists_puts_empty_iff hdone fun _ ↦ Schema.Written.noItems_iff
  | cons v rest ih =>
    obtain ⟨hhere, hrest⟩ := List.forall_mem_cons.mp hitems
    intro done hdone
    rw [emitItems]
    by_cases hfault : done.fault?.isSome = true
    · rw [if_pos hfault]
      exact faulty_puts_iff hfault
    · rw [if_neg hfault, ih hrest (andThen_fits hdone hhere), exists_puts_andThen_iff hdone hhere]
      simp only [Schema.Written.item_iff]

theorem emitEntry_eq (t : Target) (name : String) (kind : Kind) (offset : Nat) (entries : Entries) :
    emitEntry t name kind offset entries =
      match entries.find? name with
      | some v => emitValue t name kind offset v
      | none => emitZero t name kind offset := by
  induction entries with
  | nil => rw [emitEntry]; rfl
  | cons first rest ih =>
    obtain ⟨other, v⟩ := first
    rw [emitEntry, Entries.find?_cons]
    by_cases hname : other = name
    · rw [if_pos hname, if_pos hname]
    · rw [if_neg hname, if_neg hname, ih]

theorem emits_entry {entries : Entries} {name : String}
    (hentries : ∀ e ∈ entries, ∀ field kind,
      Emits t kind e.2 fun at_ => emitValue t field kind at_ e.2) :
    Emits t kind ((entries.find? name).getD kind.zero)
      fun at_ => emitEntry t name kind at_ entries := by
  intro offset bytes hoffset
  dsimp only
  rw [emitEntry_eq]
  cases hfind : entries.find? name with
  | none => exact emitZero_puts_iff hoffset
  | some v => exact hentries _ (Entries.mem_of_find? hfind) name kind offset bytes hoffset

/-! ### Objects -/

theorem emitTag_puts_iff {object : Located} (hoffset : offset ≤ t.limit) :
    (emitTag t object offset).Puts bytes ↔
      bytes = object.tagBytes ∧ offset + bytes.size ≤ t.limit := by
  unfold emitTag Located.tagBytes
  have hempty : empty.Puts bytes ↔ bytes = .empty ∧ offset + bytes.size ≤ t.limit := by
    rw [empty_puts_iff]
    refine ⟨fun h ↦ ⟨h, ?_⟩, And.left⟩
    rw [h]
    exact hoffset
  cases object.combinator.tag with
  | none => exact hempty
  | some tag =>
    dsimp only
    split
    · exact hempty
    · exact piece_puts_and_iff fun _ ↦ Iff.rfl

theorem emitField_accepted {c : Combinator} {index : Nat} {f : Field} {p q : Progress}
    {done : Emission} {emit : Nat → Emission} (h : p.accept c index v = .ok (f, q)) :
    emitField c offset index v emit (p, done) =
      (q, done.andThen fun n => emit (offset + n)) := by
  unfold emitField
  rw [h]

theorem emitFields_mask {c : Combinator} {masks : Masks} {entries : Entries}
    {entry : Field → Nat → Emission} {f : Field} {rest : List Field} {index slot : Nat}
    {p : Progress} {done : Emission} (hfault : ¬ done.fault?.isSome = true)
    (hslot : f.slot = some slot) :
    emitFields t c masks entries entry offset index (f :: rest) (p, done) =
      emitFields t c masks entries entry offset (index + 1) rest
        (emitField c offset index (.mask (masks slot))
          (fun at_ => emitPlain t f.name f.kind at_ (.mask (masks slot))) (p, done)) := by
  rw [emitFields, if_neg hfault, hslot]

theorem emitFields_omitted {c : Combinator} {masks : Masks} {entries : Entries}
    {entry : Field → Nat → Emission} {f : Field} {rest : List Field} {index : Nat} {p : Progress}
    {done : Emission} (hfault : ¬ done.fault?.isSome = true) (hslot : f.slot = none)
    (homit : masks.skips f = .ok true) :
    emitFields t c masks entries entry offset index (f :: rest) (p, done) =
      emitFields t c masks entries entry offset (index + 1) rest (p, done) := by
  rw [emitFields, if_neg hfault, hslot]
  dsimp only
  rw [homit]

theorem emitFields_present {c : Combinator} {masks : Masks} {entries : Entries}
    {entry : Field → Nat → Emission} {f : Field} {rest : List Field} {index : Nat} {p : Progress}
    {done : Emission} (hfault : ¬ done.fault?.isSome = true) (hslot : f.slot = none)
    (homit : masks.skips f = .ok false)
    (hvalue : ¬ (entries.find? f.name = none ∧ f.kind.zeroLength? = none)) :
    emitFields t c masks entries entry offset index (f :: rest) (p, done) =
      emitFields t c masks entries entry offset (index + 1) rest
        (emitField c offset index ((entries.find? f.name).getD f.kind.zero) (entry f)
          (p, done)) := by
  rw [emitFields, if_neg hfault, hslot]
  dsimp only
  rw [homit]
  dsimp only
  split
  · rename_i hfind hzero
    exact absurd ⟨hfind, hzero⟩ hvalue
  · rfl

/-- The fields of an object are put down one behind the other, and the order in which they come is
never at fault. -/
theorem emitFields_puts_iff {c : Combinator} {masks : Masks} {entries : Entries}
    {entry : Field → Nat → Emission} (htestable : ∀ f ∈ c.fields, f.Testable)
    (hentry : ∀ f ∈ c.fields,
      Emits t f.kind ((entries.find? f.name).getD f.kind.zero) (entry f)) :
    ∀ {rest before : List Field} {n : Nat} {p : Progress} {done : Emission},
      c.fields = before ++ rest → Field.Numbered n rest → p.Follows masks before n →
      (∀ front, done.Puts front → offset + front.size ≤ t.limit) →
      ((emitFields t c masks entries entry offset before.length rest (p, done)).Puts bytes ↔
        ∃ front back, done.Puts front ∧ bytes = front ++ back ∧
          t.schema.Written t.held (.body masks entries rest) back ∧
          offset + bytes.size ≤ t.limit) := by
  intro rest
  induction rest with
  | nil =>
    intro before n p done hfields _ hfollows hdone
    have hfinish : p.finish c = .ok () := by
      refine (Progress.finish_eq_ok_iff htestable).mpr ?_
      rw [hfields, List.append_nil]
      exact hfollows.omitted
    rw [emitFields, hfinish]
    exact exists_puts_empty_iff hdone fun _ ↦ Schema.Written.noFields_iff
  | cons f rest ih =>
    intro before n p done hfields hnumbered hfollows hdone
    have hmem : f ∈ c.fields := by rw [hfields]; simp
    have hbehind : c.fields = (before ++ [f]) ++ rest := by rw [hfields]; simp
    have hlength : before.length + 1 = (before ++ [f]).length := by simp
    by_cases hfault : done.fault?.isSome = true
    · rw [emitFields, if_pos hfault]
      exact faulty_puts_iff hfault
    cases hnumbered with
    | @mask _ name _ hlimit hrest =>
      have hadmits : p.Admits ⟨name, .mask, none, some n⟩ (.mask (masks n)) := nofun
      have hputs : ∀ at_ first, at_ ≤ t.limit →
          ((emitPlain t name .mask at_ (.mask (masks n))).Puts first ↔
            first = encodeUInt32 (masks n) ∧ at_ + first.size ≤ t.limit) :=
        fun at_ first _ ↦ piece_puts_and_iff fun _ ↦ Iff.rfl
      have hslot : Field.slot ⟨name, .mask, none, some n⟩ = some n := rfl
      rw [emitFields_mask hfault hslot,
        emitField_accepted (hfollows.accept_eq htestable hfields hadmits rfl), hlength,
        ih hbehind hrest (Progress.Follows.written hfollows.agree.set_succ _)
          (andThen_fits hdone hputs), exists_puts_andThen_iff hdone hputs]
      simp only [Schema.Written.mask_iff hslot]
    | plain hslot hkind hgate hrest =>
      have hgate : ∀ g, f.gate = some g → g.slot < n := fun g hg ↦ (hgate g hg).1
      have hskips := Masks.skips_eq masks (htestable f hmem)
      by_cases homit : (f.isPresence || !masks.opens f) = true
      · rw [homit] at hskips
        rw [emitFields_omitted hfault hslot hskips, hlength,
          ih hbehind hrest (hfollows.leaveOut ((hfollows.mayOmit_eq hgate).trans homit)) hdone]
        simp only [Schema.Written.omitted_iff hslot hskips]
      have homit := Bool.eq_false_iff.mpr homit
      rw [homit] at hskips
      have hputs := hentry f hmem
      by_cases hmissing : entries.find? f.name = none ∧ f.kind.zeroLength? = none
      · -- There is nothing to be written, so neither side holds.
        obtain ⟨hfind, hzero⟩ := hmissing
        rw [emitFields, if_neg hfault, hslot]
        dsimp only
        rw [hskips]
        simp only [hfind, hzero, Schema.Written.present_iff hslot hskips, Option.getD_none]
        constructor
        · intro h
          obtain ⟨_, _, _, hrefused, _⟩ := andThen_puts_iff.mp h
          exact absurd hrefused (not_refuse_puts _)
        · rintro ⟨_, _, _, _, ⟨_, _, hvalue, _⟩, _⟩
          exact absurd hvalue (Schema.Written.not_written_zero hzero)
      rw [emitFields_present hfault hslot hskips hmissing,
        emitField_accepted (hfollows.accept_present htestable hfields hslot hgate homit _), hlength,
        ih hbehind hrest (Progress.Follows.written hfollows.agree _) (andThen_fits hdone hputs),
        exists_puts_andThen_iff hdone hputs]
      simp only [Schema.Written.present_iff hslot hskips]

/-- An object is put down as its tag and its fields, if its masks can be found. -/
theorem emitInstance_puts_iff {located : Except Error Located} {entries : Entries}
    {entry : Field → Nat → Emission}
    (hsound : ∀ object, located = .ok object → object.combinator.Sound)
    (hentry : ∀ f : Field, Emits t f.kind ((entries.find? f.name).getD f.kind.zero) (entry f))
    (hoffset : offset ≤ t.limit) :
    (emitInstance t located entries entry offset).Puts bytes ↔
      ∃ object masks body, located = .ok object ∧
        resolveMasks object.combinator.fields entries = .ok masks ∧
        t.schema.Written t.held (.body masks entries object.combinator.fields) body ∧
        bytes = object.tagBytes ++ body ∧ offset + bytes.size ≤ t.limit := by
  unfold emitInstance
  cases located with
  | error e => exact ⟨fun h ↦ absurd h (not_fail_puts e), fun ⟨_, _, _, h, _⟩ ↦ nomatch h⟩
  | ok object =>
    dsimp only
    cases hmasks : resolveMasks object.combinator.fields entries with
    | error fault =>
      refine ⟨fun h ↦ absurd h (not_fail_puts fault), ?_⟩
      rintro ⟨_, masks, _, hobject, hfound, _⟩
      cases hobject
      rw [hmasks] at hfound
      cases hfound
    | ok masks =>
      have htag : ∀ front, (emitTag t object offset).Puts front → offset + front.size ≤ t.limit :=
        fun front hfront ↦ ((emitTag_puts_iff hoffset).mp hfront).2
      have hn := (hsound object rfl).numbered
      refine (emitFields_puts_iff hn.testable (fun f _ ↦ hentry f) (List.nil_append _).symm hn
        (Progress.Follows.start masks) htag).trans ⟨?_, ?_⟩
      · rintro ⟨front, body, hfront, rfl, hbody, hfits⟩
        obtain ⟨rfl, -⟩ := (emitTag_puts_iff hoffset).mp hfront
        exact ⟨object, masks, body, rfl, hmasks, hbody, rfl, hfits⟩
      · rintro ⟨_, masks', body, hobject, hmasks', hbody, rfl, hfits⟩
        cases hobject
        obtain rfl := Except.ok.inj (hmasks.symm.trans hmasks')
        have hroom : offset + object.tagBytes.size ≤ t.limit := by
          rw [ByteArray.size_append] at hfits
          omega
        exact ⟨_, body, (emitTag_puts_iff hoffset).mpr ⟨rfl, hroom⟩, rfl, hbody, hfits⟩

/-- Values that are neither items nor entries for their kind are put down in one piece. -/
theorem emitValue_plain (hvector : ∀ boxed element, kind = .vector boxed element →
      v.toItems? = none)
    (hobject : ∀ r, kind.reference? = some r → v.toObject? = none) :
    emitValue t field kind offset v = emitPlain t field kind offset v := by
  cases v with
  | vector items =>
    cases kind with
    | vector boxed element => cases hvector boxed element rfl
    | _ =>
      rw [emitValue]
      exact nofun
  | object o =>
    obtain ⟨name, tag, entries⟩ := o
    cases kind with
    | object _ _ | generic _ | anyObject => cases hobject _ rfl
    | _ => rw [emitValue] <;> exact nofun
  | _ => rw [emitValue] <;> exact nofun

theorem emitValue_reference {r : Reference} (hkind : kind.reference? = some r) (name : String)
    (tag : Option UInt32) (entries : Entries) :
    emitValue t field kind offset (.object ⟨name, tag, entries⟩) =
      emitInstance t (t.schema.locateObject name r) entries
        (fun f at_ => emitEntry t f.name f.kind at_ entries) offset := by
  cases kind <;> cases hkind <;> rw [emitValue] <;> rfl

/-- A value is put down as what it is written as, if there is room for it, and not at all
otherwise. -/
theorem emitValue_puts_iff (hsound : t.schema.Sound) :
    ∀ v field kind, Emits t kind v fun at_ => emitValue t field kind at_ v := by
  intro v
  induction v using Value.induction with
  | leaf v hvector hobject =>
    intro field kind offset bytes hoffset
    dsimp only
    rw [emitValue_plain (fun _ _ _ ↦ hvector) (fun _ _ ↦ hobject)]
    exact emitPlain_puts_iff_written (fun _ _ _ ↦ hvector) (fun _ _ ↦ hobject) hoffset
  | vector items ih =>
    intro field kind offset bytes hoffset
    dsimp only
    by_cases hkind : ∃ boxed element, kind = .vector boxed element
    · obtain ⟨boxed, element, rfl⟩ := hkind
      rw [emitValue]
      by_cases hcount : UInt32.size ≤ items.length
      · rw [if_pos hcount]
        refine refuse_puts_and_iff fun other h ↦ ?_
        cases h with
        | plain h => cases h
        | vector hlt _ => omega
      · have hheader : ∀ front, (vectorHeader t.limit offset boxed items.length).Puts front →
            offset + front.size ≤ t.limit := fun front h ↦ (vectorHeader_puts_iff.mp h).2
        rw [if_neg hcount, emitItems_puts_iff (fun v hv ↦ ih v hv field element) hheader]
        constructor
        · rintro ⟨front, back, hfront, rfl, hback, hfits⟩
          obtain ⟨rfl, -⟩ := vectorHeader_puts_iff.mp hfront
          exact ⟨.vector (Nat.not_le.mp hcount) hback, hfits⟩
        · rintro ⟨h, hfits⟩
          cases h with
          | plain h => cases h
          | vector _ hitems =>
            refine ⟨_, _, vectorHeader_puts_iff.mpr ⟨rfl, ?_⟩, rfl, hitems, hfits⟩
            rw [ByteArray.size_append] at hfits
            omega
    · have hvector : ∀ boxed element, kind = .vector boxed element →
          (Value.vector items).toItems? = none := fun boxed element h ↦
        absurd ⟨boxed, element, h⟩ hkind
      rw [emitValue_plain hvector fun _ _ ↦ rfl]
      exact emitPlain_puts_iff_written hvector (fun _ _ ↦ rfl) hoffset
  | object o ih =>
    obtain ⟨name, tag, entries⟩ := o
    intro field kind offset bytes hoffset
    dsimp only
    cases hkind : kind.reference? with
    | some r =>
      rw [emitValue_reference hkind, emitInstance_puts_iff (fun _ ↦ hsound.of_locateObject)
        (fun f ↦ emits_entry fun e he field kind ↦ ih e he field kind) hoffset]
      constructor
      · rintro ⟨object, masks, body, hobject, hmasks, hbody, rfl, hfits⟩
        exact ⟨.object hkind hobject hmasks hbody, hfits⟩
      · rintro ⟨h, hfits⟩
        cases h with
        | plain h =>
          have hcontainer := h.isContainer_eq
          rw [Kind.isContainer_of_reference? hkind] at hcontainer
          cases hcontainer
        | object hkind' hlocate hmasks hbody =>
          obtain rfl := Option.some.inj (hkind.symm.trans hkind')
          exact ⟨_, _, _, hlocate, hmasks, hbody, rfl, hfits⟩
    | none =>
      have hobject : ∀ r, kind.reference? = some r →
          (Value.object ⟨name, tag, entries⟩).toObject? = none := by
        intro r h
        rw [hkind] at h
        cases h
      rw [emitValue_plain (fun _ _ _ ↦ rfl) hobject]
      exact emitPlain_puts_iff_written (fun _ _ _ ↦ rfl) hobject hoffset

end TypeLang.Message
