import TypeLang.Proofs.Message.Counting
import TypeLang.Proofs.Message.Streaming
import TypeLang.Proofs.Schema.Resolution
import TypeLang.Proofs.Wire.VectorItems

/-!
Kinds whose values have no bytes. Whether a value has bytes is known from its kind alone
(`Schema.measureKind_eq_zero_iff`): a combinator whose first mask is still to be read has no gates
before it, so either all of its fields are there or a mask is. The loop over the items of a vector,
which ends at an item without bytes, therefore ends early for no vector but one of items that all
have none, and every other one is read in full (`Schema.vectors_read_in_full`).
-/

set_option autoImplicit false
set_option relaxedAutoImplicit false

namespace TypeLang

open Wire Message

/-- Values of a kind have no bytes: presence, and objects that are read without a tag and have
fields of such kinds only. -/
inductive Schema.ZeroSized (s : Schema) : Kind → Prop
  | presence : ZeroSized s .presence
  | object {typeName : String} {bare : Bool} {c : Combinator}
      (htarget : s.headerless? typeName bare = .ok (some c))
      (hfields : ∀ f ∈ c.fields, ZeroSized s f.kind) : ZeroSized s (.object typeName bare)

variable {s : Schema} {buffer : ByteArray}

theorem Schema.zeroSized_object_iff {typeName : String} {bare : Bool} {c : Combinator}
    (htarget : s.headerless? typeName bare = .ok (some c)) :
    s.ZeroSized (.object typeName bare) ↔ ∀ f ∈ c.fields, s.ZeroSized f.kind := by
  constructor
  · intro h
    cases h with
    | object hother hfields =>
      cases htarget.symm.trans hother
      exact hfields
  · exact .object htarget

/-! ### Values -/

theorem Wire.eq_of_ensure {pos width n : Nat} (h : ensure buffer pos width = .ok n) :
    n = width := by
  unfold ensure at h
  split at h
  · cases h; rfl
  · cases h

theorem Wire.Vectors.headerLength_pos (boxed : Bool) : 0 < headerLength boxed := by
  cases boxed <;> decide

theorem Wire.Vectors.header_eq {pos count header : Nat} {boxed : Bool}
    (h : readHeader buffer pos boxed = .ok (count, header)) : header = headerLength boxed :=
  (readHeader_eq_ok_iff.mp h).1

/-- A vector has at least the bytes of its header. -/
theorem Wire.Vectors.sizeOf_pos {size : Nat → Metered Nat} {pos n : Nat} {boxed : Bool}
    (h : (Vectors.sizeOf size buffer pos boxed).outcome = .ok n) : 0 < n := by
  let item (place : Nat) : Except Error (Unit × Nat) :=
    (size place).outcome.map fun length => ((), length)
  have hitem : ∀ place, (size place).outcome = (item place).map Prod.snd := by
    intro place
    dsimp only [item]
    cases (size place).outcome <;> rfl
  rw [Vectors.sizeOf_outcome_eq_collect hitem] at h
  cases hheader : readHeader buffer pos boxed with
  | error e => rw [hheader] at h; cases h
  | ok pair =>
    rw [hheader] at h
    obtain ⟨found, -, rfl⟩ := map_ok_iff.mp h
    rw [Vectors.header_eq hheader]
    exact Nat.add_pos_left (headerLength_pos boxed) _

/-- A measured value has no bytes just when its kind has none, if this is so of the objects in
it. -/
theorem Kind.measure_eq_zero_iff {measure : Reference → Nat → Metered Nat}
    (hobject : ∀ kind r, kind.reference? = some r → ∀ pos n,
      (measure r pos).outcome = .ok n → (n = 0 ↔ s.ZeroSized kind))
    (kind : Kind) (pos n : Nat) (h : (kind.measure measure buffer pos).outcome = .ok n) :
    n = 0 ↔ s.ZeroSized kind := by
  have hwidth : ∀ {width : Nat}, 0 < width → ensure buffer pos width = .ok n → n ≠ 0 := by
    intro width hpos hensure
    rw [eq_of_ensure hensure]
    exact Nat.ne_of_gt hpos
  have htext : ByteString.sizeOf buffer pos = .ok n → n ≠ 0 := by
    intro hsize
    rw [ByteString.sizeOf_measuresAs.outcome_eq] at hsize
    obtain ⟨⟨data, _⟩, hread, rfl⟩ := map_ok_iff.mp hsize
    obtain ⟨form, -, rfl, -⟩ := ByteString.read_eq_ok_iff.mp hread
    exact Nat.ne_of_gt form.size_bytes_pos
  cases kind with
  | mask => exact iff_of_false (hwidth (by decide) h) nofun
  | int => exact iff_of_false (hwidth (by decide) h) nofun
  | long => exact iff_of_false (hwidth (by decide) h) nofun
  | double => exact iff_of_false (hwidth (by decide) h) nofun
  | int128 => exact iff_of_false (hwidth (by decide) h) nofun
  | int256 => exact iff_of_false (hwidth (by decide) h) nofun
  | presence => exact iff_of_true (eq_of_ensure h) .presence
  | bool =>
    obtain ⟨_, -, rfl⟩ := map_ok_iff.mp h
    exact iff_of_false (by decide) nofun
  | bytes => exact iff_of_false (htext h) nofun
  | string => exact iff_of_false (htext h) nofun
  | vector boxed element => exact iff_of_false (Nat.ne_of_gt (Vectors.sizeOf_pos h)) nofun
  | object typeName bare => exact hobject (.object typeName bare) _ rfl pos n h
  | generic name => exact hobject (.generic name) _ rfl pos n h
  | anyObject => exact hobject .anyObject _ rfl pos n h

/-! ### Fields -/

namespace Message

variable {size : Kind → Nat → Metered Nat}

theorem le_of_walkFields : ∀ {fields : List Field} {masks known : Masks} {pos stop : Nat},
    (walkFields size buffer fields masks pos).outcome = .ok (stop, known) → pos ≤ stop := by
  intro fields
  induction fields with
  | nil =>
    intro masks known pos stop h
    cases h
    exact Nat.le_refl pos
  | cons f rest ih =>
    intro masks known pos stop h
    rw [walkFields_cons_outcome] at h
    split at h
    · cases h
    · exact Nat.le_trans (Nat.le_add_right pos _) (ih h)

/-- Fields whose masks are numbered from the first one take no bytes just when none of their kinds
has any. -/
theorem walkFields_eq_start_iff
    (hsize : ∀ kind pos n, (size kind pos).outcome = .ok n → (n = 0 ↔ s.ZeroSized kind)) :
    ∀ {fields : List Field} {masks known : Masks} {pos stop : Nat}, Field.Numbered 0 fields →
      (walkFields size buffer fields masks pos).outcome = .ok (stop, known) →
        (stop = pos ↔ ∀ f ∈ fields, s.ZeroSized f.kind) := by
  intro fields
  induction fields with
  | nil =>
    intro masks known pos stop _ h
    cases h
    exact iff_of_true rfl nofun
  | cons f rest ih =>
    intro masks known pos stop hnumbered h
    rw [walkFields_cons_outcome] at h
    split at h
    · cases h
    rename_i n behind hfield
    have hstop := le_of_walkFields h
    rw [List.forall_mem_cons]
    cases hnumbered with
    | mask _ _ =>
      obtain ⟨_, _, hpair⟩ := map_ok_iff.mp hfield
      cases hpair
      exact iff_of_false (by omega) fun hzero ↦ nomatch hzero.1
    | plain hslot hkind hgate hrest =>
      -- There is no mask before the field, so that it has no gate and is there.
      have hopen : masks.asks f = .ok true := by
        unfold Masks.asks
        cases hcondition : f.gate with
        | none => rfl
        | some g => exact absurd (hgate g hcondition).1 (Nat.not_lt_zero _)
      unfold measureField at hfield
      rw [hslot] at hfield
      dsimp only at hfield
      rw [hopen] at hfield
      obtain ⟨length, hlength, hpair⟩ := map_ok_iff.mp hfield
      cases hpair
      rw [← hsize f.kind pos n hlength]
      by_cases hzero : n = 0
      · subst hzero
        rw [← ih hrest h]
        exact ⟨fun heq ↦ ⟨rfl, heq⟩, And.right⟩
      · exact iff_of_false (by omega) fun hboth ↦ hzero hboth.1

end Message

/-! ### Objects -/

namespace Schema

theorem header_of_locateTyped {typeName : String} {bare : Bool} {pos : Nat} {object : Located}
    (h : s.locateTyped typeName bare buffer pos = .ok object) :
    object.header = 0 ∧ s.headerless? typeName bare = .ok (some object.combinator) ∨
      object.header = tagLength ∧ s.headerless? typeName bare = .ok none := by
  unfold locateTyped at h
  split at h
  · cases h
  · rename_i c hheader
    cases h
    exact .inl ⟨rfl, hheader⟩
  · rename_i hheader
    unfold locateMember at h
    split at h
    · split at h
      · cases h
      · split at h
        · cases h
          exact .inr ⟨rfl, hheader⟩
        · cases h
    · cases h

/-- An object that a kind refers to has neither a tag nor fields with bytes just when values of the
kind have no bytes. -/
theorem zeroSized_iff_of_locate {kind : Kind} {r : Reference} (hkind : kind.reference? = some r)
    {pos : Nat} {object : Located} (h : s.locate buffer pos r = .ok object) :
    (object.header = 0 ∧ ∀ f ∈ object.combinator.fields, s.ZeroSized f.kind) ↔
      s.ZeroSized kind := by
  have hany : s.locate buffer pos .any = .ok object → object.header ≠ 0 := by
    intro hlocate
    cases (locateAny_eq_ok_iff.mp hlocate).1
    exact Nat.noConfusion
  cases kind with
  | object typeName bare =>
    cases hkind
    obtain ⟨hheader, htarget⟩ | ⟨hheader, htarget⟩ := header_of_locateTyped h
    · rw [zeroSized_object_iff htarget]
      exact ⟨And.right, fun hfields ↦ ⟨hheader, hfields⟩⟩
    · refine iff_of_false (fun hzero ↦ ?_) fun hzero ↦ ?_
      · rw [hheader] at hzero
        exact Nat.noConfusion hzero.1
      · cases hzero with
        | object hother _ => cases htarget.symm.trans hother
  | generic name => cases hkind; exact iff_of_false (fun hzero ↦ hany h hzero.1) nofun
  | anyObject => cases hkind; exact iff_of_false (fun hzero ↦ hany h hzero.1) nofun
  | _ => cases hkind

theorem measureWithin_eq_zero_iff_of {free : Nat}
    (hobject : ∀ (object : Located) (pos n : Nat), object.combinator ∈ s.combinators →
      (s.measureAt buffer free object pos).outcome = .ok n →
        (n = 0 ↔ object.header = 0 ∧ ∀ f ∈ object.combinator.fields, s.ZeroSized f.kind))
    (kind : Kind) (r : Reference) (hkind : kind.reference? = some r) (pos n : Nat)
    (h : (s.measureWithin free buffer r pos).outcome = .ok n) : n = 0 ↔ s.ZeroSized kind := by
  unfold measureWithin at h
  rw [Metered.outcome_bind, Metered.outcome_lift] at h
  cases hlocate : s.locate buffer pos r with
  | error e => rw [hlocate] at h; cases h
  | ok object =>
    rw [hlocate] at h
    rw [hobject object pos n (mem_of_locate hlocate) h]
    exact zeroSized_iff_of_locate hkind hlocate

/-- A measured object has no bytes just when it has no tag and no field of it has any. -/
theorem measureAt_eq_zero_iff (hs : s.Sound) :
    ∀ (free : Nat) (object : Located) (pos n : Nat), object.combinator ∈ s.combinators →
      (s.measureAt buffer free object pos).outcome = .ok n →
        (n = 0 ↔ object.header = 0 ∧ ∀ f ∈ object.combinator.fields, s.ZeroSized f.kind) := by
  intro free
  induction free with
  | zero => intro object pos n _ h; cases h
  | succ free ih =>
    intro object pos n hmem h
    rw [measureAt_succ_outcome] at h
    cases hheader : checkHeader buffer pos object.header with
    | error e => rw [hheader] at h; cases h
    | ok u =>
      rw [hheader] at h
      obtain ⟨⟨stop, known⟩, hwalk, rfl⟩ := map_ok_iff.mp h
      have hsize : ∀ kind pos n,
          (Kind.measure (s.measureWithin free buffer) buffer kind pos).outcome = .ok n →
            (n = 0 ↔ s.ZeroSized kind) :=
        Kind.measure_eq_zero_iff (measureWithin_eq_zero_iff_of ih)
      have hstop := le_of_walkFields hwalk
      rw [← walkFields_eq_start_iff hsize (hs.combinator_sound _ hmem).numbered hwalk]
      show stop - pos = 0 ↔ object.header = 0 ∧ stop = pos + object.header
      omega

/-- Whether a value that can be measured has bytes is known from its kind. -/
theorem measureKind_eq_zero_iff (hs : s.Sound) {held : Nat} {kind : Kind} {pos n : Nat}
    (h : (s.measureKind held buffer kind pos).outcome = .ok n) : n = 0 ↔ s.ZeroSized kind := by
  rw [measureKind_eq_measure] at h
  exact Kind.measure_eq_zero_iff (measureWithin_eq_zero_iff_of (measureAt_eq_zero_iff hs _)) kind
    pos n h

/-! ### Vectors -/

theorem decodeKind_fits {held : Nat} {kind : Kind} {pos n : Nat} {v : Value}
    (hpos : pos ≤ buffer.size) (h : s.decodeKind held buffer kind pos = .ok (v, n)) :
    pos + n ≤ buffer.size ∧ 4 ∣ n := by
  obtain ⟨bytes, _, hform, hstands, rfl, -⟩ := foundAt_of_decodeKind hpos h
  exact ⟨hstands.le_size, hform.four_dvd_size⟩

/-- A value that is read has no bytes just when its kind has none. -/
theorem decodeKind_eq_zero_iff (hs : s.Sound) {held : Nat} {kind : Kind} {pos n : Nat} {v : Value}
    (hpos : pos ≤ buffer.size) (h : s.decodeKind held buffer kind pos = .ok (v, n)) :
    n = 0 ↔ s.ZeroSized kind := by
  have hmeasured := (s.measureKind_measuresAs held kind pos hpos).outcome_eq
  rw [h] at hmeasured
  exact measureKind_eq_zero_iff hs hmeasured

/-- The vector `v` is read from `n` bytes: its items stand one behind the other behind a header that
counts them, all of them if they have bytes, and only the first if they have none. -/
structure ReadInFull (s : Schema) (held : Nat) (buffer : ByteArray) (boxed : Bool) (element : Kind)
    (pos : Nat) (v : Value) (n count header : Nat) (found : List (Value × Nat)) : Prop where
  header_eq : Vectors.readHeader buffer pos boxed = .ok (count, header)
  value_eq : v = .vector (found.map Prod.fst)
  inTurn : Vectors.InTurn (s.decodeKind held buffer element) (pos + header) found
  size_eq : n = header + Vectors.occupied found
  measured_eq : (s.measureKind held buffer (.vector boxed element) pos).outcome = .ok n
  of_bytes : ¬ s.ZeroSized element →
    found.length = count ∧ 4 * count ≤ buffer.size - (pos + header)
  of_empty : s.ZeroSized element → found.length = min count 1 ∧ n = header

theorem readInFull_of_collect (hs : s.Sound) {held : Nat} {boxed : Bool} {element : Kind}
    {pos count header : Nat} {found : List (Value × Nat)}
    (hheader : Vectors.readHeader buffer pos boxed = .ok (count, header))
    (hfound : Vectors.collect (s.decodeKind held buffer element) count (pos + header) = .ok found)
    (hmeasured : (s.measureKind held buffer (.vector boxed element) pos).outcome =
      .ok (header + Vectors.occupied found)) :
    s.ReadInFull held buffer boxed element pos (.vector (found.map Prod.fst))
      (header + Vectors.occupied found) count header found := by
  have hinTurn := Vectors.inTurn_of_collect hfound
  obtain ⟨hend, hplaces⟩ := hinTurn.within
    (fun place hplace _ _ hitem ↦ (decodeKind_fits hplace hitem).1)
    (Vectors.readHeader_fits hheader)
  refine ⟨hheader, rfl, hinTurn, rfl, hmeasured, fun hbytes ↦ ?_, fun hempty ↦ ?_⟩
  · have hwords : ∀ entry ∈ found, entry.2 ≠ 0 ∧ 4 ≤ entry.2 := by
      intro entry hentry
      obtain ⟨place, hplace, hitem⟩ := hplaces entry hentry
      have hsize : entry.2 ≠ 0 := fun hzero ↦
        hbytes ((decodeKind_eq_zero_iff hs hplace hitem).mp hzero)
      exact ⟨hsize, Nat.le_of_dvd (Nat.pos_of_ne_zero hsize) (decodeKind_fits hplace hitem).2⟩
    have hlength := Vectors.length_of_collect hfound fun entry hentry ↦ (hwords entry hentry).1
    have hroom := Vectors.mul_length_le_occupied fun entry hentry ↦ (hwords entry hentry).2
    rw [hlength] at hroom
    exact ⟨hlength, by omega⟩
  · obtain ⟨hlength, hnone⟩ := Vectors.length_of_collect_empty hfound fun entry hentry ↦ by
      obtain ⟨place, hplace, hitem⟩ := hplaces entry hentry
      exact (decodeKind_eq_zero_iff hs hplace hitem).mpr hempty
    rw [hnone]
    exact ⟨hlength, rfl⟩

/-- What can be measured has no bytes just when values of its kind have none. So a vector that is
read has all the items that its header counts, and only one that stands for all if they have no
bytes. -/
theorem vectors_read_in_full {source : String} (hs : compile source = .ok s) (held : Nat)
    (buffer : ByteArray) :
    (∀ kind pos n, (s.measureKind held buffer kind pos).outcome = .ok n →
      (n = 0 ↔ s.ZeroSized kind)) ∧
    ∀ boxed element pos v n, s.decodeKind held buffer (.vector boxed element) pos = .ok (v, n) →
      ∃ count header found,
        s.ReadInFull held buffer boxed element pos v n count header found := by
  have hsound := sound_of_compile hs
  refine ⟨fun kind pos n h ↦ measureKind_eq_zero_iff hsound h, ?_⟩
  intro boxed element pos v n h
  obtain ⟨⟨items, _⟩, hread, hpair⟩ := map_ok_iff.mp h
  cases hpair
  have hcollect := hread
  rw [Vectors.read_eq_collect] at hcollect
  cases hheader : Vectors.readHeader buffer pos boxed with
  | error e => rw [hheader] at hcollect; cases hcollect
  | ok pair =>
    obtain ⟨count, header⟩ := pair
    rw [hheader] at hcollect
    obtain ⟨found, hfound, hpair⟩ := map_ok_iff.mp hcollect
    cases hpair
    have hpos : pos ≤ buffer.size := Nat.le_of_add_right_le (Vectors.readHeader_fits hheader)
    have hmeasured := (s.measureKind_measuresAs held (.vector boxed element) pos hpos).outcome_eq
    rw [h] at hmeasured
    exact ⟨count, header, found, readInFull_of_collect hsound hheader hfound hmeasured⟩

/-- The source of a schema with objects that have no bytes. -/
def emptySource : String := "empty = Empty; empties#00000009 items:vector<empty> = Empties;"

/-- The schema of objects that have no bytes. -/
def emptySchema : Schema where
  combinators :=
    [{ declaration :=
        { name := ⟨none, "empty"⟩
          tag := none
          generics := []
          arguments := []
          result := .ofText "Empty"
          isFunction := false
          position := ⟨0, 1, 1⟩ }
       fields := [] },
     { declaration :=
        { name := ⟨none, "empties"⟩
          tag := some 9
          generics := []
          arguments :=
            [⟨"items", .applied ⟨⟨none, "vector"⟩, true, false⟩ (.ofText "empty"), none⟩]
          result := .ofText "Empties"
          isFunction := false
          position := ⟨15, 1, 16⟩ }
       fields := [⟨"items", .vector false (.object "empty" true), none, none⟩] }]

/-- A vector that counts as many items as can be counted. -/
def emptyItems : ByteArray := ⟨#[255, 255, 255, 255]⟩

/-- Of many items without bytes one is read. -/
theorem empty_vector_read_in_full :
    compile emptySource = .ok emptySchema ∧
      emptySchema.decodeKind 0 emptyItems (.vector false (.object "empty" true)) 0 =
        .ok (.vector [.object ⟨"empty", none, []⟩], 4) ∧
      ∃ found, emptySchema.ReadInFull 0 emptyItems false (.object "empty" true) 0
        (.vector [.object ⟨"empty", none, []⟩]) 4 4294967295 4 found ∧ found.length = 1 := by
  have hcompile : compile emptySource = .ok emptySchema := ok_of_toOption (by decide +kernel)
  have hdecode : emptySchema.decodeKind 0 emptyItems (.vector false (.object "empty" true)) 0 =
      .ok (.vector [.object ⟨"empty", none, []⟩], 4) := by rfl
  refine ⟨hcompile, hdecode, ?_⟩
  obtain ⟨count, header, found, hread⟩ :=
    (vectors_read_in_full hcompile 0 emptyItems).2 _ _ _ _ _ hdecode
  have hheader : Vectors.readHeader emptyItems 0 false = .ok (4294967295, 4) :=
    ok_of_toOption (by decide +kernel)
  cases hheader.symm.trans hread.header_eq
  have htarget : emptySchema.headerless? "empty" true = .ok (some emptySchema.combinators[0]) := by
    rfl
  have hempty : emptySchema.ZeroSized (.object "empty" true) := .object htarget nofun
  exact ⟨found, hread, (hread.of_empty hempty).1⟩

end Schema

end TypeLang
