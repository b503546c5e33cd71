import TypeLang.Proofs.Message.Nesting
import TypeLang.Proofs.Schema.Soundness
import TypeLang.Proofs.Wire.Window

/-!
Reading an object needs the bytes of the object and nothing else of the buffer. What is read of two
buffers is compared from the inside out: values (`Kind.decode_mirrors`), fields
(`Message.decodeFields_mirrors`), objects (`Schema.decodeAt_mirrors`), and what references lead to
(`Schema.readWithin_mirrors`). So the same bytes are read as the same object whatever stands before
and behind them, and a buffer that ends among them is truncated
(`Schema.read_depends_on_bytes_read`).
-/

set_option autoImplicit false
set_option relaxedAutoImplicit false

namespace TypeLang

open Wire Message

variable {buffer other : ByteArray}

/-! ### Values -/

theorem Wire.Mirrors.sized {α : Type} {pos place width : Nat} {found mirrored : Except Error α}
    (h : Mirrors buffer other pos place (found.map fun a => (a, width))
      (mirrored.map fun a => (a, width))) (wrap : α → Value) :
    Mirrors buffer other pos place (sized wrap width found) (sized wrap width mirrored) := by
  have hmap := h.map wrap
  cases found <;> cases mirrored <;> exact hmap

/-- Values are mirrored if the objects in them are. -/
theorem Kind.decode_mirrors {read readOther : Reference → Nat → Except Error (Object × Nat)}
    (h : ∀ r pos place, Mirrors buffer other pos place (read r pos) (readOther r place)) :
    ∀ (kind : Kind) (pos place : Nat), Mirrors buffer other pos place
      (kind.decode read buffer pos) (kind.decode readOther other place) := by
  intro kind
  induction kind with
  | mask => intro pos place; exact readUInt32_mirrors.sized Value.mask
  | int => intro pos place; exact (readUInt32_mirrors.mapValue UInt32.toInt32).sized Value.int
  | long => intro pos place; exact (readUInt64_mirrors.mapValue UInt64.toInt64).sized Value.long
  | double => intro pos place; exact (readUInt64_mirrors.mapValue Double.mk).sized Value.double
  | int128 => intro pos place; exact (readWord_mirrors (by decide)).sized Value.int128
  | int256 => intro pos place; exact (readWord_mirrors (by decide)).sized Value.int256
  | bool => intro pos place; exact readBool_mirrors.sized Value.bool
  | presence => intro pos place; exact .nothing _
  | bytes => intro pos place; exact ByteString.read_mirrors.map Value.bytes
  | string => intro pos place; exact ByteString.read_mirrors.map Value.bytes
  | vector boxed element ih =>
    intro pos place
    exact (Vectors.read_mirrors ih boxed).map Value.vector
  | object typeName bare =>
    intro pos place
    exact (h (.typed typeName bare) pos place).map Value.object
  | generic _ => intro pos place; exact (h .any pos place).map Value.object
  | anyObject => intro pos place; exact (h .any pos place).map Value.object

/-! ### Fields -/

namespace Message

variable {decode decodeOther : Kind → Nat → Except Error (Value × Nat)}

theorem decodeField_mirrors
    (h : ∀ kind pos place, Mirrors buffer other pos place (decode kind pos)
      (decodeOther kind place)) (f : Field) (masks : Masks) (pos place : Nat) :
    Mirrors buffer other pos place
      ((decodeField decode buffer f masks pos).map fun (v, size, masks) => ((v, masks), size))
      ((decodeField decodeOther other f masks place).map fun (v, size, masks) =>
        ((v, masks), size)) := by
  unfold decodeField
  cases f.slot with
  | some slot =>
    have hbits : Mirrors buffer other pos place _ _ := readUInt32_mirrors
    have hmask := hbits.map fun bits => (Value.mask bits, masks.set slot bits)
    dsimp only
    cases hfound : readUInt32 buffer pos <;> cases hother : readUInt32 other place <;>
      rw [hfound, hother] at hmask <;> exact hmask
  | none =>
    cases masks.asks f with
    | error e => exact .error e _
    | ok present =>
      dsimp only
      by_cases hpresence : f.isPresence = true
      · simp only [if_pos hpresence]
        exact .nothing _
      · simp only [if_neg hpresence]
        cases present with
        | true =>
          have hvalue := (h f.kind pos place).map fun v => (v, masks)
          simp only [if_true]
          cases hfound : decode f.kind pos <;> cases hother : decodeOther f.kind place <;>
            rw [hfound, hother] at hvalue <;> exact hvalue
        | false => exact .nothing _

theorem le_of_decodeFields : ∀ {fields : List Field} {masks : Masks} {pos stop : Nat}
    {entries : Entries}, decodeFields decode buffer fields masks pos = .ok (entries, stop) →
      pos ≤ stop := by
  intro fields
  induction fields with
  | nil =>
    intro masks pos stop entries h
    cases h
    exact Nat.le_refl pos
  | cons f rest ih =>
    intro masks pos stop entries h
    rw [decodeFields] at h
    split at h
    · cases h
    · obtain ⟨⟨_, _⟩, hrest, hpair⟩ := map_ok_iff.mp h
      cases hpair
      exact Nat.le_trans (Nat.le_add_right pos _) (ih hrest)

/-- Fields are read one behind the other, with the masks read so far. -/
theorem decodeFields_eq_chain (f : Field) (rest : List Field) (masks : Masks) (pos : Nat) :
    ((decodeFields decode buffer (f :: rest) masks pos).map fun (entries, stop) =>
        (entries, stop - pos)) =
      (chain ((decodeField decode buffer f masks pos).map fun (v, size, masks) =>
        ((v, masks), size)) fun (v, masks) size =>
          ((decodeFields decode buffer rest masks (pos + size)).map fun (entries, stop) =>
            (entries, stop - (pos + size))).map fun (entries, n) =>
              ((f.name, v) :: entries, n)) := by
  rw [decodeFields]
  cases hfield : decodeField decode buffer f masks pos with
  | error e => rfl
  | ok found =>
    obtain ⟨v, size, behind⟩ := found
    unfold chain
    dsimp only [Except.map]
    cases hrest : decodeFields decode buffer rest behind (pos + size) with
    | error e => rfl
    | ok reached =>
      have hle := le_of_decodeFields hrest
      show Except.ok (_, reached.2 - pos) = Except.ok (_, size + (reached.2 - (pos + size)))
      congr 2
      omega

/-- Fields are mirrored if the values of all kinds are. -/
theorem decodeFields_mirrors
    (h : ∀ kind pos place, Mirrors buffer other pos place (decode kind pos)
      (decodeOther kind place)) :
    ∀ (fields : List Field) (masks : Masks) (pos place : Nat), Mirrors buffer other pos place
      ((decodeFields decode buffer fields masks pos).map fun (entries, stop) =>
        (entries, stop - pos))
      ((decodeFields decodeOther other fields masks place).map fun (entries, stop) =>
        (entries, stop - place)) := by
  intro fields
  induction fields with
  | nil =>
    intro masks pos place
    simp only [decodeFields, Except.map, Nat.sub_self]
    exact .nothing _
  | cons f rest ih =>
    intro masks pos place
    rw [decodeFields_eq_chain, decodeFields_eq_chain]
    refine (decodeField_mirrors h f masks pos place).chain fun found size _ ↦ ?_
    obtain ⟨v, behind⟩ := found
    exact (ih behind (pos + size) (place + size)).map fun entries => (f.name, v) :: entries

/-- The bytes of a tag have to be there, whatever they are. -/
theorem checkHeader_mirrors (header pos place : Nat) : Mirrors buffer other pos place
    ((checkHeader buffer pos header).map fun u => (u, header))
    ((checkHeader other place header).map fun u => (u, header)) := by
  unfold checkHeader
  by_cases hzero : header = 0
  · subst hzero
    exact .nothing ()
  · simp only [if_neg hzero]
    have hensure : Mirrors buffer other pos place _ _ :=
      ensure_mirrors (Nat.pos_of_ne_zero hzero)
    cases hfound : ensure buffer pos header <;> cases hother : ensure other place header <;>
      rw [hfound, hother] at hensure <;> exact hensure

end Message

/-! ### Objects -/

namespace Schema

variable {s : Schema}

/-- A look-up that depends on the tag at a place, and on nothing else of the buffer, or not even on
the tag. Who is found by the tag has it before the fields. -/
inductive LooksUp (lookup : ByteArray → Nat → Except Error Located) : Prop
  | fixed (outcome : Except Error Located) (h : ∀ buffer pos, lookup buffer pos = outcome)
  | byTag (find : UInt32 → Except Error Located)
      (hheader : ∀ tag object, find tag = .ok object → object.header = tagLength)
      (h : ∀ buffer pos, lookup buffer pos = (readUInt32 buffer pos).bind find)

theorem LooksUp.byOption (find : UInt32 → Option Combinator) :
    LooksUp fun buffer pos =>
      match readUInt32 buffer pos with
      | .error e => .error e
      | .ok tag =>
        match find tag with
        | some c => .ok ⟨c, tagLength⟩
        | none => .error (.unknownConstructor tag) := by
  refine .byTag (fun tag => match find tag with
    | some c => .ok ⟨c, tagLength⟩
    | none => .error (.unknownConstructor tag)) ?_ fun buffer pos ↦ ?_
  · intro tag object h
    split at h
    · cases h; rfl
    · cases h
  · cases readUInt32 buffer pos <;> rfl

theorem looksUp_any (s : Schema) : LooksUp s.locateAny := .byOption s.byTag?

theorem looksUp_member (s : Schema) (typeName : String) : LooksUp (s.locateMember typeName) := by
  unfold locateMember
  by_cases htype : s.hasType typeName = true
  · simp only [if_pos htype]
    exact .byOption (s.constructorByTag? typeName)
  · simp only [if_neg htype]
    exact .fixed _ fun _ _ ↦ rfl

theorem looksUp_typed (s : Schema) (typeName : String) (bare : Bool) :
    LooksUp (s.locateTyped typeName bare) := by
  unfold locateTyped
  cases s.headerless? typeName bare with
  | error e => exact .fixed _ fun _ _ ↦ rfl
  | ok found =>
    cases found with
    | some c => exact .fixed _ fun _ _ ↦ rfl
    | none => exact s.looksUp_member typeName

theorem looksUp_locate (s : Schema) (r : Reference) :
    LooksUp fun buffer pos => s.locate buffer pos r := by
  cases r with
  | any => exact s.looksUp_any
  | typed typeName bare => exact s.looksUp_typed typeName bare
  | named name =>
    unfold locate
    dsimp only
    split
    · exact s.looksUp_typed name false
    · exact .fixed _ fun _ _ ↦ rfl

/-- Who looks up a tag looks at no bytes but those of the tag. -/
theorem LooksUp.of_sameBytes {lookup : ByteArray → Nat → Except Error Located}
    (hlookup : LooksUp lookup) {pos place : Nat} {object : Located}
    (h : lookup buffer pos = .ok object)
    (hsame : SameBytes buffer other pos place object.header) :
    lookup other place = .ok object := by
  cases hlookup with
  | fixed outcome houtcome =>
    rw [houtcome] at h ⊢
    exact h
  | byTag find hheader hfind =>
    rw [hfind] at h ⊢
    cases htag : readUInt32 buffer pos with
    | error e => rw [htag] at h; cases h
    | ok tag =>
      rw [htag] at h
      rw [hheader tag object h] at hsame
      have hstands := hsame.stands (by simp) (readUInt32_eq_ok_iff.mp htag)
      rw [readUInt32_eq_ok_iff.mpr hstands]
      exact h

/-- A buffer that ends within a tag is too short to look the tag up, if anything is looked up. -/
theorem LooksUp.of_short {lookup : ByteArray → Nat → Except Error Located}
    (hlookup : LooksUp lookup) {pos place m : Nat} {object : Located}
    (h : lookup buffer pos = .ok object) (hm : m < object.header)
    (hend : other.size = place + m) :
    lookup other place = .ok object ∨ RunsShort (lookup other place) := by
  cases hlookup with
  | fixed outcome houtcome =>
    rw [houtcome] at h ⊢
    exact .inl h
  | byTag find hheader hfind =>
    rw [hfind] at h ⊢
    cases htag : readUInt32 buffer pos with
    | error e => rw [htag] at h; cases h
    | ok tag =>
      rw [htag] at h
      have hlength : object.header = 4 := hheader tag object h
      have hshort : ¬ place + 4 ≤ other.size := by omega
      unfold readUInt32 readNat slice
      rw [if_neg hshort]
      exact .inr ⟨_, rfl, _, _, _, rfl⟩

/-- What is read of an object is its tag and, behind it, its fields. -/
theorem decodeAt_eq_chain (free : Nat) (object : Located) (pos : Nat) :
    s.decodeAt buffer (free + 1) object pos =
      (chain ((checkHeader buffer pos object.header).map fun u => (u, object.header))
        fun _ header => (decodeFields (Kind.decode (s.readWithin free buffer) buffer) buffer
          object.combinator.fields .empty (pos + header)).map fun (entries, stop) =>
            (entries, stop - (pos + header))).map fun (entries, n) =>
              (⟨object.combinator.name, object.combinator.tag, entries⟩, n) := by
  rw [decodeAt_succ]
  cases hcheck : checkHeader buffer pos object.header with
  | error e => rfl
  | ok u =>
    unfold chain
    dsimp only [Except.map]
    cases hfields : decodeFields (Kind.decode (s.readWithin free buffer) buffer) buffer
        object.combinator.fields .empty (pos + object.header) with
    | error e => rfl
    | ok reached =>
      have hle := le_of_decodeFields hfields
      show Except.ok (_, reached.2 - pos) =
        Except.ok (_, object.header + (reached.2 - (pos + object.header)))
      congr 2
      omega

/-- An object is at least as long as its tag. -/
theorem header_le_of_decodeAt {free : Nat} {object : Located} {pos n : Nat} {o : Object}
    (h : s.decodeAt buffer free object pos = .ok (o, n)) : object.header ≤ n := by
  cases free with
  | zero => cases h
  | succ free =>
    rw [decodeAt_eq_chain] at h
    obtain ⟨⟨entries, total⟩, hchain, hpair⟩ := map_ok_iff.mp h
    cases hpair
    cases hcheck : checkHeader buffer pos object.header with
    | error e => rw [hcheck] at hchain; cases hchain
    | ok u =>
      rw [hcheck] at hchain
      obtain ⟨⟨_, k⟩, _, hpair⟩ := map_ok_iff.mp hchain
      cases hpair
      exact Nat.le_add_right _ _

/-- What a reference leads to is mirrored if objects are. -/
theorem readWithin_mirrors_of {free : Nat}
    (h : ∀ (object : Located) (pos place : Nat), Mirrors buffer other pos place
      (s.decodeAt buffer free object pos) (s.decodeAt other free object place))
    (r : Reference) (pos place : Nat) :
    Mirrors buffer other pos place (s.readWithin free buffer r pos)
      (s.readWithin free other r place) := by
  unfold readWithin
  cases hlocate : s.locate buffer pos r with
  | error e => exact .error e _
  | ok object =>
    dsimp only
    constructor
    · exact (h object pos place).fits
    · intro o n hfound hsame
      obtain ⟨rest, rfl⟩ := Nat.exists_eq_add_of_le (header_le_of_decodeAt hfound)
      rw [(s.looksUp_locate r).of_sameBytes hlocate hsame.front]
      exact (h object pos place).whole o _ hfound hsame
    · intro o n m hfound hm hsame hend
      have hcut := (h object pos place).cut o n m hfound hm hsame hend
      -- A buffer that ends within the tag may still lead to the object; then reading the object
      -- is what fails.
      by_cases htag : m < object.header
      · rcases (s.looksUp_locate r).of_short hlocate htag hend with hother | hshort
        · rw [hother]
          exact hcut
        · obtain ⟨e, herror, he⟩ := hshort
          rw [herror]
          exact ⟨e, rfl, he⟩
      · obtain ⟨rest, rfl⟩ := Nat.exists_eq_add_of_le (Nat.le_of_not_lt htag)
        rw [(s.looksUp_locate r).of_sameBytes hlocate hsame.front]
        exact hcut

/-- Objects are mirrored, whatever the number of guards left. -/
theorem decodeAt_mirrors (s : Schema) : ∀ (free : Nat) (object : Located) (pos place : Nat),
    Mirrors buffer other pos place (s.decodeAt buffer free object pos)
      (s.decodeAt other free object place) := by
  intro free
  induction free with
  | zero => intro object pos place; exact .error _ _
  | succ free ih =>
    intro object pos place
    have hkinds := Kind.decode_mirrors (readWithin_mirrors_of ih)
    rw [decodeAt_eq_chain, decodeAt_eq_chain]
    refine Mirrors.map ((checkHeader_mirrors object.header pos place).chain fun u header _ ↦ ?_)
      fun entries => (⟨object.combinator.name, object.combinator.tag, entries⟩ : Object)
    exact decodeFields_mirrors hkinds object.combinator.fields .empty (pos + header)
      (place + header)

theorem readWithin_mirrors (s : Schema) (free : Nat) (r : Reference) (pos place : Nat) :
    Mirrors buffer other pos place (s.readWithin free buffer r pos)
      (s.readWithin free other r place) :=
  readWithin_mirrors_of (s.decodeAt_mirrors free) r pos place

/-- An object that was read is read wherever its bytes stand, whatever stands before and behind
them, and any buffer that ends before the last of them is truncated. -/
theorem read_depends_on_bytes_read (s : Schema) {held : Nat} {r : Reference} {offset n : Nat}
    {o : Object} (h : s.read held r buffer offset = .ok (o, n)) :
    (∀ (other : ByteArray) (place : Nat),
      other.extract place (place + n) = buffer.extract offset (offset + n) →
        s.read held r other place = .ok (o, n)) ∧
    ∀ k, offset ≤ k → k < offset + n →
      ∃ e, s.read held r (buffer.extract 0 k) offset = .error e ∧ e.IsTruncated ∧
        e.isDecodeError = true := by
  have hmirrors : ∀ (other : ByteArray) (place : Nat), Mirrors buffer other offset place
      (s.read held r buffer offset) (s.read held r other place) :=
    fun other place ↦ s.readWithin_mirrors (Depth.limit - held) r offset place
  constructor
  · intro other place hsame
    exact (hmirrors other place).whole o n h (SameBytes.iff_extract_eq.mpr hsame)
  · intro k hk hcut
    have hfits := (hmirrors buffer offset).fits o n h (by omega)
    have hsize : (buffer.extract 0 k).size = offset + (k - offset) := by
      rw [ByteArray.size_extract]
      omega
    have hsame : SameBytes buffer (buffer.extract 0 k) offset offset (k - offset) := by
      intro i hi
      have hfront := getElem?_extract buffer 0 k (offset + i)
      rw [Nat.zero_add, Nat.zero_add, if_pos (by omega)] at hfront
      exact hfront.symm
    obtain ⟨e, herror, he⟩ :=
      (hmirrors (buffer.extract 0 k) offset).cut o n (k - offset) h (by omega) hsame hsize
    exact ⟨e, herror, he, he.isDecodeError⟩

/-- A line is read between other bytes as it is by itself, and not at all without its last bytes. -/
theorem read_line_between_bytes :
    ∃ o, lineSchema.read 1 .any lineBytes 0 = .ok (o, 32) ∧
      lineSchema.read 1 .any (⟨#[9, 9, 9]⟩ ++ lineBytes ++ ⟨#[8]⟩) 3 = .ok (o, 32) ∧
      ∃ e, lineSchema.read 1 .any (lineBytes.extract 0 21) 0 = .error e ∧ e.IsTruncated ∧
        e.isDecodeError = true := by
  have hrun : ((lineSchema.read 1 .any lineBytes 0).toOption.map Prod.snd) = some 32 := by
    decide +kernel
  obtain ⟨⟨o, n⟩, hfound, rfl⟩ := Option.map_eq_some_iff.mp hrun
  have hread := ok_of_toOption hfound
  obtain ⟨hsame, hcut⟩ := lineSchema.read_depends_on_bytes_read hread
  exact ⟨o, hread, hsame _ 3 (by decide +kernel), hcut 21 (by decide) (by decide)⟩

end Schema

end TypeLang
