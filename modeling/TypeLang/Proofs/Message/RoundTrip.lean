import TypeLang.Proofs.Message.Building
import TypeLang.Proofs.Message.Measurement
import TypeLang.Proofs.Message.Reading

/-!
What is built is read back. `Schema.normal` says what a supplied value is read as: integers take the
type of their field, bytes that are already an object or vector become that, and of items that
occupy no bytes only the first is left. What is written has the wire form of the normal value
(`Schema.Written.readsBack`), so that an object is read as `Schema.normalObject` says
(`Schema.read_build_eq`).
-/

set_option autoImplicit false
set_option relaxedAutoImplicit false

namespace TypeLang

open Wire Message

/-! ### Normal values -/

namespace Schema

/-- What a value that is no vector and no object is read as. Bytes supplied for a vector or object
are read themselves. -/
def normalPlain (s : Schema) (kind : Kind) (v : Value) : Value :=
  match kind, v with
  | .mask, .int x => .mask x.toUInt32
  | .long, .int x => .long x.toInt64
  | .int128, .bytes raw => .int128 (wordOf 16 raw)
  | .int256, .bytes raw => .int256 (wordOf 32 raw)
  | .presence, .bool _ => .bool true
  | kind, .bytes raw =>
    if kind.isContainer then ((s.decodeKind 0 raw kind 0).map Prod.fst).toOption.getD (.bytes raw)
    else .bytes raw
  | _, v => v

/-- The entry of a field in an object that is read: a mask, a bit, the value of a field that is
there or the zero of one that is not. -/
def normalField (masks : Masks) (value : Field → Value) (f : Field) : String × Value :=
  (f.name,
    match f.slot with
    | some slot => .mask (masks slot)
    | none =>
      if f.isPresence then .bool (masks.opens f)
      else if masks.opens f then value f
      else f.kind.zero)

/-- Whether an item is written as no bytes at all. -/
def occupiesNothing (s : Schema) (element : Kind) (v : Value) : Bool :=
  match valueLength s "" element v with
  | .ok size => size == 0
  | .error _ => false

mutual

/-- What a value of some kind is read as. -/
def normal (s : Schema) (kind : Kind) : Value → Value
  | .vector items =>
    match kind with
    | .vector _ element => .vector (normalItems s element items)
    | kind => normalPlain s kind (.vector items)
  | .object ⟨name, tag, entries⟩ =>
    match s.combinator? name with
    | some c =>
      .object ⟨c.name, c.tag, c.fields.map (normalField (impliedMasks c.fields entries)
        fun f => normalEntry s f.kind f.name entries)⟩
    | none => normalPlain s kind (.object ⟨name, tag, entries⟩)
  | v => normalPlain s kind v

/-- What the items of a vector are read as, up to the first that occupies no bytes. -/
def normalItems (s : Schema) (element : Kind) : List Value → List Value
  | [] => []
  | v :: rest =>
    if s.occupiesNothing element v then [normal s element v]
    else normal s element v :: normalItems s element rest

/-- What the first value under a name is read as, or the zero where there is none. -/
def normalEntry (s : Schema) (kind : Kind) (name : String) : List (String × Value) → Value
  | [] => kind.zero
  | (other, v) :: rest =>
    if other = name then normal s kind v else normalEntry s kind name rest

end

/-- What an object of a combinator with the given entries is read as: it has an entry for every
field, in order. -/
def normalObject (s : Schema) (c : Combinator) (entries : Entries) : Object :=
  ⟨c.name, c.tag, c.fields.map (normalField (impliedMasks c.fields entries)
    fun f => s.normalEntry f.kind f.name entries)⟩

theorem normal_leaf {s : Schema} {kind : Kind} {v : Value} (hvector : v.toItems? = none)
    (hobject : v.toObject? = none) : s.normal kind v = s.normalPlain kind v := by
  cases v with
  | vector items => cases hvector
  | object o => cases hobject
  | _ => rw [normal] <;> exact nofun

theorem normal_object {s : Schema} {kind : Kind} {name : String} {tag : Option UInt32}
    {entries : Entries} {c : Combinator} (h : s.combinator? name = some c) :
    s.normal kind (.object ⟨name, tag, entries⟩) = .object (s.normalObject c entries) := by
  rw [normal, h]
  rfl

theorem normalEntry_eq (s : Schema) (kind : Kind) (name : String) (entries : Entries) :
    s.normalEntry kind name entries =
      match entries.find? name with
      | some v => s.normal kind v
      | none => kind.zero := by
  induction entries with
  | nil => rw [normalEntry]; rfl
  | cons first rest ih =>
    obtain ⟨other, v⟩ := first
    rw [normalEntry, Entries.find?_cons]
    by_cases hname : other = name
    · rw [if_pos hname, if_pos hname]
    · rw [if_neg hname, if_neg hname, ih]

/-- A zero is read as itself, that of a presence field apart. -/
theorem normal_zero (s : Schema) {kind : Kind} (hkind : kind ≠ .presence) :
    s.normal kind kind.zero = kind.zero := by
  cases kind with
  | vector boxed element => simp only [Kind.zero, normal, normalItems]
  | presence => exact absurd rfl hkind
  | _ => rw [normal_leaf rfl rfl]; rfl

theorem normalEntry_eq_getD (s : Schema) {kind : Kind} (hkind : kind ≠ .presence) (name : String)
    (entries : Entries) :
    s.normalEntry kind name entries = s.normal kind ((entries.find? name).getD kind.zero) := by
  rw [normalEntry_eq]
  cases entries.find? name with
  | none => exact (s.normal_zero hkind).symm
  | some v => rfl

/-! ### What is written has the wire form of the normal value -/

variable {s : Schema} {held : Nat}

theorem plainWritten_wireForm {kind : Kind} {v : Value} {bytes : ByteArray}
    (h : kind.PlainWritten v bytes) :
    ∃ sites, s.WireForm (.value kind (s.normal kind v)) bytes sites := by
  cases h with
  | @mask v bits h =>
    have hnormal : s.normal .mask v = .mask bits := by
      cases v <;> cases h <;> rw [normal_leaf rfl rfl] <;> rfl
    rw [hnormal]
    exact ⟨[], .plain (.mask bits)⟩
  | @long v x h =>
    have hnormal : s.normal .long v = .long x := by
      cases v <;> cases h <;> rw [normal_leaf rfl rfl] <;> rfl
    rw [hnormal]
    exact ⟨[], .plain (.long x)⟩
  | int x => rw [normal_leaf rfl rfl]; exact ⟨[], .plain (.int x)⟩
  | double x => rw [normal_leaf rfl rfl]; exact ⟨[], .plain (.double x)⟩
  | int128 x => rw [normal_leaf rfl rfl]; exact ⟨[], .plain (.int128 x)⟩
  | int256 x => rw [normal_leaf rfl rfl]; exact ⟨[], .plain (.int256 x)⟩
  | bool b => rw [normal_leaf rfl rfl]; exact ⟨[], .plain (.bool b)⟩
  | presence b => rw [normal_leaf rfl rfl]; exact ⟨[], .plain .presence⟩
  | @rawInt128 raw h =>
    rw [normal_leaf rfl rfl]
    have hplain := Kind.PlainForm.int128 (wordOf 16 bytes)
    rw [encodeWord_wordOf h] at hplain
    exact ⟨[], .plain hplain⟩
  | @rawInt256 raw h =>
    rw [normal_leaf rfl rfl]
    have hplain := Kind.PlainForm.int256 (wordOf 32 bytes)
    rw [encodeWord_wordOf h] at hplain
    exact ⟨[], .plain hplain⟩
  | bytes h =>
    rw [normal_leaf rfl rfl, ← ByteString.bytes_canonicalForm _ h]
    exact ⟨_, .byteString (.inl rfl) (ByteString.canonicalForm _ h)⟩
  | string h =>
    rw [normal_leaf rfl rfl, ← ByteString.bytes_canonicalForm _ h]
    exact ⟨_, .byteString (.inr rfl) (ByteString.canonicalForm _ h)⟩

/-- Bytes that are measured as a value are that value in some wire form. -/
theorem raw_wireForm {kind : Kind} {raw : ByteArray} (hkind : kind.isContainer = true)
    (hsize : (s.measureKind held raw kind 0).outcome = .ok raw.size) :
    ∃ sites, s.WireForm (.value kind (s.normal kind (.bytes raw))) raw sites := by
  have houtcome := (measureKind_measuresAs s held kind 0 (Nat.zero_le raw.size)).outcome_eq
  rw [hsize] at houtcome
  obtain ⟨⟨v, size⟩, hdecode, rfl⟩ := map_ok_iff.mp houtcome.symm
  obtain ⟨bytes, sites, hform, hstands, hbytes, hheight⟩ :=
    foundAt_of_decodeKind (Nat.zero_le raw.size) hdecode
  obtain rfl := hstands.unique (Stands.self raw) hbytes
  have hread : s.decodeKind 0 bytes kind 0 = .ok (v, bytes.size) :=
    hform.readsAt (Nat.le_trans hheight (Nat.sub_le _ _)) hstands
  have hnormal : s.normal kind (.bytes bytes) = v := by
    rw [normal_leaf rfl rfl]
    have hplain : s.normalPlain kind (.bytes bytes) =
        ((s.decodeKind 0 bytes kind 0).map Prod.fst).toOption.getD (.bytes bytes) := by
      cases kind <;> first | rfl | cases hkind
    rw [hplain, hread]
    rfl
  rw [hnormal]
  exact ⟨sites, hform⟩

end Schema

/-- What is supplied has, as the bytes it is written as, the wire form of what it is read as. The
masks that a reader knows need only agree with those before the fields. -/
def Supply.ReadsBack (s : Schema) (bytes : ByteArray) : Supply → Prop
  | .value kind v => ∃ sites, s.WireForm (.value kind (s.normal kind v)) bytes sites
  | .items element vs =>
    ∃ sites, s.WireForm (.items element vs.length (s.normalItems element vs)) bytes sites
  | .body masks entries fields =>
    ∀ (n : Nat) (known : Masks), Field.Numbered n fields → Masks.AgreeBelow n known masks →
      ∃ sites, s.WireForm (.fields fields known (fields.map (Schema.normalField masks
        fun f => s.normalEntry f.kind f.name entries))) bytes sites

namespace Schema

variable {s : Schema} {held : Nat}

/-- Behind an item without bytes there are none. -/
theorem WireForm.size_items_eq_zero {element : Kind} {v : Value} {bytes behind : ByteArray}
    {sites sitesBehind : List Site} (hitem : s.WireForm (.value element v) bytes sites)
    (hsize : bytes.size = 0) {count : Nat} {items : List Value}
    (hitems : s.WireForm (.items element count items) behind sitesBehind) : behind.size = 0 := by
  cases hitems with
  | noItems => rfl
  | lastItem hnone _ => exact hnone
  | item hsome hother _ => exact absurd ((hitem.size_eq_zero_iff hother).mpr hsize) hsome

/-- What is written is read back. -/
theorem Written.readsBack (hsound : s.Sound) (hnames : s.NamesApart) {supply : Supply}
    {bytes : ByteArray} (h : s.Written held supply bytes) : supply.ReadsBack s bytes := by
  induction h with
  | plain h => exact plainWritten_wireForm h
  | raw hkind hsize => exact raw_wireForm hkind hsize
  | @vector boxed element items bytes hcount _ ih =>
    obtain ⟨sites, hform⟩ := ih
    refine ⟨.vector items.length bytes.size :: sites, ?_⟩
    rw [normal]
    exact .vector hcount hform
  | @object kind r name tag object masks entries bytes hkind hlocate hmasks _ ih =>
    obtain ⟨hleads, rfl⟩ := leads_of_locateObject hsound hnames hkind hlocate
    have hc := hleads.mem
    have hnumbered := (hsound.combinator_sound _ hc).numbered
    obtain ⟨rfl, -, -⟩ := (resolveMasks_eq_ok_iff hnumbered).mp hmasks
    obtain ⟨sites, hform⟩ := ih 0 .empty hnumbered nofun
    refine ⟨sites, ?_⟩
    rw [normal_object (hsound.combinator?_eq hc)]
    exact .object hkind hleads hform
  | noItems element =>
    refine ⟨[], ?_⟩
    rw [normalItems]
    exact .noItems element
  | @item element v rest bytes behind hitem _ ihItem ihRest =>
    obtain ⟨sites, hform⟩ := ihItem
    obtain ⟨sitesRest, hformRest⟩ := ihRest
    have hlength : s.occupiesNothing element v = (bytes.size == 0) := by
      unfold occupiesNothing
      rw [hitem.measures ""]
    show ∃ sites, s.WireForm (.items element (v :: rest).length
      (s.normalItems element (v :: rest))) (bytes ++ behind) sites
    rw [normalItems, List.length_cons, hlength]
    by_cases hsize : bytes.size = 0
    · rw [if_pos (beq_iff_eq.mpr hsize)]
      have hbehind := hform.size_items_eq_zero hsize hformRest
      rw [ByteArray.size_eq_zero_iff.mp hbehind, ByteArray.append_empty]
      exact ⟨sites, .lastItem hsize hform⟩
    · rw [if_neg (by rwa [beq_iff_eq])]
      exact ⟨_, .item hsize hform hformRest⟩
  | noFields masks entries =>
    intro n known _ _
    exact ⟨[], .noFields known⟩
  | @mask f slot rest masks entries bytes hslot _ ih =>
    intro n known hnumbered hagree
    cases hnumbered with
    | plain hnone _ _ _ => rw [hnone] at hslot; cases hslot
    | mask _ hrest =>
      cases hslot
      obtain ⟨sites, hform⟩ := ih (slot + 1) _ hrest hagree.set_succ
      exact ⟨sites, .mask rfl hform⟩
  | @omitted f rest masks entries bytes hslot homit _ ih =>
    intro n known hnumbered hagree
    cases hnumbered with
    | mask _ _ => cases hslot
    | plain _ _ hgate hrest =>
      obtain ⟨sites, hform⟩ := ih n known hrest hagree
      have hasks : known.asks f = .ok (masks.opens f) := by
        rw [← hagree.opens_eq fun g hg ↦ (hgate g hg).1]
        exact Masks.asks_eq fun g hg ↦ (hgate g hg).2
      refine ⟨sites, ?_⟩
      rw [List.map_cons]
      unfold normalField
      rw [hslot]
      dsimp only
      by_cases hpresence : f.isPresence = true
      · rw [if_pos hpresence]
        exact .presence hslot hpresence hasks hform
      · have hpresence := Bool.eq_false_iff.mpr hpresence
        have hclosed : masks.opens f = false := by
          simpa [hpresence] using Masks.omits_of_skips homit
        rw [hclosed] at hasks
        rw [if_neg (Bool.eq_false_iff.mp hpresence), if_neg (Bool.eq_false_iff.mp hclosed)]
        exact .absent hslot hpresence hasks hform
  | @present f rest masks entries bytes behind hslot homit _ _ ihValue ihRest =>
    intro n known hnumbered hagree
    cases hnumbered with
    | mask _ _ => cases hslot
    | plain _ _ hgate hrest =>
      obtain ⟨hpresence, hopens⟩ := Bool.or_eq_false_iff.mp (Masks.omits_of_skips homit)
      have hopens : masks.opens f = true := by simpa using hopens
      have hkind : f.kind ≠ .presence := by
        intro hkind
        unfold Field.isPresence at hpresence
        rw [hkind] at hpresence
        cases hpresence
      obtain ⟨sites, hform⟩ := ihValue
      obtain ⟨sitesRest, hformRest⟩ := ihRest n known hrest hagree
      have hasks : known.asks f = .ok true := by
        rw [← hopens, ← hagree.opens_eq fun g hg ↦ (hgate g hg).1]
        exact Masks.asks_eq fun g hg ↦ (hgate g hg).2
      refine ⟨sites ++ sitesRest, ?_⟩
      rw [List.map_cons]
      unfold normalField
      rw [hslot]
      dsimp only
      rw [if_neg (Bool.eq_false_iff.mp hpresence), if_pos hopens, s.normalEntry_eq_getD hkind]
      exact .present hslot hpresence hasks hform hformRest

/-- What is built from entries for a combinator is read under its name as the normal object of these
entries, if that is nested no deeper than there are guards. It has one entry to an argument, in the
order of the arguments. -/
theorem read_build_eq {source : String} (hcompile : compile source = .ok s)
    (hnames : s.NamesApart) {c : Combinator} (hc : c ∈ s.combinators) {entries : Entries}
    {bytes : ByteArray} (hbuild : (s.build held c.name entries).outcome = .ok bytes)
    (hheight : (s.normalObject c entries).height ≤ Depth.limit) :
    s.read 0 (.named c.name) bytes 0 = .ok (s.normalObject c entries, bytes.size) ∧
      (s.normalObject c entries).fields.map Prod.fst =
        c.declaration.arguments.map Argument.name := by
  have hsound := sound_of_compile hcompile
  have hcsound := hsound.combinator_sound c hc
  obtain ⟨d, masks, body, hd, hmasks, hbody, rfl⟩ := (build_eq_ok_iff hsound).mp hbuild
  rw [hsound.combinator?_eq hc] at hd
  cases hd
  obtain ⟨rfl, -, -⟩ := (resolveMasks_eq_ok_iff hcsound.numbered).mp hmasks
  obtain ⟨sites, hform⟩ :=
    hbody.readsBack hsound hnames 0 .empty hcsound.numbered nofun
  constructor
  · exact read_named_eq_ok hsound hc (size_tagBytes_located c) hform hheight (Stands.self _)
  · show (c.fields.map _).map Prod.fst = _
    rw [List.map_map, ← hcsound.names_eq]
    rfl

/-- A line whose mask is left out, with a label and a next line, is read back from its bytes. -/
theorem read_lineBytes_eq :
    (lineSchema.build 0 line.name
        [("label", .bytes ⟨#[97]⟩),
          ("next", .object ⟨"line", none, [("points", .vector [.int 7])]⟩),
          ("points", .vector [])]).outcome = .ok lineBytes ∧
      ∃ o, lineSchema.read 0 (.named line.name) lineBytes 0 = .ok (o, 32) ∧
        o.fields.map Prod.fst = ["flags", "label", "next", "points"] := by
  have hbuild := ok_of_toOption (show (lineSchema.build 0 line.name
    [("label", .bytes ⟨#[97]⟩), ("next", .object ⟨"line", none, [("points", .vector [.int 7])]⟩),
      ("points", .vector [])]).outcome.toOption = some lineBytes by decide +kernel)
  obtain ⟨hread, hnames⟩ := read_build_eq compile_lineSource (by decide +kernel)
    (List.mem_singleton.mpr rfl) hbuild (by decide +kernel)
  exact ⟨hbuild, _, hread, hnames⟩

end Schema

end TypeLang
