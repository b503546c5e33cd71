import Mathlib.Data.List.Forall2
import TypeLang.Proofs.Message.Locality
import TypeLang.Proofs.Message.Measurement
import TypeLang.Proofs.Wire.VectorItems

/-!
Views of vectors and vectors that are decoded. A view is made by measuring its items where they
stand, and they are read later, at places counted from the start of its own bytes. A decoder reads
them at once. `ReadsAs` says of a type that its values are measured and read as values of a kind are
decoded, in every buffer. Because an item is read the same wherever its bytes stand, that passes
from the items to a view of them (`ReadsAs.read_view`), and so to vectors within vectors
(`ElementType.readsAs`). Whatever the items are, making a view, measuring the vector and decoding it
come to the same (`vector_view_agrees_with_decoder`).
-/

set_option autoImplicit false
set_option relaxedAutoImplicit false

namespace TypeLang

open Wire Message

/-! ### Outcomes that agree -/

/-- Two outcomes are the same error, or are successes that are related. -/
inductive SameOutcome {α β : Type} (rel : α → β → Prop) : Except Error α → Except Error β → Prop
  | failed (e : Error) : SameOutcome rel (.error e) (.error e)
  | found {a : α} {b : β} (h : rel a b) : SameOutcome rel (.ok a) (.ok b)

/-- Values that agree and have the same length. -/
def Paired {α β : Type} (agrees : α → β → Prop) (x : α × Nat) (y : β × Nat) : Prop :=
  agrees x.1 y.1 ∧ x.2 = y.2

namespace SameOutcome

variable {α β α' β' : Type}

theorem map {rel : α → β → Prop} {rel' : α' → β' → Prop} {x : Except Error α}
    {y : Except Error β} (h : SameOutcome rel x y) {f : α → α'} {g : β → β'}
    (hmap : ∀ a b, rel a b → rel' (f a) (g b)) : SameOutcome rel' (x.map f) (y.map g) := by
  cases h with
  | failed e => exact .failed e
  | found h => exact .found (hmap _ _ h)

theorem imp {rel rel' : α → β → Prop} {x : Except Error α} {y : Except Error β}
    (h : SameOutcome rel x y) (himp : ∀ a b, rel a b → rel' a b) : SameOutcome rel' x y := by
  cases h with
  | failed e => exact .failed e
  | found h => exact .found (himp _ _ h)

/-- Items are collected the same if each is read the same. -/
theorem collect {agrees : α → β → Prop} {read : Nat → Except Error (α × Nat)}
    {other : Nat → Except Error (β × Nat)}
    (h : ∀ pos, SameOutcome (Paired agrees) (read pos) (other pos)) :
    ∀ count pos, SameOutcome (List.Forall₂ (Paired agrees)) (Vectors.collect read count pos)
      (Vectors.collect other count pos) := by
  intro count
  induction count with
  | zero => intro pos; exact .found .nil
  | succ count ih =>
    intro pos
    have hitem := h pos
    rw [Vectors.collect, Vectors.collect]
    generalize read pos = x at hitem ⊢
    generalize other pos = y at hitem ⊢
    cases hitem with
    | failed e => exact .failed e
    | @found entry otherEntry hpair =>
      obtain ⟨a, n⟩ := entry
      obtain ⟨b, m⟩ := otherEntry
      obtain rfl : n = m := hpair.2
      cases n with
      | zero => exact .found (.cons hpair .nil)
      | succ n => exact (ih (pos + (n + 1))).map fun _ _ hrest ↦ .cons hpair hrest

end SameOutcome

theorem occupied_eq_of_paired {α β : Type} {agrees : α → β → Prop} {found : List (α × Nat)}
    {other : List (β × Nat)} (h : List.Forall₂ (Paired agrees) found other) :
    Vectors.occupied found = Vectors.occupied other := by
  induction h with
  | nil => rfl
  | cons hpair _ ih => rw [Vectors.occupied_cons, Vectors.occupied_cons, hpair.2, ih]

/-- Items that are read wherever their bytes stand are collected wherever the bytes of all of them
stand. -/
theorem Wire.Vectors.collect_of_sameBytes {α : Type} {buffer other : ByteArray}
    {read readOther : Nat → Except Error (α × Nat)}
    (h : ∀ pos place a n, read pos = .ok (a, n) → SameBytes buffer other pos place n →
      readOther place = .ok (a, n)) :
    ∀ {count pos place : Nat} {found : List (α × Nat)}, collect read count pos = .ok found →
      SameBytes buffer other pos place (occupied found) →
        collect readOther count place = .ok found := by
  intro count
  induction count with
  | zero => intro pos place found hfound _; exact hfound
  | succ count ih =>
    intro pos place found hfound hsame
    obtain ⟨item, length, rest, hitem, rfl, hrest⟩ := collect_succ_eq_ok hfound
    rw [occupied_cons] at hsame
    have hother := h pos place item length hitem hsame.front
    obtain ⟨rfl, rfl⟩ | ⟨hlength, hrest⟩ := hrest
    · simp only [collect, hother]
    · obtain ⟨length, rfl⟩ := Nat.exists_eq_succ_of_ne_zero hlength
      simp only [collect, hother, ih hrest hsame.behind]
      rfl

/-! ### Views -/

namespace Wire.VectorView

variable {α : Type}

theorem countItems_eq_collect {size : Nat → Except Error Nat}
    {read : Nat → Except Error (α × Nat)} (h : ∀ pos, size pos = (read pos).map Prod.snd) :
    ∀ counted declared pos, countItems size counted declared pos =
      (Vectors.collect read declared pos).map fun found =>
        (counted + found.length, pos + Vectors.occupied found) := by
  intro counted declared
  induction declared generalizing counted with
  | zero => intro pos; rfl
  | succ declared ih =>
    intro pos
    have hsize := h pos
    cases hitem : read pos with
    | error e =>
      rw [hitem, Except.map] at hsize
      simp only [countItems, Vectors.collect, hitem, hsize, Except.map]
    | ok pair =>
      obtain ⟨item, length⟩ := pair
      rw [hitem, Except.map] at hsize
      cases length with
      | zero => simp [countItems, Vectors.collect, hitem, hsize, Except.map]
      | succ length =>
        simp only [countItems, Vectors.collect, hitem, hsize, ih]
        cases Vectors.collect read declared (pos + (length + 1)) with
        | error e => rfl
        | ok rest => simp [Except.map, Nat.add_assoc, Nat.add_comm 1]

theorem mapM_id_map_ok (items : List α) :
    (items.map (Except.ok : α → Except Error α)).mapM id = .ok items := by
  induction items with
  | nil => rfl
  | cons item rest ih =>
    rw [List.map_cons, List.mapM_cons, ih]
    rfl

variable [Readable α]

/-- Items that can be collected are read again one by one, as many as there are. -/
theorem itemsAt_of_collect {bytes : ByteArray} :
    ∀ {count pos : Nat} {found : List (α × Nat)},
      Vectors.collect (Readable.read bytes) count pos = .ok found →
        ∀ done : Array (Except Error α), itemsAt bytes done found.length pos =
          done ++ (found.map fun entry => .ok entry.1).toArray := by
  intro count
  induction count with
  | zero =>
    intro pos found h done
    cases h
    simp [itemsAt]
  | succ count ih =>
    intro pos found h done
    obtain ⟨item, length, rest, hitem, rfl, hrest⟩ := Vectors.collect_succ_eq_ok h
    rw [List.length_cons, itemsAt, hitem]
    obtain ⟨rfl, rfl⟩ | ⟨hlength, hrest⟩ := hrest
    · simp
    · obtain ⟨length, rfl⟩ := Nat.exists_eq_succ_of_ne_zero hlength
      show itemsAt bytes (done.push (.ok item)) rest.length (pos + (length + 1)) = _
      rw [ih hrest]
      simp

/-- The view of some collected items that stand at a place. -/
def ofCollected (buffer : ByteArray) (pos header : Nat) (found : List (α × Nat)) : VectorView α :=
  ⟨buffer.extract pos (pos + (header + Vectors.occupied found)), found.length, header⟩

theorem read_eq_collect (h : ∀ buffer pos, Readable.sizeOf α buffer pos =
      (Readable.read (α := α) buffer pos).map Prod.snd) (buffer : ByteArray) (pos : Nat)
    (boxed : Bool) :
    VectorView.read (α := α) buffer pos boxed =
      (Vectors.readHeader buffer pos boxed).bind fun (count, header) =>
        (Vectors.collect (Readable.read buffer) count (pos + header)).map fun found =>
          (ofCollected buffer pos header found, header + Vectors.occupied found) := by
  unfold VectorView.read
  cases Vectors.readHeader buffer pos boxed with
  | error e => rfl
  | ok pair =>
    obtain ⟨count, header⟩ := pair
    dsimp only [Except.bind]
    rw [countItems_eq_collect (h buffer)]
    cases Vectors.collect (Readable.read (α := α) buffer) count (pos + header) with
    | error e => rfl
    | ok found => simp [Except.map, ofCollected, Nat.add_assoc]

theorem sizeOf_eq_read (h : ∀ buffer pos, Readable.sizeOf α buffer pos =
      (Readable.read (α := α) buffer pos).map Prod.snd) (buffer : ByteArray) (pos : Nat)
    (boxed : Bool) :
    VectorView.sizeOf α buffer pos boxed =
      (VectorView.read (α := α) buffer pos boxed).map Prod.snd := by
  rw [read_eq_collect h]
  unfold VectorView.sizeOf
  rw [Vectors.sizeOf_outcome_eq_collect (h buffer)]
  cases Vectors.readHeader buffer pos boxed with
  | error e => rfl
  | ok pair =>
    obtain ⟨count, header⟩ := pair
    show Except.map _ _ = Except.map _ (Except.map _ _)
    cases Vectors.collect (Readable.read (α := α) buffer) count (pos + header) <;> rfl

/-- A view yields as many items as it counts, all of them read, and they agree with the items of a
vector. -/
structure Yields (agrees : α → Value → Prop) (view : VectorView α) (items : List α)
    (values : List Value) : Prop where
  items_eq : view.items = items.map .ok
  toList_eq : view.toList = .ok items
  length_eq : items.length = view.count
  agree : List.Forall₂ agrees items values

/-- The items of a view agree with those of a vector. -/
def Lists (agrees : α → Value → Prop) (view : VectorView α) (v : Value) : Prop :=
  ∃ items values, v = .vector values ∧ view.Yields agrees items values

theorem yields_of_collect {agrees : α → Value → Prop} {bytes : ByteArray} {count header : Nat}
    {found : List (α × Nat)} {values : List (Value × Nat)}
    (h : Vectors.collect (Readable.read bytes) count header = .ok found)
    (hpaired : List.Forall₂ (Paired agrees) found values) :
    Yields agrees ⟨bytes, found.length, header⟩ (found.map Prod.fst) (values.map Prod.fst) := by
  have hitems : items ⟨bytes, found.length, header⟩ = (found.map Prod.fst).map .ok := by
    unfold items
    rw [itemsAt_of_collect h]
    simp
  refine ⟨hitems, ?_, List.length_map Prod.fst, ?_⟩
  · unfold VectorView.toList
    rw [hitems, mapM_id_map_ok]
  · rw [List.forall₂_map_left_iff, List.forall₂_map_right_iff]
    exact hpaired.imp fun _ _ hpair ↦ hpair.1

end Wire.VectorView

/-! ### Types that are read as kinds are decoded -/

/-- Values of a type are measured as they are read, and read as values of a kind are decoded. -/
structure ReadsAs (s : Schema) (held : Nat) (α : Type) [Readable α] (kind : Kind)
    (agrees : α → Value → Prop) : Prop where
  sizeOf_eq : ∀ buffer pos,
    Readable.sizeOf α buffer pos = (Readable.read (α := α) buffer pos).map Prod.snd
  same : ∀ buffer pos, SameOutcome (Paired agrees) (Readable.read (α := α) buffer pos)
    (s.decodeKind held buffer kind pos)

namespace ReadsAs

variable {s : Schema} {held : Nat} {α : Type} {kind : Kind}

theorem ofWidth {width : Nat} {read : ByteArray → Nat → Except Error α} {wrap : α → Value}
    (hmeasure : ∀ buffer pos, MeasuresAs (ensure buffer pos width)
      ((read buffer pos).map fun a => (a, width)) buffer pos)
    (hdecode : ∀ buffer pos,
      s.decodeKind held buffer kind pos = sized wrap width (read buffer pos)) :
    @ReadsAs s held α (.ofWidth width read) kind fun a v => v = wrap a := by
  refine @ReadsAs.mk s held α (.ofWidth width read) _ _ (fun buffer pos ↦ ?_) fun buffer pos ↦ ?_
  · exact (hmeasure buffer pos).outcome_eq
  · rw [hdecode]
    show SameOutcome _ ((read buffer pos).map _) ((read buffer pos).map _)
    cases read buffer pos with
    | error e => exact .failed e
    | ok a => exact .found ⟨rfl, rfl⟩

variable [Readable α] {agrees : α → Value → Prop}

/-- The items of a view, read again from its own bytes alone, are those that were decoded. -/
theorem lists_ofCollected (h : ReadsAs s held α kind agrees) {buffer : ByteArray}
    {pos count header : Nat} {found : List (α × Nat)} {values : List (Value × Nat)}
    (hvalues : Vectors.collect (s.decodeKind held buffer kind) count (pos + header) = .ok values)
    (hpaired : List.Forall₂ (Paired agrees) found values) :
    (VectorView.ofCollected buffer pos header found).Lists agrees
      (.vector (values.map Prod.fst)) := by
  have hoccupied := occupied_eq_of_paired hpaired
  unfold VectorView.ofCollected
  generalize hslice : buffer.extract pos (pos + (header + Vectors.occupied found)) = slice
  have hsame : SameBytes buffer slice (pos + header) header (Vectors.occupied values) := by
    intro i hi
    have hbyte := getElem?_extract buffer pos (header + Vectors.occupied found) (header + i)
    rw [hslice, if_pos (by omega), ← Nat.add_assoc] at hbyte
    exact hbyte.symm
  -- Only the decoder is known to find the same items elsewhere, so it goes to the slice first and
  -- the items of the view follow it there.
  have hdecoded : Vectors.collect (s.decodeKind held slice kind) count header = .ok values :=
    Vectors.collect_of_sameBytes
      (fun at_ place v n hitem hbytes ↦ (Kind.decode_mirrors
        (s.readWithin_mirrors (Depth.limit - held)) kind at_ place).whole v n hitem hbytes)
      hvalues hsame
  have hagain := SameOutcome.collect (h.same slice) count header
  rw [hdecoded] at hagain
  generalize hread : Vectors.collect (Readable.read (α := α) slice) count header = again
    at hagain
  cases hagain with
  | found hitems =>
    rw [hpaired.length_eq, ← hitems.length_eq]
    exact ⟨_, _, rfl, VectorView.yields_of_collect hread hitems⟩

/-- A view is made of just the bytes that a vector is decoded from, and lists its items. -/
theorem read_view (h : ReadsAs s held α kind agrees) (boxed : Bool) (buffer : ByteArray)
    (pos : Nat) :
    SameOutcome (fun x y ↦ Paired (VectorView.Lists agrees) x y ∧
        x.1.bytes = buffer.extract pos (pos + x.2))
      (VectorView.read (α := α) buffer pos boxed)
      (s.decodeKind held buffer (.vector boxed kind) pos) := by
  show SameOutcome _ _ ((Vectors.read (s.decodeKind held buffer kind) buffer pos boxed).map _)
  rw [VectorView.read_eq_collect h.sizeOf_eq, Vectors.read_eq_collect]
  cases Vectors.readHeader buffer pos boxed with
  | error e => exact .failed e
  | ok pair =>
    obtain ⟨count, header⟩ := pair
    have hcollect := SameOutcome.collect (h.same buffer) count (pos + header)
    dsimp only [Except.bind]
    generalize Vectors.collect (Readable.read (α := α) buffer) count (pos + header) = x
      at hcollect ⊢
    generalize hvalues : Vectors.collect (s.decodeKind held buffer kind) count (pos + header) = y
      at hcollect ⊢
    cases hcollect with
    | failed e => exact .failed e
    | found hpaired =>
      have hlength := congrArg (header + ·) (occupied_eq_of_paired hpaired)
      exact .found ⟨⟨h.lists_ofCollected hvalues hpaired, hlength⟩, rfl⟩

theorem boxedView (h : ReadsAs s held α kind agrees) :
    ReadsAs s held (VectorView α) (.vector true kind) (VectorView.Lists agrees) where
  sizeOf_eq buffer pos := VectorView.sizeOf_eq_read h.sizeOf_eq buffer pos true
  same buffer pos := (h.read_view true buffer pos).imp fun _ _ hboth ↦ hboth.1

theorem bareView (h : ReadsAs s held α kind agrees) :
    ReadsAs s held (Bare (VectorView α)) (.vector false kind)
      fun bare v => VectorView.Lists agrees bare.value v where
  sizeOf_eq buffer pos := by
    have hsize := VectorView.sizeOf_eq_read h.sizeOf_eq buffer pos false
    show VectorView.sizeOf α buffer pos false = Except.map _ (Except.map _ _)
    rw [hsize]
    show _ = Except.map _ (Except.map _ (VectorView.read buffer pos false))
    cases VectorView.read (α := α) buffer pos false <;> rfl
  same buffer pos := by
    have hread := h.read_view false buffer pos
    show SameOutcome _ ((VectorView.read buffer pos false).map _) _
    generalize VectorView.read (α := α) buffer pos false = x at hread ⊢
    generalize s.decodeKind held buffer (.vector false kind) pos = y at hread ⊢
    cases hread with
    | failed e => exact .failed e
    | found hboth => exact .found hboth.1

end ReadsAs

/-! ### Types of items -/

/-- The types that vectors of plain values and vectors of vectors have as items. -/
inductive ElementType
  | int | long | double | int128 | int256 | bool | mask | bytes | string
  | vector (boxed : Bool) (element : ElementType)

namespace ElementType

/-- What items are read as: a vector as a view of its own items. -/
def Carrier : ElementType → Type
  | int => Int32
  | long => Int64
  | double => Double
  | int128 => Vector UInt8 16
  | int256 => Vector UInt8 32
  | bool => Bool
  | mask => UInt32
  | bytes | string => ByteArray
  | vector true element => VectorView element.Carrier
  | vector false element => Bare (VectorView element.Carrier)

/-- The kind that items are decoded as. -/
def kind : ElementType → Kind
  | int => .int
  | long => .long
  | double => .double
  | int128 => .int128
  | int256 => .int256
  | bool => .bool
  | mask => .mask
  | bytes => .bytes
  | string => .string
  | vector boxed element => .vector boxed element.kind

/-- How items are measured and read. -/
instance readable : (t : ElementType) → Readable t.Carrier
  | int => inferInstanceAs (Readable Int32)
  | long => inferInstanceAs (Readable Int64)
  | double => inferInstanceAs (Readable Double)
  | int128 => inferInstanceAs (Readable (Vector UInt8 16))
  | int256 => inferInstanceAs (Readable (Vector UInt8 32))
  | bool => inferInstanceAs (Readable Bool)
  | mask => inferInstanceAs (Readable UInt32)
  | bytes | string => inferInstanceAs (Readable ByteArray)
  | vector true element =>
    have := readable element
    inferInstanceAs (Readable (VectorView element.Carrier))
  | vector false element =>
    have := readable element
    inferInstanceAs (Readable (Bare (VectorView element.Carrier)))

/-- An item is the value that is decoded: for a view, when it lists the items of the value. -/
def Agrees : (t : ElementType) → t.Carrier → Value → Prop
  | int, x, v => v = .int x
  | long, x, v => v = .long x
  | double, x, v => v = .double x
  | int128, x, v => v = .int128 x
  | int256, x, v => v = .int256 x
  | bool, x, v => v = .bool x
  | mask, x, v => v = .mask x
  | bytes, x, v | string, x, v => v = .bytes x
  | vector true element, view, v => VectorView.Lists element.Agrees view v
  | vector false element, bare, v => VectorView.Lists element.Agrees bare.value v

variable (s : Schema) (held : Nat)

theorem readsAs_bytes : ReadsAs s held ByteArray .bytes fun data v => v = .bytes data where
  sizeOf_eq _ _ := ByteString.sizeOf_measuresAs.outcome_eq
  same buffer pos := by
    show SameOutcome _ (ByteString.read buffer pos) ((ByteString.read buffer pos).map _)
    cases ByteString.read buffer pos with
    | error e => exact .failed e
    | ok pair => exact .found ⟨rfl, rfl⟩

theorem readsAs_bool : ReadsAs s held Bool .bool fun b v => v = .bool b where
  sizeOf_eq buffer pos := by
    show (readBool buffer pos).map _ = ((readBool buffer pos).map _).map _
    cases readBool buffer pos <;> rfl
  same buffer pos := by
    show SameOutcome _ ((readBool buffer pos).map _) ((readBool buffer pos).map _)
    cases readBool buffer pos with
    | error e => exact .failed e
    | ok b => exact .found ⟨rfl, rfl⟩

/-- Items of every type are read as they are decoded. -/
theorem readsAs (t : ElementType) : ReadsAs s held t.Carrier t.kind t.Agrees := by
  induction t with
  | int =>
    exact .ofWidth (fun _ _ ↦ ensure_measuresAs_readUInt32.mapValue UInt32.toInt32) fun _ _ ↦ rfl
  | long =>
    exact .ofWidth (fun _ _ ↦ ensure_measuresAs_readUInt64.mapValue UInt64.toInt64) fun _ _ ↦ rfl
  | double =>
    exact .ofWidth (fun _ _ ↦ ensure_measuresAs_readUInt64.mapValue Double.mk) fun _ _ ↦ rfl
  | int128 => exact .ofWidth (fun _ _ ↦ ensure_measuresAs_readWord 16) fun _ _ ↦ rfl
  | int256 => exact .ofWidth (fun _ _ ↦ ensure_measuresAs_readWord 32) fun _ _ ↦ rfl
  | bool => exact readsAs_bool s held
  | mask => exact .ofWidth (fun _ _ ↦ ensure_measuresAs_readUInt32) fun _ _ ↦ rfl
  | bytes => exact readsAs_bytes s held
  | string => exact ⟨(readsAs_bytes s held).sizeOf_eq, (readsAs_bytes s held).same⟩
  | vector boxed element ih =>
    cases boxed with
    | true => exact ih.boxedView
    | false => exact ih.bareView

end ElementType

/-- Making a view of a vector, measuring the vector and decoding it fail with the same error, or
take the same bytes. Then the view yields as many items as it counts, without errors, and each is
the value that is decoded in its place. -/
theorem vector_view_agrees_with_decoder (t : ElementType) (s : Schema) (held : Nat)
    (buffer : ByteArray) (offset : Nat) (boxed : Bool) :
    (∃ e, VectorView.read (α := t.Carrier) buffer offset boxed = .error e ∧
      VectorView.sizeOf t.Carrier buffer offset boxed = .error e ∧
      s.decodeKind held buffer (.vector boxed t.kind) offset = .error e) ∨
    ∃ view n items values, VectorView.read (α := t.Carrier) buffer offset boxed = .ok (view, n) ∧
      VectorView.sizeOf t.Carrier buffer offset boxed = .ok n ∧
      s.decodeKind held buffer (.vector boxed t.kind) offset = .ok (.vector values, n) ∧
      view.bytes = buffer.extract offset (offset + n) ∧
      view.Yields t.Agrees items values := by
  have hreads := t.readsAs s held
  have hview := hreads.read_view boxed buffer offset
  rw [VectorView.sizeOf_eq_read hreads.sizeOf_eq]
  generalize VectorView.read (α := t.Carrier) buffer offset boxed = x at hview ⊢
  generalize s.decodeKind held buffer (.vector boxed t.kind) offset = y at hview ⊢
  cases hview with
  | failed e => exact .inl ⟨e, rfl, rfl, rfl⟩
  | @found found decoded hboth =>
    obtain ⟨view, n⟩ := found
    obtain ⟨v, _⟩ := decoded
    obtain ⟨⟨⟨items, values, rfl, hyields⟩, rfl⟩, hbytes⟩ := hboth
    exact .inr ⟨view, n, items, values, rfl, rfl, rfl, hbytes, hyields⟩

end TypeLang
