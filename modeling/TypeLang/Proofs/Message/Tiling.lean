import TypeLang.Proofs.Message.Walking

/-!
The fields of a view tile its bytes: each one starts where the one before it ends, the first behind
the tag, and the last ends where the bytes do (`View.fields_tile`). So a walk that begins anew for
every field never fails, and never comes to another place than the walk that made the view.
-/

set_option autoImplicit false
set_option relaxedAutoImplicit false

namespace TypeLang

open Wire Message

/-- Pieces between ascending places, one behind the other, are the bytes up to the last place. -/
theorem Wire.foldl_extract (buffer : ByteArray) (start : Nat → Nat) :
    ∀ n : Nat, (∀ i < n, start i ≤ start (i + 1)) →
      (List.range n).foldl (fun bytes i => bytes ++ buffer.extract (start i) (start (i + 1)))
        (buffer.extract 0 (start 0)) = buffer.extract 0 (start n) := by
  intro n
  induction n with
  | zero => exact fun _ ↦ rfl
  | succ n ih =>
    intro hascend
    have hlast := hascend n (Nat.lt_succ_self n)
    rw [List.range_succ, List.foldl_append, ih fun i hi ↦ hascend i (Nat.lt_succ_of_lt hi)]
    show buffer.extract 0 (start n) ++ buffer.extract (start n) (start (n + 1)) = _
    rw [ByteArray.extract_append_extract, Nat.zero_min, Nat.max_eq_right hlast]

namespace View

variable {v : View} {s : Schema} {held : Nat} {o : Object}

/-- The fields of a view start at given places, are there or not, and have given bytes, and tag and
fields together are all its bytes. -/
structure Tiles (v : View) (s : Schema) (held : Nat) (start : Nat → Nat) (present : Nat → Bool)
    (piece : Nat → ByteArray) : Prop where
  fieldOffset_eq : ∀ i < v.fieldCount, (v.fieldOffset s held i).outcome = .ok (start i)
  isPresent_eq : ∀ i < v.fieldCount, (v.isPresent s held i).outcome = .ok (present i)
  fieldBytes_eq : ∀ i < v.fieldCount, (v.fieldBytes s held i).outcome = .ok (piece i)
  start_zero : start 0 = v.object.header
  start_succ : ∀ i < v.fieldCount, start (i + 1) = start i + (piece i).size
  start_fieldCount : start v.fieldCount = v.bytes.size
  piece_eq : ∀ i < v.fieldCount, piece i = v.bytes.extract (start i) (start i + (piece i).size)
  piece_eq_empty : ∀ i < v.fieldCount, ∀ f, v.combinator.fields[i]? = some f →
    present i = false ∨ f.kind = .presence → piece i = .empty
  concat_eq : (List.range v.fieldCount).foldl (fun bytes i => bytes ++ piece i)
    (v.bytes.extract 0 (start 0)) = v.bytes

/-- A walk over no field comes to the end of the tag. -/
theorem Made.walk_zero (h : v.Made s held o) :
    (Message.walk (s.measureKind held v.bytes) v.bytes v.object 0 0).outcome =
      .ok (v.object.header, .empty) := by
  rw [walk_outcome, h.ahead.1, List.take_zero, Nat.zero_add]
  rfl

/-- A walk over all fields comes to the end of the bytes. -/
theorem Made.walk_fieldCount (h : v.Made s held o) :
    ∃ masks, (Message.walk (s.measureKind held v.bytes) v.bytes v.object 0 v.fieldCount).outcome =
      .ok (v.bytes.size, masks) := by
  obtain ⟨place, known, hwalk, hahead⟩ := h.walk v.fieldCount
  have hdecode := hahead.decode_eq
  rw [List.drop_of_length_le (Nat.le_of_eq h.fieldCount_eq.symm)] at hdecode
  obtain rfl : place = v.bytes.size := congrArg Prod.snd (Except.ok.inj hdecode)
  exact ⟨known, hwalk⟩

theorem Made.tiles (h : v.Made s held o) :
    ∃ start present piece, v.Tiles s held start present piece := by
  -- Every walk comes to one place, and a piece lies between the places of two walks.
  have hreach (i : Nat) : ∃ reached,
      (Message.walk (s.measureKind held v.bytes) v.bytes v.object 0 i).outcome = .ok reached := by
    obtain ⟨place, known, hwalk, -⟩ := h.walk i
    exact ⟨(place, known), hwalk⟩
  obtain ⟨reached, hreached⟩ := Classical.axiomOfChoice hreach
  have hfind : ∀ i < v.fieldCount, ∃ f value n,
      v.Finds s held o i f (reached i).1 (reached i).2 value n ∧
        (reached (i + 1)).1 = (reached i).1 + n := by
    intro i hi
    rw [h.fieldCount_eq] at hi
    obtain ⟨place, known, value, n, hfinds⟩ := h.finds (List.getElem?_eq_getElem hi)
    obtain ⟨masks, hnext⟩ := hfinds.walk_next
    have hhere : reached i = (place, known) :=
      Except.ok.inj ((hreached i).symm.trans hfinds.walk_eq)
    have hbehind : reached (i + 1) = (place + n, masks) :=
      Except.ok.inj ((hreached (i + 1)).symm.trans hnext)
    rw [hhere, hbehind]
    exact ⟨_, value, n, hfinds, rfl⟩
  have hlast : (reached v.fieldCount).1 = v.bytes.size := by
    obtain ⟨masks, hlast⟩ := h.walk_fieldCount
    exact congrArg Prod.fst (Except.ok.inj ((hreached _).symm.trans hlast))
  have hsize : ∀ i < v.fieldCount, (reached (i + 1)).1 =
      (reached i).1 + (v.bytes.extract (reached i).1 (reached (i + 1)).1).size := by
    intro i hi
    obtain ⟨f, value, n, hfinds, hnext⟩ := hfind i hi
    rw [hnext, Stands.size_extract hfinds.fits]
  refine ⟨fun i ↦ (reached i).1, fun i ↦ v.combinator.fields[i]?.any (reached i).2.opens,
    fun i ↦ v.bytes.extract (reached i).1 (reached (i + 1)).1, ?_⟩
  exact
    { fieldOffset_eq := fun i hi ↦ by
        obtain ⟨f, value, n, hfinds, -⟩ := hfind i hi
        exact hfinds.fieldOffset_eq
      isPresent_eq := fun i hi ↦ by
        obtain ⟨f, value, n, hfinds, -⟩ := hfind i hi
        rw [hfinds.getElem?_eq]
        exact hfinds.isPresent_eq
      fieldBytes_eq := fun i hi ↦ by
        obtain ⟨f, value, n, hfinds, hnext⟩ := hfind i hi
        rw [hnext]
        exact hfinds.fieldBytes_eq
      start_zero := congrArg Prod.fst (Except.ok.inj ((hreached 0).symm.trans h.walk_zero))
      start_succ := hsize
      start_fieldCount := hlast
      piece_eq := fun i hi ↦ by
        rw [← hsize i hi]
      piece_eq_empty := fun i hi f hf hnothing ↦ by
        obtain ⟨_, value, n, hfinds, hnext⟩ := hfind i hi
        obtain rfl := Option.some.inj (hf.symm.trans hfinds.getElem?_eq)
        rw [hf] at hnothing
        rw [hnext, hfinds.size_eq_zero hnothing, Nat.add_zero, ByteArray.extract_same]
      concat_eq := by
        have hall := foldl_extract v.bytes (fun i ↦ (reached i).1) v.fieldCount
          fun i hi ↦ by rw [hsize i hi]; exact Nat.le_add_right _ _
        rw [hall, hlast, ByteArray.extract_zero_size] }

/-- A view that was made with some guards held finds all its fields with as many guards held. They
tile the bytes behind the tag of the combinator, if it has one. -/
theorem fields_tile {source name : String} {buffer : ByteArray}
    (hs : Schema.compile source = .ok s) (h : (s.view held name buffer).outcome = .ok v) :
    s.combinator? name = some v.combinator ∧ v.bytes = buffer ∧
      v.object.header = (if v.combinator.tag.isSome then 4 else 0) ∧
      ∃ start present piece, v.Tiles s held start present piece := by
  obtain ⟨hname, hobject, hbytes, o, hmade⟩ := made_of_view (Schema.sound_of_compile hs) h
  refine ⟨hname, hbytes, ?_, hmade.tiles⟩
  rw [hobject]
  rfl

/-- The fields of a line tile the bytes of the line. -/
theorem lineFields_tile :
    ∃ v start present piece, (lineSchema.view 0 "line" lineBytes).outcome = .ok v ∧
      v.Tiles lineSchema 0 start present piece := by
  have hrun : (lineSchema.view 0 "line" lineBytes).outcome.toOption.isSome = true := by
    decide +kernel
  obtain ⟨v, hv⟩ := Option.isSome_iff_exists.mp hrun
  have h := ok_of_toOption hv
  obtain ⟨-, -, -, start, present, piece, htiles⟩ := fields_tile compile_lineSource h
  exact ⟨v, start, present, piece, h, htiles⟩

end View

end TypeLang
