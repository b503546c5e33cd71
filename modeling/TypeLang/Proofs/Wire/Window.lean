import TypeLang.Proofs.Wire.ByteStringForm

/-!
Readings of two buffers. `Mirrors` relates what is read at a place of one buffer to what is read at
a place of another: where the same bytes stand the same is found, and where the other buffer ends
before the last of those bytes the reading of it is truncated. A reading that goes on where an
earlier one ended (`chain`) mirrors another if both of its parts do (`Mirrors.chain`), so it is
enough to look at the readers of fixed width, at byte strings (`ByteString.read_mirrors`) and at
vectors whose elements are mirrored (`Vectors.read_mirrors`).
-/

set_option autoImplicit false
set_option relaxedAutoImplicit false

namespace TypeLang

/-- Whether a failure says that a buffer ends too early. -/
def Error.IsTruncated (e : Error) : Prop :=
  ∃ offset needed available, e = .truncated offset needed available

theorem Error.IsTruncated.isDecodeError {e : Error} (h : e.IsTruncated) :
    e.isDecodeError = true := by
  obtain ⟨offset, needed, available, rfl⟩ := h
  rfl

namespace Wire

/-! ### The same bytes in two buffers -/

theorem getElem?_extract (buffer : ByteArray) (pos n i : Nat) :
    (buffer.extract pos (pos + n)).data[i]? = if i < n then buffer.data[pos + i]? else none := by
  rw [ByteArray.data_extract, Array.getElem?_extract]
  split
  · rw [if_pos (by omega)]
  · split
    · rw [Array.getElem?_eq_none (by omega)]
    · rfl

/-- The `n` bytes of a buffer from `pos` on are those of another from `place` on. -/
def SameBytes (buffer other : ByteArray) (pos place n : Nat) : Prop :=
  ∀ i < n, buffer.data[pos + i]? = other.data[place + i]?

namespace SameBytes

variable {buffer other : ByteArray} {pos place m n : Nat}

theorem iff_extract_eq :
    SameBytes buffer other pos place n ↔
      other.extract place (place + n) = buffer.extract pos (pos + n) := by
  constructor
  · intro h
    apply ByteArray.ext
    apply Array.ext_getElem?
    intro i
    rw [getElem?_extract, getElem?_extract]
    split
    · exact (h i ‹_›).symm
    · rfl
  · intro h i hi
    have hother := getElem?_extract other place n i
    rw [h, getElem?_extract, if_pos hi, if_pos hi] at hother
    exact hother

theorem front (h : SameBytes buffer other pos place (m + n)) :
    SameBytes buffer other pos place m :=
  fun i hi ↦ h i (Nat.lt_of_lt_of_le hi (Nat.le_add_right m n))

theorem behind (h : SameBytes buffer other pos place (m + n)) :
    SameBytes buffer other (pos + m) (place + m) n := by
  intro i hi
  rw [Nat.add_assoc, Nat.add_assoc]
  exact h (m + i) (Nat.add_lt_add_left hi m)

/-- Bytes that are there in one buffer are there in the other. -/
theorem le_size (h : SameBytes buffer other pos place n) (hn : 0 < n)
    (hfits : pos + n ≤ buffer.size) : place + n ≤ other.size := by
  have hthere : pos + (n - 1) < buffer.data.size := by
    show pos + (n - 1) < buffer.size
    omega
  have hlast := h (n - 1) (by omega)
  rw [Array.getElem?_eq_getElem hthere] at hlast
  have hother : place + (n - 1) < other.size := (Array.getElem?_eq_some_iff.mp hlast.symm).1
  omega

theorem stands {bytes : ByteArray} (h : SameBytes buffer other pos place bytes.size)
    (hsize : 0 < bytes.size) (hstands : Stands bytes buffer pos) : Stands bytes other place :=
  ⟨h.le_size hsize hstands.le_size, (iff_extract_eq.mp h).trans hstands.2⟩

end SameBytes

/-! ### Readings that mirror each other -/

/-- A reading that has come to the end of its buffer too early. -/
def RunsShort {α : Type} (found : Except Error α) : Prop :=
  ∃ e, found = .error e ∧ e.IsTruncated

theorem RunsShort.map {α β : Type} {found : Except Error α} (h : RunsShort found) (f : α → β) :
    RunsShort (found.map f) := by
  obtain ⟨e, rfl, he⟩ := h
  exact ⟨e, rfl, he⟩

/-- What is read behind something else that was read, and the length of both together. -/
def chain {α β : Type} (found : Except Error (α × Nat)) (next : α → Nat → Except Error (β × Nat)) :
    Except Error (β × Nat) :=
  match found with
  | .error e => .error e
  | .ok (a, n) => (next a n).map fun (b, k) => (b, n + k)

/-- Something is read at `pos` of a buffer, and `mirrored` at `place` of another. The same bytes are
read as the same, and a buffer that ends before the last of them is too short. -/
structure Mirrors {α : Type} (buffer other : ByteArray) (pos place : Nat)
    (found mirrored : Except Error (α × Nat)) : Prop where
  fits : ∀ a n, found = .ok (a, n) → 0 < n → pos + n ≤ buffer.size
  whole : ∀ a n, found = .ok (a, n) → SameBytes buffer other pos place n → mirrored = .ok (a, n)
  cut : ∀ a n m, found = .ok (a, n) → m < n → SameBytes buffer other pos place m →
    other.size = place + m → RunsShort mirrored

namespace Mirrors

variable {α β : Type} {buffer other : ByteArray} {pos place : Nat}

theorem error (e : Error) (mirrored : Except Error (α × Nat)) :
    Mirrors buffer other pos place (.error e) mirrored :=
  ⟨nofun, nofun, nofun⟩

/-- What needs no bytes is the same in any buffer. -/
theorem nothing (a : α) : Mirrors buffer other pos place (.ok (a, 0)) (.ok (a, 0)) := by
  constructor
  · intro b n h hn
    cases h
    exact absurd hn (Nat.lt_irrefl 0)
  · intro b n h _
    exact h
  · intro b n m h hm
    cases h
    exact absurd hm (Nat.not_lt_zero m)

/-- What is made of the value that is read does not matter. -/
theorem map {found mirrored : Except Error (α × Nat)}
    (h : Mirrors buffer other pos place found mirrored) (f : α → β) :
    Mirrors buffer other pos place (found.map fun (a, n) => (f a, n))
      (mirrored.map fun (a, n) => (f a, n)) := by
  constructor
  · intro b n hfound hn
    obtain ⟨⟨a, k⟩, ha, hpair⟩ := map_ok_iff.mp hfound
    cases hpair
    exact h.fits a _ ha hn
  · intro b n hfound hsame
    obtain ⟨⟨a, k⟩, ha, hpair⟩ := map_ok_iff.mp hfound
    cases hpair
    exact map_ok_iff.mpr ⟨(a, _), h.whole a _ ha hsame, rfl⟩
  · intro b n m hfound hm hsame hend
    obtain ⟨⟨a, k⟩, ha, hpair⟩ := map_ok_iff.mp hfound
    cases hpair
    exact (h.cut a _ m ha hm hsame hend).map _

/-- A reading that takes bytes mirrors another if it does so from places within the buffers. -/
theorem of_within {found mirrored within mirroredWithin : Except Error (α × Nat)}
    (h : Mirrors buffer other pos place within mirroredWithin)
    (htaken : ∀ a n, found = .ok (a, n) → 0 < n ∧ pos ≤ buffer.size)
    (hfound : pos ≤ buffer.size → found = within)
    (hmirrored : place ≤ other.size → mirrored = mirroredWithin) :
    Mirrors buffer other pos place found mirrored := by
  have hthere : ∀ a n, found = .ok (a, n) → within = .ok (a, n) :=
    fun a n hok ↦ (hfound (htaken a n hok).2).symm.trans hok
  constructor
  · intro a n hok hn
    exact h.fits a n (hthere a n hok) hn
  · intro a n hok hsame
    have hn := (htaken a n hok).1
    have hroom := hsame.le_size hn (h.fits a n (hthere a n hok) hn)
    rw [hmirrored (Nat.le_of_add_right_le hroom)]
    exact h.whole a n (hthere a n hok) hsame
  · intro a n m hok hm hsame hend
    rw [hmirrored (by omega)]
    exact h.cut a n m (hthere a n hok) hm hsame hend

/-- A buffer that ends too early ends either in what is read first or in what is read behind it. -/
theorem chain {found mirrored : Except Error (α × Nat)}
    {next nextMirrored : α → Nat → Except Error (β × Nat)}
    (h : Mirrors buffer other pos place found mirrored)
    (hnext : ∀ a n, found = .ok (a, n) →
      Mirrors buffer other (pos + n) (place + n) (next a n) (nextMirrored a n)) :
    Mirrors buffer other pos place (chain found next) (chain mirrored nextMirrored) := by
  cases hfound : found with
  | error e => exact error e _
  | ok pair =>
    obtain ⟨a, n⟩ := pair
    have hbehind := hnext a n hfound
    have hopen : ∀ b total, Wire.chain (.ok (a, n)) next = .ok (b, total) →
        ∃ k, next a n = .ok (b, k) ∧ total = n + k := by
      intro b total hchain
      obtain ⟨⟨c, k⟩, hc, hpair⟩ := map_ok_iff.mp hchain
      cases hpair
      exact ⟨k, hc, rfl⟩
    constructor
    · intro b total hchain htotal
      obtain ⟨k, hk, rfl⟩ := hopen b total hchain
      by_cases hzero : k = 0
      · subst hzero
        exact h.fits a n hfound htotal
      · have hfits := hbehind.fits b k hk (Nat.pos_of_ne_zero hzero)
        omega
    · intro b total hchain hsame
      obtain ⟨k, hk, rfl⟩ := hopen b total hchain
      rw [h.whole a n hfound hsame.front]
      exact map_ok_iff.mpr ⟨(b, k), hbehind.whole b k hk hsame.behind, rfl⟩
    · intro b total m hchain hm hsame hend
      obtain ⟨k, hk, rfl⟩ := hopen b total hchain
      by_cases hfirst : m < n
      · obtain ⟨e, herror, he⟩ := h.cut a n m hfound hfirst hsame hend
        rw [herror]
        exact ⟨e, rfl, he⟩
      · obtain ⟨rest, rfl⟩ := Nat.exists_eq_add_of_le (Nat.le_of_not_lt hfirst)
        rw [h.whole a n hfound hsame.front]
        exact (hbehind.cut b k rest hk (by omega) hsame.behind (by omega)).map _

end Mirrors

/-! ### Readers of fixed width -/

variable {buffer other : ByteArray} {pos place : Nat}

theorem slice_mirrors {width : Nat} (hwidth : 0 < width) :
    Mirrors buffer other pos place ((slice buffer pos width).map fun bytes => (bytes, width))
      ((slice other place width).map fun bytes => (bytes, width)) := by
  constructor
  · intro bytes n hfound _
    obtain ⟨_, hslice, hpair⟩ := map_ok_iff.mp hfound
    cases hpair
    obtain ⟨rfl, hstands⟩ := slice_eq_ok_iff.mp hslice
    exact hstands.le_size
  · intro bytes n hfound hsame
    obtain ⟨_, hslice, hpair⟩ := map_ok_iff.mp hfound
    cases hpair
    obtain ⟨rfl, hstands⟩ := slice_eq_ok_iff.mp hslice
    exact map_ok_iff.mpr ⟨bytes, slice_eq_ok_iff.mpr ⟨rfl, hsame.stands hwidth hstands⟩, rfl⟩
  · intro bytes n m hfound hm _ hend
    obtain ⟨_, hslice, hpair⟩ := map_ok_iff.mp hfound
    cases hpair
    have hshort : ¬ place + width ≤ other.size := by omega
    unfold slice
    rw [if_neg hshort]
    exact ⟨_, rfl, _, _, _, rfl⟩

theorem ensure_mirrors {width : Nat} (hwidth : 0 < width) :
    Mirrors buffer other pos place ((ensure buffer pos width).map fun _ => ((), width))
      ((ensure other place width).map fun _ => ((), width)) := by
  have hslices : Mirrors buffer other pos place
      (((slice buffer pos width).map fun bytes => (bytes, width)).map fun (_, n) => ((), n))
      (((slice other place width).map fun bytes => (bytes, width)).map fun (_, n) => ((), n)) :=
    (slice_mirrors hwidth).map fun _ => ()
  rw [ensure_eq_slice, ensure_eq_slice]
  cases hslice : slice buffer pos width <;> cases hother : slice other place width <;>
    rw [hslice, hother] at hslices <;> exact hslices

/-- A value of fixed width is mirrored by one that is made of the same bytes. -/
theorem Mirrors.mapValue {α β : Type} {found mirrored : Except Error α} {width : Nat}
    (h : Mirrors buffer other pos place (found.map fun a => (a, width))
      (mirrored.map fun a => (a, width))) (f : α → β) :
    Mirrors buffer other pos place ((found.map f).map fun b => (b, width))
      ((mirrored.map f).map fun b => (b, width)) := by
  have hmap := h.map f
  cases found <;> cases mirrored <;> exact hmap

theorem readNat_mirrors {width : Nat} (hwidth : 0 < width) :
    Mirrors buffer other pos place ((readNat width buffer pos).map fun n => (n, width))
      ((readNat width other place).map fun n => (n, width)) :=
  (slice_mirrors hwidth).mapValue fun bytes => littleEndian bytes.data.toList

theorem readWord_mirrors {width : Nat} (hwidth : 0 < width) :
    Mirrors buffer other pos place ((readWord width buffer pos).map fun x => (x, width))
      ((readWord width other place).map fun x => (x, width)) :=
  (slice_mirrors hwidth).mapValue (wordOf width)

theorem readUInt32_mirrors :
    Mirrors buffer other pos place ((readUInt32 buffer pos).map fun x => (x, 4))
      ((readUInt32 other place).map fun x => (x, 4)) :=
  (readNat_mirrors (by decide)).mapValue UInt32.ofNat

theorem readUInt64_mirrors :
    Mirrors buffer other pos place ((readUInt64 buffer pos).map fun x => (x, 8))
      ((readUInt64 other place).map fun x => (x, 8)) :=
  (readNat_mirrors (by decide)).mapValue UInt64.ofNat

/-- What is checked about a value that is read does not need the buffer. -/
theorem Mirrors.check {α β : Type} {found mirrored : Except Error α} {width : Nat}
    (h : Mirrors buffer other pos place (found.map fun a => (a, width))
      (mirrored.map fun a => (a, width))) (f : α → Except Error β) :
    Mirrors buffer other pos place ((found.bind f).map fun b => (b, width))
      ((mirrored.bind f).map fun b => (b, width)) := by
  let next (a : α) (_ : Nat) : Except Error (β × Nat) := (f a).map fun b => (b, 0)
  have hnext : ∀ a n, Mirrors buffer other (pos + n) (place + n) (next a n) (next a n) := by
    intro a n
    dsimp only [next]
    cases f a with
    | error e => exact error e _
    | ok b => exact nothing b
  have hchain := h.chain fun a n _ ↦ hnext a n
  have hopen : ∀ outcome : Except Error α,
      Wire.chain (outcome.map fun a => (a, width)) next =
        (outcome.bind f).map fun b => (b, width) := by
    intro outcome
    cases outcome with
    | error e => rfl
    | ok a =>
      show (next a width).map _ = (f a).map _
      dsimp only [next]
      cases f a <;> rfl
  rw [hopen, hopen] at hchain
  exact hchain

theorem readBool_mirrors :
    Mirrors buffer other pos place ((readBool buffer pos).map fun b => (b, 4))
      ((readBool other place).map fun b => (b, 4)) := by
  have hopen : ∀ (b : ByteArray) (p : Nat), readBool b p = (readUInt32 b p).bind fun tag =>
      if tag = trueTag then .ok true
      else if tag = falseTag then .ok false
      else .error (.unknownConstructor tag) := by
    intro b p
    unfold readBool
    cases readUInt32 b p <;> rfl
  rw [hopen, hopen]
  exact readUInt32_mirrors.check _

/-! ### Byte strings -/

theorem ByteString.readMark_mirrors :
    Mirrors buffer other pos place
      ((readMark buffer pos).map fun (mark, length) => (length, mark))
      ((readMark other place).map fun (mark, length) => (length, mark)) := by
  let long (b : ByteArray) (p : Nat) (first : Nat) : Except Error (Nat × Nat) :=
    if first = longMark.toNat then (readNat 3 b (p + 1)).map fun length => (length, 3)
    else if first = 0xff then .error (.malformed p .reservedMarker)
    else .ok (first, 0)
  have hopen : ∀ (b : ByteArray) (p : Nat),
      (readMark b p).map (fun (mark, length) => (length, mark)) =
        chain ((readNat 1 b p).map fun first => (first, 1)) fun first _ => long b p first := by
    intro b p
    unfold readMark
    cases readNat 1 b p with
    | error e => rfl
    | ok first =>
      show Except.map _ _ = (long b p first).map _
      dsimp only [long]
      split
      · cases readNat 3 b (p + 1) <;> rfl
      · split <;> rfl
  rw [hopen, hopen]
  refine (readNat_mirrors (by decide)).chain fun first n hfirst ↦ ?_
  obtain ⟨_, _, hpair⟩ := map_ok_iff.mp hfirst
  cases hpair
  dsimp only [long]
  split
  · exact readNat_mirrors (by decide)
  · split
    · exact .error _ _
    · exact .nothing _

/-- The bytes behind the mark are not looked at one by one, but all of them have to be there. -/
theorem ByteString.read_mirrors :
    Mirrors buffer other pos place (read buffer pos) (read other place) := by
  constructor
  · intro data n hfound _
    obtain ⟨form, -, rfl, hstands⟩ := read_eq_ok_iff.mp hfound
    exact hstands.le_size
  · intro data n hfound hsame
    obtain ⟨form, rfl, rfl, hstands⟩ := read_eq_ok_iff.mp hfound
    exact read_eq_ok_iff.mpr ⟨form, rfl, rfl, hsame.stands form.size_bytes_pos hstands⟩
  · intro data n m hfound hm hsame hend
    obtain ⟨form, rfl, rfl, hstands⟩ := read_eq_ok_iff.mp hfound
    have hmark := form.readMark_eq_ok hstands
    have hmarkRead : (readMark buffer pos).map (fun (mark, length) => (length, mark)) =
        .ok (form.data.size, formMarkLength form.isLong) := by rw [hmark]; rfl
    have hmirrors : Mirrors buffer other pos place _ _ := readMark_mirrors
    unfold read
    by_cases hfirst : m < formMarkLength form.isLong
    · obtain ⟨e, herror, he⟩ := hmirrors.cut _ _ m hmarkRead hfirst hsame hend
      cases hother : readMark other place with
      | error e => rw [hother] at herror; cases herror; exact ⟨e, rfl, he⟩
      | ok pair => rw [hother] at herror; cases herror
    · obtain ⟨rest, rfl⟩ := Nat.exists_eq_add_of_le (Nat.le_of_not_lt hfirst)
      obtain ⟨⟨mark, length⟩, hother, hpair⟩ :=
        map_ok_iff.mp (hmirrors.whole _ _ hmarkRead hsame.front)
      cases hpair
      rw [form.size_bytes] at hm
      have hshort : ¬ place + roundUp (formMarkLength form.isLong + form.data.size) ≤
          other.size := by omega
      rw [hother]
      dsimp only
      unfold ensure
      rw [if_neg hshort]
      exact ⟨_, rfl, _, _, _, rfl⟩

/-! ### Vectors -/

theorem Vectors.readHeader_mirrors (boxed : Bool) :
    Mirrors buffer other pos place (readHeader buffer pos boxed)
      (readHeader other place boxed) := by
  have htaken : ∀ count n, readHeader buffer pos boxed = .ok (count, n) →
      0 < n ∧ pos ≤ buffer.size := by
    intro count n h
    obtain ⟨rfl, -, -⟩ := readHeader_eq_ok_iff.mp h
    exact ⟨by cases boxed <;> decide, le_size_of_readHeader h⟩
  cases boxed with
  | false =>
    have hopen : ∀ {b : ByteArray} {p : Nat}, p ≤ b.size →
        readHeader b p false = (readNat 4 b p).map fun count => (count, 4) :=
      fun hle ↦ readHeader_of_le hle false
    exact .of_within (readNat_mirrors (by decide)) htaken hopen hopen
  | true =>
    let check (found : UInt32) : Except Error Unit :=
      if found = tag then .ok () else .error (.unknownConstructor found)
    have hopen : ∀ {b : ByteArray} {p : Nat}, p ≤ b.size →
        readHeader b p true = chain (((readUInt32 b p).bind check).map fun u => (u, 4))
          fun _ _ => (readNat 4 b (p + 4)).map fun count => (count, 4) := by
      intro b p hle
      rw [readHeader_of_le hle]
      unfold checkTag
      cases readUInt32 b p with
      | error e => rfl
      | ok found =>
        show _ = chain ((check found).map _) _
        dsimp only [check]
        by_cases hfound : found = tag
        · simp only [if_pos hfound, if_true]
          show Except.map _ (readNat 4 b (p + 4)) = Except.map _ (Except.map _ _)
          cases readNat 4 b (p + 4) <;> rfl
        · simp only [if_neg hfound, if_true]
          rfl
    refine .of_within ((readUInt32_mirrors.check check).chain fun u n htag ↦ ?_) htaken hopen hopen
    obtain ⟨_, _, hpair⟩ := map_ok_iff.mp htag
    cases hpair
    exact readNat_mirrors (by decide)

section

variable {α : Type}

theorem Vectors.le_of_readItems {read : Nat → Except Error (α × Nat)} :
    ∀ {count : Nat} {done items : Array α} {pos stop : Nat},
      readItems read done count pos = .ok (items, stop) → pos ≤ stop := by
  intro count
  induction count with
  | zero =>
    intro done items pos stop h
    cases h
    exact Nat.le_refl pos
  | succ count ih =>
    intro done items pos stop h
    rw [readItems] at h
    split at h
    · cases h
    · cases h
      exact Nat.le_refl pos
    · exact Nat.le_trans (Nat.le_add_right pos _) (ih h)

/-- Items are read one behind the other, up to the first without bytes. -/
theorem Vectors.readItems_succ (read : Nat → Except Error (α × Nat)) (done : Array α)
    (count pos : Nat) :
    ((readItems read done (count + 1) pos).map fun (items, stop) => (items, stop - pos)) =
      chain (read pos) fun item size =>
        if size = 0 then .ok (done.push item, 0)
        else (readItems read (done.push item) count (pos + size)).map fun (items, stop) =>
          (items, stop - (pos + size)) := by
  rw [readItems]
  cases hitem : read pos with
  | error e => rfl
  | ok pair =>
    obtain ⟨item, size⟩ := pair
    unfold chain
    cases size with
    | zero =>
      show Except.ok (done.push item, pos - pos) = Except.ok (done.push item, 0 + 0)
      rw [Nat.sub_self]
    | succ size =>
      dsimp only
      rw [if_neg (Nat.succ_ne_zero size)]
      show Except.map _ (readItems read (done.push item) count (pos + (size + 1))) = _
      cases hrest : readItems read (done.push item) count (pos + (size + 1)) with
      | error e => rfl
      | ok reached =>
        have hle := le_of_readItems hrest
        show Except.ok (reached.1, reached.2 - pos) =
          Except.ok (reached.1, size + 1 + (reached.2 - (pos + (size + 1))))
        congr 2
        omega

theorem Vectors.readItems_mirrors {read readOther : Nat → Except Error (α × Nat)}
    (h : ∀ pos place, Mirrors buffer other pos place (read pos) (readOther place)) :
    ∀ (count : Nat) (done : Array α) (pos place : Nat),
      Mirrors buffer other pos place
        ((readItems read done count pos).map fun (items, stop) => (items, stop - pos))
        ((readItems readOther done count place).map fun (items, stop) =>
          (items, stop - place)) := by
  intro count
  induction count with
  | zero =>
    intro done pos place
    simp only [readItems, Except.map, Nat.sub_self]
    exact .nothing done
  | succ count ih =>
    intro done pos place
    rw [readItems_succ, readItems_succ]
    refine (h pos place).chain fun item size _ ↦ ?_
    by_cases hsize : size = 0
    · rw [if_pos hsize, if_pos hsize]
      exact .nothing _
    · rw [if_neg hsize, if_neg hsize]
      exact ih (done.push item) (pos + size) (place + size)

/-- A vector is mirrored if its elements are. -/
theorem Vectors.read_mirrors {read readOther : Nat → Except Error (α × Nat)}
    (h : ∀ pos place, Mirrors buffer other pos place (read pos) (readOther place))
    (boxed : Bool) :
    Mirrors buffer other pos place (Vectors.read read buffer pos boxed)
      (Vectors.read readOther other place boxed) := by
  have hopen : ∀ (b : ByteArray) (p : Nat) (f : Nat → Except Error (α × Nat)),
      Vectors.read f b p boxed =
        (chain (readHeader b p boxed) fun count header =>
          (readItems f #[] count (p + header)).map fun (items, stop) =>
            (items, stop - (p + header))).map fun (items, size) => (items.toList, size) := by
    intro b p f
    unfold Vectors.read chain
    cases readHeader b p boxed with
    | error e => rfl
    | ok found =>
      obtain ⟨count, header⟩ := found
      dsimp only
      cases hitems : readItems f #[] count (p + header) with
      | error e => rfl
      | ok reached =>
        have hle := le_of_readItems hitems
        show Except.ok (reached.1.toList, reached.2 - p) =
          Except.ok (reached.1.toList, header + (reached.2 - (p + header)))
        congr 2
        omega
  rw [hopen, hopen]
  refine Mirrors.map ((readHeader_mirrors boxed).chain fun count header _ ↦ ?_) Array.toList
  exact readItems_mirrors h count #[] (pos + header) (place + header)

end

end Wire

end TypeLang
