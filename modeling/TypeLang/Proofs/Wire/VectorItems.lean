import Mathlib.Algebra.GroupWithZero.Nat
import TypeLang.Proofs.Wire.Place

/-!
The items of a vector with their lengths. Reading a vector and measuring it are loops that keep
different things of every item; `Vectors.collect` keeps all of it, and what each loop comes to is
made of what it collects (`Vectors.readItems_eq_collect`, `Vectors.walkItems_outcome_eq_collect`).
The items are read one behind the other (`Vectors.inTurn_of_collect`). There are as many as the
header counts if each has bytes (`Vectors.length_of_collect`), and no more than one if none has
(`Vectors.length_of_collect_empty`).
-/

set_option autoImplicit false
set_option relaxedAutoImplicit false

namespace TypeLang.Wire.Vectors

variable {α : Type}

/-- The items from a place on, each with its length: a number of them, or those up to the first
without bytes. -/
def collect (read : Nat → Except Error (α × Nat)) : Nat → Nat → Except Error (List (α × Nat))
  | 0, _ => .ok []
  | count + 1, pos =>
    match read pos with
    | .error e => .error e
    | .ok (item, 0) => .ok [(item, 0)]
    | .ok (item, length) => (collect read count (pos + length)).map ((item, length) :: ·)

/-- The number of bytes that items take. -/
def occupied (found : List (α × Nat)) : Nat := (found.map Prod.snd).sum

@[simp] theorem occupied_nil : occupied ([] : List (α × Nat)) = 0 := rfl

@[simp] theorem occupied_cons (item : α) (length : Nat) (found : List (α × Nat)) :
    occupied ((item, length) :: found) = length + occupied found :=
  List.sum_cons

/-- Items that are read one behind the other from a place on. -/
inductive InTurn (read : Nat → Except Error (α × Nat)) : Nat → List (α × Nat) → Prop
  | none (pos : Nat) : InTurn read pos []
  | item {pos length : Nat} {a : α} {rest : List (α × Nat)} (h : read pos = .ok (a, length))
      (hrest : InTurn read (pos + length) rest) : InTurn read pos ((a, length) :: rest)

variable {read : Nat → Except Error (α × Nat)} {count pos : Nat} {found : List (α × Nat)}

/-! ### What is collected -/

/-- One more item is collected: it is the last one if it has no bytes. -/
theorem collect_succ_eq_ok (h : collect read (count + 1) pos = .ok found) :
    ∃ item length rest, read pos = .ok (item, length) ∧ found = (item, length) :: rest ∧
      (length = 0 ∧ rest = [] ∨
        length ≠ 0 ∧ collect read count (pos + length) = .ok rest) := by
  rw [collect] at h
  split at h
  · cases h
  · rename_i item hitem
    cases h
    exact ⟨item, 0, [], hitem, rfl, .inl ⟨rfl, rfl⟩⟩
  · rename_i item length hlength hitem
    obtain ⟨rest, hrest, rfl⟩ := map_ok_iff.mp h
    exact ⟨item, length, rest, hitem, rfl, .inr ⟨fun hzero ↦ hlength hzero, hrest⟩⟩

theorem inTurn_of_collect : ∀ {count pos : Nat} {found : List (α × Nat)},
    collect read count pos = .ok found → InTurn read pos found := by
  intro count
  induction count with
  | zero =>
    intro pos found h
    cases h
    exact .none pos
  | succ count ih =>
    intro pos found h
    obtain ⟨item, length, rest, hitem, rfl, ⟨rfl, rfl⟩ | ⟨-, hrest⟩⟩ := collect_succ_eq_ok h
    · exact .item hitem (.none _)
    · exact .item hitem (ih hrest)

theorem length_of_collect : ∀ {count pos : Nat} {found : List (α × Nat)},
    collect read count pos = .ok found → (∀ entry ∈ found, entry.2 ≠ 0) →
      found.length = count := by
  intro count
  induction count with
  | zero =>
    intro pos found h _
    cases h
    rfl
  | succ count ih =>
    intro pos found h hbytes
    obtain ⟨item, length, rest, -, rfl, ⟨hzero, -⟩ | ⟨-, hrest⟩⟩ := collect_succ_eq_ok h
    · exact absurd hzero (hbytes (item, length) List.mem_cons_self)
    · have hbytesRest : ∀ entry ∈ rest, entry.2 ≠ 0 := (List.forall_mem_cons.mp hbytes).2
      rw [List.length_cons, ih hrest hbytesRest]

theorem length_of_collect_empty (h : collect read count pos = .ok found)
    (hempty : ∀ entry ∈ found, entry.2 = 0) :
    found.length = min count 1 ∧ occupied found = 0 := by
  cases count with
  | zero =>
    cases h
    exact ⟨rfl, rfl⟩
  | succ count =>
    obtain ⟨item, length, rest, -, rfl, ⟨rfl, rfl⟩ | ⟨hbytes, -⟩⟩ := collect_succ_eq_ok h
    · exact ⟨(Nat.min_eq_right (Nat.le_add_left 1 count)).symm, rfl⟩
    · exact absurd (hempty (item, length) List.mem_cons_self) hbytes

namespace InTurn

/-- Every item is read at some place, and the last one ends inside a buffer, if whatever is read
does. -/
theorem within {limit : Nat}
    (hfits : ∀ pos, pos ≤ limit → ∀ a n, read pos = .ok (a, n) → pos + n ≤ limit)
    (h : InTurn read pos found) (hpos : pos ≤ limit) :
    pos + occupied found ≤ limit ∧
      ∀ entry ∈ found, ∃ place, place ≤ limit ∧ read place = .ok entry := by
  induction h with
  | none pos => exact ⟨hpos, nofun⟩
  | @item pos length a rest hitem _ ih =>
    obtain ⟨hend, hplaces⟩ := ih (hfits pos hpos a length hitem)
    rw [occupied_cons, ← Nat.add_assoc]
    exact ⟨hend, List.forall_mem_cons.mpr ⟨⟨pos, hpos, hitem⟩, hplaces⟩⟩

end InTurn

theorem mul_length_le_occupied {width : Nat} (h : ∀ entry ∈ found, width ≤ entry.2) :
    width * found.length ≤ occupied found := by
  induction found with
  | nil => exact Nat.le_refl 0
  | cons entry rest ih =>
    obtain ⟨hfirst, hrest⟩ := List.forall_mem_cons.mp h
    rw [occupied_cons, List.length_cons, Nat.mul_succ, Nat.add_comm]
    exact Nat.add_le_add hfirst (ih hrest)

/-! ### What the loops make of it -/

theorem readItems_eq_collect (read : Nat → Except Error (α × Nat)) :
    ∀ (count : Nat) (done : Array α) (pos : Nat),
      readItems read done count pos = (collect read count pos).map fun found =>
        (done ++ (found.map Prod.fst).toArray, pos + occupied found) := by
  intro count
  induction count with
  | zero =>
    intro done pos
    simp [readItems, collect, Except.map]
  | succ count ih =>
    intro done pos
    cases hitem : read pos with
    | error e => simp only [readItems, collect, hitem, Except.map]
    | ok pair =>
      obtain ⟨item, length⟩ := pair
      cases length with
      | zero => simp [readItems, collect, hitem, Except.map]
      | succ length =>
        simp only [readItems, collect, hitem, ih]
        cases collect read count (pos + (length + 1)) with
        | error e => rfl
        | ok rest => simp [Except.map, Nat.add_assoc]

/-- A walk that measures items as they are read ends where the last one ends. -/
theorem walkItems_outcome_eq_collect {size : Nat → Metered Nat}
    (h : ∀ pos, (size pos).outcome = (read pos).map Prod.snd) :
    ∀ (count : Nat) (log : WalkLog) (pos : Nat),
      (walkItems size log count pos).outcome =
        (collect read count pos).map fun found => pos + occupied found := by
  intro count
  induction count with
  | zero => intro log pos; rfl
  | succ count ih =>
    intro log pos
    have hsize := h pos
    cases hitem : read pos with
    | error e =>
      rw [hitem, Except.map] at hsize
      simp only [walkItems, collect, hitem, hsize, Except.map]
    | ok pair =>
      obtain ⟨item, length⟩ := pair
      rw [hitem, Except.map] at hsize
      cases length with
      | zero =>
        simp only [walkItems, collect, hitem, hsize, Except.map, occupied_cons, occupied_nil,
          Nat.add_zero]
      | succ length =>
        simp only [walkItems, collect, hitem, hsize, ih]
        cases collect read count (pos + (length + 1)) with
        | error e => rfl
        | ok rest => simp only [Except.map, occupied_cons, Nat.add_assoc]

theorem read_eq_collect (read : Nat → Except Error (α × Nat)) (buffer : ByteArray) (pos : Nat)
    (boxed : Bool) :
    Vectors.read read buffer pos boxed =
      (readHeader buffer pos boxed).bind fun (count, header) =>
        (collect read count (pos + header)).map fun found =>
          (found.map Prod.fst, header + occupied found) := by
  unfold Vectors.read
  cases readHeader buffer pos boxed with
  | error e => rfl
  | ok pair =>
    obtain ⟨count, header⟩ := pair
    dsimp only [Except.bind]
    rw [readItems_eq_collect]
    cases collect read count (pos + header) with
    | error e => rfl
    | ok found => simp [Except.map, Nat.add_assoc]

theorem sizeOf_outcome_eq_collect {size : Nat → Metered Nat}
    (h : ∀ pos, (size pos).outcome = (read pos).map Prod.snd) (buffer : ByteArray) (pos : Nat)
    (boxed : Bool) :
    (Vectors.sizeOf size buffer pos boxed).outcome =
      (readHeader buffer pos boxed).bind fun (count, header) =>
        (collect read count (pos + header)).map fun found => header + occupied found := by
  unfold Vectors.sizeOf
  rw [Metered.outcome_bind, Metered.outcome_lift]
  cases readHeader buffer pos boxed with
  | error e => rfl
  | ok pair =>
    obtain ⟨count, header⟩ := pair
    show (walkItems size .empty count (pos + header) >>= fun stop => pure (stop - pos)).outcome = _
    rw [Metered.outcome_bind, walkItems_outcome_eq_collect h]
    cases hfound : collect read count (pos + header) with
    | error e => simp [hfound, Except.bind, Except.map]; rfl
    | ok found =>
      show Except.ok (pos + header + occupied found - pos) = _
      simp [hfound, Except.bind, Except.map, Nat.add_assoc]

end TypeLang.Wire.Vectors
