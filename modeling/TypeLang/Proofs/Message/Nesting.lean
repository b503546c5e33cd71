import TypeLang.Message.Decode

/-!
Objects within objects. Reading and measuring an object takes a guard and leaves one less for the
objects inside it; the number of guards an object asks for is its height. `decodeAt_succ` and
`measureAt_succ` open one level of either recursion and name what stands inside it.
-/

set_option autoImplicit false
set_option relaxedAutoImplicit false

namespace TypeLang

open Wire Message

mutual

/-- How deep the objects in a value are nested. -/
def Value.height : Value → Nat
  | .vector items => Value.itemsHeight items
  | .object ⟨_, _, entries⟩ => Value.entriesHeight entries + 1
  | _ => 0

/-- How deep the objects in the items of a vector are nested. -/
def Value.itemsHeight : List Value → Nat
  | [] => 0
  | v :: rest => max v.height (Value.itemsHeight rest)

/-- How deep the objects in the entries of an object are nested. -/
def Value.entriesHeight : List (String × Value) → Nat
  | [] => 0
  | (_, v) :: rest => max v.height (Value.entriesHeight rest)

end

/-- How deep objects are nested, an object without objects inside it counting one. -/
def Object.height (o : Object) : Nat := (Value.object o).height

/-- What holds of values without values inside, and of vectors and objects if of all that is inside
them, holds of every value. -/
theorem Value.induction {motive : Value → Prop}
    (leaf : ∀ v, v.toItems? = none → v.toObject? = none → motive v)
    (vector : ∀ items, (∀ v ∈ items, motive v) → motive (.vector items))
    (object : ∀ o : Object, (∀ e ∈ o.fields, motive e.2) → motive (.object o)) (v : Value) :
    motive v := by
  refine @Value.rec motive (fun o ↦ ∀ e ∈ o.fields, motive e.2)
    (fun items ↦ ∀ v ∈ items, motive v) (fun entries ↦ ∀ e ∈ entries, motive e.2)
    (fun e ↦ motive e.2) (fun _ ↦ leaf _ rfl rfl) (fun _ ↦ leaf _ rfl rfl)
    (fun _ ↦ leaf _ rfl rfl) (fun _ ↦ leaf _ rfl rfl) (fun _ ↦ leaf _ rfl rfl)
    (fun _ ↦ leaf _ rfl rfl) (fun _ ↦ leaf _ rfl rfl) (fun _ ↦ leaf _ rfl rfl) vector object
    (leaf _ rfl rfl) (fun _ _ _ hfields ↦ hfields) nofun ?_ nofun ?_ (fun _ _ hv ↦ hv) v
  · intro first rest hfirst hrest
    exact List.forall_mem_cons.mpr ⟨hfirst, hrest⟩
  · intro first rest hfirst hrest
    exact List.forall_mem_cons.mpr ⟨hfirst, hrest⟩

namespace Schema

/-- The object that a reference leads to, with `free` guards left to take. -/
def readWithin (s : Schema) (free : Nat) (buffer : ByteArray) (r : Reference) (offset : Nat) :
    Except Error (Object × Nat) :=
  match s.locate buffer offset r with
  | .error e => .error e
  | .ok object => s.decodeAt buffer free object offset

/-- The length of the object that a reference leads to, with `free` guards left to take. -/
def measureWithin (s : Schema) (free : Nat) (buffer : ByteArray) (r : Reference) (offset : Nat) :
    Metered Nat := do
  let object ← .lift (s.locate buffer offset r)
  s.measureAt buffer free object offset

theorem read_eq_readWithin (s : Schema) (held : Nat) (r : Reference) (buffer : ByteArray)
    (offset : Nat) :
    s.read held r buffer offset = s.readWithin (Depth.limit - held) buffer r offset := rfl

theorem sizeOf_eq_measureWithin (s : Schema) (held : Nat) (r : Reference) (buffer : ByteArray)
    (offset : Nat) :
    s.sizeOf held r buffer offset = s.measureWithin (Depth.limit - held) buffer r offset := rfl

theorem decodeKind_eq_decode (s : Schema) (held : Nat) (buffer : ByteArray) (kind : Kind)
    (offset : Nat) :
    s.decodeKind held buffer kind offset =
      kind.decode (s.readWithin (Depth.limit - held) buffer) buffer offset := rfl

theorem measureKind_eq_measure (s : Schema) (held : Nat) (buffer : ByteArray) (kind : Kind)
    (offset : Nat) :
    s.measureKind held buffer kind offset =
      kind.measure (s.measureWithin (Depth.limit - held) buffer) buffer offset := rfl

theorem decodeAt_succ (s : Schema) (buffer : ByteArray) (free : Nat) (object : Located)
    (offset : Nat) :
    s.decodeAt buffer (free + 1) object offset =
      match checkHeader buffer offset object.header with
      | .error e => .error e
      | .ok () =>
        (decodeFields (Kind.decode (s.readWithin free buffer) buffer) buffer
          object.combinator.fields .empty (offset + object.header)).map
          fun (entries, stop) =>
            (⟨object.combinator.name, object.combinator.tag, entries⟩, stop - offset) := rfl

theorem measureAt_succ (s : Schema) (buffer : ByteArray) (free : Nat) (object : Located)
    (offset : Nat) :
    s.measureAt buffer (free + 1) object offset = (do
      let (stop, _) ← walk (Kind.measure (s.measureWithin free buffer) buffer) buffer object
        offset object.combinator.fields.length
      return stop - offset) := rfl

end Schema

end TypeLang
