import TypeLang.Message.Encode

/-!
Writers that put an object into a buffer field by field. The buffer has its size beforehand. A field
that cannot be written leaves the writer where it is, though some of its bytes may already be there,
and the writer may already know its bits if it is a mask.
-/

set_option autoImplicit false
set_option relaxedAutoImplicit false

namespace TypeLang

open Wire Message

/-- An object in the course of being written: the buffer, where the next field goes, and which
fields are written. -/
structure Writer where
  combinator : Combinator
  buffer : ByteArray
  position : Nat
  progress : Progress

namespace Writer

/-- A writer of the combinator of a name at the start of a buffer. -/
def start (s : Schema) (name : String) (buffer : ByteArray) : Except Error Writer :=
  match s.locateNamed name with
  | .error e => .error e
  | .ok object =>
    let tag := emitTag ⟨s, 0, buffer.size⟩ object 0
    tag.outcome.map fun size => ⟨object.combinator, tag.apply buffer 0, size, .start⟩

/-- Writes a value for the field of a number, with `held` guards taken. -/
def write (w : Writer) (s : Schema) (held index : Nat) (v : Value) : Metered Unit × Writer :=
  match w.progress.accept w.combinator index v with
  | .error e => (.fail e, w)
  | .ok (f, progress) =>
    let e := emitValue ⟨s, held, w.buffer.size⟩ f.name f.kind w.position v
    let buffer := e.apply w.buffer w.position
    match e.outcome with
    | .error fault =>
      let known : Progress := ⟨w.progress.next, progress.masks⟩
      (⟨.error fault, e.log⟩, { w with buffer := buffer, progress := known })
    | .ok size => (⟨.ok (), e.log⟩, ⟨w.combinator, buffer, w.position + size, progress⟩)

/-- Where the object ends, if no field is missing. -/
def finish (w : Writer) : Except Error Nat :=
  (w.progress.finish w.combinator).map fun () => w.position

end Writer

end TypeLang
