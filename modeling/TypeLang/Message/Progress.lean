import TypeLang.Schema.Field
import TypeLang.Wire.Mask

/-!
How far an object has been written. Fields come in the order of their declarations; those that
occupy no bytes, because they are presence fields or their bits are clear, may be left out.
-/

set_option autoImplicit false
set_option relaxedAutoImplicit false

namespace TypeLang.Message

/-- The number of the first field that is still to be written, and the masks written so far. -/
structure Progress where
  next : Nat
  masks : Masks

namespace Progress

/-- Nothing written yet. -/
def start : Progress := ⟨0, .empty⟩

/-- The first of some fields that may not be left out. -/
def required? (p : Progress) : List Field → Except Error (Option Field)
  | [] => .ok none
  | f :: rest =>
    match p.masks.skips f with
    | .error e => .error e
    | .ok true => p.required? rest
    | .ok false => .ok (some f)

/-- The first field before a given one that is still to be written and may not be left out. -/
def gap? (p : Progress) (c : Combinator) (index : Nat) : Except Error (Option Field) :=
  p.required? ((c.fields.take index).drop p.next)

/-- Checks the value of a field against its bit. -/
def checkBit (p : Progress) (f : Field) (v : Value) : Except Error Unit :=
  match f.gate with
  | none => .ok ()
  | some g =>
    match p.masks.test g with
    | .error e => .error e
    | .ok isSet =>
      if f.isPresence then
        match v with
        | .bool b =>
          if b = isSet then .ok ()
          else .error (.invalidState (.presenceDiffers f.name b g.bit isSet))
        | _ => .ok ()
      else if isSet then .ok ()
      else .error (.invalidState (.clearWithValue f.name g.bit))

/-- The masks behind a field. -/
def masksBehind (p : Progress) (f : Field) (v : Value) : Except Error Masks :=
  match f.slot with
  | none => .ok p.masks
  | some slot =>
    match v.toMask? with
    | some bits => .ok (p.masks.set slot bits)
    | none => .error (.invalidState (.wrongMask f.name v))

/-- The field of a number and the progress behind it, if a value may be written for it now. -/
def accept (p : Progress) (c : Combinator) (index : Nat) (v : Value) :
    Except Error (Field × Progress) :=
  match c.fields[index]? with
  | none => .error (.invalidState (.noFieldNumber c.name index))
  | some f =>
    if index < p.next then .error (.invalidState (.outOfOrder f.name))
    else
      match p.gap? c index with
      | .error e => .error e
      | .ok (some earlier) => .error (.invalidState (.skipped earlier.name f.name))
      | .ok none =>
        match p.checkBit f v with
        | .error e => .error e
        | .ok () => (p.masksBehind f v).map fun masks => (f, ⟨index + 1, masks⟩)

/-- Checks that no field is missing. -/
def finish (p : Progress) (c : Combinator) : Except Error Unit :=
  match p.gap? c c.fields.length with
  | .error e => .error e
  | .ok (some f) => .error (.invalidState (.neverWritten f.name))
  | .ok none => .ok ()

end Progress

end TypeLang.Message
