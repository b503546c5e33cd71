import TypeLang.Error
import TypeLang.Wire.Mask

/-!
The masks of an object to be written. A mask that is supplied stands; one that is omitted has the
bits of the fields that are supplied. Either way every bit has to agree with its field.
-/

set_option autoImplicit false
set_option relaxedAutoImplicit false

namespace TypeLang.Message

open Wire

/-- Whether a field is supplied by a value, or by none. The value of a presence field supplies it
only when it is true. -/
def isSupplied (f : Field) : Option Value → Bool
  | none | some .null => false
  | some (.bool b) => b || !f.isPresence
  | some _ => true

/-- The masks that are supplied, by number. -/
def suppliedMasks (entries : Entries) :
    List Field → Except StateFault (List (Nat × UInt32))
  | [] => .ok []
  | f :: rest =>
    match f.slot, entries.find? f.name with
    | some slot, some v =>
      match v.toMask? with
      | some bits => (suppliedMasks entries rest).map ((slot, bits) :: ·)
      | none => .error (.wrongType f.name f.kind v)
    | _, _ => suppliedMasks entries rest

/-- The bits that supplied fields set in a mask. -/
def derivedMask (entries : Entries) (slot : Nat) (fields : List Field) : Except Error UInt32 :=
  fields.foldlM (fun bits f =>
    match f.gate with
    | some g =>
      if g.slot = slot ∧ isSupplied f (entries.find? f.name) then
        (Masks.gateWord g).map (bits ||| ·)
      else .ok bits
    | none => .ok bits) 0

/-- Checks that the value of a field agrees with its bit. -/
def checkField (masks : Masks) (f : Field) (value : Option Value) : Except Error Unit :=
  match f.gate with
  | none => .ok ()
  | some g =>
    match masks.test g with
    | .error e => .error e
    | .ok isSet =>
      if f.isPresence then
        match value with
        | some (.bool b) =>
          if b = isSet then .ok ()
          else .error (.invalidState (.presenceDiffers f.name b g.bit isSet))
        | _ => .ok ()
      else
        (checkGate (masks g.slot) g.bit (isSupplied f value) f.name).mapError .invalidState

/-- Checks that the values of some fields agree with their bits. -/
def checkFields (masks : Masks) (entries : Entries) : List Field → Except Error Unit
  | [] => .ok ()
  | f :: rest =>
    match checkField masks f (entries.find? f.name) with
    | .ok () => checkFields masks entries rest
    | .error e => .error e

/-- The mask of a number: the one supplied, or else the derived one. -/
def completeMask (entries : Entries) (fields : List Field) (supplied : List (Nat × UInt32))
    (slot : Nat) : Except Error UInt32 :=
  match supplied.lookup slot with
  | some bits => .ok bits
  | none => derivedMask entries slot fields

/-- The masks from those that are supplied. -/
def completeMasks (entries : Entries) (fields : List Field) (supplied : List (Nat × UInt32)) :
    Except Error Masks :=
  ((List.range Field.maskLimit).mapM (completeMask entries fields supplied)).map
    fun words slot => words[slot]?.getD 0

/-- The masks of an object with the given entries. -/
def resolveMasks (fields : List Field) (entries : Entries) : Except Error Masks :=
  match suppliedMasks entries fields with
  | .error fault => .error (.invalidState fault)
  | .ok supplied =>
    match completeMasks entries fields supplied with
    | .error e => .error e
    | .ok masks => (checkFields masks entries fields).map fun () => masks

end TypeLang.Message
