import TypeLang.Schema.Field

/-!
Masks, words whose bits say which fields are there, and the bits of several masks together.
-/

set_option autoImplicit false
set_option relaxedAutoImplicit false

namespace TypeLang

namespace Wire

/-- The word with one bit set, or no bit if there is none of that number. -/
def bitMask (bit : UInt8) : UInt32 := if bit < 32 then 1 <<< bit.toUInt32 else 0

/-- Whether a bit of a mask is set. -/
def hasBit (bits : UInt32) (bit : UInt8) : Bool := bits &&& bitMask bit != 0

/-- A mask with one bit changed. -/
def setBit (bits : UInt32) (bit : UInt8) (isOn : Bool) : UInt32 :=
  if isOn then bits ||| bitMask bit else bits &&& ~~~bitMask bit

/-- Checks that a value is supplied just when its bit is set. -/
def checkGate (bits : UInt32) (bit : UInt8) (supplied : Bool) (field : String) :
    Except StateFault Unit :=
  match hasBit bits bit, supplied with
  | true, false => .error (.setWithoutValue bit field)
  | false, true => .error (.clearWithValue field bit)
  | _, _ => .ok ()

end Wire

/-- The masks of an instance, by number. Those that are not known yet are zero. -/
abbrev Masks := Nat → UInt32

namespace Masks

/-- The masks before any is known. -/
def empty : Masks := fun _ => 0

/-- The masks with one of them given. -/
def set (masks : Masks) (slot : Nat) (bits : UInt32) : Masks :=
  fun other => if other = slot then bits else masks other

/-- The word that a gate tests for. One is shifted by the bit of the gate, and a shift by the width
of a word or more overflows. -/
def gateWord (g : Gate) : Except Error UInt32 :=
  if g.bit < 32 then .ok (1 <<< g.bit.toUInt32) else .error .overflow

/-- Whether the bit of a gate is set. -/
def test (masks : Masks) (g : Gate) : Except Error Bool :=
  (gateWord g).map fun word => masks g.slot &&& word != 0

/-- Whether a field is there. A field without a gate always is. -/
def asks (masks : Masks) (f : Field) : Except Error Bool :=
  match f.gate with
  | some g => masks.test g
  | none => .ok true

/-- Whether nothing is to be written for a field: its value is its bit, or it is not there. -/
def skips (masks : Masks) (f : Field) : Except Error Bool :=
  if f.isPresence then .ok true else (masks.asks f).map (!·)

end Masks

end TypeLang
