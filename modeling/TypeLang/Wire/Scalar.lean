import TypeLang.Wire.Buffer

/-!
Values of fixed width: words, doubles, large integers, and the two tags that are truth values.
-/

set_option autoImplicit false
set_option relaxedAutoImplicit false

namespace TypeLang.Wire

/-- The length of a tag. -/
def tagLength : Nat := 4

/-- A 32-bit word. -/
def readUInt32 (buffer : ByteArray) (offset : Nat) : Except Error UInt32 :=
  (readNat 4 buffer offset).map UInt32.ofNat

/-- A 32-bit integer. -/
def readInt32 (buffer : ByteArray) (offset : Nat) : Except Error Int32 :=
  (readUInt32 buffer offset).map UInt32.toInt32

/-- A 64-bit word. -/
def readUInt64 (buffer : ByteArray) (offset : Nat) : Except Error UInt64 :=
  (readNat 8 buffer offset).map UInt64.ofNat

/-- A 64-bit integer. -/
def readInt64 (buffer : ByteArray) (offset : Nat) : Except Error Int64 :=
  (readUInt64 buffer offset).map UInt64.toInt64

/-- A double. -/
def readDouble (buffer : ByteArray) (offset : Nat) : Except Error Double :=
  (readUInt64 buffer offset).map Double.mk

/-- A large integer, as its bytes. -/
def readWord (width : Nat) (buffer : ByteArray) (offset : Nat) :
    Except Error (Vector UInt8 width) :=
  (slice buffer offset width).map fun bytes =>
    let data := bytes.data
    Vector.ofFn fun i => data[i.val]?.getD 0

/-- The tag that stands for truth. -/
def trueTag : UInt32 := 0x997275b5

/-- The tag that stands for falsehood. -/
def falseTag : UInt32 := 0xbc799737

/-- The tag of a truth value. -/
def boolTag (b : Bool) : UInt32 := if b then trueTag else falseTag

/-- A truth value. -/
def readBool (buffer : ByteArray) (offset : Nat) : Except Error Bool :=
  match readUInt32 buffer offset with
  | .error e => .error e
  | .ok tag =>
    if tag = trueTag then .ok true
    else if tag = falseTag then .ok false
    else .error (.unknownConstructor tag)

/-- The bytes of a 32-bit word. -/
def encodeUInt32 (x : UInt32) : ByteArray := encodeNat 4 x.toNat

/-- The bytes of a 32-bit integer. -/
def encodeInt32 (x : Int32) : ByteArray := encodeUInt32 x.toUInt32

/-- The bytes of a 64-bit word. -/
def encodeUInt64 (x : UInt64) : ByteArray := encodeNat 8 x.toNat

/-- The bytes of a 64-bit integer. -/
def encodeInt64 (x : Int64) : ByteArray := encodeUInt64 x.toUInt64

/-- The bytes of a double. -/
def encodeDouble (x : Double) : ByteArray := encodeUInt64 x.bits

/-- The bytes of a large integer. -/
def encodeWord {width : Nat} (x : Vector UInt8 width) : ByteArray := ⟨x.toArray⟩

/-- The bytes of a truth value. -/
def encodeBool (b : Bool) : ByteArray := encodeUInt32 (boolTag b)

end TypeLang.Wire
