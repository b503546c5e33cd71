import TypeLang.Decimal.Double

/-!
Values of fields, and objects, which are values with named fields. The accessors read a value as the
type that a field expects, where one type may stand for another.
-/

set_option autoImplicit false
set_option relaxedAutoImplicit false

namespace TypeLang

mutual

/-- A value of a field. `null` is the value of an absent field whose kind has no zero. -/
inductive Value
  | int (x : Int32)
  | long (x : Int64)
  | double (x : Double)
  | int128 (x : Vector UInt8 16)
  | int256 (x : Vector UInt8 32)
  | bytes (data : ByteArray)
  | mask (bits : UInt32)
  | bool (b : Bool)
  | vector (items : List Value)
  | object (o : Object)
  | null

/-- An instance of a combinator: its name, the tag it is known under, and named fields. -/
structure Object where
  name : String
  tag : Option UInt32
  fields : List (String × Value)

end

instance : Inhabited Value := ⟨.null⟩

instance : Inhabited Object := ⟨"", none, []⟩

/-- Values under names. Of several under one name the first counts. -/
abbrev Entries := List (String × Value)

namespace Value

/-- A 32-bit integer; a mask is one too. -/
def toInt? : Value → Option Int32
  | int x => some x
  | mask bits => some bits.toInt32
  | _ => none

/-- A 64-bit integer, from either width. -/
def toLong? : Value → Option Int64
  | long x => some x
  | int x => some x.toInt64
  | _ => none

/-- A double. -/
def toDouble? : Value → Option Double
  | double x => some x
  | _ => none

/-- A mask; an integer is one too. -/
def toMask? : Value → Option UInt32
  | mask bits => some bits
  | int x => some x.toUInt32
  | _ => none

/-- A truth value. -/
def toBool? : Value → Option Bool
  | bool b => some b
  | _ => none

/-- A byte string. -/
def toBytes? : Value → Option ByteArray
  | bytes data => some data
  | _ => none

/-- A byte string that is the encoding of a text. -/
def toText? (v : Value) : Option String := v.toBytes?.bind String.fromUTF8?

/-- The items of a vector. -/
def toItems? : Value → Option (List Value)
  | vector items => some items
  | _ => none

/-- An object. -/
def toObject? : Value → Option Object
  | object o => some o
  | _ => none

/-- Whether this is the value of an absent field. -/
def isNull : Value → Bool
  | null => true
  | _ => false

/-- The byte string that encodes a text. -/
def ofText (text : String) : Value := bytes text.toUTF8

end Value

/-- The value under a name. -/
def Entries.find? (entries : Entries) (name : String) : Option Value := entries.lookup name

/-- The same entries, where of several under one name the last counts. -/
def Entries.preferLast (entries : Entries) : Entries := entries.reverse

mutual

/-- Equality of values that compares doubles as numbers. -/
def Value.equals : Value → Value → Bool
  | .int x, .int y => x == y
  | .long x, .long y => x == y
  | .double x, .double y => x.equals y
  | .int128 x, .int128 y => x == y
  | .int256 x, .int256 y => x == y
  | .bytes x, .bytes y => x == y
  | .mask x, .mask y => x == y
  | .bool x, .bool y => x == y
  | .vector xs, .vector ys => Value.equalItems xs ys
  | .object ⟨name, tag, fields⟩, .object o =>
    name == o.name && tag == o.tag && Value.equalFields fields o.fields
  | .null, .null => true
  | _, _ => false

/-- Equality of vectors, item by item. -/
def Value.equalItems : List Value → List Value → Bool
  | [], [] => true
  | x :: xs, y :: ys => x.equals y && Value.equalItems xs ys
  | _, _ => false

/-- Equality of fields, name by name and value by value. -/
def Value.equalFields : List (String × Value) → List (String × Value) → Bool
  | [], [] => true
  | (n, x) :: xs, (m, y) :: ys => n == m && x.equals y && Value.equalFields xs ys
  | _, _ => false

end

end TypeLang
