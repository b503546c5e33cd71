import TypeLang.Schema.Kind
import TypeLang.Value.Basic

/-!
The values of fields that are not there.
-/

set_option autoImplicit false
set_option relaxedAutoImplicit false

namespace TypeLang

/-- The value that an absent field of some kind has. Objects have none. -/
def Kind.zero : Kind → Value
  | mask => .mask 0
  | int => .int 0
  | long => .long 0
  | double => .double ⟨0⟩
  | int128 => .int128 (Vector.replicate 16 0)
  | int256 => .int256 (Vector.replicate 32 0)
  | bytes | string => .bytes ByteArray.empty
  | presence | bool => .bool false
  | vector .. => .vector []
  | object .. | generic _ | anyObject => .null

end TypeLang
