import TypeLang.Error

/-!
The limit on the nesting of objects. Whoever reads an object holds a guard while it does so, and
there are only so many guards.
-/

set_option autoImplicit false
set_option relaxedAutoImplicit false

namespace TypeLang.Wire.Depth

/-- How many guards there are. -/
def limit : Nat := 64

/-- The fault that an object at a place is nested too deeply. -/
def exceeded (offset : Nat) : Error := .malformed offset .nestedTooDeeply

/-- Takes one more guard than the `held` ones, for an object at a place. -/
def enter (held offset : Nat) : Except Error Nat :=
  if held < limit then .ok (held + 1) else .error (exceeded offset)

/-- Takes guards at the start of a buffer, as many as asked for or as there are. -/
def enterMany (held wanted : Nat) : Nat := held + min wanted (limit - held)

end TypeLang.Wire.Depth
