import TypeLang.Message.Encode
import TypeLang.Message.Required
import TypeLang.Message.View
import TypeLang.Message.Writer

/-!
A schema in use. A session knows how many guards are held and which walks were taken since it last
forgot them, and every call on it leaves a session behind.
-/

set_option autoImplicit false
set_option relaxedAutoImplicit false

namespace TypeLang

open Wire

/-- A schema, the guards held, and the walks taken. -/
structure Session where
  schema : Schema
  held : Nat
  log : WalkLog

namespace Session

/-- A session with no guard held and no walk taken. -/
def start (s : Schema) : Session := ⟨s, 0, .empty⟩

/-- The outcome of some steps, and the session with their walks. -/
def charge {α : Type} (x : Session) (m : Metered α) : Except Error α × Session :=
  (m.outcome, { x with log := x.log ++ m.log })

/-- The number of bytes of the object that a reference leads to. -/
def sizeOf (x : Session) (r : Reference) (buffer : ByteArray) (offset : Nat) :
    Except Error Nat × Session :=
  x.charge (x.schema.sizeOf x.held r buffer offset)

/-- The object that a reference leads to. -/
def read (x : Session) (r : Reference) (buffer : ByteArray) (offset : Nat) :
    Except Error (Object × Nat) × Session :=
  x.charge (.lift (x.schema.read x.held r buffer offset))

/-- The next object of several that stand one behind the other. -/
def readNext (x : Session) (r : Reference) (buffer : ByteArray) (offset : Nat) :
    Except Error (Object × Nat) × Session :=
  x.charge (.lift (x.schema.readNext x.held r buffer offset))

/-- A view of bytes that are one object. -/
def view (x : Session) (name : String) (bytes : ByteArray) : Except Error View × Session :=
  x.charge (x.schema.view x.held name bytes)

/-- The bytes of an object with the given entries. -/
def build (x : Session) (name : String) (entries : Entries) : Except Error ByteArray × Session :=
  x.charge (x.schema.build x.held name entries)

/-- Takes a guard. -/
def enter (x : Session) (offset : Nat) : Except Error Nat × Session :=
  match Depth.enter x.held offset with
  | .ok held => (.ok held, { x with held := held })
  | .error e => (.error e, x)

/-- Takes guards, as many as asked for or as there are. -/
def enterMany (x : Session) (wanted : Nat) : Session :=
  { x with held := Depth.enterMany x.held wanted }

/-- Gives a guard back. -/
def leave (x : Session) : Session := { x with held := x.held - 1 }

/-- Forgets the walks taken. -/
def forget (x : Session) : Session := { x with log := .empty }

end Session

end TypeLang
