import TypeLang.Error

/-!
Outcomes together with a record of the walks over fields that led to them. The record is kept
whether the outcome is a success or not. Dropping it gives the outcome that the same steps have
without one.
-/

set_option autoImplicit false
set_option relaxedAutoImplicit false

namespace TypeLang.Wire

/-- How many walks over fields came to their end, and how many fields they passed. -/
structure WalkLog where
  walks : Nat
  fields : Nat
deriving DecidableEq, Repr

namespace WalkLog

/-- No walk. -/
def empty : WalkLog := ⟨0, 0⟩

/-- A walk over some fields. -/
def walk (fields : Nat) : WalkLog := ⟨1, fields⟩

/-- The walks of one record and those of another. -/
def append (a b : WalkLog) : WalkLog := ⟨a.walks + b.walks, a.fields + b.fields⟩

instance : Append WalkLog := ⟨append⟩

/-- The number of fields passed, if there was any walk. -/
def profile (log : WalkLog) : Option Nat := if log.walks = 0 then none else some log.fields

@[simp] theorem empty_append (a : WalkLog) : empty ++ a = a := by
  show append empty a = a
  simp [append, empty]

@[simp] theorem append_empty (a : WalkLog) : a ++ empty = a := rfl

theorem append_assoc (a b c : WalkLog) : a ++ b ++ c = a ++ (b ++ c) := by
  show append (append a b) c = append a (append b c)
  simp [append, Nat.add_assoc]

end WalkLog

/-- An outcome and the walks that led to it. -/
structure Metered (α : Type) where
  outcome : Except Error α
  log : WalkLog

namespace Metered

variable {α β : Type}

/-- An outcome that takes no walk. -/
def lift (outcome : Except Error α) : Metered α := ⟨outcome, .empty⟩

/-- A failure. -/
def fail (e : Error) : Metered α := lift (.error e)

/-- Continues behind a success. -/
def bind (m : Metered α) (f : α → Metered β) : Metered β :=
  match m.outcome with
  | .ok a => ⟨(f a).outcome, m.log ++ (f a).log⟩
  | .error e => ⟨.error e, m.log⟩

instance : Monad Metered where
  pure a := lift (.ok a)
  bind := bind

/-- Records a walk over some fields. -/
def record (fields : Nat) : Metered Unit := ⟨.ok (), .walk fields⟩

/-- The same outcome behind earlier walks. -/
def after (log : WalkLog) (m : Metered α) : Metered α := ⟨m.outcome, log ++ m.log⟩

@[simp] theorem outcome_lift (outcome : Except Error α) : (lift outcome).outcome = outcome := rfl

@[simp] theorem outcome_pure (a : α) : (pure a : Metered α).outcome = .ok a := rfl

@[simp] theorem outcome_record (fields : Nat) : (record fields).outcome = .ok () := rfl

/-- Dropping the record turns steps on metered outcomes into steps on outcomes. -/
@[simp] theorem outcome_bind (m : Metered α) (f : α → Metered β) :
    (m >>= f).outcome = m.outcome >>= fun a => (f a).outcome := by
  show (bind m f).outcome = _
  unfold bind
  cases m.outcome <;> rfl

end Metered

end TypeLang.Wire
