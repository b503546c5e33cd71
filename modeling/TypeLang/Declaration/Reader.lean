import TypeLang.Error
import TypeLang.Text.Numeral
import TypeLang.Token.Stream

/-!
Reading declarations from tokens. A step of the reader looks at the tokens ahead and leaves those
it did not take, whether it succeeds or not; so reading can go on behind a fault. No step leaves
more tokens than it was given, which bounds every loop here.
-/

set_option autoImplicit false
set_option relaxedAutoImplicit false

namespace TypeLang

/-- What reading comes to, and the tokens left. -/
abbrev Step (α : Type) := Except Error α × List Token

namespace Step

/-- Continues a successful step on the tokens it left. -/
def andThen {α β : Type} (s : Step α) (f : α → List Token → Step β) : Step β :=
  match s.1 with
  | .ok a => f a s.2
  | .error e => (.error e, s.2)

/-- Changes what a successful step comes to. -/
def map {α β : Type} (f : α → β) (s : Step α) : Step β := (s.1.map f, s.2)

theorem andThen_length_le {α β : Type} {s : Step α} {f : α → List Token → Step β} {n : Nat}
    (hs : s.2.length ≤ n) (hf : ∀ a, (f a s.2).2.length ≤ s.2.length) :
    (s.andThen f).2.length ≤ n := by
  unfold andThen
  split
  · exact Nat.le_trans (hf _) hs
  · exact hs

end Step

namespace Declaration.Reader

/-- The fault that a token stands where something else is expected. -/
def unexpected (expected : Expectation) (t : Token) : Error :=
  .atPosition t.position (.unexpected expected t)

/-- Takes the next token if it is of a given kind. A token of another kind is taken as well, but is
a fault. -/
def expect (kind : Token.Kind) (expected : Expectation) (stop : Token) :
    List Token → Step Token
  | [] => (.error (unexpected expected stop), [])
  | t :: rest => (if t.kind = kind then .ok t else .error (unexpected expected t), rest)

theorem expect_length_le (kind : Token.Kind) (expected : Expectation) (stop : Token)
    (tokens : List Token) : (expect kind expected stop tokens).2.length ≤ tokens.length := by
  cases tokens <;> simp [expect]

/-- A name that is applied to nothing. Vectors have to be applied. -/
def plainTerm (t : Token) (rest : List Token) : Step TypeTerm :=
  let head := TypeTerm.Head.ofText t.text
  (if head.isVector then .error (.atPosition t.position .missingElementType)
    else .ok (.name head), rest)

/-- The generic parameter behind an exclamation mark. -/
def invocation (generics : List GenericParameter) (stop : Token) (tokens : List Token) :
    Step TypeTerm :=
  (expect .ident .invokedParameter stop tokens).andThen fun t rest =>
    (if generics.any (·.name == t.text) then .ok (.invocation t.text)
      else .error (.atPosition t.position (.unknownParameter t.text)), rest)

/-- A type. What stands between angle brackets can invoke no generic parameter. -/
def term (generics : List GenericParameter) (stop : Token) : List Token → Step TypeTerm
  | [] => (.error (unexpected .type stop), [])
  | t :: rest =>
    match t.kind with
    | .hash => (.ok .mask, rest)
    | .bang => invocation generics stop rest
    | .percent => (term generics stop rest).map TypeTerm.asBare
    | .ident =>
      match rest with
      | [] => plainTerm t []
      | sign :: inner =>
        if sign.kind = .leftAngle then
          (term [] stop inner).andThen fun argument behind =>
            (expect .rightAngle .rightAngle stop behind).map fun _ =>
              .applied (TypeTerm.Head.ofText t.text) argument
        else plainTerm t (sign :: inner)
    | _ => (.error (unexpected .type t), rest)

theorem invocation_length_le (generics : List GenericParameter) (stop : Token)
    (tokens : List Token) : (invocation generics stop tokens).2.length ≤ tokens.length :=
  Step.andThen_length_le (expect_length_le ..) fun _ => Nat.le_refl _

theorem term_length_le (generics : List GenericParameter) (stop : Token) (tokens : List Token) :
    (term generics stop tokens).2.length ≤ tokens.length := by
  fun_induction term generics stop tokens with
  | case1 => simp
  | case2 => simp
  | case3 generics t rest => exact Nat.le_succ_of_le (invocation_length_le ..)
  | case4 generics t rest _ ih => exact Nat.le_succ_of_le ih
  | case5 => simp [plainTerm]
  | case6 generics t sign inner _ _ ih =>
    refine Step.andThen_length_le ?_ fun _ => expect_length_le ..
    simp only [List.length_cons]
    omega
  | case7 => simp [plainTerm]
  | case8 => simp

/-- The condition that a token of the form `mask.bit` states, among the arguments before it. -/
def condition (t : Token) (previous : List Argument) : Except SyntaxFault Condition :=
  match QualifiedName.splitLastDot? t.text.toList with
  | none => .error (.conditionForm t.text)
  | some (front, back) =>
    let field := String.ofList front
    match Text.Numeral.read? 10 256 back with
    | none => .error (.bitNotANumber (String.ofList back))
    | some bit =>
      if 32 ≤ bit then .error (.bitOutOfRange bit)
      else
        match previous.find? (·.name == field) with
        | some a =>
          if a.type.isMask then .ok ⟨field, UInt8.ofNat bit⟩ else .error (.notAMask field)
        | none => .error (.maskNotDeclared field)

/-- The type of an argument, and the condition before it. A name is a condition if a question mark
follows it. -/
def conditionedTerm (generics : List GenericParameter) (previous : List Argument) (stop : Token)
    (tokens : List Token) : Step (Option Condition × TypeTerm) :=
  let plain := (term generics stop tokens).map fun type => (none, type)
  match tokens with
  | t :: sign :: rest =>
    if t.kind = .ident ∧ sign.kind = .question then
      match condition t previous with
      | .error fault => (.error (.atPosition t.position fault), rest)
      | .ok condition =>
        (term generics stop rest).andThen fun type behind =>
          (if type.isMask then .error (.atPosition t.position .conditionalMask)
            else .ok (some condition, type), behind)
    else plain
  | _ => plain

theorem conditionedTerm_length_le (generics : List GenericParameter) (previous : List Argument)
    (stop : Token) (tokens : List Token) :
    (conditionedTerm generics previous stop tokens).2.length ≤ tokens.length := by
  unfold conditionedTerm
  dsimp only
  split
  · split
    · split
      · simp only [List.length_cons]
        omega
      · refine Step.andThen_length_le ?_ fun _ => Nat.le_refl _
        have := term_length_le generics stop
        simp only [List.length_cons]
        exact Nat.le_trans (this _) (by omega)
    · exact term_length_le ..
  · exact term_length_le ..

/-- An argument behind its name. -/
def argument (generics : List GenericParameter) (previous : List Argument) (stop name : Token)
    (tokens : List Token) : Step Argument :=
  if name.text.toList.contains '.' then
    (.error (.atPosition name.position (.qualifiedArgument name.text)), tokens)
  else if previous.any (·.name == name.text) then
    (.error (.atPosition name.position (.duplicateArgument name.text)), tokens)
  else
    (expect .colon .colon stop tokens).andThen fun _ rest =>
      (conditionedTerm generics previous stop rest).map fun (condition, type) =>
        ⟨name.text, type, condition⟩

theorem argument_length_le (generics : List GenericParameter) (previous : List Argument)
    (stop name : Token) (tokens : List Token) :
    (argument generics previous stop name tokens).2.length ≤ tokens.length := by
  unfold argument
  split
  · exact Nat.le_refl _
  split
  · exact Nat.le_refl _
  exact Step.andThen_length_le (expect_length_le ..) fun _ => conditionedTerm_length_le ..

/-- A generic parameter behind its opening brace. -/
def parameter (stop : Token) (tokens : List Token) : Step GenericParameter :=
  (expect .ident .parameterName stop tokens).andThen fun name rest =>
  (expect .colon .colon stop rest).andThen fun _ rest =>
  (expect .ident .constraint stop rest).andThen fun constraint rest =>
  (expect .rightBrace .rightBrace stop rest).map fun _ => ⟨name.text, constraint.text⟩

theorem parameter_length_le (stop : Token) (tokens : List Token) :
    (parameter stop tokens).2.length ≤ tokens.length :=
  Step.andThen_length_le (expect_length_le ..) fun _ =>
    Step.andThen_length_le (expect_length_le ..) fun _ =>
      Step.andThen_length_le (expect_length_le ..) fun _ => expect_length_le ..

/-- The generic parameters ahead. -/
def parameters (stop : Token) (tokens : List Token) : Step (List GenericParameter) :=
  match tokens with
  | [] => (.ok [], [])
  | t :: rest =>
    if t.kind = .leftBrace then
      let step := parameter stop rest
      match step.1 with
      | .ok p => (parameters stop step.2).map (p :: ·)
      | .error e => (.error e, step.2)
    else (.ok [], t :: rest)
termination_by tokens.length
decreasing_by exact Nat.lt_succ_of_le (parameter_length_le stop rest)

/-- The arguments ahead, behind those already read. -/
def arguments (generics : List GenericParameter) (stop : Token) (previous : List Argument)
    (tokens : List Token) : Step (List Argument) :=
  match tokens with
  | [] => (.ok previous, [])
  | t :: rest =>
    if t.kind = .ident then
      let step := argument generics previous stop t rest
      match step.1 with
      | .ok a => arguments generics stop (previous ++ [a]) step.2
      | .error e => (.error e, step.2)
    else (.ok previous, t :: rest)
termination_by tokens.length
decreasing_by exact Nat.lt_succ_of_le (argument_length_le generics previous stop t rest)

theorem parameters_length_le (stop : Token) (tokens : List Token) :
    (parameters stop tokens).2.length ≤ tokens.length := by
  fun_induction parameters stop tokens with
  | case1 => simp
  | case2 t rest _ step p _ ih =>
    exact Nat.le_succ_of_le (Nat.le_trans ih (parameter_length_le stop rest))
  | case3 t rest _ step e _ => exact Nat.le_succ_of_le (parameter_length_le stop rest)
  | case4 => simp

theorem arguments_length_le (generics : List GenericParameter) (stop : Token)
    (previous : List Argument) (tokens : List Token) :
    (arguments generics stop previous tokens).2.length ≤ tokens.length := by
  fun_induction arguments generics stop previous tokens with
  | case1 => simp
  | case2 previous t rest _ step a _ ih =>
    exact Nat.le_succ_of_le (Nat.le_trans ih (argument_length_le ..))
  | case3 previous t rest _ step e _ => exact Nat.le_succ_of_le (argument_length_le ..)
  | case4 => simp

/-- The digits of a tag, of which there are at most eight. -/
def tagOfToken (t : Token) : Except Error UInt32 :=
  if t.kind ≠ .number then .error (unexpected .tag t)
  else if 8 < t.text.utf8ByteSize then .error (.atPosition t.position (.wideTag t.text))
  else
    match Text.Numeral.read? 16 UInt32.size t.text.toList with
    | some n => .ok (UInt32.ofNat n)
    | none => .error (.atPosition t.position (.invalidTag t.text))

/-- The tag ahead, if a hash sign announces one. -/
def tag? (stop : Token) : List Token → Step (Option UInt32)
  | [] => (.ok none, [])
  | t :: rest =>
    if t.kind = .hash then
      match rest with
      | [] => (.error (unexpected .tag stop), [])
      | digits :: behind => ((tagOfToken digits).map some, behind)
    else (.ok none, t :: rest)

theorem tag?_length_le (stop : Token) (tokens : List Token) :
    (tag? stop tokens).2.length ≤ tokens.length := by
  unfold tag?
  repeat' split
  all_goals simp
  all_goals omega

/-- A declaration behind the name of its combinator. -/
def declaration (isFunction : Bool) (stop name : Token) (tokens : List Token) :
    Step Declaration :=
  (tag? stop tokens).andThen fun tag rest =>
  (parameters stop rest).andThen fun generics rest =>
  (arguments generics stop [] rest).andThen fun arguments rest =>
  (expect .equals .equals stop rest).andThen fun _ rest =>
  (term generics stop rest).andThen fun result rest =>
  (expect .semicolon .semicolon stop rest).map fun _ =>
    { name := QualifiedName.ofText name.text
      tag := tag
      generics := generics
      arguments := arguments
      result := result
      isFunction := isFunction
      position := name.position }

theorem declaration_length_le (isFunction : Bool) (stop name : Token) (tokens : List Token) :
    (declaration isFunction stop name tokens).2.length ≤ tokens.length :=
  Step.andThen_length_le (tag?_length_le ..) fun _ =>
    Step.andThen_length_le (parameters_length_le ..) fun _ =>
      Step.andThen_length_le (arguments_length_le ..) fun _ =>
        Step.andThen_length_le (expect_length_le ..) fun _ =>
          Step.andThen_length_le (term_length_le ..) fun _ => expect_length_le ..

/-- The marker behind which declarations are functions. -/
def functionsMarker : String := "---functions---"

/-- The marker behind which declarations are constructors. -/
def typesMarker : String := "---types---"

/-- Passes over markers and stray semicolons up to the name of a combinator, which is taken. Tells
whether the last marker announced functions. -/
def opening (inFunctions : Bool) : List Token → Bool × Step (Option Token)
  | [] => (inFunctions, .ok none, [])
  | t :: rest =>
    match t.kind with
    | .sectionMarker =>
      if t.text = functionsMarker then opening true rest
      else if t.text = typesMarker then opening false rest
      else (inFunctions, .error (.atPosition t.position (.unknownMarker t.text)), rest)
    | .semicolon => opening inFunctions rest
    | .ident => (inFunctions, .ok (some t), rest)
    | _ => (inFunctions, .error (unexpected .combinatorName t), rest)

end Declaration.Reader

/-- A reader of declarations: its place among the tokens, and whether declarations from here on are
functions. -/
structure Declaration.Reader where
  cursor : Cursor
  inFunctions : Bool
deriving DecidableEq, Repr

namespace Declaration.Reader

/-- A reader before the first token. Declarations are constructors until a marker says otherwise. -/
def ofCursor (c : Cursor) : Reader := ⟨c, false⟩

/-- The next declaration, or nothing at the end, and the reader behind it. -/
def next (r : Reader) : Except Error (Option Declaration) × Reader :=
  let start := opening r.inFunctions r.cursor.ahead
  let behind (rest : List Token) : Reader := ⟨{ r.cursor with ahead := rest }, start.1⟩
  match start.2.1 with
  | .error e => (.error e, behind start.2.2)
  | .ok none => (.ok none, behind start.2.2)
  | .ok (some name) =>
    let step := declaration start.1 r.cursor.stop name start.2.2
    (step.1.map some, behind step.2)

/-- A declaration takes at least the name of its combinator. -/
theorem opening_length_lt {inFunctions : Bool} {tokens : List Token} {t : Token}
    (h : (opening inFunctions tokens).2.1 = .ok (some t)) :
    (opening inFunctions tokens).2.2.length < tokens.length := by
  fun_induction opening inFunctions tokens <;> simp_all <;> omega

theorem next_length_lt {r : Reader} {d : Declaration} (h : r.next.1 = .ok (some d)) :
    r.next.2.cursor.ahead.length < r.cursor.ahead.length := by
  unfold next at h ⊢
  dsimp only at h ⊢
  split at h
  · simp at h
  · simp at h
  · rename_i name heq
    exact Nat.lt_of_le_of_lt (declaration_length_le ..) (opening_length_lt heq)

/-- The declarations from here on, up to the first fault. -/
def all (r : Reader) : Except Error (List Declaration) :=
  let step := r.next
  match _h : step.1 with
  | .error e => .error e
  | .ok none => .ok []
  | .ok (some d) => (all step.2).map (d :: ·)
termination_by r.cursor.ahead.length
decreasing_by exact next_length_lt _h

end Declaration.Reader

/-- The declarations of a schema text. -/
def Declaration.parse (source : String) : Except Error (List Declaration) :=
  (Declaration.Reader.ofCursor (Cursor.ofText source)).all

end TypeLang
