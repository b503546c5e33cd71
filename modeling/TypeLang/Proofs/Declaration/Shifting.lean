import TypeLang.Proofs.Declaration.Parsing
import TypeLang.Proofs.Token.Concatenation

/-!
Declarations read from tokens that are moved. The reader looks at the kinds and the texts of tokens
and passes on their places, but decides nothing by a place. So from moved tokens every step reads
what it read before, with places that are moved, and finds the same fault in the same column of a
line that is moved (`Declaration.Reader.all_shift`).
-/

set_option autoImplicit false
set_option relaxedAutoImplicit false

namespace TypeLang

/-- A fault in a text that is moved. Only a token that it shows has a place. -/
def SyntaxFault.shift (k : Shift) : SyntaxFault → SyntaxFault
  | unexpected expected found => unexpected expected (found.shift k)
  | fault => fault

/-- What is said about a fault does not depend on places. -/
theorem SyntaxFault.message_shift (k : Shift) (fault : SyntaxFault) :
    (fault.shift k).message = fault.message := by
  cases fault <;> rfl

/-- A failure in a text that is moved. -/
def Error.shift (k : Shift) : Error → Error
  | badSyntax line column fault => badSyntax (line + k.lines) column (fault.shift k)
  | e => e

/-- A declaration that is moved. -/
def Declaration.shift (k : Shift) (d : Declaration) : Declaration :=
  { d with position := d.position.shift k }

/-- An outcome of reading from moved tokens, where values change as `g` says. -/
def shiftOutcome {α β : Type} (k : Shift) (g : α → β) : Except Error α → Except Error β
  | .ok a => .ok (g a)
  | .error e => .error (e.shift k)

namespace Step

variable {α β γ δ : Type} {k : Shift}

/-- A step from moved tokens, where values change as `g` says. -/
def shift (k : Shift) (g : α → β) (s : Step α) : Step β :=
  (shiftOutcome k g s.1, s.2.map (Token.shift k))

theorem shift_andThen {g : α → β} {h : γ → δ} {s : Step α} {f : α → List Token → Step γ}
    {f' : β → List Token → Step δ}
    (hf : ∀ a rest, f' (g a) (rest.map (Token.shift k)) = (f a rest).shift k h) :
    (s.shift k g).andThen f' = (s.andThen f).shift k h := by
  obtain ⟨outcome, rest⟩ := s
  cases outcome with
  | error e => rfl
  | ok a => exact hf a rest

theorem shift_map {g : α → β} {h : γ → δ} {s : Step α} {f : α → γ} {f' : β → δ}
    (hf : ∀ a, f' (g a) = h (f a)) : (s.shift k g).map f' = (s.map f).shift k h := by
  obtain ⟨outcome, rest⟩ := s
  cases outcome with
  | error e => rfl
  | ok a => exact congrArg (fun b ↦ (Except.ok b, _)) (hf a)

end Step

theorem shiftOutcome_ite {α β : Type} (k : Shift) (g : α → β) {p : Prop} [Decidable p]
    (x y : Except Error α) :
    shiftOutcome k g (if p then x else y) =
      if p then shiftOutcome k g x else shiftOutcome k g y :=
  apply_ite _ _ _ _

namespace Declaration.Reader

open Step

variable (k : Shift) (stop : Token)

theorem expect_shift (kind : Token.Kind) (expected : Expectation) (tokens : List Token) :
    expect kind expected (stop.shift k) (tokens.map (Token.shift k)) =
      (expect kind expected stop tokens).shift k (Token.shift k) := by
  cases tokens with
  | nil => rfl
  | cons t rest =>
    unfold expect Step.shift
    dsimp only [List.map_cons]
    rw [shiftOutcome_ite]
    rfl

theorem plainTerm_shift (t : Token) (rest : List Token) :
    plainTerm (t.shift k) (rest.map (Token.shift k)) = (plainTerm t rest).shift k id := by
  unfold plainTerm Step.shift
  dsimp only
  rw [shiftOutcome_ite]
  rfl

theorem invocation_shift (generics : List GenericParameter) (tokens : List Token) :
    invocation generics (stop.shift k) (tokens.map (Token.shift k)) =
      (invocation generics stop tokens).shift k id := by
  unfold invocation
  rw [expect_shift]
  refine shift_andThen fun t rest ↦ ?_
  unfold Step.shift
  dsimp only
  rw [shiftOutcome_ite]
  rfl

theorem term_shift (generics : List GenericParameter) (tokens : List Token) :
    term generics (stop.shift k) (tokens.map (Token.shift k)) =
      (term generics stop tokens).shift k id := by
  fun_induction term generics stop tokens with
  | case1 => rfl
  | case2 generics t rest hkind =>
    rw [List.map_cons, term.eq_def _ (stop.shift k)]
    simp only [Token.shift_kind, hkind]
    rfl
  | case3 generics t rest hkind =>
    rw [List.map_cons, term.eq_def _ (stop.shift k)]
    simp only [Token.shift_kind, hkind]
    exact invocation_shift k stop generics rest
  | case4 generics t rest hkind ih =>
    rw [List.map_cons, term.eq_def _ (stop.shift k)]
    simp only [Token.shift_kind, hkind, ih]
    exact shift_map fun _ ↦ rfl
  | case5 generics t hkind =>
    simp only [List.map_cons, List.map_nil, term, Token.shift_kind, hkind]
    exact plainTerm_shift k t []
  | case6 generics t hkind sign inner hsign ih =>
    simp only [List.map_cons, term, Token.shift_kind, hkind, hsign, if_true, ih]
    refine shift_andThen fun argument behind ↦ ?_
    rw [expect_shift]
    exact shift_map fun _ ↦ rfl
  | case7 generics t hkind sign inner hsign =>
    simp only [List.map_cons, term, Token.shift_kind, hkind, hsign, if_false]
    exact plainTerm_shift k t (sign :: inner)
  | case8 generics t rest hhash hbang hpercent hident =>
    rw [List.map_cons, term.eq_def _ (stop.shift k)]
    dsimp only
    split
    · rename_i hkind
      exact absurd hkind hhash
    · rename_i hkind
      exact absurd hkind hbang
    · rename_i hkind
      exact absurd hkind hpercent
    · rename_i hkind
      exact absurd hkind hident
    · rfl

/-- A condition is at fault without showing a token. -/
theorem condition_fault_shift {t : Token} {previous : List Argument} {fault : SyntaxFault}
    (h : condition t previous = .error fault) : fault.shift k = fault := by
  unfold condition at h
  split at h
  · cases h
    rfl
  dsimp only at h
  split at h
  · cases h
    rfl
  split at h
  · cases h
    rfl
  split at h
  · split at h
    · cases h
    · cases h
      rfl
  · cases h
    rfl

theorem conditionedTerm_shift (generics : List GenericParameter) (previous : List Argument)
    (tokens : List Token) :
    conditionedTerm generics previous (stop.shift k) (tokens.map (Token.shift k)) =
      (conditionedTerm generics previous stop tokens).shift k id := by
  have hplain : ((term generics (stop.shift k) (tokens.map (Token.shift k))).map
        fun type ↦ ((none : Option Condition), type)) =
      ((term generics stop tokens).map fun type ↦ (none, type)).shift k id := by
    rw [term_shift]
    exact shift_map fun _ ↦ rfl
  match tokens with
  | [] => exact hplain
  | [t] => exact hplain
  | t :: sign :: rest =>
    by_cases hkinds : t.kind = .ident ∧ sign.kind = .question
    · simp only [conditionedTerm, List.map_cons, Token.shift_kind, hkinds, and_self, if_true]
      have hcondition : condition (t.shift k) previous = condition t previous := rfl
      rw [hcondition]
      cases hfound : condition t previous with
      | error fault =>
        have hfault := congrArg (Error.atPosition (t.position.shift k))
          (condition_fault_shift k hfound).symm
        exact congrArg (fun e ↦ (Except.error e, rest.map (Token.shift k))) hfault
      | ok c =>
        dsimp only
        rw [term_shift]
        refine shift_andThen fun type behind ↦ ?_
        unfold Step.shift
        dsimp only
        rw [shiftOutcome_ite]
        rfl
    · simp only [List.map_cons] at hplain
      simp only [conditionedTerm, List.map_cons, Token.shift_kind, if_neg hkinds, hplain]

theorem argument_shift (generics : List GenericParameter) (previous : List Argument) (name : Token)
    (tokens : List Token) :
    argument generics previous (stop.shift k) (name.shift k) (tokens.map (Token.shift k)) =
      (argument generics previous stop name tokens).shift k id := by
  unfold argument
  rw [Token.shift_text]
  split
  · rfl
  split
  · rfl
  rw [expect_shift]
  refine shift_andThen fun _ rest ↦ ?_
  rw [conditionedTerm_shift]
  exact shift_map fun _ ↦ rfl

theorem parameter_shift (tokens : List Token) :
    parameter (stop.shift k) (tokens.map (Token.shift k)) =
      (parameter stop tokens).shift k id := by
  unfold parameter
  rw [expect_shift]
  refine shift_andThen fun name rest ↦ ?_
  rw [expect_shift]
  refine shift_andThen fun _ rest ↦ ?_
  rw [expect_shift]
  refine shift_andThen fun constraint rest ↦ ?_
  rw [expect_shift]
  exact shift_map fun _ ↦ rfl

theorem parameters_shift (tokens : List Token) :
    parameters (stop.shift k) (tokens.map (Token.shift k)) =
      (parameters stop tokens).shift k id := by
  fun_induction parameters stop tokens with
  | case1 =>
    rw [List.map_nil, parameters]
    rfl
  | case2 t rest hkind step p hp ih =>
    have hstep : ((parameter stop rest).shift k id).1 = .ok p := congrArg (shiftOutcome k id) hp
    rw [List.map_cons, parameters, if_pos (show (t.shift k).kind = .leftBrace from hkind),
      parameter_shift]
    dsimp only
    rw [hstep]
    exact (congrArg (Step.map (p :: ·)) ih).trans (shift_map fun _ ↦ rfl)
  | case3 t rest hkind step e he =>
    have hstep : ((parameter stop rest).shift k id).1 = .error (e.shift k) :=
      congrArg (shiftOutcome k id) he
    rw [List.map_cons, parameters, if_pos (show (t.shift k).kind = .leftBrace from hkind),
      parameter_shift]
    dsimp only
    rw [hstep]
    rfl
  | case4 t rest hkind =>
    rw [List.map_cons, parameters, if_neg (show ¬ (t.shift k).kind = .leftBrace from hkind)]
    rfl

theorem arguments_shift (generics : List GenericParameter) (previous : List Argument)
    (tokens : List Token) :
    arguments generics (stop.shift k) previous (tokens.map (Token.shift k)) =
      (arguments generics stop previous tokens).shift k id := by
  fun_induction arguments generics stop previous tokens with
  | case1 =>
    rw [List.map_nil, arguments]
    rfl
  | case2 previous t rest hkind step a ha ih =>
    have hstep : ((argument generics previous stop t rest).shift k id).1 = .ok a :=
      congrArg (shiftOutcome k id) ha
    rw [List.map_cons, arguments, if_pos (show (t.shift k).kind = .ident from hkind),
      argument_shift]
    dsimp only
    rw [hstep]
    exact ih
  | case3 previous t rest hkind step e he =>
    have hstep : ((argument generics previous stop t rest).shift k id).1 = .error (e.shift k) :=
      congrArg (shiftOutcome k id) he
    rw [List.map_cons, arguments, if_pos (show (t.shift k).kind = .ident from hkind),
      argument_shift]
    dsimp only
    rw [hstep]
    rfl
  | case4 previous t rest hkind =>
    rw [List.map_cons, arguments, if_neg (show ¬ (t.shift k).kind = .ident from hkind)]
    rfl

theorem tagOfToken_shift (t : Token) :
    tagOfToken (t.shift k) = shiftOutcome k id (tagOfToken t) := by
  unfold tagOfToken
  rw [shiftOutcome_ite, shiftOutcome_ite]
  simp only [Token.shift_kind, Token.shift_text]
  cases Text.Numeral.read? 16 UInt32.size t.text.toList <;> rfl

theorem tag?_shift (tokens : List Token) :
    tag? (stop.shift k) (tokens.map (Token.shift k)) = (tag? stop tokens).shift k id := by
  match tokens with
  | [] => rfl
  | t :: rest =>
    by_cases hkind : t.kind = .hash
    · simp only [tag?, List.map_cons, Token.shift_kind, hkind, if_true]
      cases rest with
      | nil => rfl
      | cons digits behind =>
        simp only [List.map_cons, tagOfToken_shift]
        cases tagOfToken digits <;> rfl
    · simp only [tag?, List.map_cons, Token.shift_kind, hkind, if_false]
      rfl

theorem declaration_shift (isFunction : Bool) (name : Token) (tokens : List Token) :
    declaration isFunction (stop.shift k) (name.shift k) (tokens.map (Token.shift k)) =
      (declaration isFunction stop name tokens).shift k (Declaration.shift k) := by
  unfold declaration
  rw [tag?_shift]
  refine shift_andThen fun tag rest ↦ ?_
  rw [parameters_shift]
  refine shift_andThen fun generics rest ↦ ?_
  rw [id, arguments_shift]
  refine shift_andThen fun arguments rest ↦ ?_
  rw [expect_shift]
  refine shift_andThen fun _ rest ↦ ?_
  rw [term_shift]
  refine shift_andThen fun result rest ↦ ?_
  rw [expect_shift]
  exact shift_map fun _ ↦ rfl

theorem opening_shift (inFunctions : Bool) (tokens : List Token) :
    opening inFunctions (tokens.map (Token.shift k)) =
      ((opening inFunctions tokens).1,
        (opening inFunctions tokens).2.shift k (Option.map (Token.shift k))) := by
  fun_induction opening inFunctions tokens with
  | case1 => rfl
  | case2 inFunctions t rest hkind htext ih =>
    rw [List.map_cons, opening.eq_def _ (_ :: _)]
    simp only [Token.shift_kind, Token.shift_text, hkind, htext, if_true, ih]
  | case3 inFunctions t rest hkind hother htext ih =>
    rw [htext] at hother
    rw [List.map_cons, opening.eq_def _ (_ :: _)]
    simp only [Token.shift_kind, Token.shift_text, hkind, hother, htext, if_true, if_false, ih]
  | case4 inFunctions t rest hkind hfunctions htypes =>
    rw [List.map_cons, opening.eq_def _ (_ :: _)]
    simp only [Token.shift_kind, Token.shift_text, hkind, hfunctions, htypes, if_false]
    rfl
  | case5 inFunctions t rest hkind ih =>
    rw [List.map_cons, opening.eq_def _ (_ :: _)]
    simp only [Token.shift_kind, hkind, ih]
  | case6 inFunctions t rest hkind =>
    rw [List.map_cons, opening.eq_def _ (_ :: _)]
    simp only [Token.shift_kind, hkind]
    rfl
  | case7 inFunctions t rest hmarker hsemicolon hident =>
    rw [List.map_cons, opening.eq_def _ (_ :: _)]
    dsimp only
    split
    · rename_i hkind
      exact absurd hkind hmarker
    · rename_i hkind
      exact absurd hkind hsemicolon
    · rename_i hkind
      exact absurd hkind hident
    · rfl

/-- A reader whose tokens are moved. -/
def shift (k : Shift) (r : Reader) : Reader :=
  ⟨⟨r.cursor.ahead.map (Token.shift k), r.cursor.stop.shift k⟩, r.inFunctions⟩

theorem next_shift (r : Reader) :
    (r.shift k).next =
      (shiftOutcome k (Option.map (Declaration.shift k)) r.next.1, r.next.2.shift k) := by
  have hopening : opening (r.shift k).inFunctions (r.shift k).cursor.ahead = _ :=
    opening_shift k r.inFunctions r.cursor.ahead
  unfold next
  rw [hopening]
  dsimp only
  cases hstart : (opening r.inFunctions r.cursor.ahead).2.1 with
  | error e =>
    have hmoved : (Step.shift k (Option.map (Token.shift k))
        (opening r.inFunctions r.cursor.ahead).2).1 = .error (e.shift k) :=
      congrArg (shiftOutcome k _) hstart
    rw [hmoved]
    rfl
  | ok found =>
    have hmoved : (Step.shift k (Option.map (Token.shift k))
        (opening r.inFunctions r.cursor.ahead).2).1 = .ok (found.map (Token.shift k)) :=
      congrArg (shiftOutcome k _) hstart
    rw [hmoved]
    cases found with
    | none => rfl
    | some name =>
      have hread := declaration_shift k r.cursor.stop (opening r.inFunctions r.cursor.ahead).1 name
        (opening r.inFunctions r.cursor.ahead).2.2
      simp only [Option.map_some, Step.shift, shift] at hread ⊢
      rw [hread]
      cases (declaration (opening r.inFunctions r.cursor.ahead).1 r.cursor.stop name
        (opening r.inFunctions r.cursor.ahead).2.2).1 <;> rfl

/-- From moved tokens a reader reads the same declarations at moved places, or finds the same fault
at a moved place. -/
theorem all_shift (r : Reader) :
    (r.shift k).all = shiftOutcome k (List.map (Declaration.shift k)) r.all := by
  fun_induction all r with
  | case1 r step e hnext =>
    have hnext : r.next.1 = .error e := hnext
    rw [all_eq, next_shift, hnext]
    rfl
  | case2 r step hnext =>
    have hnext : r.next.1 = .ok none := hnext
    rw [all_eq, next_shift, hnext]
    rfl
  | case3 r step d hnext ih =>
    have hnext : r.next.1 = .ok (some d) := hnext
    have ih : (r.next.2.shift k).all = _ := ih
    rw [all_eq, next_shift, hnext]
    show Except.map (d.shift k :: ·) (r.next.2.shift k).all = _
    rw [ih]
    cases step.2.all <;> rfl

end Declaration.Reader

end TypeLang
