import TypeLang.Declaration.Reader

/-!
Where the reader of declarations finds fault. Whatever step fails, its error is a fault in the text
at the place of a token that the step was given, or of the token that finishes the stream; and no
step leaves a token that it was not given. `Step.Blames` says both of one step, steps one behind
the other keep it, and `Declaration.parse_blames` concludes for whole texts: a text that is no
schema is told so at one of its tokens.
-/

set_option autoImplicit false
set_option relaxedAutoImplicit false

namespace TypeLang

/-- A step that is given some tokens leaves only tokens among them, and fails only at one of them or
at the end. -/
structure Step.Blames {α : Type} (stop : Token) (tokens : List Token) (s : Step α) : Prop where
  subset : s.2 ⊆ tokens
  fault : ∀ e, s.1 = .error e →
    ∃ t ∈ stop :: tokens, ∃ fault, e = .atPosition t.position fault

namespace Step

variable {α β : Type} {stop : Token} {tokens : List Token}

theorem blames_ok {a : α} {rest : List Token} (hrest : rest ⊆ tokens) :
    Blames stop tokens (.ok a, rest) := by
  refine ⟨hrest, fun e h ↦ ?_⟩
  cases h

theorem blames_fault {t : Token} {fault : SyntaxFault} {rest : List Token}
    (ht : t ∈ stop :: tokens) (hrest : rest ⊆ tokens) :
    Blames stop tokens ((.error (.atPosition t.position fault), rest) : Step α) := by
  refine ⟨hrest, fun e he ↦ ⟨t, ht, fault, ?_⟩⟩
  cases he
  rfl

theorem Blames.weaken {s : Step α} {more : List Token} (h : s.Blames stop tokens)
    (hmore : tokens ⊆ more) : s.Blames stop more := by
  refine ⟨fun t ht ↦ hmore (h.subset ht), fun e he ↦ ?_⟩
  obtain ⟨t, ht, hfault⟩ := h.fault e he
  exact ⟨t, List.cons_subset_cons stop hmore ht, hfault⟩

theorem Blames.cons {s : Step α} (h : s.Blames stop tokens) (t : Token) :
    s.Blames stop (t :: tokens) :=
  h.weaken (List.subset_cons_self t tokens)

theorem Blames.rethrow {s : Step α} {e : Error} (h : s.Blames stop tokens) (he : s.1 = .error e) :
    Blames stop tokens ((.error e, s.2) : Step β) := by
  refine ⟨h.subset, fun other hother ↦ ?_⟩
  cases hother
  exact h.fault e he

theorem Blames.andThen {s : Step α} {f : α → List Token → Step β} (h : s.Blames stop tokens)
    (hf : ∀ a, s.1 = .ok a → (f a s.2).Blames stop tokens) : (s.andThen f).Blames stop tokens := by
  unfold Step.andThen
  split
  · rename_i a ha
    exact hf a ha
  · rename_i e he
    exact h.rethrow he

theorem Blames.chain {s : Step α} {f : α → List Token → Step β} (h : s.Blames stop tokens)
    (hf : ∀ a rest, (f a rest).Blames stop rest) : (s.andThen f).Blames stop tokens :=
  h.andThen fun a _ ↦ (hf a s.2).weaken h.subset

theorem Blames.map {s : Step α} (h : s.Blames stop tokens) (f : α → β) :
    (s.map f).Blames stop tokens := by
  refine ⟨h.subset, fun e he ↦ h.fault e ?_⟩
  unfold Step.map at he
  cases hs : s.1 with
  | error other =>
    rw [hs] at he
    cases he
    rfl
  | ok a =>
    rw [hs] at he
    cases he

end Step

namespace Declaration.Reader

open Step

variable (stop : Token)

theorem expect_blames (kind : Token.Kind) (expected : Expectation) (tokens : List Token) :
    (expect kind expected stop tokens).Blames stop tokens := by
  cases tokens with
  | nil => exact blames_fault List.mem_cons_self (List.nil_subset _)
  | cons t rest =>
    simp only [expect]
    split
    · exact blames_ok (List.subset_cons_self t rest)
    · exact blames_fault (List.mem_cons_of_mem _ List.mem_cons_self) (List.subset_cons_self t rest)

theorem mem_of_expect {kind : Token.Kind} {expected : Expectation} {tokens : List Token} {t : Token}
    (h : (expect kind expected stop tokens).1 = .ok t) : t ∈ tokens := by
  cases tokens with
  | nil => cases h
  | cons first rest =>
    simp only [expect] at h
    split at h
    · cases h
      exact List.mem_cons_self
    · cases h

theorem plainTerm_blames (t : Token) (rest : List Token) :
    (plainTerm t rest).Blames stop (t :: rest) := by
  unfold plainTerm
  dsimp only
  split
  · exact blames_fault (List.mem_cons_of_mem _ List.mem_cons_self) (List.subset_cons_self t rest)
  · exact blames_ok (List.subset_cons_self t rest)

theorem invocation_blames (generics : List GenericParameter) (tokens : List Token) :
    (invocation generics stop tokens).Blames stop tokens := by
  have hname := expect_blames stop .ident .invokedParameter tokens
  refine hname.andThen fun name hfound ↦ ?_
  split
  · exact blames_ok hname.subset
  · exact blames_fault (List.mem_cons_of_mem _ (mem_of_expect stop hfound)) hname.subset

theorem term_blames (generics : List GenericParameter) (tokens : List Token) :
    (term generics stop tokens).Blames stop tokens := by
  fun_induction term generics stop tokens with
  | case1 => exact blames_fault List.mem_cons_self (List.nil_subset _)
  | case2 generics t rest => exact blames_ok (List.subset_cons_self t rest)
  | case3 generics t rest => exact (invocation_blames stop generics rest).cons t
  | case4 generics t rest _ ih => exact (ih.map _).cons t
  | case5 generics t => exact plainTerm_blames stop t []
  | case6 generics t _ sign inner _ ih =>
    have happlied := ih.chain fun argument behind ↦
      (expect_blames stop .rightAngle .rightAngle behind).map fun _ ↦
        TypeTerm.applied (TypeTerm.Head.ofText t.text) argument
    exact (happlied.cons sign).cons t
  | case7 generics t _ sign inner => exact plainTerm_blames stop t (sign :: inner)
  | case8 generics t rest =>
    exact blames_fault (List.mem_cons_of_mem _ List.mem_cons_self) (List.subset_cons_self t rest)

theorem conditionedTerm_blames (generics : List GenericParameter) (previous : List Argument)
    (tokens : List Token) :
    (conditionedTerm generics previous stop tokens).Blames stop tokens := by
  have hplain := (term_blames stop generics tokens).map fun type ↦ ((none : Option Condition), type)
  unfold conditionedTerm
  dsimp only
  split
  · rename_i t sign rest
    have hmask : t ∈ stop :: t :: sign :: rest := List.mem_cons_of_mem _ List.mem_cons_self
    have hrest : rest ⊆ t :: sign :: rest :=
      List.Subset.trans (List.subset_cons_self sign rest) (List.subset_cons_self t _)
    split
    · split
      · exact blames_fault hmask hrest
      · have hterm := (term_blames stop generics rest).weaken hrest
        refine hterm.andThen fun type _ ↦ ?_
        split
        · exact blames_fault hmask hterm.subset
        · exact blames_ok hterm.subset
    · exact hplain
  · exact hplain

theorem argument_blames (generics : List GenericParameter) (previous : List Argument) (name : Token)
    (tokens : List Token) :
    (argument generics previous stop name tokens).Blames stop (name :: tokens) := by
  have hname : name ∈ stop :: name :: tokens := List.mem_cons_of_mem _ List.mem_cons_self
  unfold argument
  split
  · exact blames_fault hname (List.subset_cons_self name tokens)
  split
  · exact blames_fault hname (List.subset_cons_self name tokens)
  exact Blames.cons ((expect_blames stop .colon .colon tokens).chain fun _ rest ↦
    (conditionedTerm_blames stop generics previous rest).map _) name

theorem parameter_blames (tokens : List Token) : (parameter stop tokens).Blames stop tokens :=
  (expect_blames stop .ident .parameterName tokens).chain fun _ rest ↦
  (expect_blames stop .colon .colon rest).chain fun _ rest ↦
  (expect_blames stop .ident .constraint rest).chain fun _ rest ↦
  (expect_blames stop .rightBrace .rightBrace rest).map _

theorem parameters_blames (tokens : List Token) : (parameters stop tokens).Blames stop tokens := by
  fun_induction parameters stop tokens with
  | case1 => exact blames_ok (List.nil_subset _)
  | case2 t rest _ step p _ ih =>
    exact ((ih.weaken (parameter_blames stop rest).subset).map _).cons t
  | case3 t rest _ step e he =>
    exact ((parameter_blames stop rest).cons t).rethrow he
  | case4 t rest => exact blames_ok (List.Subset.refl _)

theorem arguments_blames (generics : List GenericParameter) (previous : List Argument)
    (tokens : List Token) : (arguments generics stop previous tokens).Blames stop tokens := by
  fun_induction arguments generics stop previous tokens with
  | case1 => exact blames_ok (List.nil_subset _)
  | case2 previous t rest _ step a _ ih =>
    exact ih.weaken (argument_blames stop generics previous t rest).subset
  | case3 previous t rest _ step e he =>
    exact (argument_blames stop generics previous t rest).rethrow he
  | case4 previous t rest => exact blames_ok (List.Subset.refl _)

theorem tagOfToken_fault {t : Token} {e : Error} (h : tagOfToken t = .error e) :
    ∃ fault, e = .atPosition t.position fault := by
  unfold tagOfToken at h
  split at h
  · cases h
    exact ⟨_, rfl⟩
  split at h
  · cases h
    exact ⟨_, rfl⟩
  split at h
  · cases h
  · cases h
    exact ⟨_, rfl⟩

theorem tag?_blames (tokens : List Token) : (tag? stop tokens).Blames stop tokens := by
  unfold tag?
  split
  · exact blames_ok (List.nil_subset _)
  rename_i t rest
  split
  · cases rest with
    | nil => exact blames_fault List.mem_cons_self (List.nil_subset _)
    | cons digits behind =>
      have hdigits : Blames stop (digits :: behind) (tagOfToken digits, behind) := by
        refine ⟨List.subset_cons_self digits behind, fun e he ↦ ?_⟩
        obtain ⟨fault, hfault⟩ := tagOfToken_fault he
        exact ⟨digits, List.mem_cons_of_mem _ List.mem_cons_self, fault, hfault⟩
      exact (hdigits.map some).cons t
  · exact blames_ok (List.Subset.refl _)

theorem declaration_blames (isFunction : Bool) (name : Token) (tokens : List Token) :
    (declaration isFunction stop name tokens).Blames stop tokens :=
  (tag?_blames stop tokens).chain fun _ rest ↦
  (parameters_blames stop rest).chain fun generics rest ↦
  (arguments_blames stop generics [] rest).chain fun _ rest ↦
  (expect_blames stop .equals .equals rest).chain fun _ rest ↦
  (term_blames stop generics rest).chain fun _ rest ↦
  (expect_blames stop .semicolon .semicolon rest).map _

theorem opening_blames (inFunctions : Bool) (tokens : List Token) :
    (opening inFunctions tokens).2.Blames stop tokens := by
  have hfirst : ∀ (t : Token) (rest : List Token), t ∈ stop :: t :: rest :=
    fun t rest ↦ List.mem_cons_of_mem _ List.mem_cons_self
  fun_induction opening inFunctions tokens with
  | case1 => exact blames_ok (List.nil_subset _)
  | case2 inFunctions t rest _ _ ih => exact ih.cons t
  | case3 inFunctions t rest _ _ _ ih => exact ih.cons t
  | case4 inFunctions t rest => exact blames_fault (hfirst t rest) (List.subset_cons_self t rest)
  | case5 inFunctions t rest _ ih => exact ih.cons t
  | case6 inFunctions t rest => exact blames_ok (List.subset_cons_self t rest)
  | case7 inFunctions t rest => exact blames_fault (hfirst t rest) (List.subset_cons_self t rest)

theorem next_blames (r : Reader) :
    Blames r.cursor.stop r.cursor.ahead (r.next.1, r.next.2.cursor.ahead) := by
  have hopening := opening_blames r.cursor.stop r.inFunctions r.cursor.ahead
  unfold next
  dsimp only
  split
  · rename_i e he
    exact hopening.rethrow he
  · exact blames_ok hopening.subset
  · rename_i name _
    exact ((declaration_blames r.cursor.stop _ name _).map some).weaken hopening.subset

theorem next_stop (r : Reader) : r.next.2.cursor.stop = r.cursor.stop := by
  unfold next
  dsimp only
  split <;> rfl

theorem all_fault {r : Reader} {e : Error} (h : r.all = .error e) :
    ∃ t ∈ r.cursor.stop :: r.cursor.ahead, ∃ fault, e = .atPosition t.position fault := by
  fun_induction all r with
  | case1 r step other hnext =>
    cases h
    exact (next_blames r).fault e hnext
  | case2 => cases h
  | case3 r step d hnext ih =>
    have hrest : all step.2 = .error e := by
      cases hall : all step.2 with
      | error other =>
        rw [hall] at h
        cases h
        rfl
      | ok ds =>
        rw [hall] at h
        cases h
    obtain ⟨t, ht, hfault⟩ := ih hrest
    rw [next_stop] at ht
    exact ⟨t, List.cons_subset_cons _ (next_blames r).subset ht, hfault⟩

end Declaration.Reader

theorem Token.finish_mem_ofPieces (p : Position) (pieces : List Piece) :
    ∃ t ∈ ofPieces p pieces, t.kind = .finish := by
  induction pieces generalizing p with
  | nil => exact ⟨finishAt p, List.mem_singleton.mpr rfl, rfl⟩
  | cons piece rest ih =>
    obtain ⟨t, ht, hkind⟩ := ih (p.advance piece.chars)
    refine ⟨t, ?_, hkind⟩
    unfold ofPieces
    dsimp only
    split
    · exact List.mem_cons_of_mem _ ht
    · exact ht

theorem Cursor.stopOf_mem {tokens : List Token} (h : ∃ t ∈ tokens, t.kind = .finish) :
    stopOf tokens ∈ tokens := by
  obtain ⟨t, ht, hkind⟩ := h
  unfold stopOf
  cases hfind : tokens.find? (·.kind == .finish) with
  | some stop => exact List.mem_of_find?_eq_some hfind
  | none => exact absurd (beq_iff_eq.mpr hkind) (List.find?_eq_none.mp hfind t ht)

/-- A text that is no schema is at fault at one of its tokens. -/
theorem Declaration.parse_blames {source : String} {e : Error}
    (h : Declaration.parse source = .error e) :
    ∃ t ∈ Token.tokenize source, ∃ fault, e = .atPosition t.position fault := by
  obtain ⟨t, ht, hfault⟩ := Declaration.Reader.all_fault h
  refine ⟨t, ?_, hfault⟩
  rcases List.mem_cons.mp ht with rfl | ht
  · exact Cursor.stopOf_mem (Token.finish_mem_ofPieces _ _)
  · exact (List.takeWhile_subset _) ht

end TypeLang
