import TypeLang.Proofs.Declaration.Blame
import TypeLang.Proofs.Token.Places
import TypeLang.Proofs.Wire.Place

/-!
How far reading comes. Every step of a reader leaves a suffix of the tokens it was given
(`Step.Leaves`), and a call that finds a token ahead leaves a suffix of what is behind that token,
whether it succeeds or not (`Declaration.Reader.next_leaves`). So calls one after the other lead
through the tokens and come to their end (`Declaration.Reader.Exhausts`). A type is read with no
deeper recursion than there are tokens (`Declaration.Reader.termWithin_eq`).
-/

set_option autoImplicit false
set_option relaxedAutoImplicit false

namespace TypeLang

namespace Step

variable {α β : Type} {tokens more : List Token}

/-- A step leaves the tokens behind those that it takes. -/
def Leaves (s : Step α) (tokens : List Token) : Prop := s.2 <:+ tokens

theorem Leaves.weaken {s : Step α} (h : s.Leaves tokens) (hmore : tokens <:+ more) :
    s.Leaves more :=
  h.trans hmore

theorem Leaves.cons {s : Step α} (h : s.Leaves tokens) (t : Token) : s.Leaves (t :: tokens) :=
  h.trans (List.suffix_cons t tokens)

theorem Leaves.andThen {s : Step α} {f : α → List Token → Step β} (h : s.Leaves tokens)
    (hf : ∀ a rest, (f a rest).Leaves rest) : (s.andThen f).Leaves tokens := by
  unfold Step.andThen
  split
  · exact (hf _ _).weaken h
  · exact h

theorem Leaves.map {s : Step α} (h : s.Leaves tokens) (f : α → β) : (s.map f).Leaves tokens := h

end Step

namespace Declaration.Reader

open Step Token

/-! ### What steps leave -/

section Steps

variable (stop : Token)

theorem expect_leaves (kind : Token.Kind) (expected : Expectation) (tokens : List Token) :
    (expect kind expected stop tokens).Leaves tokens := by
  cases tokens with
  | nil => exact List.suffix_rfl
  | cons t rest => exact List.suffix_cons t rest

theorem invocation_leaves (generics : List GenericParameter) (tokens : List Token) :
    (invocation generics stop tokens).Leaves tokens :=
  (expect_leaves stop .ident .invokedParameter tokens).andThen fun _ _ ↦ List.suffix_rfl

theorem term_leaves (generics : List GenericParameter) (tokens : List Token) :
    (term generics stop tokens).Leaves tokens := by
  fun_induction term generics stop tokens with
  | case1 => exact List.suffix_rfl
  | case2 generics t rest => exact List.suffix_cons t rest
  | case3 generics t rest => exact (invocation_leaves stop generics rest).cons t
  | case4 generics t rest _ ih => exact (ih.map _).cons t
  | case5 generics t => exact List.suffix_cons t []
  | case6 generics t _ sign inner _ ih =>
    have happlied := ih.andThen fun argument behind ↦
      (expect_leaves stop .rightAngle .rightAngle behind).map fun _ ↦
        TypeTerm.applied (TypeTerm.Head.ofText t.text) argument
    exact (happlied.cons sign).cons t
  | case7 generics t _ sign inner => exact List.suffix_cons t (sign :: inner)
  | case8 generics t rest => exact List.suffix_cons t rest

theorem conditionedTerm_leaves (generics : List GenericParameter) (previous : List Argument)
    (tokens : List Token) : (conditionedTerm generics previous stop tokens).Leaves tokens := by
  have hplain := (term_leaves stop generics tokens).map fun type ↦ ((none : Option Condition), type)
  unfold conditionedTerm
  dsimp only
  split
  · rename_i t sign rest
    have hrest : rest <:+ t :: sign :: rest :=
      (List.suffix_cons sign rest).trans (List.suffix_cons t _)
    split
    · split
      · exact hrest
      · refine Leaves.weaken ?_ hrest
        exact (term_leaves stop generics rest).andThen fun _ _ ↦ List.suffix_rfl
    · exact hplain
  · exact hplain

theorem argument_leaves (generics : List GenericParameter) (previous : List Argument) (name : Token)
    (tokens : List Token) : (argument generics previous stop name tokens).Leaves tokens := by
  unfold argument
  split
  · exact List.suffix_rfl
  split
  · exact List.suffix_rfl
  exact (expect_leaves stop .colon .colon tokens).andThen fun _ rest ↦
    (conditionedTerm_leaves stop generics previous rest).map _

theorem parameter_leaves (tokens : List Token) : (parameter stop tokens).Leaves tokens :=
  (expect_leaves stop .ident .parameterName tokens).andThen fun _ rest ↦
  (expect_leaves stop .colon .colon rest).andThen fun _ rest ↦
  (expect_leaves stop .ident .constraint rest).andThen fun _ rest ↦
  (expect_leaves stop .rightBrace .rightBrace rest).map _

theorem parameters_leaves (tokens : List Token) : (parameters stop tokens).Leaves tokens := by
  fun_induction parameters stop tokens with
  | case1 => exact List.suffix_rfl
  | case2 t rest _ step p _ ih =>
    exact ((ih.weaken (parameter_leaves stop rest)).map _).cons t
  | case3 t rest _ step e _ => exact Leaves.cons (parameter_leaves stop rest) t
  | case4 t rest => exact List.suffix_rfl

theorem arguments_leaves (generics : List GenericParameter) (previous : List Argument)
    (tokens : List Token) : (arguments generics stop previous tokens).Leaves tokens := by
  fun_induction arguments generics stop previous tokens with
  | case1 => exact List.suffix_rfl
  | case2 previous t rest _ step a _ ih =>
    exact (ih.weaken (argument_leaves stop generics previous t rest)).cons t
  | case3 previous t rest _ step e _ =>
    exact Leaves.cons (argument_leaves stop generics previous t rest) t
  | case4 previous t rest => exact List.suffix_rfl

theorem tag?_leaves (tokens : List Token) : (tag? stop tokens).Leaves tokens := by
  unfold tag?
  split
  · exact List.suffix_rfl
  rename_i t rest
  split
  · cases rest with
    | nil => exact List.suffix_cons t []
    | cons digits behind => exact (List.suffix_cons digits behind).trans (List.suffix_cons t _)
  · exact List.suffix_rfl

theorem declaration_leaves (isFunction : Bool) (name : Token) (tokens : List Token) :
    (declaration isFunction stop name tokens).Leaves tokens :=
  (tag?_leaves stop tokens).andThen fun _ rest ↦
  (parameters_leaves stop rest).andThen fun generics rest ↦
  (arguments_leaves stop generics [] rest).andThen fun _ rest ↦
  (expect_leaves stop .equals .equals rest).andThen fun _ rest ↦
  (term_leaves stop generics rest).andThen fun _ rest ↦
  (expect_leaves stop .semicolon .semicolon rest).map _

end Steps

/-- What opens a statement takes a token if there is one. -/
theorem opening_leaves (inFunctions : Bool) (tokens : List Token) :
    (opening inFunctions tokens).2.Leaves tokens.tail := by
  fun_induction opening inFunctions tokens with
  | case1 => exact List.suffix_rfl
  | case2 inFunctions t rest _ _ ih => exact ih.weaken (List.tail_suffix rest)
  | case3 inFunctions t rest _ _ _ ih => exact ih.weaken (List.tail_suffix rest)
  | case4 => exact List.suffix_rfl
  | case5 inFunctions t rest _ ih => exact ih.weaken (List.tail_suffix rest)
  | case6 => exact List.suffix_rfl
  | case7 => exact List.suffix_rfl

theorem opening_none_leaves {inFunctions : Bool} {tokens : List Token}
    (h : (opening inFunctions tokens).2.1 = .ok none) : (opening inFunctions tokens).2.2 = [] := by
  fun_induction opening inFunctions tokens <;> simp_all

/-! ### Calls -/

variable {r : Reader}

/-- A call takes a token if there is one ahead, whatever it comes to. -/
theorem next_leaves (r : Reader) : r.next.2.cursor.ahead <:+ r.cursor.ahead.tail := by
  have hopening : (opening r.inFunctions r.cursor.ahead).2.2 <:+ r.cursor.ahead.tail :=
    opening_leaves r.inFunctions r.cursor.ahead
  unfold next
  dsimp only
  split
  · exact hopening
  · exact hopening
  · rename_i name _
    exact (declaration_leaves r.cursor.stop _ name _).trans hopening

theorem next_of_atEnd (h : r.cursor.ahead = []) : r.next = (.ok none, r) := by
  obtain ⟨⟨ahead, stop⟩, inFunctions⟩ := r
  cases h
  rfl

/-- A call says that there are no more declarations only when no token is left. -/
theorem ahead_of_next_none (h : r.next.1 = .ok none) : r.next.2.cursor.ahead = [] := by
  unfold next at h ⊢
  dsimp only at h ⊢
  split at h
  · cases h
  · rename_i hopening
    exact opening_none_leaves hopening
  · obtain ⟨d, -, hsome⟩ := Wire.map_ok_iff.mp h
    cases hsome

/-- A reader behind some calls, which go on after a fault. -/
def afterCalls (r : Reader) (count : Nat) : Reader := (fun r => r.next.2)^[count] r

/-- The number of tokens that some calls take. -/
def taken (r : Reader) (count : Nat) : Nat :=
  r.cursor.ahead.length - (r.afterCalls count).cursor.ahead.length

theorem afterCalls_succ (r : Reader) (count : Nat) :
    r.afterCalls (count + 1) = (r.afterCalls count).next.2 :=
  Function.iterate_succ_apply' _ count r

theorem afterCalls_next (r : Reader) (count : Nat) :
    r.next.2.afterCalls count = r.afterCalls (count + 1) :=
  (Function.iterate_succ_apply _ count r).symm

theorem afterCalls_stop (r : Reader) (count : Nat) :
    (r.afterCalls count).cursor.stop = r.cursor.stop := by
  induction count with
  | zero => rfl
  | succ count ih => rw [afterCalls_succ, next_stop, ih]

theorem afterCalls_leaves (r : Reader) (count : Nat) :
    (r.afterCalls count).cursor.ahead <:+ r.cursor.ahead := by
  induction count with
  | zero => exact List.suffix_rfl
  | succ count ih =>
    rw [afterCalls_succ]
    exact ((next_leaves _).trans (List.tail_suffix _)).trans ih

/-- Each call takes a token while there are any. -/
theorem length_afterCalls_le (r : Reader) (count : Nat) :
    (r.afterCalls count).cursor.ahead.length ≤ r.cursor.ahead.length - count := by
  induction count with
  | zero => exact Nat.le_refl _
  | succ count ih =>
    have hnext := (next_leaves (r.afterCalls count)).length_le
    rw [List.length_tail] at hnext
    rw [afterCalls_succ]
    omega

theorem taken_le (r : Reader) (count : Nat) : r.taken count ≤ r.cursor.ahead.length :=
  Nat.sub_le _ _

/-- Calls come to a place that tokens taken one after the other come to. -/
theorem cursor_afterCalls (r : Reader) (count : Nat) :
    (r.afterCalls count).cursor = r.cursor.after (r.taken count) := by
  rw [Cursor.after_eq, taken, ← List.suffix_iff_eq_drop.mp (r.afterCalls_leaves count),
    ← r.afterCalls_stop count]

theorem afterCalls_ahead_eq_nil_iff (r : Reader) (count : Nat) :
    (r.afterCalls count).cursor.ahead = [] ↔ r.taken count = r.cursor.ahead.length := by
  have hle := (r.afterCalls_leaves count).length_le
  rw [← List.length_eq_zero_iff, taken]
  omega

/-- A call takes a token, or it is at the end and changes nothing. -/
theorem taken_lt_or (r : Reader) (count : Nat) : r.taken count < r.taken (count + 1) ∨
    r.taken count = r.cursor.ahead.length ∧
      (r.afterCalls count).next = (.ok none, r.afterCalls count) := by
  by_cases hend : (r.afterCalls count).cursor.ahead = []
  · exact .inr ⟨(r.afterCalls_ahead_eq_nil_iff count).mp hend, next_of_atEnd hend⟩
  · left
    have hpos := List.length_pos_iff.mpr hend
    have hle := (r.afterCalls_leaves count).length_le
    have hnext := (next_leaves (r.afterCalls count)).length_le
    rw [List.length_tail, ← afterCalls_succ] at hnext
    unfold taken
    omega

/-- A list of declarations is read by as many calls, and one more, which finds no token left. -/
theorem calls_of_all {r : Reader} {ds : List Declaration} (h : r.all = .ok ds) :
    (∀ n ≤ ds.length, (r.afterCalls n).next.1 = .ok ds[n]?) ∧
      (r.afterCalls (ds.length + 1)).cursor.ahead = [] := by
  fun_induction all r generalizing ds with
  | case1 => cases h
  | case2 r step =>
    rename_i hnext
    cases h
    refine ⟨fun n hn ↦ ?_, ahead_of_next_none hnext⟩
    rw [Nat.le_zero.mp hn]
    exact hnext
  | case3 r step d hnext =>
    rename_i ih
    obtain ⟨ds, hmore, rfl⟩ := Wire.map_ok_iff.mp h
    obtain ⟨hcalls, hend⟩ := ih hmore
    refine ⟨fun n hn ↦ ?_, ?_⟩
    · cases n with
      | zero => exact hnext
      | succ n =>
        rw [← afterCalls_next, List.getElem?_cons_succ]
        exact hcalls n (Nat.le_of_succ_le_succ hn)
    · rw [List.length_cons, ← afterCalls_next]
      exact hend

/-! ### Types inside one another -/

/-- A type, read with less than so many others inside one another; nothing if there are more. -/
def termWithin : Nat → List GenericParameter → Token → List Token → Option (Step TypeTerm)
  | 0, _, _, _ => none
  | _ + 1, _, stop, [] => some (.error (unexpected .type stop), [])
  | depth + 1, generics, stop, t :: rest =>
    match t.kind with
    | .hash => some (.ok .mask, rest)
    | .bang => some (invocation generics stop rest)
    | .percent => (termWithin depth generics stop rest).map (Step.map TypeTerm.asBare)
    | .ident =>
      match rest with
      | [] => some (plainTerm t [])
      | sign :: inner =>
        if sign.kind = .leftAngle then
          (termWithin depth [] stop inner).map fun step =>
            step.andThen fun argument behind =>
              (expect .rightAngle .rightAngle stop behind).map fun _ =>
                .applied (TypeTerm.Head.ofText t.text) argument
        else some (plainTerm t (sign :: inner))
    | _ => some (.error (unexpected .type t), rest)

/-- Types stand inside one another no deeper than there are tokens. -/
theorem termWithin_eq (generics : List GenericParameter) {stop : Token} {tokens : List Token}
    {depth : Nat} (h : tokens.length < depth) :
    termWithin depth generics stop tokens = some (term generics stop tokens) := by
  obtain ⟨depth, rfl⟩ := Nat.exists_eq_add_one_of_ne_zero (Nat.ne_zero_of_lt h)
  fun_induction term generics stop tokens generalizing depth with
  | case1 => rfl
  | case2 generics t rest hkind => simp only [termWithin, hkind]
  | case3 generics t rest hkind => simp only [termWithin, hkind]
  | case4 generics t rest hkind ih =>
    obtain ⟨depth, rfl⟩ := Nat.exists_eq_add_one_of_ne_zero
      (Nat.ne_zero_of_lt (Nat.lt_of_succ_lt_succ h))
    simp only [termWithin, hkind, ih depth (Nat.lt_of_succ_lt_succ h), Option.map_some]
  | case5 generics t hkind => simp only [termWithin, hkind]
  | case6 generics t hkind sign inner hsign ih =>
    rw [List.length_cons, List.length_cons] at h
    obtain ⟨depth, rfl⟩ : ∃ below, depth = below + 1 := ⟨depth - 1, by omega⟩
    simp only [termWithin, hkind, hsign, if_true, ih depth (by omega), Option.map_some]
  | case7 generics t hkind sign inner hsign =>
    simp only [termWithin, hkind, hsign, if_false]
  | case8 generics t rest hhash hbang hpercent hident =>
    simp only [termWithin]

/-! ### Exhaustion -/

/-- Calls one after the other lead a reader through some tokens. It always stands at an index of
their list, no further than the first token that finishes it. A call takes a token, or it stands at
that token, says that there are no more declarations, and changes nothing; so there are no more once
there were as many calls as there are tokens before it. A list of declarations is read only to that
token. No type is deeper than there are tokens. -/
structure Exhausts (r : Reader) (tokens : List Token) : Prop where
  standsAt : ∀ n, (r.afterCalls n).cursor.StandsAt (finished tokens) (r.taken n)
  within : ∀ n, r.taken n ≤ finishPlace tokens
  progress : ∀ n, r.taken n < r.taken (n + 1) ∨
    r.taken n = finishPlace tokens ∧ (r.afterCalls n).next = (.ok none, r.afterCalls n)
  exhausted : ∀ n, finishPlace tokens ≤ n → (r.afterCalls n).next = (.ok none, r.afterCalls n)
  all_read : ∀ ds, r.all = .ok ds →
    (∀ n ≤ ds.length, (r.afterCalls n).next.1 = .ok ds[n]?) ∧
      r.taken (ds.length + 1) = finishPlace tokens
  nested : ∀ generics rest, rest <:+ r.cursor.ahead →
    termWithin (finishPlace tokens + 1) generics r.cursor.stop rest =
      some (term generics r.cursor.stop rest)

theorem exhausts_ofTokens (tokens : List Token) :
    (ofCursor (Cursor.ofTokens tokens)).Exhausts tokens := by
  have hlength : (ofCursor (Cursor.ofTokens tokens)).cursor.ahead.length = finishPlace tokens :=
    Cursor.length_ofTokens tokens
  have hcursor := cursor_afterCalls (ofCursor (Cursor.ofTokens tokens))
  have htaken := taken_le (ofCursor (Cursor.ofTokens tokens))
  have hnext := taken_lt_or (ofCursor (Cursor.ofTokens tokens))
  rw [hlength] at htaken hnext
  refine ⟨fun n ↦ ?_, htaken, hnext, fun n hn ↦ ?_, fun ds hall ↦ ?_, fun generics rest hrest ↦ ?_⟩
  · have hstands := Cursor.standsAt_ofTokens tokens
      ((ofCursor (Cursor.ofTokens tokens)).taken n)
    rw [Nat.min_eq_left (htaken n)] at hstands
    rw [hcursor]
    exact hstands
  · have hleft := length_afterCalls_le (ofCursor (Cursor.ofTokens tokens)) n
    rw [hlength, Nat.sub_eq_zero_of_le hn] at hleft
    exact next_of_atEnd (List.length_eq_zero_iff.mp (Nat.le_zero.mp hleft))
  · obtain ⟨hcalls, hend⟩ := calls_of_all hall
    exact ⟨hcalls, ((afterCalls_ahead_eq_nil_iff _ _).mp hend).trans hlength⟩
  · refine termWithin_eq generics (Nat.lt_succ_of_le ?_)
    rw [← hlength]
    exact hrest.length_le

end Declaration.Reader

/-- Reading always gets on and never past the end. However many tokens are taken from a list, and
however many calls are made, a cursor stands inside it and stays at the first token that finishes
it; and the declarations of a text are read only if all its tokens are taken but the last. -/
theorem Declaration.Reader.calls_exhaust (tokens : List Token) :
    (∀ count, ((Cursor.ofTokens tokens).after count).StandsAt (Token.finished tokens)
      (min count (Token.finishPlace tokens))) ∧
    (ofCursor (Cursor.ofTokens tokens)).Exhausts tokens ∧
    ∀ source, Token.finished (Token.tokenize source) = Token.tokenize source ∧
      ∀ ds, Declaration.parse source = .ok ds →
        (ofCursor (Cursor.ofText source)).taken (ds.length + 1) + 1 =
          (Token.tokenize source).length := by
  refine ⟨Cursor.standsAt_ofTokens tokens, exhausts_ofTokens tokens, fun source ↦
    ⟨Token.finished_tokenize source, fun ds h ↦ ?_⟩⟩
  have hread := ((exhausts_ofTokens (Token.tokenize source)).all_read ds h).2
  rw [← Token.finishPlace_tokenize, ← hread]
  rfl

/-- What stands behind a token that finishes a list is never read. -/
example : (Declaration.Reader.ofCursor (Cursor.ofTokens [⟨.semicolon, ";", Position.first⟩,
    Token.finishAt Position.first, ⟨.ident, "cell", Position.first⟩])).taken 3 = 1 := by
  decide

end TypeLang
