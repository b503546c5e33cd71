import Mathlib.Data.List.TakeWhile
import Mathlib.Logic.Function.Iterate
import TypeLang.Proofs.Token.Lossless

/-!
A cursor as an index into the list that it was made from. The list is taken with a token that
finishes it (`Token.finished`), and the cursor stands at the token that its index names
(`Cursor.StandsAt`). Taken any number of times, tokens lead up to the first one that finishes the
list and no further (`Cursor.standsAt_ofTokens`).
-/

set_option autoImplicit false
set_option relaxedAutoImplicit false

namespace TypeLang

namespace Token

/-- Some tokens with one that finishes them, which is added if the last one does not. -/
def finished (tokens : List Token) : List Token :=
  if tokens.getLast?.any (·.kind == .finish) then tokens
  else tokens ++ [finishAt ((tokens.getLast?.map (·.position)).getD ⟨0, 0, 0⟩)]

/-- The index of the first token that finishes some tokens. -/
def finishPlace (tokens : List Token) : Nat := (finished tokens).findIdx (·.kind == .finish)

/-- Nothing has to be added to the tokens of a text. -/
theorem finished_tokenize (source : String) : finished (tokenize source) = tokenize source := by
  obtain ⟨front, htokens, -⟩ := (laid_tokenize source).exists_stop
  have hlast : (tokenize source).getLast?.any (·.kind == .finish) = true := by
    rw [htokens, List.getLast?_concat]
    rfl
  rw [finished, if_pos hlast]

/-- Only the last token of a text finishes its tokens. -/
theorem finishPlace_tokenize (source : String) :
    finishPlace (tokenize source) + 1 = (tokenize source).length := by
  rw [finishPlace, finished_tokenize]
  obtain ⟨front, htokens, hfront⟩ := (laid_tokenize source).exists_stop
  have hnone : ∀ t ∈ front, (t.kind == .finish) = false := fun t ht ↦
    beq_eq_false_iff_ne.mpr (hfront t ht).1
  rw [htokens, List.findIdx_append, List.findIdx_eq_length_of_false hnone]
  simp [finishAt]

end Token

namespace Cursor

open Token

/-- A cursor stands at an index of a list: the token there is the one ahead of the cursor, no token
before it finishes the list, and the cursor is at its end when this one does. -/
structure StandsAt (c : Cursor) (tokens : List Token) (place : Nat) : Prop where
  peek_eq : tokens[place]? = some c.peek
  unfinished : ∀ i t, i < place → tokens[i]? = some t → t.kind ≠ .finish
  atEnd_iff : c.atEnd = true ↔ c.peek.kind = .finish

/-- A cursor behind some tokens that it takes one after the other. -/
def after (c : Cursor) (count : Nat) : Cursor := (fun c => c.next.2)^[count] c

variable {c : Cursor} {tokens behind : List Token}

theorem after_eq (c : Cursor) (count : Nat) :
    c.after count = { c with ahead := c.ahead.drop count } := by
  unfold after
  induction count with
  | zero => rfl
  | succ count ih =>
    rw [Function.iterate_succ_apply', ih, next, List.tail_drop]

/-- A list is what lies ahead of a cursor, which does not finish it, and the token that does. -/
structure Splits (c : Cursor) (tokens : List Token) : Prop where
  unfinished : ∀ t ∈ c.ahead, t.kind ≠ .finish
  stop_finishes : c.stop.kind = .finish
  exists_eq : ∃ behind, tokens = c.ahead ++ c.stop :: behind

theorem peek_after (c : Cursor) (count : Nat) :
    (c.after count).peek = (c.ahead[count]?).getD c.stop := by
  rw [after_eq, peek, List.headD_eq_head?_getD, List.head?_drop]

theorem Splits.standsAt (h : c.Splits tokens) {count : Nat} (hcount : count ≤ c.ahead.length) :
    (c.after count).StandsAt tokens count := by
  obtain ⟨behind, rfl⟩ := h.exists_eq
  refine ⟨?_, fun i t hi ht ↦ ?_, ?_⟩
  · rw [peek_after]
    rcases Nat.lt_or_eq_of_le hcount with hlt | rfl
    · rw [List.getElem?_append_left hlt, List.getElem?_eq_getElem hlt, Option.getD_some]
    · simp
  · rw [List.getElem?_append_left (Nat.lt_of_lt_of_le hi hcount)] at ht
    exact h.unfinished t (List.mem_of_getElem? ht)
  · have hend : (c.after count).atEnd = true ↔ c.ahead.length ≤ count := by
      rw [after_eq, atEnd, List.isEmpty_iff, List.drop_eq_nil_iff]
    rw [hend, peek_after]
    rcases Nat.lt_or_eq_of_le hcount with hlt | rfl
    · rw [List.getElem?_eq_getElem hlt, Option.getD_some]
      exact iff_of_false (Nat.not_le.mpr hlt) (h.unfinished _ (List.getElem_mem hlt))
    · simp [h.stop_finishes]

/-- A cursor at its end stands at the first token that finishes the list. -/
theorem StandsAt.findIdx_eq {place : Nat} (h : c.StandsAt tokens place) (hend : c.atEnd = true) :
    tokens.findIdx (·.kind == .finish) = place := by
  obtain ⟨hlt, hget⟩ := List.getElem?_eq_some_iff.mp h.peek_eq
  rw [List.findIdx_eq hlt, hget]
  refine ⟨beq_iff_eq.mpr (h.atEnd_iff.mp hend), fun i hi ↦ ?_⟩
  have hbefore := h.unfinished i _ hi (List.getElem?_eq_getElem (Nat.lt_trans hi hlt))
  exact beq_eq_false_iff_ne.mpr hbefore

/-- What follows the first token that finishes some tokens is out of reach. -/
theorem splits_of_find? {stop : Token} (h : tokens.find? (·.kind == .finish) = some stop) :
    (ofTokens tokens).stop = stop ∧ stop.kind = .finish ∧
      ∃ behind, tokens = (ofTokens tokens).ahead ++ stop :: behind := by
  obtain ⟨hfinishes, front, behind, rfl, hfront⟩ := List.find?_eq_some_iff_append.mp h
  have hahead : ∀ t ∈ front, (t.kind != .finish) = true := hfront
  have hstop : (stop.kind != .finish) = false := by rw [bne, hfinishes, Bool.not_true]
  refine ⟨by rw [ofTokens, stopOf, h], beq_iff_eq.mp hfinishes, behind, ?_⟩
  rw [ofTokens, List.takeWhile_append_of_pos hahead, List.takeWhile_cons, hstop]
  simp

theorem splits_ofTokens (tokens : List Token) : (ofTokens tokens).Splits (finished tokens) := by
  have hunfinished : ∀ t ∈ (ofTokens tokens).ahead, t.kind ≠ .finish := by
    intro t ht
    have hkept := List.mem_takeWhile_imp ht
    exact bne_iff_ne.mp hkept
  cases hfind : tokens.find? (·.kind == .finish) with
  | some stop =>
    obtain ⟨hstop, hkind, behind, htokens⟩ := splits_of_find? hfind
    refine ⟨hunfinished, by rw [hstop, hkind], ?_⟩
    obtain ⟨more, hmore⟩ : ∃ more, finished tokens = tokens ++ more := by
      unfold finished
      split
      · exact ⟨[], (List.append_nil tokens).symm⟩
      · exact ⟨_, rfl⟩
    refine ⟨behind ++ more, hmore.trans ((congrArg (· ++ more) htokens).trans ?_)⟩
    rw [hstop, List.append_assoc, List.cons_append]
  | none =>
    have hnone := List.find?_eq_none.mp hfind
    have hahead : (ofTokens tokens).ahead = tokens :=
      List.takeWhile_eq_self_iff.mpr fun t ht ↦ by simpa using hnone t ht
    have hlast : tokens.getLast?.any (·.kind == .finish) = false := by
      cases hlast : tokens.getLast? with
      | none => rfl
      | some t => simpa using hnone t (List.mem_of_getLast? hlast)
    have hstop : (ofTokens tokens).stop =
        finishAt ((tokens.getLast?.map (·.position)).getD ⟨0, 0, 0⟩) := by
      rw [ofTokens, stopOf, hfind]
    refine ⟨hunfinished, by rw [hstop]; rfl, [], ?_⟩
    rw [finished, hlast, hahead, hstop]
    rfl

theorem length_ofTokens (tokens : List Token) :
    (ofTokens tokens).ahead.length = finishPlace tokens := by
  have hstands := (splits_ofTokens tokens).standsAt (Nat.le_refl _)
  refine (hstands.findIdx_eq ?_).symm
  rw [after_eq, List.drop_length]
  rfl

/-- However many tokens are taken, a cursor stands inside its list, and stays at the first token
that finishes the list once it has come there. -/
theorem standsAt_ofTokens (tokens : List Token) (count : Nat) :
    ((ofTokens tokens).after count).StandsAt (finished tokens)
      (min count (finishPlace tokens)) := by
  have hsplits := splits_ofTokens tokens
  rw [← length_ofTokens]
  have hsame : (ofTokens tokens).after count =
      (ofTokens tokens).after (min count (ofTokens tokens).ahead.length) := by
    rw [after_eq, after_eq, ← List.drop_eq_drop_min]
  rw [hsame]
  exact hsplits.standsAt (Nat.min_le_right _ _)

end Cursor

end TypeLang
