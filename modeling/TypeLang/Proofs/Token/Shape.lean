import TypeLang.Token.Stream

/-!
What the text of a token looks like. A name starts with a letter or an underscore and goes on in
letters, digits, underscores and dots; a number is a run of hexadecimal digits, decimal ones among
them; neither is empty. Every piece of a text is so (`Piece.next_wellShaped`), and therefore every
token (`Token.shaped_tokenize`).
-/

set_option autoImplicit false
set_option relaxedAutoImplicit false

namespace TypeLang

namespace Text

/-- Hexadecimal digits, at least one. -/
structure Hex.IsRun (text : List Char) : Prop where
  ne_nil : text ≠ []
  isDigit : ∀ c ∈ text, Hex.isDigit c = true

theorem Hex.isDigit_of_decimal {c : Char} (h : c.isDigit = true) : Hex.isDigit c = true := by
  have hrange : '0' ≤ c ∧ c ≤ '9' := by
    simp only [Char.isDigit, Bool.and_eq_true, decide_eq_true_eq] at h
    exact h
  simp only [Hex.isDigit, Hex.digitValue?, if_pos hrange, Option.isSome_some]

end Text

namespace Piece

/-- The characters of a name. -/
def IsName : List Char → Prop
  | [] => False
  | c :: rest => startsName c = true ∧ ∀ d ∈ rest, continuesName d = true

theorem continuesName_of_startsName {c : Char} (h : startsName c = true) :
    continuesName c = true := by
  simp only [startsName, Bool.or_eq_true] at h
  simp only [continuesName, Char.isAlphanum, Bool.or_eq_true]
  rcases h with h | h
  · exact .inl (.inl (.inl h))
  · exact .inl (.inr h)

theorem IsName.continuesName {text : List Char} (h : IsName text) :
    ∀ c ∈ text, continuesName c = true := by
  cases text with
  | nil => exact absurd h id
  | cons first rest =>
    intro c hc
    rcases List.mem_cons.mp hc with rfl | hc
    · exact continuesName_of_startsName h.1
    · exact h.2 c hc

/-- A piece whose characters are those of a name or a number, if it is one. -/
structure WellShaped (piece : Piece) : Prop where
  name : piece.kind? = some .ident → IsName piece.chars
  number : piece.kind? = some .number → Text.Hex.IsRun piece.chars

theorem signKind_ne (c : Char) :
    signKind c ≠ .ident ∧ signKind c ≠ .number ∧ signKind c ≠ .finish := by
  unfold signKind
  split <;> decide

theorem wellShaped_run_number {p : Char → Bool} {c : Char} {rest : List Char}
    (hp : ∀ d, p d = true → Text.Hex.isDigit d = true) (hc : p c = true) :
    (run .number p c rest).1.WellShaped := by
  refine ⟨nofun, fun _ ↦ ⟨List.cons_ne_nil _ _, fun d hd ↦ hp d ?_⟩⟩
  rcases List.mem_cons.mp hd with rfl | hd
  · exact hc
  · exact List.all_eq_true.mp List.all_takeWhile d hd

theorem wellShaped_run_name {c : Char} {rest : List Char} (hc : startsName c = true) :
    (run .ident continuesName c rest).1.WellShaped :=
  ⟨fun _ ↦ ⟨hc, fun d hd ↦ List.all_eq_true.mp List.all_takeWhile d hd⟩, nofun⟩

theorem next_wellShaped (afterHash : Bool) (c : Char) (rest : List Char) :
    (next afterHash c rest).1.WellShaped := by
  unfold next
  split
  · rename_i hdigit
    exact wellShaped_run_number (fun _ hd ↦ hd) (Bool.and_eq_true_iff.mp hdigit).2
  split
  · exact ⟨nofun, nofun⟩
  split
  · exact ⟨nofun, nofun⟩
  split
  · exact ⟨nofun, nofun⟩
  split
  · exact ⟨nofun, nofun⟩
  split
  · rename_i hname
    exact wellShaped_run_name hname
  split
  · rename_i hdecimal
    exact wellShaped_run_number (fun _ ↦ Text.Hex.isDigit_of_decimal) hdecimal
  · obtain ⟨hident, hnumber, _⟩ := signKind_ne c
    exact ⟨fun h ↦ absurd (Option.some.inj h) hident, fun h ↦ absurd (Option.some.inj h) hnumber⟩

theorem wellShaped_of_mem_ofText {afterHash : Bool} {text : List Char} {piece : Piece}
    (h : piece ∈ ofText afterHash text) : piece.WellShaped := by
  fun_induction ofText afterHash text with
  | case1 => cases h
  | case2 afterHash c rest step ih =>
    rcases List.mem_cons.mp h with rfl | h
    · exact next_wellShaped afterHash c rest
    · exact ih h

/-- Nothing in a text finishes the stream of its tokens. -/
theorem next_kind_ne_finish (afterHash : Bool) (c : Char) (rest : List Char) :
    (next afterHash c rest).1.kind? ≠ some .finish := by
  unfold next
  repeat' split
  all_goals simp [run, (signKind_ne c).2.2]

theorem kind_ne_finish_of_mem_ofText {afterHash : Bool} {text : List Char} {piece : Piece}
    (h : piece ∈ ofText afterHash text) : piece.kind? ≠ some .finish := by
  fun_induction ofText afterHash text with
  | case1 => cases h
  | case2 afterHash c rest step ih =>
    rcases List.mem_cons.mp h with rfl | h
    · exact next_kind_ne_finish afterHash c rest
    · exact ih h

end Piece

namespace Token

/-- A token as the piece that it was. -/
def toPiece (t : Token) : Piece := ⟨some t.kind, t.text.toList⟩

/-- Tokens that are shaped as those of a text. -/
def Shaped (tokens : List Token) : Prop := ∀ t ∈ tokens, t.toPiece.WellShaped

theorem Shaped.mono {tokens others : List Token} (h : Shaped tokens)
    (hsub : others ⊆ tokens) : Shaped others :=
  fun t ht ↦ h t (hsub ht)

theorem Shaped.tail {t : Token} {tokens : List Token} (h : Shaped (t :: tokens)) :
    Shaped tokens :=
  h.mono (List.subset_cons_self t tokens)

theorem Shaped.isName {t : Token} {tokens : List Token} (h : Shaped (t :: tokens))
    (hkind : t.kind = .ident) : Piece.IsName t.text.toList :=
  (h t List.mem_cons_self).name (congrArg some hkind)

theorem shaped_ofPieces {p : Position} {pieces : List Piece}
    (h : ∀ piece ∈ pieces, piece.WellShaped) : Shaped (ofPieces p pieces) := by
  induction pieces generalizing p with
  | nil =>
    intro t ht
    obtain rfl := List.mem_singleton.mp ht
    exact ⟨nofun, nofun⟩
  | cons piece rest ih =>
    have hrest := ih (p := p.advance piece.chars)
      fun other hother ↦ h other (List.mem_cons_of_mem _ hother)
    intro t ht
    unfold ofPieces at ht
    dsimp only at ht
    split at ht
    · rename_i kind hkind
      rcases List.mem_cons.mp ht with rfl | ht
      · have hpiece := h piece List.mem_cons_self
        rw [toPiece, String.toList_ofList, ← hkind]
        exact hpiece
      · exact hrest t ht
    · exact hrest t ht

theorem shaped_tokenize (source : String) : Shaped (tokenize source) :=
  shaped_ofPieces fun _ ↦ Piece.wellShaped_of_mem_ofText

end Token

end TypeLang
