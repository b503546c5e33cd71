import TypeLang.Proofs.Token.Shape

/-!
Text that is written piece by piece, and read back as the pieces it was written from. A blank or a
sign is read back whatever stands behind it; a name or a number is, if the character behind it does
not continue it (`Piece.Ends`), and a number only behind a hash sign. So pieces can be written one
before the other, from the last one to the first, and `Recovers` is kept.

`Token.Writes` relates tokens to the pieces that they come from, and
`Token.writes_of_recovers` gives the tokens of a text that was written so.
-/

set_option autoImplicit false
set_option relaxedAutoImplicit false

namespace TypeLang

namespace Piece

/-- The characters of pieces one behind the other. -/
def textOf (pieces : List Piece) : List Char := pieces.flatMap chars

theorem textOf_cons (piece : Piece) (rest : List Piece) :
    textOf (piece :: rest) = piece.chars ++ textOf rest :=
  List.flatMap_cons

/-- Whether the text of some pieces is read as these pieces. -/
def Recovers (afterHash : Bool) (pieces : List Piece) : Prop :=
  ofText afterHash (textOf pieces) = pieces

/-- Pieces that are read back wherever they stand, and that continue no name before them. -/
structure Ends (pieces : List Piece) : Prop where
  recovers : ∀ afterHash, Recovers afterHash pieces
  bounded : ∀ c ∈ (textOf pieces).head?, continuesName c = false

/-- A blank between two words. -/
def blank : Piece := ⟨none, [' ']⟩

/-- A character that is a lexeme by itself. -/
def sign (c : Char) : Piece := ⟨some (signKind c), [c]⟩

/-- A hash sign. -/
def hash : Piece := ⟨some .hash, ['#']⟩

/-- A name. -/
def name (text : List Char) : Piece := ⟨some .ident, text⟩

/-- The digits of a number. -/
def number (digits : List Char) : Piece := ⟨some .number, digits⟩

/-- The signs that declarations are written with. -/
def signs : List Char := [':', '?', '!', '<', '>', '=', ';', '\x7b', '\x7d', '%']

theorem recovers_nil (afterHash : Bool) : Recovers afterHash [] := by
  unfold Recovers textOf
  rw [List.flatMap_nil, ofText]

theorem recovers_cons {afterHash : Bool} {piece : Piece} {rest : List Piece} {c : Char}
    {behind : List Char} (hchars : piece.chars = c :: behind)
    (hnext : next afterHash c (behind ++ textOf rest) = (piece, textOf rest))
    (hrest : Recovers (piece.kind? == some .hash) rest) : Recovers afterHash (piece :: rest) := by
  unfold Recovers at hrest ⊢
  rw [textOf_cons, hchars, List.cons_append, ofText, hnext, hrest]

theorem ends_blank {rest : List Piece} (hrest : Recovers false rest) : Ends (blank :: rest) := by
  constructor
  · intro afterHash
    refine recovers_cons rfl ?_ hrest
    cases afterHash <;> rfl
  · intro c hc
    cases hc
    decide

/-- A sign is a token by itself, ends a name before it and does not change how names behind it are
read. -/
theorem next_sign {c : Char} (hc : c ∈ signs) :
    (∀ afterHash behind, next afterHash c behind = (sign c, behind)) ∧
      continuesName c = false ∧ (some (signKind c) == some .hash) = false := by
  simp only [signs, List.mem_cons, List.not_mem_nil, or_false] at hc
  rcases hc with rfl | rfl | rfl | rfl | rfl | rfl | rfl | rfl | rfl | rfl
  all_goals exact ⟨fun afterHash _ ↦ by cases afterHash <;> rfl, rfl, rfl⟩

theorem ends_sign {c : Char} {rest : List Piece} (hc : c ∈ signs) (hrest : Recovers false rest) :
    Ends (sign c :: rest) := by
  obtain ⟨hnext, hends, hkind⟩ := next_sign hc
  constructor
  · intro afterHash
    refine recovers_cons rfl (hnext afterHash _) ?_
    rw [sign, hkind]
    exact hrest
  · intro other hother
    cases hother
    exact hends

theorem ends_hash {rest : List Piece} (hrest : Recovers true rest) : Ends (hash :: rest) := by
  constructor
  · intro afterHash
    refine recovers_cons rfl ?_ hrest
    cases afterHash <;> rfl
  · intro c hc
    cases hc
    decide

theorem run_append {kind : Token.Kind} {p : Char → Bool} {c : Char} {behind rest : List Char}
    (hbehind : ∀ d ∈ behind, p d = true) (hrest : ∀ d ∈ rest.head?, p d = false) :
    run kind p c (behind ++ rest) = (⟨some kind, c :: behind⟩, rest) := by
  have hstop : rest.takeWhile p = [] ∧ rest.dropWhile p = rest := by
    cases rest with
    | nil => exact ⟨rfl, rfl⟩
    | cons d rest =>
      have hd := hrest d rfl
      exact ⟨List.takeWhile_cons_of_neg (by simp [hd]), List.dropWhile_cons_of_neg (by simp [hd])⟩
  unfold run
  rw [List.takeWhile_append_of_pos hbehind, List.dropWhile_append_of_pos hbehind, hstop.1, hstop.2,
    List.append_nil]

theorem comment?_of_ne {c : Char} (rest : List Char) (h : c ≠ '/') :
    comment? (c :: rest) = none := by
  unfold comment?
  split
  · rename_i heq
    exact absurd (List.cons.inj heq).1 h
  · rename_i heq
    exact absurd (List.cons.inj heq).1 h
  · rfl

theorem marker?_of_ne {c : Char} (rest : List Char) (h : c ≠ '-') : marker? (c :: rest) = none := by
  unfold marker?
  split
  · rename_i heq
    exact absurd (List.cons.inj heq).1 h
  · rfl

theorem recovers_name {text : List Char} {rest : List Piece} (htext : IsName text)
    (hrest : Ends rest) : Recovers false (name text :: rest) := by
  cases text with
  | nil => exact absurd htext id
  | cons c behind =>
    obtain ⟨hc, hbehind⟩ := htext
    have hne {d : Char} (hd : startsName d = false) : c ≠ d := by
      rintro rfl
      rw [hd] at hc
      cases hc
    have hspace : ¬ isSpace c = true := by
      simp only [isSpace, Bool.or_eq_true, beq_iff_eq]
      rintro (((rfl | rfl) | rfl) | rfl)
      all_goals exact hne (by decide) rfl
    refine recovers_cons rfl ?_ (hrest.recovers false)
    unfold next
    rw [Bool.false_and, if_neg Bool.false_ne_true, if_neg hspace,
      comment?_of_ne _ (hne (by decide)), marker?_of_ne _ (hne (by decide))]
    dsimp only
    rw [if_neg (hne (by decide)), if_pos hc]
    exact run_append hbehind hrest.bounded

theorem continuesName_of_isDigit {c : Char} (h : Text.Hex.isDigit c = true) :
    continuesName c = true := by
  have hbetween {low high : Char} (hlow : low ≤ c) (hhigh : c ≤ high) :
      (decide (low ≤ c) && decide (c ≤ high)) = true :=
    Bool.and_eq_true_iff.mpr ⟨decide_eq_true hlow, decide_eq_true hhigh⟩
  have halphanum : c.isAlphanum = true := by
    unfold Text.Hex.isDigit Text.Hex.digitValue? at h
    split at h
    · rename_i hrange
      exact Bool.or_eq_true_iff.mpr (.inr (hbetween hrange.1 hrange.2))
    split at h
    · rename_i hrange
      have hhigh : c ≤ 'z' := Char.le_trans hrange.2 (by decide)
      have hlower : c.isLower = true := hbetween hrange.1 hhigh
      exact Bool.or_eq_true_iff.mpr (.inl (Bool.or_eq_true_iff.mpr (.inr hlower)))
    split at h
    · rename_i hrange
      have hhigh : c ≤ 'Z' := Char.le_trans hrange.2 (by decide)
      have hupper : c.isUpper = true := decide_eq_true ⟨hrange.1, hhigh⟩
      exact Bool.or_eq_true_iff.mpr (.inl (Bool.or_eq_true_iff.mpr (.inl hupper)))
    · cases h
  simp only [continuesName, halphanum, Bool.true_or]

theorem ends_tag {digits : List Char} {rest : List Piece} (hdigits : Text.Hex.IsRun digits)
    (hrest : Ends rest) : Ends (hash :: number digits :: rest) := by
  refine ends_hash ?_
  obtain ⟨hne, hdigit⟩ := hdigits
  cases digits with
  | nil => exact absurd rfl hne
  | cons c behind =>
    refine recovers_cons rfl ?_ (hrest.recovers false)
    have hbound : ∀ d ∈ (textOf rest).head?, Text.Hex.isDigit d = false := by
      intro d hd
      rw [Bool.eq_false_iff]
      intro hdigit
      exact Bool.eq_false_iff.mp (hrest.bounded d hd) (continuesName_of_isDigit hdigit)
    unfold next
    rw [Bool.true_and, if_pos (hdigit c List.mem_cons_self)]
    exact run_append (fun d hd ↦ hdigit d (List.mem_cons_of_mem _ hd)) hbound

end Piece

namespace Token

/-- Tokens that come from some pieces: one from every piece that is not skipped. -/
def Writes (tokens : List Token) (pieces : List Piece) : Prop :=
  tokens.map toPiece = pieces.filter (·.kind?.isSome)

theorem writes_nil_iff {tokens : List Token} : Writes tokens [] ↔ tokens = [] :=
  List.map_eq_nil_iff

theorem writes_blank_iff {tokens : List Token} {pieces : List Piece} :
    Writes tokens (Piece.blank :: pieces) ↔ Writes tokens pieces :=
  Iff.rfl

theorem writes_cons_iff {tokens : List Token} {kind : Token.Kind} {chars : List Char}
    {pieces : List Piece} : Writes tokens (⟨some kind, chars⟩ :: pieces) ↔
      ∃ t rest, tokens = t :: rest ∧ t.kind = kind ∧ t.text.toList = chars ∧
        Writes rest pieces := by
  unfold Writes
  rw [List.filter_cons_of_pos rfl, List.map_eq_cons_iff]
  constructor
  · rintro ⟨t, rest, rfl, ht, hrest⟩
    obtain ⟨hkind, htext⟩ := Piece.mk.inj ht
    exact ⟨t, rest, rfl, Option.some.inj hkind, htext, hrest⟩
  · rintro ⟨t, rest, rfl, rfl, rfl, hrest⟩
    exact ⟨t, rest, rfl, rfl, hrest⟩

theorem takeWhile_ofPieces (p : Position) {pieces : List Piece}
    (h : ∀ piece ∈ pieces, piece.kind? ≠ some .finish) :
    Writes ((ofPieces p pieces).takeWhile (·.kind != .finish)) pieces := by
  induction pieces generalizing p with
  | nil => rfl
  | cons piece rest ih =>
    have hrest := ih (p.advance piece.chars)
      fun other hother ↦ h other (List.mem_cons_of_mem _ hother)
    obtain ⟨kind?, chars⟩ := piece
    cases kind? with
    | none => exact hrest
    | some kind =>
      have hkind : kind ≠ .finish := fun heq ↦ h _ List.mem_cons_self (congrArg some heq)
      refine writes_cons_iff.mpr
        ⟨⟨kind, String.ofList chars, p⟩, _, ?_, rfl, String.toList_ofList, hrest⟩
      exact List.takeWhile_cons_of_pos (bne_iff_ne.mpr hkind)

/-- The tokens of a text that is read as the pieces it is written from. -/
theorem writes_of_recovers {source : String} {pieces : List Piece}
    (htext : source.toList = Piece.textOf pieces) (h : Piece.Recovers false pieces) :
    Writes ((tokenize source).takeWhile (·.kind != .finish)) pieces := by
  have hpieces : Piece.ofText false source.toList = pieces := by rw [htext, h]
  unfold tokenize
  rw [hpieces]
  exact takeWhile_ofPieces _ fun piece hpiece ↦
    Piece.kind_ne_finish_of_mem_ofText (hpieces ▸ hpiece)

theorem position_of_head {source : String} {kind : Token.Kind} {chars : List Char}
    {pieces : List Piece}
    (hpieces : Piece.ofText false source.toList = ⟨some kind, chars⟩ :: pieces)
    {t : Token} {rest : List Token}
    (h : (tokenize source).takeWhile (·.kind != .finish) = t :: rest) :
    t.position = Position.first := by
  unfold tokenize at h
  rw [hpieces, ofPieces] at h
  dsimp only at h
  rw [List.takeWhile_cons] at h
  split at h
  · obtain ⟨rfl, _⟩ := List.cons.inj h
    rfl
  · cases h

end Token

end TypeLang
