import TypeLang.Text.Hex
import TypeLang.Token.Basic

/-!
Schema text as a sequence of pieces: blanks, comments and lexemes, whose texts together are the
whole text. Every text is such a sequence, because a character that starts nothing else is a piece
of its own.
-/

set_option autoImplicit false
set_option relaxedAutoImplicit false

namespace TypeLang

/-- A part of a schema text. What is skipped has no kind. -/
structure Piece where
  kind? : Option Token.Kind
  chars : List Char
deriving DecidableEq, Repr

namespace Piece

/-- The characters between tokens. -/
def isSpace (c : Char) : Bool := c == ' ' || c == '\t' || c == '\r' || c == '\n'

/-- The characters that end a line comment. -/
def endsLine (c : Char) : Bool := c == '\n' || c == '\r'

/-- The characters that start a name. -/
def startsName (c : Char) : Bool := c.isAlpha || c == '_'

/-- The characters that continue a name. -/
def continuesName (c : Char) : Bool := c.isAlphanum || c == '_' || c == '.'

/-- The kind of a character that is a lexeme by itself. -/
def signKind : Char → Token.Kind
  | ':' => .colon
  | '?' => .question
  | '!' => .bang
  | '<' => .leftAngle
  | '>' => .rightAngle
  | '=' => .equals
  | ';' => .semicolon
  | '\x7b' => .leftBrace
  | '\x7d' => .rightBrace
  | '%' => .percent
  | _ => .punct

/-- The text up to and including the first end of a block comment, and the text behind it. -/
def closeComment? : List Char → Option (List Char × List Char)
  | '*' :: '/' :: rest => some (['*', '/'], rest)
  | c :: rest => (closeComment? rest).map fun (body, behind) => (c :: body, behind)
  | [] => none

/-- A section marker, three dashes on either side of a word, and the text behind it. -/
def marker? : List Char → Option (List Char × List Char)
  | '-' :: '-' :: '-' :: rest =>
    match rest.dropWhile Char.isAlpha with
    | '-' :: '-' :: '-' :: behind =>
      if (rest.takeWhile Char.isAlpha).isEmpty then none
      else some (['-', '-', '-'] ++ rest.takeWhile Char.isAlpha ++ ['-', '-', '-'], behind)
    | _ => none
  | _ => none

/-- The comment at the start of a text, and the text behind it. -/
def comment? : List Char → Option (List Char × List Char)
  | '/' :: '/' :: rest =>
    some ('/' :: '/' :: rest.takeWhile (!endsLine ·), rest.dropWhile (!endsLine ·))
  | '/' :: '*' :: rest =>
    (closeComment? rest).map fun (body, behind) => ('/' :: '*' :: body, behind)
  | _ => none

/-- The run of characters at the start of a text that satisfy `p`, as a piece after `c`. -/
def run (kind : Token.Kind) (p : Char → Bool) (c : Char) (rest : List Char) :
    Piece × List Char :=
  (⟨some kind, c :: rest.takeWhile p⟩, rest.dropWhile p)

/-- The first piece of a text that starts with `c`, and the text behind it. Hexadecimal digits
directly behind a hash sign are one number: the digits of a tag. -/
def next (afterHash : Bool) (c : Char) (rest : List Char) : Piece × List Char :=
  if afterHash && Text.Hex.isDigit c then run .number Text.Hex.isDigit c rest
  else if isSpace c then (⟨none, [c]⟩, rest)
  else
    match comment? (c :: rest) with
    | some (text, behind) => (⟨none, text⟩, behind)
    | none =>
      match marker? (c :: rest) with
      | some (text, behind) => (⟨some .sectionMarker, text⟩, behind)
      | none =>
        if c = '#' then (⟨some .hash, [c]⟩, rest)
        else if startsName c then run .ident continuesName c rest
        else if c.isDigit then run .number Char.isDigit c rest
        else (⟨some (signKind c), [c]⟩, rest)

theorem closeComment?_append {text body behind : List Char}
    (h : closeComment? text = some (body, behind)) : body ++ behind = text := by
  fun_induction closeComment? text generalizing body behind with
  | case1 rest =>
    simp only [Option.some.injEq, Prod.mk.injEq] at h
    obtain ⟨rfl, rfl⟩ := h
    simp
  | case2 c rest _ ih =>
    obtain ⟨⟨inner, tail⟩, hinner, heq⟩ := Option.map_eq_some_iff.1 h
    simp only [Prod.mk.injEq] at heq
    obtain ⟨rfl, rfl⟩ := heq
    simp [ih hinner]
  | case3 => simp at h

theorem comment?_append {text comment behind : List Char}
    (h : comment? text = some (comment, behind)) : comment ++ behind = text := by
  unfold comment? at h
  split at h
  · simp only [Option.some.injEq, Prod.mk.injEq] at h
    obtain ⟨rfl, rfl⟩ := h
    simp
  · obtain ⟨⟨inner, tail⟩, hinner, heq⟩ := Option.map_eq_some_iff.1 h
    simp only [Prod.mk.injEq] at heq
    obtain ⟨rfl, rfl⟩ := heq
    simp [closeComment?_append hinner]
  · simp at h

theorem marker?_append {text marker behind : List Char}
    (h : marker? text = some (marker, behind)) : marker ++ behind = text := by
  unfold marker? at h
  split at h
  · rename_i rest
    have hsplit := List.takeWhile_append_dropWhile (p := Char.isAlpha) (l := rest)
    split at h
    · rename_i hdrop
      split at h
      · simp at h
      · simp only [Option.some.injEq, Prod.mk.injEq] at h
        obtain ⟨rfl, rfl⟩ := h
        rw [hdrop] at hsplit
        simp only [List.cons_append, List.nil_append, List.append_assoc, hsplit]
    · simp at h
  · simp at h

/-- A piece and the text behind it are the text the piece was taken from. -/
theorem next_append (afterHash : Bool) (c : Char) (rest : List Char) :
    (next afterHash c rest).1.chars ++ (next afterHash c rest).2 = c :: rest := by
  unfold next
  split
  · simp [run]
  split
  · simp
  split
  · rename_i h
    exact comment?_append h
  split
  · rename_i h
    exact marker?_append h
  repeat' split
  all_goals simp [run]

/-- No piece is empty. -/
theorem next_ne_nil (afterHash : Bool) (c : Char) (rest : List Char) :
    (next afterHash c rest).1.chars ≠ [] := by
  unfold next
  split
  · simp [run]
  split
  · simp
  split
  · rename_i text behind h
    unfold comment? at h
    split at h
    · simp only [Option.some.injEq, Prod.mk.injEq] at h
      simp [← h.1]
    · obtain ⟨⟨inner, tail⟩, _, heq⟩ := Option.map_eq_some_iff.1 h
      simp only [Prod.mk.injEq] at heq
      simp [← heq.1]
    · simp at h
  split
  · rename_i text behind h
    unfold marker? at h
    split at h
    · split at h
      · split at h
        · simp at h
        · simp only [Option.some.injEq, Prod.mk.injEq] at h
          simp [← h.1]
      · simp at h
    · simp at h
  repeat' split
  all_goals simp [run]

theorem next_length (afterHash : Bool) (c : Char) (rest : List Char) :
    (next afterHash c rest).2.length ≤ rest.length := by
  have happend := congrArg List.length (next_append afterHash c rest)
  have hpos := List.length_pos_iff.2 (next_ne_nil afterHash c rest)
  simp only [List.length_append, List.length_cons] at happend
  omega

/-- The pieces of a text. -/
def ofText (afterHash : Bool) : List Char → List Piece
  | [] => []
  | c :: rest =>
    let step := next afterHash c rest
    step.1 :: ofText (step.1.kind? == some .hash) step.2
termination_by text => text.length
decreasing_by
  exact Nat.lt_succ_of_le (next_length afterHash c rest)

end Piece

end TypeLang
