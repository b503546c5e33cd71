import TypeLang.Declaration.Printer
import TypeLang.Proofs.Declaration.Terms
import TypeLang.Proofs.Token.Written

/-!
The text of a declaration as pieces. Each part of a declaration is written before the pieces of what
stands behind it, and the characters of the pieces are the text of the part
(`Declaration.textOf_pieces`).
-/

set_option autoImplicit false
set_option relaxedAutoImplicit false

namespace TypeLang

theorem QualifiedName.text_ofText (text : String) : (ofText text).text = text := by
  unfold ofText
  split
  · rename_i space base hsplit
    split
    · rfl
    · obtain ⟨htext, _⟩ := splitLastDot?_eq_some_iff.mp hsplit
      apply String.toList_inj.mp
      rw [htext]
      simp [QualifiedName.text]
  · rfl

/-- The pieces of a type's outermost part, before others. -/
def TypeTerm.Head.pieces (head : Head) (rest : List Piece) : List Piece :=
  if head.bang then .sign '!' :: .name head.name.text.toList :: rest
  else if head.name.text = "#" then .hash :: rest
  else .name head.name.text.toList :: rest

/-- The pieces of a type, before others. -/
def TypeTerm.pieces : TypeTerm → List Piece → List Piece
  | name head, rest => head.pieces rest
  | applied head element, rest => head.pieces (.sign '<' :: element.pieces (.sign '>' :: rest))

/-- The pieces of a condition, before others. -/
def Condition.pieces (c : Condition) (rest : List Piece) : List Piece :=
  .name (c.field ++ "." ++ toString c.bit.toNat).toList :: .sign '?' :: rest

/-- The pieces of an argument's type and of the condition before it, before others. -/
def Argument.typePieces (a : Argument) (rest : List Piece) : List Piece :=
  if a.type.needsMark then .sign '%' :: a.type.pieces rest else a.type.pieces rest

/-- The pieces of an argument, before others. -/
def Argument.pieces (a : Argument) (rest : List Piece) : List Piece :=
  .name a.name.toList :: .sign ':' ::
    match a.condition with
    | none => a.typePieces rest
    | some c => c.pieces (a.typePieces rest)

/-- The pieces of a generic parameter, before others. -/
def GenericParameter.pieces (g : GenericParameter) (rest : List Piece) : List Piece :=
  .sign '\x7b' :: .name g.name.toList :: .sign ':' :: .name g.constraint.toList ::
    .sign '\x7d' :: rest

namespace Declaration

/-- The pieces of a tag, before others. -/
def tagPieces (tag : Option UInt32) (rest : List Piece) : List Piece :=
  match tag with
  | none => rest
  | some tag => .hash :: .number (Text.Hex.fixed 8 tag.toNat) :: rest

/-- The pieces of words, each behind a blank, before others. -/
def wordPieces {α : Type} (pieces : α → List Piece → List Piece) (words : List α)
    (rest : List Piece) : List Piece :=
  words.foldr (fun word rest ↦ .blank :: pieces word rest) rest

/-- The pieces of a declaration. -/
def pieces (d : Declaration) : List Piece :=
  .name d.qualifiedName.toList :: tagPieces d.tag
    (wordPieces GenericParameter.pieces d.generics
      (wordPieces Argument.pieces d.arguments
        (.blank :: .sign '=' :: .blank :: d.result.pieces [.sign ';'])))

end Declaration

open Piece (textOf textOf_cons)

theorem TypeTerm.Head.textOf_pieces (head : Head) (rest : List Piece) :
    textOf (head.pieces rest) = head.text.toList ++ textOf rest := by
  unfold pieces text
  split
  · simp [textOf_cons, Piece.sign, Piece.name]
  split
  · rename_i hmask
    rw [hmask]
    rfl
  · rfl

theorem TypeTerm.textOf_pieces (t : TypeTerm) (rest : List Piece) :
    textOf (t.pieces rest) = t.text.toList ++ textOf rest := by
  induction t generalizing rest with
  | name head => exact head.textOf_pieces rest
  | applied head element ih =>
    simp [pieces, text, head.textOf_pieces, textOf_cons, ih, Piece.sign]

theorem Argument.textOf_typePieces (a : Argument) (rest : List Piece) :
    textOf (a.typePieces rest) =
      (if a.type.needsMark then "%" else "").toList ++ a.type.text.toList ++ textOf rest := by
  unfold typePieces
  split
  · rw [textOf_cons, a.type.textOf_pieces]
    rfl
  · exact a.type.textOf_pieces rest

theorem Argument.textOf_pieces (a : Argument) (rest : List Piece) :
    textOf (a.pieces rest) = a.text.toList ++ textOf rest := by
  unfold pieces text
  cases a.condition with
  | none => simp [textOf_cons, a.textOf_typePieces, Piece.sign, Piece.name]
  | some c =>
    simp [textOf_cons, a.textOf_typePieces, Condition.pieces, Condition.text, Piece.sign,
      Piece.name]

theorem GenericParameter.textOf_pieces (g : GenericParameter) (rest : List Piece) :
    textOf (g.pieces rest) = g.text.toList ++ textOf rest := by
  simp [pieces, text, textOf_cons, Piece.sign, Piece.name]

namespace Declaration

theorem textOf_wordPieces {α : Type} {pieces : α → List Piece → List Piece} {text : α → String}
    (hpieces : ∀ word rest, textOf (pieces word rest) = (text word).toList ++ textOf rest)
    (words : List α) (rest : List Piece) :
    textOf (wordPieces pieces words rest) =
      (words.map text).flatMap (fun word ↦ ' ' :: word.toList) ++ textOf rest := by
  induction words with
  | nil => rfl
  | cons word words ih =>
    have hstep : wordPieces pieces (word :: words) rest =
        .blank :: pieces word (wordPieces pieces words rest) := rfl
    rw [hstep, textOf_cons, hpieces, ih]
    simp [Piece.blank]

theorem toList_intercalate_cons (first : String) (rest : List String) :
    (" ".intercalate (first :: rest)).toList =
      first.toList ++ rest.flatMap (fun word ↦ ' ' :: word.toList) := by
  induction rest generalizing first with
  | nil => simp
  | cons second rest ih =>
    rw [String.intercalate_cons_cons, String.toList_append, String.toList_append, ih]
    simp

theorem textOf_tagPieces (tag : Option UInt32) (rest : List Piece) :
    textOf (tagPieces tag rest) =
      ((tag.map fun tag ↦ "#" ++ Text.Hex.word tag).getD "").toList ++ textOf rest := by
  cases tag with
  | none => rfl
  | some tag => simp [tagPieces, textOf_cons, Piece.hash, Piece.number, Text.Hex.word]

theorem textOf_pieces (d : Declaration) : textOf d.pieces = d.text.toList := by
  have hwords := textOf_wordPieces GenericParameter.textOf_pieces d.generics
  have harguments := textOf_wordPieces Argument.textOf_pieces d.arguments
  unfold pieces text
  simp only [textOf_cons, textOf_tagPieces, hwords, harguments, d.result.textOf_pieces,
    String.toList_append, toList_intercalate_cons, List.flatMap_append, List.append_assoc]
  rfl

end Declaration

end TypeLang
