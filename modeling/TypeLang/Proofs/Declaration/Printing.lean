import TypeLang.Proofs.Declaration.Parsing
import TypeLang.Proofs.Declaration.Pieces
import TypeLang.Proofs.Wire.Place

/-!
What the text of a declaration keeps. A declaration that was read from some text is written as one
statement, and that statement is read as one declaration: `Declaration.asRead`, which differs in
nothing but the marks of bare types. The text of a type has no such marks, and the text of an
argument has one only before a name in upper case; so a type is read as bare where its name says so,
or where it is the whole type of an argument with such a name. A declaration is read back as it was
exactly if every bare type of it is one of these (`Declaration.MarksShown`).
-/

set_option autoImplicit false
set_option relaxedAutoImplicit false

namespace TypeLang

/-! ### What is read back -/

/-- Whether a type with this outermost part is read as bare without a mark. -/
def TypeTerm.Head.readsBare (head : Head) : Bool :=
  head.bang || head.name.text == "#" || startsWith Char.isLower head.name.base

/-- The type that is read from the text of a type. -/
def TypeTerm.asRead : TypeTerm → TypeTerm
  | name head => name { head with bare := head.readsBare }
  | applied head element => applied { head with bare := head.readsBare } element.asRead

/-- Whether each part of a type is bare exactly if it is read as bare without a mark. -/
def TypeTerm.MarksShown : TypeTerm → Prop
  | name head => head.bare = head.readsBare
  | applied head element => head.bare = head.readsBare ∧ element.MarksShown

/-- The argument that is read from the text of an argument. -/
def Argument.asRead (a : Argument) : Argument :=
  { a with type := if a.type.needsMark then a.type.asRead.asBare else a.type.asRead }

/-- Whether the text of an argument shows every mark of its type. The outermost part may have a mark
of its own. -/
def Argument.MarksShown (a : Argument) : Prop :=
  match a.type with
  | .name head => a.type.needsMark = true ∨ head.bare = head.readsBare
  | .applied head element =>
    (a.type.needsMark = true ∨ head.bare = head.readsBare) ∧ element.MarksShown

namespace Declaration

/-- The declaration that is read from the text of a declaration, as far as the text tells. -/
def asRead (d : Declaration) : Declaration :=
  { d with arguments := d.arguments.map Argument.asRead, result := d.result.asRead }

/-- Whether the text of a declaration shows every mark of its types. -/
def MarksShown (d : Declaration) : Prop :=
  (∀ a ∈ d.arguments, a.MarksShown) ∧ d.result.MarksShown

end Declaration

theorem TypeTerm.asRead_eq_self_iff (t : TypeTerm) : t.asRead = t ↔ t.MarksShown := by
  induction t with
  | name head =>
    obtain ⟨name, bare, bang⟩ := head
    simp only [asRead, MarksShown, TypeTerm.name.injEq, Head.mk.injEq, true_and, and_true]
    exact eq_comm
  | applied head element ih =>
    obtain ⟨name, bare, bang⟩ := head
    simp only [asRead, MarksShown, TypeTerm.applied.injEq, Head.mk.injEq, true_and, and_true, ih]
    exact and_congr_left fun _ ↦ eq_comm

theorem TypeTerm.bare_of_needsMark {t : TypeTerm} (h : t.needsMark = true) :
    t.head.bare = true := by
  simp only [needsMark, Bool.and_eq_true] at h
  exact h.1.1.1

theorem Argument.asRead_eq_self_iff (a : Argument) : a.asRead = a ↔ a.MarksShown := by
  obtain ⟨name, type, condition⟩ := a
  simp only [asRead, MarksShown, Argument.mk.injEq, true_and, and_true]
  by_cases hmark : type.needsMark = true
  · have hbare := TypeTerm.bare_of_needsMark hmark
    rw [if_pos hmark]
    cases type with
    | name head =>
      obtain ⟨name, bare, bang⟩ := head
      obtain rfl : bare = true := hbare
      exact ⟨fun _ ↦ .inl hmark, fun _ ↦ rfl⟩
    | applied head element =>
      obtain ⟨name, bare, bang⟩ := head
      obtain rfl : bare = true := hbare
      simp only [TypeTerm.asRead, TypeTerm.asBare, TypeTerm.mapHead, TypeTerm.applied.injEq,
        true_and, hmark, true_or, element.asRead_eq_self_iff]
  · rw [if_neg hmark, TypeTerm.asRead_eq_self_iff]
    cases type <;> simp only [hmark, Bool.false_eq_true, false_or, TypeTerm.MarksShown]

theorem Declaration.asRead_eq_self_iff (d : Declaration) : d.asRead = d ↔ d.MarksShown := by
  obtain ⟨name, tag, generics, arguments, result, isFunction, position⟩ := d
  simp only [asRead, MarksShown, Declaration.mk.injEq, true_and, and_true,
    result.asRead_eq_self_iff]
  refine and_congr_left fun _ ↦ ?_
  induction arguments with
  | nil => simp
  | cons first rest ih =>
    rw [List.map_cons, List.cons.injEq, first.asRead_eq_self_iff, ih, List.forall_mem_cons]

instance (d : Declaration) : Decidable d.MarksShown :=
  decidable_of_iff _ d.asRead_eq_self_iff

/-! ### Reading the pieces -/

theorem TypeTerm.Head.pieces_ofText {text : String} (h : Piece.IsName text.toList)
    (rest : List Piece) : (ofText text).pieces rest = .name text.toList :: rest := by
  have hmask : ¬ text = "#" := by
    rintro rfl
    exact absurd h.1 (by decide)
  unfold pieces ofText
  rw [QualifiedName.text_ofText, if_neg Bool.false_ne_true, if_neg hmask]

theorem TypeTerm.Head.readsBare_ofText {text : String} (h : Piece.IsName text.toList) :
    (ofText text).readsBare = (ofText text).bare := by
  have hmask : (text == "#") = false := by
    rw [beq_eq_false_iff_ne]
    rintro rfl
    exact absurd h.1 (by decide)
  unfold readsBare ofText
  rw [QualifiedName.text_ofText, hmask]
  rfl

theorem TypeTerm.pieces_asBare (t : TypeTerm) (rest : List Piece) :
    t.asBare.pieces rest = t.pieces rest := by
  cases t <;> rfl

theorem TypeTerm.asRead_asBare (t : TypeTerm) : t.asBare.asRead = t.asRead := by
  cases t <;> rfl

theorem TypeTerm.Spelled.recovers {generics : List GenericParameter} {tokens rest : List Token}
    {type : TypeTerm} (h : Spelled generics tokens type rest) (hshape : Token.Shaped tokens)
    {pieces : List Piece} (hpieces : Piece.Ends pieces) :
    Piece.Recovers false (type.pieces pieces) := by
  induction h generalizing pieces with
  | mask => exact (Piece.ends_hash (hpieces.recovers true)).recovers false
  | invocation _ hname =>
    have hrest := Piece.recovers_name (hshape.tail.isName hname) hpieces
    exact (Piece.ends_sign (by decide) hrest).recovers false
  | bare _ _ ih =>
    rw [pieces_asBare]
    exact ih hshape.tail hpieces
  | name hname =>
    have htext := hshape.isName hname
    have hrest := Piece.recovers_name htext hpieces
    rw [← Head.pieces_ofText htext] at hrest
    exact hrest
  | applied hname _ _ _ ih =>
    have htext := hshape.isName hname
    have hleft : '<' ∈ Piece.signs := by decide
    have hright : '>' ∈ Piece.signs := by decide
    have helement := ih hshape.tail.tail (Piece.ends_sign hright (hpieces.recovers false))
    have hrest := Piece.recovers_name htext (Piece.ends_sign hleft helement)
    rw [← Head.pieces_ofText htext] at hrest
    exact hrest

theorem TypeTerm.Spelled.rewritten {generics : List GenericParameter} {tokens rest : List Token}
    {type : TypeTerm} (h : Spelled generics tokens type rest) (hshape : Token.Shaped tokens)
    {again : List Token} {pieces : List Piece} (hwrites : Token.Writes again (type.pieces pieces)) :
    ∃ behind, Token.Writes behind pieces ∧ Spelled generics again type.asRead behind := by
  induction h generalizing again pieces with
  | mask =>
    obtain ⟨t, behind, rfl, hkind, _, hbehind⟩ := Token.writes_cons_iff.mp hwrites
    exact ⟨behind, hbehind, .mask hkind⟩
  | @invocation _ _ name _ _ _ hparameter =>
    obtain ⟨bang, _, rfl, hbang, _, hwrites⟩ := Token.writes_cons_iff.mp hwrites
    obtain ⟨t, behind, rfl, hkind, htext, hbehind⟩ := Token.writes_cons_iff.mp hwrites
    have htext : t.text = name.text := String.toList_inj.mp htext
    rw [← htext] at hparameter ⊢
    exact ⟨behind, hbehind, .invocation hbang hkind hparameter⟩
  | bare _ _ ih =>
    rw [pieces_asBare] at hwrites
    rw [asRead_asBare]
    exact ih hshape.tail hwrites
  | @name _ name _ hname hvector =>
    have hisName := hshape.isName hname
    have hread : (TypeTerm.ofText name.text).asRead = .ofText name.text := by
      rw [TypeTerm.ofText, asRead, Head.readsBare_ofText hisName]
    rw [TypeTerm.ofText, TypeTerm.pieces, Head.pieces_ofText hisName] at hwrites
    obtain ⟨t, behind, rfl, hkind, htext, hbehind⟩ := Token.writes_cons_iff.mp hwrites
    have htext : t.text = name.text := String.toList_inj.mp htext
    rw [hread, ← htext]
    exact ⟨behind, hbehind, .name hkind (htext ▸ hvector)⟩
  | @applied _ name _ _ _ _ element hname _ _ _ ih =>
    have hisName := hshape.isName hname
    rw [TypeTerm.pieces, Head.pieces_ofText hisName] at hwrites
    obtain ⟨t, _, rfl, hkind, htext, hwrites⟩ := Token.writes_cons_iff.mp hwrites
    obtain ⟨left, _, rfl, hleft, _, hwrites⟩ := Token.writes_cons_iff.mp hwrites
    obtain ⟨_, hinner, helement⟩ := ih hshape.tail.tail hwrites
    obtain ⟨right, behind, rfl, hright, _, hbehind⟩ := Token.writes_cons_iff.mp hinner
    have htext : t.text = name.text := String.toList_inj.mp htext
    rw [asRead, Head.readsBare_ofText hisName, ← htext]
    exact ⟨behind, hbehind, .applied hkind hleft helement hright⟩

/-! ### Arguments and statements -/

theorem Argument.asRead_isMask (a : Argument) : a.asRead.type.isMask = a.type.isMask := by
  have hread : ∀ t : TypeTerm, t.asRead.isMask = t.isMask := by
    intro t
    cases t <;> rfl
  have hbare : ∀ t : TypeTerm, t.asBare.isMask = t.isMask := by
    intro t
    cases t <;> rfl
  unfold asRead
  dsimp only
  split
  · rw [hbare, hread]
  · exact hread a.type

/-- The name that a condition is written as. -/
theorem Condition.Spelled.isName {previous : List Argument} {text : String} {c : Condition}
    (h : Condition.Spelled previous text c) (htext : Piece.IsName text.toList) :
    Piece.IsName (c.field ++ "." ++ toString c.bit.toNat).toList := by
  obtain ⟨digits, hform, _⟩ := h.form
  have hdigits := (Text.Numeral.stands_bit h.bit_lt).isDigit
  rw [hform] at htext
  simp only [String.toList_append, List.append_assoc] at htext ⊢
  cases hfield : c.field.toList with
  | nil =>
    rw [hfield] at htext
    exact absurd htext.1 (by decide)
  | cons first rest =>
    rw [hfield] at htext
    refine ⟨htext.1, fun d hd ↦ ?_⟩
    rcases List.mem_append.mp hd with hd | hd
    · exact htext.2 d (List.mem_append_left _ hd)
    rcases List.mem_append.mp hd with hd | hd
    · exact htext.2 d (List.mem_append_right _ (List.mem_append_left _ hd))
    · exact Piece.continuesName_of_isDigit (hdigits d hd)

theorem Condition.Spelled.rewritten {previous : List Argument} {text : String} {c : Condition}
    (h : Condition.Spelled previous text c) : Condition.Spelled (previous.map Argument.asRead)
      (c.field ++ "." ++ toString c.bit.toNat) c := by
  obtain ⟨a, ha, hname, hmask⟩ := h.declared
  refine ⟨⟨toString c.bit.toNat, rfl, Text.Numeral.stands_bit h.bit_lt⟩, h.bit_lt, a.asRead,
    List.mem_map_of_mem ha, hname, ?_⟩
  rw [a.asRead_isMask, hmask]

theorem Argument.recovers_typePieces {generics : List GenericParameter} {tokens rest : List Token}
    {a : Argument} (h : TypeTerm.Spelled generics tokens a.type rest)
    (hshape : Token.Shaped tokens) {pieces : List Piece} (hpieces : Piece.Ends pieces) :
    Piece.Recovers false (a.typePieces pieces) := by
  have htype := h.recovers hshape hpieces
  unfold typePieces
  split
  · exact (Piece.ends_sign (by decide) htype).recovers false
  · exact htype

theorem Argument.Spelled.recovers {generics : List GenericParameter} {previous : List Argument}
    {tokens rest : List Token} {a : Argument} (h : Spelled generics previous tokens a rest)
    (hshape : Token.Shaped tokens) {pieces : List Piece} (hpieces : Piece.Ends pieces) :
    Piece.Recovers false (a.pieces pieces) := by
  have hcolon : ':' ∈ Piece.signs := by decide
  cases h with
  | @plain name _ _ _ type hname _ _ _ htype =>
    have htypePieces := recovers_typePieces (a := ⟨name.text, type, none⟩) htype hshape.tail.tail
      hpieces
    exact Piece.recovers_name (hshape.isName hname) (Piece.ends_sign hcolon htypePieces)
  | @conditional name _ mask _ _ _ type c hname _ _ _ hmask _ hcondition htype =>
    have htypePieces := recovers_typePieces (a := ⟨name.text, type, some c⟩) htype
      hshape.tail.tail.tail.tail hpieces
    have hquestion : '?' ∈ Piece.signs := by decide
    have hconditionPieces := Piece.recovers_name
      (hcondition.isName (hshape.tail.tail.isName hmask)) (Piece.ends_sign hquestion htypePieces)
    exact Piece.recovers_name (hshape.isName hname) (Piece.ends_sign hcolon hconditionPieces)

theorem Argument.rewritten_typePieces {generics : List GenericParameter}
    {tokens rest : List Token} {a : Argument} (h : TypeTerm.Spelled generics tokens a.type rest)
    (hshape : Token.Shaped tokens) {again : List Token} {pieces : List Piece}
    (hwrites : Token.Writes again (a.typePieces pieces)) : ∃ behind, Token.Writes behind pieces ∧
      TypeTerm.Spelled generics again a.asRead.type behind := by
  unfold typePieces at hwrites
  unfold asRead
  dsimp only
  split
  · rename_i hmark
    rw [if_pos hmark] at hwrites
    obtain ⟨percent, _, rfl, hpercent, _, hwrites⟩ := Token.writes_cons_iff.mp hwrites
    obtain ⟨behind, hbehind, htype⟩ := h.rewritten hshape hwrites
    exact ⟨behind, hbehind, .bare hpercent htype⟩
  · rename_i hmark
    rw [if_neg hmark] at hwrites
    exact h.rewritten hshape hwrites

theorem Argument.Spelled.rewritten {generics : List GenericParameter} {previous : List Argument}
    {tokens rest : List Token} {a : Argument} (h : Spelled generics previous tokens a rest)
    (hshape : Token.Shaped tokens) {again : List Token} {pieces : List Piece}
    (hwrites : Token.Writes again (a.pieces pieces)) : ∃ behind, Token.Writes behind pieces ∧
      Spelled generics (previous.map Argument.asRead) again a.asRead behind := by
  have hnames {name : String} (hfresh : ∀ b ∈ previous, b.name ≠ name) :
      ∀ b ∈ previous.map Argument.asRead, b.name ≠ name := by
    intro b hb
    obtain ⟨original, horiginal, rfl⟩ := List.mem_map.mp hb
    exact hfresh original horiginal
  cases h with
  | @plain name _ _ _ type _ hplain hfresh _ htype =>
    obtain ⟨t, _, rfl, hkind, htext, hwrites⟩ := Token.writes_cons_iff.mp hwrites
    obtain ⟨colon, _, rfl, hcolon, _, hwrites⟩ := Token.writes_cons_iff.mp hwrites
    obtain ⟨behind, hbehind, hagain⟩ := rewritten_typePieces (a := ⟨name.text, type, none⟩) htype
      hshape.tail.tail hwrites
    have htext : t.text = name.text := String.toList_inj.mp htext
    have hspelled : Spelled generics (previous.map Argument.asRead) _ _ behind :=
      .plain hkind (htext ▸ hplain) (htext ▸ hnames hfresh) hcolon hagain
    rw [htext] at hspelled
    exact ⟨behind, hbehind, hspelled⟩
  | @conditional name _ mask _ _ _ type c _ hplain hfresh _ _ _ hcondition htype hmask =>
    obtain ⟨t, _, rfl, hkind, htext, hwrites⟩ := Token.writes_cons_iff.mp hwrites
    obtain ⟨colon, _, rfl, hcolon, _, hwrites⟩ := Token.writes_cons_iff.mp hwrites
    obtain ⟨word, _, rfl, hword, hwordText, hwrites⟩ := Token.writes_cons_iff.mp hwrites
    obtain ⟨question, _, rfl, hquestion, _, hwrites⟩ := Token.writes_cons_iff.mp hwrites
    obtain ⟨behind, hbehind, hagain⟩ := rewritten_typePieces (a := ⟨name.text, type, some c⟩) htype
      hshape.tail.tail.tail.tail hwrites
    have htext : t.text = name.text := String.toList_inj.mp htext
    have hread := hcondition.rewritten
    rw [← String.toList_inj.mp hwordText] at hread
    have hunmasked := (Argument.asRead_isMask ⟨name.text, type, some c⟩).trans hmask
    have hspelled : Spelled generics (previous.map Argument.asRead) _ _ behind :=
      .conditional hkind (htext ▸ hplain) (htext ▸ hnames hfresh) hcolon hword hquestion hread
        hagain hunmasked
    rw [htext] at hspelled
    exact ⟨behind, hbehind, hspelled⟩

namespace Declaration

theorem wordPieces_cons {α : Type} (pieces : α → List Piece → List Piece) (word : α)
    (words : List α) (rest : List Piece) :
    wordPieces pieces (word :: words) rest = .blank :: pieces word (wordPieces pieces words rest) :=
  rfl

end Declaration

theorem Argument.SpelledAll.ends {generics : List GenericParameter} {previous found : List Argument}
    {tokens rest : List Token} (h : SpelledAll generics previous tokens found rest)
    (hshape : Token.Shaped tokens) {pieces : List Piece} (hpieces : Piece.Ends pieces) :
    Piece.Ends (Declaration.wordPieces Argument.pieces found pieces) := by
  induction h with
  | nil => exact hpieces
  | cons hfirst _ ih =>
    have hmore := ih (hshape.mono hfirst.subset)
    exact Piece.ends_blank (hfirst.recovers hshape hmore)

theorem Argument.SpelledAll.rewritten {generics : List GenericParameter}
    {previous found : List Argument} {tokens rest : List Token}
    (h : SpelledAll generics previous tokens found rest) (hshape : Token.Shaped tokens)
    {again : List Token} {pieces : List Piece}
    (hwrites : Token.Writes again (Declaration.wordPieces Argument.pieces found pieces)) :
    ∃ behind, Token.Writes behind pieces ∧ SpelledAll generics (previous.map Argument.asRead) again
      (found.map Argument.asRead) behind := by
  induction h generalizing again with
  | nil => exact ⟨again, hwrites, .nil⟩
  | cons hfirst _ ih =>
    rw [Declaration.wordPieces_cons, Token.writes_blank_iff] at hwrites
    obtain ⟨between, hbetween, hagain⟩ := hfirst.rewritten hshape hwrites
    obtain ⟨behind, hbehind, hmore⟩ := ih (hshape.mono hfirst.subset) hbetween
    rw [List.map_append] at hmore
    exact ⟨behind, hbehind, .cons hagain hmore⟩

theorem GenericParameter.SpelledAll.ends {tokens rest : List Token}
    {found : List GenericParameter} (h : SpelledAll tokens found rest)
    (hshape : Token.Shaped tokens) {pieces : List Piece} (hpieces : Piece.Ends pieces) :
    Piece.Ends (Declaration.wordPieces GenericParameter.pieces found pieces) := by
  have hleft : '\x7b' ∈ Piece.signs := by decide
  have hcolon : ':' ∈ Piece.signs := by decide
  have hright : '\x7d' ∈ Piece.signs := by decide
  induction h with
  | nil => exact hpieces
  | @cons left name colon constraint right between _ _ _ hname _ hconstraint _ _ ih =>
    have hmore := ih (hshape.mono
      (List.subset_append_right [left, name, colon, constraint, right] between))
    have hlast := Piece.recovers_name (hshape.tail.tail.tail.isName hconstraint)
      (Piece.ends_sign hright (hmore.recovers false))
    have hfirst := Piece.recovers_name (hshape.tail.isName hname) (Piece.ends_sign hcolon hlast)
    exact Piece.ends_blank ((Piece.ends_sign hleft hfirst).recovers false)

theorem GenericParameter.SpelledAll.rewritten {tokens rest : List Token}
    {found : List GenericParameter} (h : SpelledAll tokens found rest) {again : List Token}
    {pieces : List Piece}
    (hwrites : Token.Writes again (Declaration.wordPieces GenericParameter.pieces found pieces)) :
    ∃ behind, Token.Writes behind pieces ∧ SpelledAll again found behind := by
  induction h generalizing again with
  | nil => exact ⟨again, hwrites, .nil⟩
  | @cons _ name _ constraint _ _ _ _ _ _ _ _ _ _ ih =>
    rw [Declaration.wordPieces_cons, Token.writes_blank_iff] at hwrites
    obtain ⟨left, _, rfl, hleft, _, hwrites⟩ := Token.writes_cons_iff.mp hwrites
    obtain ⟨first, _, rfl, hfirst, hfirstText, hwrites⟩ := Token.writes_cons_iff.mp hwrites
    obtain ⟨colon, _, rfl, hcolon, _, hwrites⟩ := Token.writes_cons_iff.mp hwrites
    obtain ⟨last, _, rfl, hlast, hlastText, hwrites⟩ := Token.writes_cons_iff.mp hwrites
    obtain ⟨right, _, rfl, hright, _, hwrites⟩ := Token.writes_cons_iff.mp hwrites
    obtain ⟨behind, hbehind, hmore⟩ := ih hwrites
    have hfirstText : first.text = name.text := String.toList_inj.mp hfirstText
    have hlastText : last.text = constraint.text := String.toList_inj.mp hlastText
    rw [← hfirstText, ← hlastText]
    exact ⟨behind, hbehind, .cons hleft hfirst hcolon hlast hright hmore⟩

namespace Declaration

theorem ends_tagPieces (tag : Option UInt32) {pieces : List Piece} (hpieces : Piece.Ends pieces) :
    Piece.Ends (tagPieces tag pieces) := by
  cases tag with
  | none => exact hpieces
  | some tag =>
    have hdigits := Text.Numeral.stands_word tag
    exact Piece.ends_tag ⟨hdigits.ne_nil, hdigits.isDigit⟩ hpieces

theorem tagSpelled_of_writes {tag : Option UInt32} {again : List Token} {pieces : List Piece}
    (hwrites : Token.Writes again (tagPieces tag pieces)) :
    ∃ behind, Token.Writes behind pieces ∧ TagSpelled again tag behind := by
  cases tag with
  | none => exact ⟨again, hwrites, .absent⟩
  | some tag =>
    obtain ⟨hash, _, rfl, hhash, _, hwrites⟩ := Token.writes_cons_iff.mp hwrites
    obtain ⟨digits, behind, rfl, hdigits, htext, hbehind⟩ := Token.writes_cons_iff.mp hwrites
    have hvalue := Text.Numeral.stands_word tag
    have hlength := Text.Hex.length_fixed 8 tag.toNat
    rw [← htext] at hvalue hlength
    refine ⟨behind, hbehind, ?_⟩
    have hspelled : TagSpelled (hash :: digits :: behind) _ behind :=
      .present hhash hdigits (Nat.le_of_eq hlength) hvalue
    rwa [UInt32.ofNat_toNat] at hspelled

theorem Spelled.recovers {isFunction : Bool} {tokens rest : List Token} {d : Declaration}
    (h : Spelled isFunction tokens d rest) (hshape : Token.Shaped tokens) :
    Piece.Recovers false d.pieces := by
  have hequals : '=' ∈ Piece.signs := by decide
  have hsemicolon : ';' ∈ Piece.signs := by decide
  cases h with
  | @statement name _ _ _ _ _ _ _ tag _ _ _ hname htag hgenerics harguments _ hresult _ =>
    have hbehindTag := hshape.tail.mono htag.subset
    have hbehindGenerics := hbehindTag.mono hgenerics.subset
    have hbehindArguments := (hbehindGenerics.mono harguments.subset).tail
    have hresultPieces := hresult.recovers hbehindArguments
      (Piece.ends_sign hsemicolon (Piece.recovers_nil false))
    have hend := Piece.ends_blank ((Piece.ends_sign hequals
      ((Piece.ends_blank hresultPieces).recovers false)).recovers false)
    have hwords := hgenerics.ends hbehindTag (harguments.ends hbehindGenerics hend)
    have hpieces := Piece.recovers_name (hshape.isName hname) (ends_tagPieces tag hwords)
    rw [← QualifiedName.text_ofText name.text] at hpieces
    exact hpieces

theorem Spelled.rewritten {isFunction : Bool} {tokens rest : List Token} {d : Declaration}
    (h : Spelled isFunction tokens d rest) (hshape : Token.Shaped tokens) {again : List Token}
    (hwrites : Token.Writes again d.pieces) : ∃ name behind, again = name :: behind ∧
      Spelled false again { d.asRead with isFunction := false, position := name.position } [] := by
  cases h with
  | @statement name _ _ _ _ _ _ _ tag _ _ _ hname htag hgenerics harguments _ hresult _ =>
    have hbehindTag := hshape.tail.mono htag.subset
    have hbehindGenerics := hbehindTag.mono hgenerics.subset
    have hbehindArguments := (hbehindGenerics.mono harguments.subset).tail
    obtain ⟨t, behind, rfl, hkind, htext, hwrites⟩ := Token.writes_cons_iff.mp hwrites
    have htext : t.text = name.text :=
      (String.toList_inj.mp htext).trans (QualifiedName.text_ofText name.text)
    obtain ⟨_, hwrites, htagAgain⟩ := tagSpelled_of_writes hwrites
    obtain ⟨_, hwrites, hgenericsAgain⟩ := hgenerics.rewritten hwrites
    obtain ⟨_, hwrites, hargumentsAgain⟩ := harguments.rewritten hbehindGenerics hwrites
    rw [Token.writes_blank_iff] at hwrites
    obtain ⟨equals, _, rfl, hequals, _, hwrites⟩ := Token.writes_cons_iff.mp hwrites
    rw [Token.writes_blank_iff] at hwrites
    obtain ⟨_, hwrites, hresultAgain⟩ := hresult.rewritten hbehindArguments hwrites
    obtain ⟨semicolon, _, rfl, hsemicolon, _, hwrites⟩ := Token.writes_cons_iff.mp hwrites
    obtain rfl := Token.writes_nil_iff.mp hwrites
    refine ⟨t, behind, rfl, ?_⟩
    rw [← htext]
    exact .statement hkind htagAgain hgenericsAgain hargumentsAgain hequals hresultAgain hsemicolon

/-- A declaration that was read is read again from its own text, but for marks that the text does
not show. -/
theorem parse_text {source : String} {ds : List Declaration} (h : parse source = .ok ds)
    {d : Declaration} (hd : d ∈ ds) :
    parse d.text = .ok [{ d.asRead with isFunction := false, position := Position.first }] := by
  have hshape := (Token.shaped_tokenize source).mono (List.takeWhile_subset (·.kind != .finish))
  obtain ⟨inFunctions, own, rest, hown, hspelled⟩ := (parse_eq_ok_iff.mp h).exists_spelled hd
  have hrecovers := hspelled.recovers (hshape.mono hown)
  have hwrites := Token.writes_of_recovers d.textOf_pieces.symm hrecovers
  obtain ⟨name, behind, hname, hagain⟩ := hspelled.rewritten (hshape.mono hown) hwrites
  have hpieces : Piece.ofText false d.text.toList = d.pieces := by
    rw [← d.textOf_pieces, hrecovers]
  rw [Token.position_of_head hpieces hname] at hagain
  exact parse_eq_ok_iff.mpr (.statement hagain .nil)

/-- Whether two declarations differ at most in where they stand and in being functions. -/
structure SameAs (d other : Declaration) : Prop where
  name : d.name = other.name
  tag : d.tag = other.tag
  generics : d.generics = other.generics
  arguments : d.arguments = other.arguments
  result : d.result = other.result

/-- The text of a declaration that was read is one declaration, and it is the same one exactly if
the text shows every mark of its types. -/
theorem parse_text_same_iff {source : String} {ds : List Declaration} (h : parse source = .ok ds)
    {d : Declaration} (hd : d ∈ ds) :
    ∃ again, parse d.text = .ok [again] ∧ (again.SameAs d ↔ d.MarksShown) := by
  refine ⟨_, parse_text h hd, ?_⟩
  rw [← d.asRead_eq_self_iff]
  constructor
  · intro hsame
    have harguments : d.arguments.map Argument.asRead = d.arguments := hsame.arguments
    have hresult : d.result.asRead = d.result := hsame.result
    unfold asRead
    rw [harguments, hresult]
  · intro hread
    have harguments : d.arguments.map Argument.asRead = d.arguments :=
      congrArg Declaration.arguments hread
    have hresult : d.result.asRead = d.result := congrArg Declaration.result hread
    exact ⟨rfl, rfl, rfl, harguments, hresult⟩

/-- The mark before the type of an argument is shown, and the declaration is read back. -/
theorem parse_text_shown_mark : ∃ ds, ∃ d ∈ ds,
    parse "a#1f \x7bX:Type\x7d f:# x:f.3?%Foo y:!X = Vector<int>;" = .ok ds ∧
      d.text = "a#0000001f \x7bX:Type\x7d f:# x:f.3?%Foo y:!X = Vector<int>;" ∧
      ∃ again, parse d.text = .ok [again] ∧ again.SameAs d := by
  let d : Declaration :=
    { name := ⟨none, "a"⟩
      tag := some 0x1f
      generics := [⟨"X", "Type"⟩]
      arguments :=
        [⟨"f", .mask, none⟩, ⟨"x", .name ⟨⟨none, "Foo"⟩, true, false⟩, some ⟨"f", 3⟩⟩,
          ⟨"y", .invocation "X", none⟩]
      result := .applied ⟨⟨none, "Vector"⟩, false, false⟩ (.ofText "int")
      isFunction := false
      position := ⟨0, 1, 1⟩ }
  have hparse : parse "a#1f \x7bX:Type\x7d f:# x:f.3?%Foo y:!X = Vector<int>;" = .ok [d] :=
    Wire.ok_of_toOption (by decide +kernel)
  have hd : d ∈ [d] := List.mem_singleton.mpr rfl
  obtain ⟨again, hagain, hsame⟩ := parse_text_same_iff hparse hd
  exact ⟨[d], d, hd, hparse, by decide +kernel, again, hagain, hsame.mpr (by decide +kernel)⟩

/-- The mark of an element type is not shown, and the declaration is not read back. -/
theorem parse_text_lost_mark : ∃ ds, ∃ d ∈ ds, parse "a x:Vector<%Foo> = A;" = .ok ds ∧
    d.text = "a x:Vector<Foo> = A;" ∧ ¬ ∃ again, parse d.text = .ok [again] ∧ again.SameAs d := by
  let d : Declaration :=
    { name := ⟨none, "a"⟩
      tag := none
      generics := []
      arguments :=
        [⟨"x", .applied ⟨⟨none, "Vector"⟩, false, false⟩ (.name ⟨⟨none, "Foo"⟩, true, false⟩),
          none⟩]
      result := .ofText "A"
      isFunction := false
      position := ⟨0, 1, 1⟩ }
  have hparse : parse "a x:Vector<%Foo> = A;" = .ok [d] := Wire.ok_of_toOption (by decide +kernel)
  have hd : d ∈ [d] := List.mem_singleton.mpr rfl
  refine ⟨[d], d, hd, hparse, by decide +kernel, ?_⟩
  rintro ⟨again, hagain, hsame⟩
  rw [parse_text hparse hd] at hagain
  cases hagain
  exact absurd hsame.arguments (by decide +kernel)

end Declaration

end TypeLang
