import TypeLang.Proofs.Token.Lossless

/-!
The tokens of two texts one behind the other. If the first text ends in a line feed and has no stray
character in it, no lexeme and no comment reaches from one text into the other
(`Piece.next_append_right`): runs of letters and digits end at the line feed, and comments and
markers that are not complete would leave a stray slash or dash. So the tokens of the second text
stand behind those of the first one, moved by its bytes and its lines (`Cursor.ofText_append`).
-/

set_option autoImplicit false
set_option relaxedAutoImplicit false

namespace TypeLang

/-! ### Pieces of a text with another behind it -/

/-- Whether a text is empty or ends in a line feed. -/
def EndsLine (text : List Char) : Prop := ∀ c ∈ text.getLast?, c = '\n'

theorem EndsLine.of_append (front : List Char) {back : List Char} (h : EndsLine (front ++ back)) :
    EndsLine back := by
  intro c hc
  refine h c ?_
  rw [List.getLast?_append, hc]
  rfl

theorem EndsLine.mem_tail {c : Char} {rest : List Char} (h : EndsLine (c :: rest)) (hc : c ≠ '\n') :
    '\n' ∈ rest := by
  cases hlast : rest.getLast? with
  | none =>
    obtain rfl := List.getLast?_eq_none_iff.mp hlast
    exact absurd (h c rfl) hc
  | some d =>
    obtain rfl : d = '\n' := h.of_append [c] d hlast
    exact List.mem_of_getLast? hlast

theorem takeWhile_dropWhile_append {p : Char → Bool} {front : List Char}
    (hfront : ∃ c ∈ front, p c = false) (more : List Char) :
    (front ++ more).takeWhile p = front.takeWhile p ∧
      (front ++ more).dropWhile p = front.dropWhile p ++ more := by
  induction front with
  | nil =>
    obtain ⟨c, hc, -⟩ := hfront
    cases hc
  | cons first rest ih =>
    by_cases hfirst : p first = true
    · have hrest : ∃ c ∈ rest, p c = false := by
        obtain ⟨c, hc, hstop⟩ := hfront
        rcases List.mem_cons.mp hc with rfl | hc
        · rw [hfirst] at hstop
          cases hstop
        · exact ⟨c, hc, hstop⟩
      obtain ⟨htake, hdrop⟩ := ih hrest
      rw [List.cons_append, List.takeWhile_cons_of_pos hfirst, List.takeWhile_cons_of_pos hfirst,
        List.dropWhile_cons_of_pos hfirst, List.dropWhile_cons_of_pos hfirst, htake, hdrop]
      exact ⟨rfl, rfl⟩
    · rw [List.cons_append, List.takeWhile_cons_of_neg hfirst, List.takeWhile_cons_of_neg hfirst,
        List.dropWhile_cons_of_neg hfirst, List.dropWhile_cons_of_neg hfirst]
      exact ⟨rfl, rfl⟩

namespace Piece

theorem run_append_right {kind : Token.Kind} {p : Char → Bool} {c : Char} {rest : List Char}
    (hbreak : '\n' ∈ rest) (hp : p '\n' = false) (more : List Char) :
    run kind p c (rest ++ more) = ((run kind p c rest).1, (run kind p c rest).2 ++ more) := by
  obtain ⟨htake, hdrop⟩ := takeWhile_dropWhile_append ⟨'\n', hbreak, hp⟩ more
  unfold run
  rw [htake, hdrop]

theorem closeComment?_append_right {text body behind : List Char}
    (h : closeComment? text = some (body, behind)) (more : List Char) :
    closeComment? (text ++ more) = some (body, behind ++ more) := by
  fun_induction closeComment? text generalizing body behind with
  | case1 rest =>
    cases h
    rfl
  | case2 c rest hopen ih =>
    obtain ⟨⟨inner, tail⟩, hinner, heq⟩ := Option.map_eq_some_iff.mp h
    cases heq
    have hopen' : ∀ other, c = '*' → rest ++ more = '/' :: other → False := by
      rintro other rfl hother
      cases rest with
      | nil => cases hinner
      | cons d rest =>
        obtain ⟨rfl, -⟩ := List.cons.inj hother
        exact hopen rest rfl rfl
    rw [List.cons_append, closeComment?.eq_2 _ _ hopen', ih hinner]
    rfl
  | case3 => cases h

theorem comment?_append_right {text comment behind : List Char} (hends : EndsLine text)
    (h : comment? text = some (comment, behind)) (more : List Char) :
    comment? (text ++ more) = some (comment, behind ++ more) := by
  unfold comment? at h
  split at h
  · rename_i rest
    cases h
    have hbreak := (hends.of_append ['/']).mem_tail (by decide)
    obtain ⟨htake, hdrop⟩ :=
      takeWhile_dropWhile_append (p := (!endsLine ·)) ⟨'\n', hbreak, by decide⟩ more
    simp only [List.cons_append, comment?, htake, hdrop]
  · obtain ⟨⟨inner, tail⟩, hinner, heq⟩ := Option.map_eq_some_iff.mp h
    cases heq
    simp only [List.cons_append, comment?, closeComment?_append_right hinner more]
    rfl
  · cases h

theorem marker?_append_right {text marker behind : List Char}
    (h : marker? text = some (marker, behind)) (more : List Char) :
    marker? (text ++ more) = some (marker, behind ++ more) := by
  unfold marker? at h
  split at h
  · rename_i rest
    split at h
    · rename_i hdrop
      split at h
      · cases h
      · rename_i hword
        cases h
        have hdash : '-' ∈ rest := by
          refine (List.dropWhile_suffix Char.isAlpha).mem ?_
          rw [hdrop]
          exact List.mem_cons_self
        obtain ⟨htake', hdrop'⟩ :=
          takeWhile_dropWhile_append (p := Char.isAlpha) ⟨'-', hdash, by decide⟩ more
        simp only [List.cons_append, marker?, htake', hdrop', hdrop, if_neg hword]
    · cases h
  · cases h

/-- What starts neither a comment nor a marker is a hash sign, a name, a number or a sign. -/
theorem next_of_ne {afterHash : Bool} {c : Char}
    (hdigit : ¬ (afterHash && Text.Hex.isDigit c) = true) (hspace : ¬ isSpace c = true)
    (hslash : c ≠ '/') (hdash : c ≠ '-') (rest : List Char) :
    next afterHash c rest =
      if c = '#' then (⟨some .hash, [c]⟩, rest)
      else if startsName c then run .ident continuesName c rest
      else if c.isDigit then run .number Char.isDigit c rest
      else (⟨some (signKind c), [c]⟩, rest) := by
  rw [next, if_neg hdigit, if_neg hspace, comment?_of_ne rest hslash]
  dsimp only
  rw [marker?_of_ne rest hdash]

/-- A piece that is no stray character is taken from a text that ends a line just as if another
text stood behind it. -/
theorem next_append_right {afterHash : Bool} {c : Char} {rest : List Char}
    (hends : EndsLine (c :: rest)) (more : List Char) :
    (next afterHash c rest).1.kind? ≠ some .punct →
      next afterHash c (rest ++ more) =
        ((next afterHash c rest).1, (next afterHash c rest).2 ++ more) := by
  have hne {p : Char → Bool} (hc : p c = true) {d : Char} (hd : p d = false) : c ≠ d := by
    rintro rfl
    rw [hd] at hc
    cases hc
  fun_cases next afterHash c rest
  case case1 hdigit =>
    intro _
    have hhex := (Bool.and_eq_true_iff.mp hdigit).2
    have hbreak := hends.mem_tail (hne hhex (by decide))
    rw [next, if_pos hdigit, run_append_right hbreak (by decide)]
  case case2 hdigit hspace =>
    intro _
    rw [next, if_neg hdigit, if_pos hspace]
  case case3 hdigit hspace text behind hcomment =>
    intro _
    rw [next, if_neg hdigit, if_neg hspace, ← List.cons_append,
      comment?_append_right hends hcomment]
  case case4 hdigit hspace hcomment text behind hmarker =>
    intro _
    have hslash : c ≠ '/' := by
      rintro rfl
      cases hmarker
    rw [next, if_neg hdigit, if_neg hspace, comment?_of_ne _ hslash]
    dsimp only
    rw [← List.cons_append, marker?_append_right hmarker]
  case case5 hdigit hspace _ _ hhash =>
    intro _
    subst hhash
    rw [next_of_ne hdigit hspace (by decide) (by decide), if_pos rfl]
  case case6 hdigit hspace _ _ hhash hname =>
    intro _
    have hbreak := hends.mem_tail (hne hname (by decide))
    rw [next_of_ne hdigit hspace (hne hname (by decide)) (hne hname (by decide)), if_neg hhash,
      if_pos hname, run_append_right hbreak (by decide)]
  case case7 hdigit hspace _ _ hhash hname hdecimal =>
    intro _
    have hbreak := hends.mem_tail (hne hdecimal (by decide))
    rw [next_of_ne hdigit hspace (hne hdecimal (by decide)) (hne hdecimal (by decide)),
      if_neg hhash, if_neg hname, if_pos hdecimal, run_append_right hbreak (by decide)]
  case case8 hdigit hspace _ _ hhash hname hdecimal =>
    -- A slash or a dash that is left over would be a stray character.
    intro hkind
    have hsign {d : Char} (hd : signKind d = .punct) : c ≠ d := by
      rintro rfl
      exact hkind (congrArg some hd)
    rw [next_of_ne hdigit hspace (hsign rfl) (hsign rfl), if_neg hhash, if_neg hname,
      if_neg hdecimal]

theorem next_chars_of_hash {afterHash : Bool} {c : Char} {rest : List Char} :
    (next afterHash c rest).1.kind? = some .hash → (next afterHash c rest).1.chars = ['#'] := by
  have hsign : signKind c ≠ .hash := by
    unfold signKind
    split <;> decide
  fun_cases next afterHash c rest
  case case5 _ _ _ _ hhash =>
    intro _
    rw [hhash]
  case case8 => exact fun h ↦ absurd (Option.some.inj h) hsign
  all_goals
    intro h
    cases h

/-- The pieces of a text without stray characters that ends a line are followed by the pieces of the
text behind it. -/
theorem ofText_append {afterHash : Bool} {text : List Char} (hends : EndsLine text)
    (hafter : text = [] → afterHash = false)
    (hstray : ∀ piece ∈ ofText afterHash text, piece.kind? ≠ some .punct) (more : List Char) :
    ofText afterHash (text ++ more) = ofText afterHash text ++ ofText false more := by
  fun_induction ofText afterHash text with
  | case1 =>
    rw [hafter rfl]
    rfl
  | case2 afterHash c rest step ih =>
    obtain ⟨hfirst, hrest⟩ := List.forall_mem_cons.mp hstray
    have hnext : next afterHash c (rest ++ more) = (step.1, step.2 ++ more) :=
      next_append_right hends more hfirst
    have hsplit : step.1.chars ++ step.2 = c :: rest := next_append afterHash c rest
    rw [← hsplit] at hends
    have hend : step.2 = [] → (step.1.kind? == some .hash) = false := by
      intro hnil
      rw [Bool.eq_false_iff]
      intro hhash
      have hchars : step.1.chars = ['#'] := next_chars_of_hash (beq_iff_eq.mp hhash)
      rw [hchars, hnil] at hends
      exact absurd (hends '#' rfl) (by decide)
    rw [List.cons_append, ofText, hnext]
    dsimp only
    rw [ih (hends.of_append _) hend hrest]
    rfl

/-- The pieces of a text are the whole text. -/
theorem textOf_ofText (afterHash : Bool) (text : List Char) :
    textOf (ofText afterHash text) = text := by
  fun_induction ofText afterHash text with
  | case1 => rfl
  | case2 afterHash c rest step ih =>
    rw [textOf_cons, ih]
    exact next_append afterHash c rest

end Piece

/-! ### Places that are moved -/

/-- How far what stands in a text is moved by another text before it: by bytes and by lines. -/
structure Shift where
  bytes : Nat
  lines : Nat

/-- How far a text moves what stands behind it. -/
def Shift.behind (text : String) : Shift := ⟨text.utf8ByteSize, text.toList.count '\n'⟩

/-- A place that is moved. Its column stays. -/
def Position.shift (k : Shift) (p : Position) : Position :=
  ⟨p.offset + k.bytes, p.line + k.lines, p.column⟩

/-- A token that is moved. -/
def Token.shift (k : Shift) (t : Token) : Token := { t with position := t.position.shift k }

@[simp] theorem Token.shift_kind (k : Shift) (t : Token) : (t.shift k).kind = t.kind := rfl

@[simp] theorem Token.shift_text (k : Shift) (t : Token) : (t.shift k).text = t.text := rfl

@[simp] theorem Token.shift_position (k : Shift) (t : Token) :
    (t.shift k).position = t.position.shift k := rfl

namespace Position

variable (k : Shift)

theorem advance_append (p : Position) (chars more : List Char) :
    p.advance (chars ++ more) = (p.advance chars).advance more :=
  List.foldl_append

theorem shift_after (p : Position) (c : Char) : (p.shift k).after c = (p.after c).shift k := by
  unfold after
  split
  · simp [shift, Nat.add_right_comm]
  · simp [shift, Nat.add_right_comm]

theorem shift_advance (p : Position) (chars : List Char) :
    (p.shift k).advance chars = (p.advance chars).shift k := by
  induction chars generalizing p with
  | nil => rfl
  | cons c rest ih =>
    show ((p.shift k).after c).advance rest = ((p.after c).advance rest).shift k
    rw [shift_after, ih]

/-- The place behind a text that ends a line is the first one, moved by that text. -/
theorem behind_eq_shift {text : String} (hends : EndsLine text.toList) :
    behind text.toList = first.shift (.behind text) := by
  have hcolumn : text.toList.reverse.takeWhile (· != '\n') = [] := by
    cases hreverse : text.toList.reverse with
    | nil => rfl
    | cons c rest =>
      have hc := hends c (by rw [List.getLast?_eq_head?_reverse, hreverse]; rfl)
      rw [hc]
      rfl
  unfold behind
  rw [hcolumn, String.ofList_toList]
  simp [shift, first, Shift.behind]

theorem behind_append {a : String} (hends : EndsLine a.toList) (b : List Char) :
    behind (a.toList ++ b) = (behind b).shift (.behind a) :=
  calc behind (a.toList ++ b)
      = (behind a.toList).advance b := (advance_behind a.toList b).symm
    _ = (first.shift (.behind a)).advance b := by rw [behind_eq_shift hends]
    _ = (first.advance b).shift (.behind a) := shift_advance _ _ _
    _ = (behind b).shift (.behind a) := by rw [first_advance]

end Position

namespace Token

/-- The tokens among pieces that start at a place, without the one that finishes the stream. -/
def lexemes (p : Position) : List Piece → List Token
  | [] => []
  | piece :: rest =>
    let behind := lexemes (p.advance piece.chars) rest
    match piece.kind? with
    | some kind => ⟨kind, String.ofList piece.chars, p⟩ :: behind
    | none => behind

theorem ofPieces_eq (p : Position) (pieces : List Piece) :
    ofPieces p pieces =
      lexemes p pieces ++ [finishAt (p.advance (Piece.textOf pieces))] := by
  induction pieces generalizing p with
  | nil => rfl
  | cons piece rest ih =>
    rw [ofPieces, lexemes, ih, Piece.textOf_cons, Position.advance_append]
    cases piece.kind? <;> rfl

theorem lexemes_append (p : Position) (pieces more : List Piece) :
    lexemes p (pieces ++ more) =
      lexemes p pieces ++ lexemes (p.advance (Piece.textOf pieces)) more := by
  induction pieces generalizing p with
  | nil => rfl
  | cons piece rest ih =>
    rw [List.cons_append, lexemes, lexemes, ih, Piece.textOf_cons, Position.advance_append]
    cases piece.kind? <;> rfl

theorem lexemes_shift (k : Shift) (p : Position) (pieces : List Piece) :
    lexemes (p.shift k) pieces = (lexemes p pieces).map (shift k) := by
  induction pieces generalizing p with
  | nil => rfl
  | cons piece rest ih =>
    rw [lexemes, lexemes, Position.shift_advance, ih]
    cases piece.kind? <;> rfl

theorem writes_lexemes (p : Position) (pieces : List Piece) :
    Writes (lexemes p pieces) pieces := by
  induction pieces generalizing p with
  | nil => rfl
  | cons piece rest ih =>
    have hrest := ih (p.advance piece.chars)
    obtain ⟨kind?, chars⟩ := piece
    cases kind? with
    | none => exact hrest
    | some kind =>
      exact writes_cons_iff.mpr
        ⟨⟨kind, String.ofList chars, p⟩, _, rfl, rfl, String.toList_ofList, hrest⟩

end Token

namespace Cursor

/-- A cursor before the first token of a text has all tokens ahead but the one that finishes the
stream at the end of the text. -/
theorem ofText_eq (source : String) :
    ofText source = ⟨Token.lexemes Position.first (Piece.ofText false source.toList),
      Token.finishAt (Position.behind source.toList)⟩ := by
  have hwrites := Token.writes_lexemes Position.first (Piece.ofText false source.toList)
  have hkind : ∀ t ∈ Token.lexemes Position.first (Piece.ofText false source.toList),
      t.kind ≠ .finish := by
    intro t ht hfinish
    have hpiece : t.toPiece ∈ Piece.ofText false source.toList :=
      (List.mem_filter.mp (hwrites ▸ List.mem_map_of_mem ht)).1
    exact Piece.kind_ne_finish_of_mem_ofText hpiece (congrArg some hfinish)
  have hahead : ∀ t ∈ Token.lexemes Position.first (Piece.ofText false source.toList),
      (t.kind != .finish) = true := fun t ht ↦ bne_iff_ne.mpr (hkind t ht)
  have hnone : (Token.lexemes Position.first (Piece.ofText false source.toList)).find?
      (·.kind == .finish) = none :=
    List.find?_eq_none.mpr fun t ht ↦ by simpa using hkind t ht
  unfold ofText ofTokens stopOf Token.tokenize
  rw [Token.ofPieces_eq, Piece.textOf_ofText, Position.first_advance,
    List.takeWhile_append_of_pos hahead, List.find?_append, hnone]
  simp [Token.finishAt]

/-- The tokens of a text that stands behind another are its own tokens, moved by that text, if the
text before it ends a line and has no stray characters. -/
theorem ofText_append {a : String} (hends : EndsLine a.toList)
    (hstray : ∀ t ∈ (ofText a).ahead, t.kind ≠ .punct) (b : String) :
    ofText (a ++ b) = ⟨(ofText a).ahead ++ (ofText b).ahead.map (Token.shift (.behind a)),
      (ofText b).stop.shift (.behind a)⟩ := by
  rw [ofText_eq] at hstray
  have hwrites := Token.writes_lexemes Position.first (Piece.ofText false a.toList)
  have hpieces : ∀ piece ∈ Piece.ofText false a.toList, piece.kind? ≠ some .punct := by
    intro piece hpiece hpunct
    have hmem : piece ∈ (Token.lexemes Position.first (Piece.ofText false a.toList)).map
        Token.toPiece := by
      rw [hwrites]
      exact List.mem_filter.mpr ⟨hpiece, by rw [hpunct]; rfl⟩
    obtain ⟨t, ht, rfl⟩ := List.mem_map.mp hmem
    exact hstray t ht (Option.some.inj hpunct)
  rw [ofText_eq, ofText_eq, ofText_eq, String.toList_append,
    Piece.ofText_append hends (fun _ ↦ rfl) hpieces, Token.lexemes_append, Piece.textOf_ofText,
    Position.first_advance, Position.behind_eq_shift hends, Token.lexemes_shift,
    Position.behind_append hends]
  rfl

end Cursor

end TypeLang
