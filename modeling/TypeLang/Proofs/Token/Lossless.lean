import TypeLang.Proofs.Token.Written
import TypeLang.Proofs.Wire.Place

/-!
Nothing of a text is lost in its tokens. `Token.Laid` says how tokens are laid out over a text: each
stands at its own place, and between them is nothing but blanks and comments (`Piece.Skipped`). The
tokens of every text are laid out so (`Token.laid_tokenize`), and what follows from that for their
places, their texts and the gaps between them is `Token.Lossless`.
-/

set_option autoImplicit false
set_option relaxedAutoImplicit false

namespace TypeLang

/-! ### Places -/

namespace Position

/-- The place behind a text that starts in the first line: the bytes of the text, the line feeds in
it, and the characters behind the last of these. -/
def behind (text : List Char) : Position where
  offset := (String.ofList text).utf8ByteSize
  line := 1 + text.count '\n'
  column := 1 + (text.reverse.takeWhile (· != '\n')).length

theorem offset_behind_append (text more : List Char) :
    (behind (text ++ more)).offset = (behind text).offset + (String.ofList more).utf8ByteSize := by
  show (String.ofList (text ++ more)).utf8ByteSize = _
  rw [String.ofList_append, String.utf8ByteSize_append]
  rfl

/-- Counting on from the place behind a text comes to the place behind the longer text. -/
theorem after_behind (text : List Char) (c : Char) :
    (behind text).after c = behind (text ++ [c]) := by
  have hoffset : (behind text).offset + c.utf8Size =
      (String.ofList (text ++ [c])).utf8ByteSize := by
    rw [← String.utf8ByteSize_singleton]
    exact (offset_behind_append text [c]).symm
  unfold after
  by_cases hc : c = '\n'
  · subst hc
    rw [if_pos rfl, hoffset]
    simp [behind, Nat.add_assoc]
  · rw [if_neg hc, hoffset]
    simp [behind, hc, Nat.add_assoc]

theorem advance_behind (text more : List Char) :
    (behind text).advance more = behind (text ++ more) := by
  induction more generalizing text with
  | nil => rw [List.append_nil]; rfl
  | cons c rest ih =>
    show ((behind text).after c).advance rest = _
    rw [after_behind, ih, List.append_assoc]
    rfl

theorem first_advance (text : List Char) : first.advance text = behind text :=
  advance_behind [] text

end Position

/-! ### What stands between tokens -/

namespace Piece

/-- Some characters are skipped in front of others: a blank, a line comment that reaches to a line
break or to the end of the text, or a block comment that ends where it is first closed. -/
inductive IsSkip : List Char → List Char → Prop
  | blank {c : Char} {behind : List Char} (hc : c = ' ' ∨ c = '\t' ∨ c = '\r' ∨ c = '\n') :
      IsSkip [c] behind
  | lineComment {body behind : List Char} (hbody : ∀ c ∈ body, c ≠ '\n' ∧ c ≠ '\r')
      (hbehind : ∀ c ∈ behind.head?, c = '\n' ∨ c = '\r') :
      IsSkip ('/' :: '/' :: body) behind
  | blockComment {body behind : List Char} (hbody : ¬ ['*', '/'] <:+: body) :
      IsSkip ('/' :: '*' :: body ++ ['*', '/']) behind

/-- A gap in front of some characters is a sequence of blanks and comments. -/
inductive Skipped : List Char → List Char → Prop
  | nil (behind : List Char) : Skipped [] behind
  | cons {piece gap behind : List Char} (hpiece : IsSkip piece (gap ++ behind))
      (hgap : Skipped gap behind) : Skipped (piece ++ gap) behind

theorem closeComment?_eq_some {text body behind : List Char}
    (h : closeComment? text = some (body, behind)) :
    ∃ inner, body = inner ++ ['*', '/'] ∧ ¬ ['*', '/'] <:+: inner := by
  fun_induction closeComment? text generalizing body behind with
  | case1 rest =>
    cases h
    exact ⟨[], rfl, by simp⟩
  | case2 c rest hopen ih =>
    obtain ⟨⟨inner, tail⟩, hinner, heq⟩ := Option.map_eq_some_iff.mp h
    cases heq
    obtain ⟨body, rfl, hbody⟩ := ih hinner
    refine ⟨c :: body, rfl, ?_⟩
    rw [List.infix_cons_iff]
    rintro (hstart | hinside)
    · -- The text would start with the end of a comment.
      obtain ⟨more, hmore⟩ := hstart
      obtain ⟨rfl, hbody⟩ := List.cons.inj hmore
      subst hbody
      have hrest := closeComment?_append hinner
      exact hopen _ rfl (by rw [← hrest]; rfl)
    · exact hbody hinside
  | case3 => cases h

theorem comment?_isSkip {text comment behind : List Char}
    (h : comment? text = some (comment, behind)) : IsSkip comment behind := by
  unfold comment? at h
  split at h
  · rename_i rest
    cases h
    refine .lineComment (fun c hc ↦ ?_) (fun c hc ↦ ?_)
    · have hopen := List.all_eq_true.mp List.all_takeWhile c hc
      simpa [endsLine] using hopen
    · have hclosed := List.head?_dropWhile_not (!endsLine ·) rest
      rw [hc] at hclosed
      have hclosed : endsLine c = true := by simpa using hclosed
      simpa [endsLine] using hclosed
  · obtain ⟨⟨inner, tail⟩, hinner, heq⟩ := Option.map_eq_some_iff.mp h
    cases heq
    obtain ⟨body, rfl, hbody⟩ := closeComment?_eq_some hinner
    exact .blockComment hbody
  · cases h

/-- A piece without a kind is skipped in front of the text behind it. -/
theorem next_isSkip (afterHash : Bool) (c : Char) (rest : List Char) :
    (next afterHash c rest).1.kind? = none →
      IsSkip (next afterHash c rest).1.chars (next afterHash c rest).2 := by
  fun_cases next afterHash c rest
  case case2 _ hspace =>
    intro _
    refine .blank ?_
    simpa [isSpace, or_assoc] using hspace
  case case3 _ _ _ _ hcomment => exact fun _ ↦ comment?_isSkip hcomment
  all_goals
    intro h
    cases h

theorem next_kind_ne_invalid (afterHash : Bool) (c : Char) (rest : List Char) :
    (next afterHash c rest).1.kind? ≠ some .invalid := by
  have hsign : signKind c ≠ .invalid := by
    unfold signKind
    split <;> decide
  unfold next
  repeat' split
  all_goals simp [run, hsign]

end Piece

namespace Token

/-! ### How tokens are laid out -/

/-- The offset behind a token. -/
def endOffset (t : Token) : Nat := t.position.offset + t.text.utf8ByteSize

/-- Tokens are laid out over a text that stands behind another. -/
inductive Laid : List Char → List Char → List Token → Prop
  | finish (before : List Char) : Laid before [] [finishAt (Position.behind before)]
  | skip {before piece behind : List Char} {tokens : List Token}
      (hpiece : Piece.IsSkip piece behind) (hrest : Laid (before ++ piece) behind tokens) :
      Laid before (piece ++ behind) tokens
  | token {before behind : List Char} {t : Token} {tokens : List Token}
      (hkind : t.kind ≠ .finish ∧ t.kind ≠ .invalid) (htext : t.text ≠ "")
      (hposition : t.position = Position.behind before)
      (hrest : Laid (before ++ t.text.toList) behind tokens) :
      Laid before (t.text.toList ++ behind) (t :: tokens)

theorem laid_ofPieces (afterHash : Bool) (text before : List Char) :
    Laid before text (ofPieces (Position.behind before) (Piece.ofText afterHash text)) := by
  fun_induction Piece.ofText afterHash text generalizing before with
  | case1 => exact .finish before
  | case2 afterHash c rest step ih =>
    have hsplit : step.1.chars ++ step.2 = c :: rest := Piece.next_append afterHash c rest
    have hrest := ih (before ++ step.1.chars)
    rw [ofPieces, Position.advance_behind, ← hsplit]
    cases hkind : step.1.kind? with
    | none => exact .skip (Piece.next_isSkip _ _ _ hkind) (by rwa [hkind] at hrest)
    | some kind =>
      have hfinish := Piece.next_kind_ne_finish afterHash c rest
      have hinvalid := Piece.next_kind_ne_invalid afterHash c rest
      have hkind' : kind ≠ .finish ∧ kind ≠ .invalid :=
        ⟨fun h ↦ hfinish (hkind.trans (congrArg some h)),
          fun h ↦ hinvalid (hkind.trans (congrArg some h))⟩
      have htext : String.ofList step.1.chars ≠ "" := fun h ↦
        Piece.next_ne_nil afterHash c rest (String.ofList_inj.mp h)
      have hlaid := @Laid.token before step.2
        ⟨kind, String.ofList step.1.chars, Position.behind before⟩ _ hkind' htext rfl
        (by rw [String.toList_ofList]; exact hrest)
      rw [String.toList_ofList, hkind] at hlaid
      exact hlaid

/-- The tokens of a text are laid out over it. -/
theorem laid_tokenize (source : String) : Laid [] source.toList (tokenize source) :=
  laid_ofPieces false source.toList []

/-- A token stands in a text, which is itself behind another, with nothing but blanks and comments
between it and the tokens before it. -/
structure Placed (before text : List Char) (earlier : List Token) (t : Token)
    (covered gap behind : List Char) : Prop where
  text_eq : text = covered ++ gap ++ t.text.toList ++ behind
  covered_eq_nil : earlier = [] → covered = []
  endOffset_eq : ∀ u ∈ earlier.getLast?, u.endOffset = (Position.behind (before ++ covered)).offset
  skipped : Piece.Skipped gap (t.text.toList ++ behind)
  position_eq : t.position = Position.behind (before ++ covered ++ gap)

namespace Laid

variable {before text : List Char} {tokens : List Token}

theorem exists_stop (h : Laid before text tokens) :
    ∃ front, tokens = front ++ [finishAt (Position.behind (before ++ text))] ∧
      ∀ t ∈ front, t.kind ≠ .finish ∧ t.kind ≠ .invalid ∧ t.text ≠ "" := by
  induction h with
  | finish before => exact ⟨[], by simp, nofun⟩
  | skip _ _ ih =>
    obtain ⟨front, htokens, hfront⟩ := ih
    exact ⟨front, by rw [htokens, List.append_assoc], hfront⟩
  | @token before behind t tokens hkind htext _ _ ih =>
    obtain ⟨front, htokens, hfront⟩ := ih
    refine ⟨t :: front, by rw [htokens, List.append_assoc]; rfl, ?_⟩
    exact List.forall_mem_cons.mpr ⟨⟨hkind.1, hkind.2, htext⟩, hfront⟩

/-- Tokens stand behind what is before them. -/
theorem offset_le (h : Laid before text tokens) :
    ∀ t ∈ tokens, (Position.behind before).offset ≤ t.position.offset := by
  induction h with
  | finish before => exact List.forall_mem_singleton.mpr (Nat.le_refl _)
  | skip _ _ ih =>
    intro t ht
    have hbehind := ih t ht
    rw [Position.offset_behind_append] at hbehind
    exact Nat.le_trans (Nat.le_add_right _ _) hbehind
  | token _ _ hposition _ ih =>
    refine List.forall_mem_cons.mpr ⟨Nat.le_of_eq (congrArg _ hposition).symm, fun t ht ↦ ?_⟩
    have hbehind := ih t ht
    rw [Position.offset_behind_append] at hbehind
    exact Nat.le_trans (Nat.le_add_right _ _) hbehind

/-- Tokens stand in the order of their offsets, each behind the end of the one before it. -/
theorem ordered (h : Laid before text tokens) :
    tokens.Pairwise fun t u ↦
      t.position.offset < u.position.offset ∧ t.endOffset ≤ u.position.offset := by
  induction h with
  | finish before => exact List.pairwise_singleton _ _
  | skip _ _ ih => exact ih
  | @token before behind t tokens _ htext hposition hrest ih =>
    refine List.pairwise_cons.mpr ⟨fun u hu ↦ ?_, ih⟩
    have hbehind := hrest.offset_le u hu
    rw [Position.offset_behind_append, String.ofList_toList, ← hposition] at hbehind
    have hsize : t.text.utf8ByteSize ≠ 0 := fun hzero ↦
      htext (String.utf8ByteSize_eq_zero_iff.mp hzero)
    exact ⟨by omega, hbehind⟩

theorem placed (h : Laid before text tokens) :
    ∀ earlier t later, tokens = earlier ++ t :: later →
      ∃ covered gap behind, Placed before text earlier t covered gap behind ∧
        (later = [] → behind = []) := by
  induction h with
  | finish before =>
    intro earlier t later hsplit
    cases earlier with
    | nil =>
      obtain ⟨rfl, rfl⟩ := List.cons.inj hsplit
      refine ⟨[], [], [], ⟨rfl, fun _ ↦ rfl, nofun, .nil _, ?_⟩, fun _ ↦ rfl⟩
      simp [finishAt]
    | cons first rest => simp at hsplit
  | @skip before piece behind tokens hpiece _ ih =>
    intro earlier t later hsplit
    obtain ⟨covered, gap, after, hplaced, hlast⟩ := ih earlier t later hsplit
    obtain ⟨htext, hnil, hend, hskipped, hposition⟩ := hplaced
    cases earlier with
    | nil =>
      obtain rfl := hnil rfl
      rw [List.nil_append, List.append_assoc] at htext
      rw [htext] at hpiece
      refine ⟨[], piece ++ gap, after, ⟨?_, fun _ ↦ rfl, nofun, .cons hpiece hskipped, ?_⟩, hlast⟩
      · simp [htext]
      · simpa using hposition
    | cons first rest =>
      refine ⟨piece ++ covered, gap, after, ⟨?_, nofun, ?_, hskipped, ?_⟩, hlast⟩
      · simp [htext]
      · simpa using hend
      · simpa using hposition
  | @token before behind first tokens _ _ hfirst hrest ih =>
    intro earlier t later hsplit
    cases earlier with
    | nil =>
      obtain ⟨rfl, rfl⟩ := List.cons.inj hsplit
      refine ⟨[], [], behind, ⟨rfl, fun _ ↦ rfl, nofun, .nil _, by simpa using hfirst⟩, ?_⟩
      -- No token finishes the stream but the last, so one always follows.
      obtain ⟨front, htokens, -⟩ := hrest.exists_stop
      rintro rfl
      simp at htokens
    | cons other rest =>
      obtain ⟨rfl, rfl⟩ := List.cons.inj hsplit
      obtain ⟨covered, gap, after, hplaced, hlast⟩ := ih rest t later rfl
      obtain ⟨htext, hnil, hend, hskipped, hposition⟩ := hplaced
      refine ⟨first.text.toList ++ covered, gap, after, ⟨?_, nofun, ?_, hskipped, ?_⟩, hlast⟩
      · simp [htext]
      · intro u hu
        rw [← List.append_assoc]
        cases rest with
        | nil =>
          obtain rfl := Option.some.inj hu
          show first.endOffset = _
          rw [hnil rfl, List.append_nil, Position.offset_behind_append, String.ofList_toList,
            ← hfirst]
          rfl
        | cons second others => exact hend u (by rwa [List.getLast?_cons_cons] at hu)
      · simpa using hposition

end Laid

/-- A token stands in the bytes of a text as its own bytes. -/
theorem Placed.stands {source : String} {earlier : List Token} {t : Token}
    {covered gap behind : List Char} (h : Placed [] source.toList earlier t covered gap behind) :
    Wire.Stands t.text.toUTF8 source.toUTF8 t.position.offset := by
  have hsource : source.toUTF8 =
      (String.ofList (covered ++ gap)).toUTF8 ++ t.text.toUTF8 ++
        (String.ofList behind).toUTF8 := by
    rw [← String.ofList_toList (s := source), h.text_eq, String.ofList_append,
      String.ofList_append, String.ofList_toList]
    simp
  have hself := Wire.Stands.self source.toUTF8
  rw [hsource] at hself
  obtain ⟨hfront, -⟩ := Wire.Stands.append_iff.mp hself
  obtain ⟨-, hstands⟩ := Wire.Stands.append_iff.mp hfront
  rw [← hsource, Nat.zero_add] at hstands
  rw [h.position_eq, List.nil_append]
  exact hstands

/-- The tokens of a text lose nothing of it. There is no invalid token and just one that finishes
the stream, at the end of the text. Every other token has a text, which stands in the bytes of the
source where the token says. Tokens follow one another without overlapping, and in front of each
there is nothing but blanks and comments up to the end of the token before it, or to the start of
the source. The place of each is found by counting bytes, line feeds and characters before it. -/
structure Lossless (source : String) (tokens : List Token) : Prop where
  finishes : ∃ front stop, tokens = front ++ [stop] ∧ stop.kind = .finish ∧ stop.text = "" ∧
    stop.position.offset = source.utf8ByteSize ∧
    ∀ t ∈ front, t.kind ≠ .finish ∧ t.kind ≠ .invalid ∧ t.text ≠ ""
  stands : ∀ t ∈ tokens, Wire.Stands t.text.toUTF8 source.toUTF8 t.position.offset
  ordered : tokens.Pairwise fun t u ↦
    t.position.offset < u.position.offset ∧ t.endOffset ≤ u.position.offset
  placed : ∀ earlier t later, tokens = earlier ++ t :: later →
    ∃ covered gap behind, Placed [] source.toList earlier t covered gap behind ∧
      (later = [] → behind = [])

/-- Tokenizing loses nothing of any text. -/
theorem tokenize_lossless (source : String) : Lossless source (tokenize source) := by
  have hlaid := laid_tokenize source
  refine ⟨?_, ?_, hlaid.ordered, hlaid.placed⟩
  · obtain ⟨front, htokens, hfront⟩ := hlaid.exists_stop
    refine ⟨front, _, htokens, rfl, rfl, ?_, hfront⟩
    show (String.ofList ([] ++ source.toList)).utf8ByteSize = _
    rw [List.nil_append, String.ofList_toList]
  · intro t ht
    obtain ⟨earlier, later, hsplit⟩ := List.append_of_mem ht
    obtain ⟨covered, gap, behind, hplaced, -⟩ := hlaid.placed earlier t later hsplit
    exact hplaced.stands

end Token

end TypeLang
