import TypeLang.Proofs.Declaration.Shifting

/-!
The declarations of two texts one behind the other. What some tokens spell they spell in front of
any tokens (`Declaration.Spelled.append`), and no stray character is part of a spelling
(`Declaration.SpelledAll.notMem_punct`). So a reader that has read one text goes on with the tokens
of the other in the section that it has come to (`Declaration.Reader.all_append`); and since the
tokens of the second text are its own ones, only moved, the declarations of both texts are those of
the first followed by those of the second (`Declaration.parse_append`).
-/

set_option autoImplicit false
set_option relaxedAutoImplicit false

namespace TypeLang

/-! ### Spellings in front of more tokens -/

section

variable {generics : List GenericParameter} {previous found : List Argument}
  {tokens rest : List Token}

theorem TypeTerm.Spelled.append {type : TypeTerm} (h : Spelled generics tokens type rest)
    (more : List Token) : Spelled generics (tokens ++ more) type (rest ++ more) := by
  induction h with
  | mask hhash => exact .mask hhash
  | invocation hbang hname hparameter => exact .invocation hbang hname hparameter
  | bare hpercent _ ih => exact .bare hpercent ih
  | name hname hvector => exact .name hname hvector
  | applied hname hleft _ hright ih => exact .applied hname hleft ih hright

theorem Argument.Spelled.append {a : Argument} (h : Spelled generics previous tokens a rest)
    (more : List Token) : Spelled generics previous (tokens ++ more) a (rest ++ more) := by
  cases h with
  | plain hname hplain hfresh hcolon htype =>
    exact .plain hname hplain hfresh hcolon (htype.append more)
  | conditional hname hplain hfresh hcolon hmask hquestion hcondition htype hunmasked =>
    exact .conditional hname hplain hfresh hcolon hmask hquestion hcondition (htype.append more)
      hunmasked

theorem Argument.SpelledAll.append (h : SpelledAll generics previous tokens found rest)
    (more : List Token) : SpelledAll generics previous (tokens ++ more) found (rest ++ more) := by
  induction h with
  | nil => exact .nil
  | cons hfirst _ ih => exact .cons (hfirst.append more) ih

theorem GenericParameter.SpelledAll.append {parameters : List GenericParameter}
    (h : SpelledAll tokens parameters rest) (more : List Token) :
    SpelledAll (tokens ++ more) parameters (rest ++ more) := by
  induction h with
  | nil => exact .nil
  | cons hleft hname hcolon hconstraint hright _ ih =>
    exact .cons hleft hname hcolon hconstraint hright ih

theorem Declaration.TagSpelled.append {tag : Option UInt32} (h : TagSpelled tokens tag rest)
    (more : List Token) : TagSpelled (tokens ++ more) tag (rest ++ more) := by
  cases h with
  | absent => exact .absent
  | present hhash hdigits hlength hvalue => exact .present hhash hdigits hlength hvalue

/-- What is spelled in front of some tokens is spelled in front of more. -/
theorem Declaration.Spelled.append {isFunction : Bool} {d : Declaration}
    (h : Spelled isFunction tokens d rest) (more : List Token) :
    Spelled isFunction (tokens ++ more) d (rest ++ more) := by
  cases h with
  | statement hname htag hgenerics harguments hequals hresult hsemicolon =>
    exact .statement hname (htag.append more) (hgenerics.append more) (harguments.append more)
      hequals (hresult.append more) hsemicolon

end

/-! ### Stray characters -/

/-- Stray characters among some tokens are among those left of them. -/
def Token.StraysIn (tokens rest : List Token) : Prop := ∀ t ∈ tokens, t.kind = .punct → t ∈ rest

namespace Token.StraysIn

variable {tokens between rest : List Token}

theorem refl (tokens : List Token) : StraysIn tokens tokens := fun _ ht _ ↦ ht

theorem trans (h : StraysIn tokens between) (hrest : StraysIn between rest) :
    StraysIn tokens rest :=
  fun t ht hpunct ↦ hrest t (h t ht hpunct) hpunct

theorem cons {t : Token} {kind : Token.Kind} (hkind : t.kind = kind) (hne : kind ≠ .punct)
    (h : StraysIn tokens rest) : StraysIn (t :: tokens) rest := by
  intro other hother hpunct
  rcases List.mem_cons.mp hother with rfl | hother
  · exact absurd (hkind.symm.trans hpunct) hne
  · exact h other hother hpunct

/-- The first of the tokens that are left is no stray character. -/
theorem tail {t : Token} {kind : Token.Kind} (hkind : t.kind = kind) (hne : kind ≠ .punct)
    (h : StraysIn tokens (t :: rest)) : StraysIn tokens rest :=
  h.trans ((refl rest).cons hkind hne)

end Token.StraysIn

section

variable {generics : List GenericParameter} {previous found : List Argument}
  {tokens rest : List Token}

open Token

theorem TypeTerm.Spelled.straysIn {type : TypeTerm} (h : Spelled generics tokens type rest) :
    StraysIn tokens rest := by
  induction h with
  | mask hhash => exact (StraysIn.refl _).cons hhash (by decide)
  | invocation hbang hname _ =>
    exact ((StraysIn.refl _).cons hname (by decide)).cons hbang (by decide)
  | bare hpercent _ ih => exact ih.cons hpercent (by decide)
  | name hname _ => exact (StraysIn.refl _).cons hname (by decide)
  | applied hname hleft _ hright ih =>
    exact ((ih.tail hright (by decide)).cons hleft (by decide)).cons hname (by decide)

theorem Argument.Spelled.straysIn {a : Argument} (h : Spelled generics previous tokens a rest) :
    StraysIn tokens rest := by
  cases h with
  | plain hname _ _ hcolon htype =>
    exact (htype.straysIn.cons hcolon (by decide)).cons hname (by decide)
  | conditional hname _ _ hcolon hmask hquestion _ htype _ =>
    exact (((htype.straysIn.cons hquestion (by decide)).cons hmask (by decide)).cons hcolon
      (by decide)).cons hname (by decide)

theorem Argument.SpelledAll.straysIn (h : SpelledAll generics previous tokens found rest) :
    StraysIn tokens rest := by
  induction h with
  | nil => exact StraysIn.refl _
  | cons hfirst _ ih => exact hfirst.straysIn.trans ih

theorem GenericParameter.SpelledAll.straysIn {parameters : List GenericParameter}
    (h : SpelledAll tokens parameters rest) : StraysIn tokens rest := by
  induction h with
  | nil => exact StraysIn.refl _
  | cons hleft hname hcolon hconstraint hright _ ih =>
    exact ((((ih.cons hright (by decide)).cons hconstraint (by decide)).cons hcolon
      (by decide)).cons hname (by decide)).cons hleft (by decide)

theorem Declaration.TagSpelled.straysIn {tag : Option UInt32} (h : TagSpelled tokens tag rest) :
    StraysIn tokens rest := by
  cases h with
  | absent => exact StraysIn.refl _
  | present hhash hdigits _ _ =>
    exact ((StraysIn.refl _).cons hdigits (by decide)).cons hhash (by decide)

theorem Declaration.Spelled.straysIn {isFunction : Bool} {d : Declaration}
    (h : Spelled isFunction tokens d rest) : StraysIn tokens rest := by
  cases h with
  | statement hname htag hgenerics harguments hequals hresult hsemicolon =>
    have hbehindEquals := hresult.straysIn.tail hsemicolon (by decide)
    have hbehindGenerics := (harguments.straysIn.tail hequals (by decide)).trans hbehindEquals
    exact ((htag.straysIn.trans hgenerics.straysIn).trans hbehindGenerics).cons hname (by decide)

/-- A text that is spelled has no stray characters. -/
theorem Declaration.SpelledAll.straysIn {isFunction : Bool} {ds : List Declaration}
    (h : SpelledAll isFunction tokens ds) : StraysIn tokens [] := by
  induction h with
  | nil => exact StraysIn.refl _
  | functions hmarker _ _ ih | types hmarker _ _ ih => exact ih.cons hmarker (by decide)
  | semicolon hsemicolon _ ih => exact ih.cons hsemicolon (by decide)
  | statement hfirst _ ih => exact hfirst.straysIn.trans ih

end

/-! ### Reading on -/

namespace Declaration.Reader

/-- The reader behind the last declaration, or behind the first fault. -/
def last (r : Reader) : Reader :=
  match _h : r.next.1 with
  | .ok (some _) => last r.next.2
  | _ => r.next.2
termination_by r.cursor.ahead.length
decreasing_by exact next_length_lt _h

theorem last_eq (r : Reader) : r.last =
    match r.next.1 with
    | .ok (some _) => r.next.2.last
    | _ => r.next.2 := by
  fun_cases last r with
  | case1 d hnext => rw [hnext]
  | case2 hnext =>
    split
    · rename_i d hd
      exact absurd hd (hnext d)
    · rfl

theorem last_congr {stop : Token} {inFunctions others : Bool} {tokens behind : List Token}
    (h : opening inFunctions tokens = opening others behind) :
    (⟨⟨tokens, stop⟩, inFunctions⟩ : Reader).last = last ⟨⟨behind, stop⟩, others⟩ := by
  rw [last_eq, last_eq ⟨⟨behind, stop⟩, others⟩, next_congr h]

/-- A reader that has read the tokens of a schema goes on with the tokens behind them, in the
section that it has come to. -/
theorem all_append {inFunctions : Bool} {tokens : List Token} {ds : List Declaration}
    (h : SpelledAll inFunctions tokens ds) (more : List Token) (stop other : Token) :
    (⟨⟨tokens ++ more, stop⟩, inFunctions⟩ : Reader).all =
      (⟨⟨more, stop⟩, (⟨⟨tokens, other⟩, inFunctions⟩ : Reader).last.inFunctions⟩ : Reader).all.map
        (ds ++ ·) := by
  induction h with
  | @nil isFunction =>
    have hlast : (⟨⟨[], other⟩, isFunction⟩ : Reader).last = ⟨⟨[], other⟩, isFunction⟩ := by
      rw [last_eq]
      rfl
    rw [hlast, List.nil_append]
    cases (⟨⟨more, stop⟩, isFunction⟩ : Reader).all <;> rfl
  | functions hmarker htext _ ih =>
    rw [last_congr (opening_functions hmarker htext _), ← ih]
    exact all_congr (opening_functions hmarker htext _)
  | types hmarker htext _ ih =>
    rw [last_congr (opening_types hmarker htext _), ← ih]
    exact all_congr (opening_types hmarker htext _)
  | semicolon hsemicolon _ ih =>
    rw [last_congr (opening_semicolon hsemicolon _), ← ih]
    exact all_congr (opening_semicolon hsemicolon _)
  | statement hfirst _ ih =>
    rw [all_eq, next_of_spelled (hfirst.append more), last_eq, next_of_spelled hfirst]
    dsimp only
    rw [ih]
    cases (⟨⟨more, stop⟩, _⟩ : Reader).all <;> rfl

/-- A reader before the first token of a text, in the section where the text before it ends. -/
def behindText (before text : String) : Reader :=
  ⟨Cursor.ofText text, (ofCursor (Cursor.ofText before)).last.inFunctions⟩

end Declaration.Reader

/-- Behind a schema that ends a line a text is read as it is by itself in the section where the
schema ends, but for its places. -/
theorem Declaration.parse_append_eq {a : String} {ds : List Declaration} (hends : EndsLine a.toList)
    (h : parse a = .ok ds) (b : String) :
    parse (a ++ b) =
      (shiftOutcome (.behind a) (List.map (Declaration.shift (.behind a)))
        (Reader.behindText a b).all).map (ds ++ ·) := by
  have hspelled : SpelledAll false (Cursor.ofText a).ahead ds := parse_eq_ok_iff.mp h
  have hstray : ∀ t ∈ (Cursor.ofText a).ahead, t.kind ≠ .punct := fun t ht hpunct ↦
    absurd (hspelled.straysIn t ht hpunct) List.not_mem_nil
  unfold parse
  rw [Cursor.ofText_append hends hstray, ← Reader.all_shift]
  exact Reader.all_append hspelled _ _ _

/-- A text that ends a line and is a schema may stand before any other text. The declarations of
both are its own, followed by those that a reader finds in the other text if it starts in the
section where the first text ends, moved by the bytes and the lines of the first text. If there is a
fault in the other text, the same is said about it, for the same column of a line that is as much
further down. -/
theorem Declaration.parse_append {a : String} {ds : List Declaration}
    (hends : a = "" ∨ ∃ front, a = front ++ "\n") (h : parse a = .ok ds) (b : String) :
    match (Reader.behindText a b).all with
    | .ok more =>
      parse (a ++ b) = .ok (ds ++ more.map fun d ↦ { d with
        position := ⟨d.position.offset + a.utf8ByteSize,
          d.position.line + a.toList.count '\n', d.position.column⟩ })
    | .error e => ∃ line column fault moved, e = .badSyntax line column fault ∧
      parse (a ++ b) = .error (.badSyntax (line + a.toList.count '\n') column moved) ∧
      moved.message = fault.message := by
  have hends : EndsLine a.toList := by
    intro c hc
    rcases hends with rfl | ⟨front, rfl⟩
    · cases hc
    · rw [String.toList_append, List.getLast?_append] at hc
      exact (Option.some.inj hc).symm
  rw [parse_append_eq hends h]
  cases hall : (Reader.behindText a b).all with
  | ok more => rfl
  | error e =>
    obtain ⟨t, -, fault, rfl⟩ := Reader.all_fault hall
    exact ⟨_, _, fault, fault.shift (.behind a), rfl, rfl, fault.message_shift _⟩

/-- A function is read behind a text that ends among functions, two lines down. -/
theorem Declaration.parse_append_function :
    parse ("a = A;\n---functions---\n" ++ "f = A;") =
      .ok [⟨⟨none, "a"⟩, none, [], [], .ofText "A", false, ⟨0, 1, 1⟩⟩,
        ⟨⟨none, "f"⟩, none, [], [], .ofText "A", true, ⟨23, 3, 1⟩⟩] := by
  have hfirst : parse "a = A;\n---functions---\n" =
      .ok [⟨⟨none, "a"⟩, none, [], [], .ofText "A", false, ⟨0, 1, 1⟩⟩] :=
    Wire.ok_of_toOption (by decide +kernel)
  have hsecond : (Reader.behindText "a = A;\n---functions---\n" "f = A;").all =
      .ok [⟨⟨none, "f"⟩, none, [], [], .ofText "A", true, ⟨0, 1, 1⟩⟩] :=
    Wire.ok_of_toOption (by decide +kernel)
  have hboth := parse_append (.inr ⟨"a = A;\n---functions---", by decide +kernel⟩) hfirst "f = A;"
  rw [hsecond] at hboth
  exact hboth.trans (congrArg Except.ok (by decide +kernel))

end TypeLang
