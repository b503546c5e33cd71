import TypeLang.Proofs.Declaration.Terms

/-!
The reader of declarations accepts exactly the texts of its grammar. Generic parameters, tags and
statements are read as types and arguments are: each step takes what the grammar spells (`…_spells`)
and takes it whenever the tokens behind do not lengthen it (`…_reads`). Over a whole text, markers
and stray semicolons are passed over without changing what is read behind them (`all_congr`).

The result is `Declaration.parse_exact`: a text is read as declarations exactly if they are spelled
by its tokens, and a text without a spelling is at fault at one of its tokens.
-/

set_option autoImplicit false
set_option relaxedAutoImplicit false

namespace TypeLang

namespace Declaration.Reader

variable {stop : Token}

/-! ### Statements -/

theorem parameter_eq_iff {tokens rest : List Token} {p : GenericParameter} :
    parameter stop tokens = (.ok p, rest) ↔ ∃ name colon constraint right,
      tokens = name :: colon :: constraint :: right :: rest ∧ name.kind = .ident ∧
        colon.kind = .colon ∧ constraint.kind = .ident ∧ right.kind = .rightBrace ∧
          p = ⟨name.text, constraint.text⟩ := by
  constructor
  · intro h
    obtain ⟨name, _, hfirst, h⟩ := Step.andThen_eq_iff.mp h
    obtain ⟨colon, _, hsecond, h⟩ := Step.andThen_eq_iff.mp h
    obtain ⟨constraint, _, hthird, h⟩ := Step.andThen_eq_iff.mp h
    obtain ⟨right, hfourth, rfl⟩ := Step.map_eq_iff.mp h
    obtain ⟨rfl, hname⟩ := expect_eq_iff.mp hfirst
    obtain ⟨rfl, hcolon⟩ := expect_eq_iff.mp hsecond
    obtain ⟨rfl, hconstraint⟩ := expect_eq_iff.mp hthird
    obtain ⟨rfl, hright⟩ := expect_eq_iff.mp hfourth
    exact ⟨name, colon, constraint, right, rfl, hname, hcolon, hconstraint, hright, rfl⟩
  · rintro ⟨name, colon, constraint, right, rfl, hname, hcolon, hconstraint, hright, rfl⟩
    refine Step.andThen_eq_iff.mpr ⟨name, _, expect_ok hname, ?_⟩
    refine Step.andThen_eq_iff.mpr ⟨colon, _, expect_ok hcolon, ?_⟩
    refine Step.andThen_eq_iff.mpr ⟨constraint, _, expect_ok hconstraint, ?_⟩
    exact Step.map_eq_iff.mpr ⟨right, expect_ok hright, rfl⟩

theorem parameters_spells {tokens rest : List Token} {found : List GenericParameter}
    (h : parameters stop tokens = (.ok found, rest)) :
    GenericParameter.SpelledAll tokens found rest := by
  fun_induction parameters stop tokens generalizing found with
  | case1 =>
    cases h
    exact .nil
  | case2 left behind hleft step p hok =>
    rename_i ih
    obtain ⟨more, hmore, rfl⟩ := Step.map_eq_iff.mp h
    obtain ⟨name, colon, constraint, right, hbehind, hname, hcolon, hconstraint, hright, hp⟩ :=
      parameter_eq_iff.mp (show parameter stop behind = (.ok p, step.2) from Prod.ext hok rfl)
    rw [hbehind, hp]
    exact .cons hleft hname hcolon hconstraint hright (ih hmore)
  | case3 => cases h
  | case4 t behind =>
    cases h
    exact .nil

theorem parameters_reads {tokens rest : List Token} {found : List GenericParameter}
    (h : GenericParameter.SpelledAll tokens found rest) (hrest : ¬ Token.Leads .leftBrace rest) :
    parameters stop tokens = (.ok found, rest) := by
  induction h with
  | @nil rest =>
    cases rest with
    | nil => rw [parameters]
    | cons t behind =>
      rw [Token.leads_cons] at hrest
      rw [parameters, if_neg hrest]
  | @cons _ name colon constraint right between _ _ hleft hname hcolon hconstraint hright _ ih =>
    have hparameter : parameter stop (name :: colon :: constraint :: right :: between) =
        (.ok ⟨name.text, constraint.text⟩, between) := parameter_eq_iff.mpr
      ⟨name, colon, constraint, right, rfl, hname, hcolon, hconstraint, hright, rfl⟩
    rw [parameters, if_pos hleft, hparameter]
    exact Step.map_eq_iff.mpr ⟨_, ih hrest, rfl⟩

theorem tagOfToken_spells {t : Token} {tag : UInt32} (hshape : t.toPiece.WellShaped)
    (h : tagOfToken t = .ok tag) : t.kind = .number ∧ t.text.toList.length ≤ 8 ∧
      ∃ value, Text.Numeral.Stands 16 t.text.toList value ∧ tag = UInt32.ofNat value := by
  unfold tagOfToken at h
  split at h
  · cases h
  rename_i hkind
  have hkind : t.kind = .number := Decidable.not_not.mp hkind
  have hrun : Text.Hex.IsRun t.text.toList := hshape.number (congrArg some hkind)
  split at h
  · cases h
  rename_i hwidth
  have hsize := Text.Hex.utf8ByteSize_of_isDigit hrun.isDigit
  rw [String.ofList_toList] at hsize
  split at h
  · rename_i value hread
    have hplus : '+' ∉ t.text.toList := fun hmem ↦ absurd (hrun.isDigit '+' hmem) (by decide)
    obtain ⟨hstands, _⟩ := (Text.Numeral.read?_eq_some_iff hplus).mp hread
    cases h
    exact ⟨hkind, by omega, value, hstands, rfl⟩
  · cases h

theorem tagOfToken_reads {t : Token} {value : Nat} (hkind : t.kind = .number)
    (hlength : t.text.toList.length ≤ 8) (hvalue : Text.Numeral.Stands 16 t.text.toList value) :
    tagOfToken t = .ok (UInt32.ofNat value) := by
  have hsize := Text.Hex.utf8ByteSize_of_isDigit hvalue.isDigit
  rw [String.ofList_toList] at hsize
  have hbound : value < UInt32.size :=
    Nat.lt_of_lt_of_le hvalue.lt (Nat.pow_le_pow_right (by decide) hlength)
  have hread : Text.Numeral.read? 16 UInt32.size t.text.toList = some value :=
    (Text.Numeral.read?_eq_some_iff (hvalue.notMem (by decide))).mpr ⟨hvalue, hbound⟩
  unfold tagOfToken
  rw [if_neg (not_not_intro hkind), if_neg (by omega), hread]

theorem tag?_spells {tokens rest : List Token} {tag : Option UInt32}
    (hshape : Token.Shaped tokens) (h : tag? stop tokens = (.ok tag, rest)) :
    TagSpelled tokens tag rest := by
  unfold tag? at h
  split at h
  · cases h
    exact .absent
  rename_i hash behind
  split at h
  · rename_i hhash
    split at h
    · cases h
    rename_i digits behind
    obtain ⟨tag, htag, rfl⟩ := Step.map_eq_iff.mp
      (show Step.map some (tagOfToken digits, behind) = (.ok tag, rest) from h)
    obtain ⟨hread, rfl⟩ := Prod.mk.injEq .. ▸ htag
    obtain ⟨hkind, hlength, value, hvalue, rfl⟩ := tagOfToken_spells
      (hshape digits (List.mem_cons_of_mem _ List.mem_cons_self)) hread
    exact .present hhash hkind hlength hvalue
  · cases h
    exact .absent

theorem tag?_reads {tokens rest : List Token} {tag : Option UInt32}
    (h : TagSpelled tokens tag rest) (hrest : ¬ Token.Leads .hash rest) :
    tag? stop tokens = (.ok tag, rest) := by
  cases h with
  | absent =>
    cases tokens with
    | nil => rfl
    | cons t behind =>
      rw [Token.leads_cons] at hrest
      simp only [tag?, if_neg hrest]
  | present hhash hdigits hlength hvalue =>
    simp only [tag?, if_pos hhash, tagOfToken_reads hdigits hlength hvalue]
    rfl

theorem declaration_spells {isFunction : Bool} {name : Token} {tokens rest : List Token}
    {d : Declaration} (hname : name.kind = .ident) (hshape : Token.Shaped tokens)
    (h : declaration isFunction stop name tokens = (.ok d, rest)) :
    Spelled isFunction (name :: tokens) d rest := by
  obtain ⟨tag, behindTag, htag, h⟩ := Step.andThen_eq_iff.mp h
  obtain ⟨generics, behindGenerics, hgenerics, h⟩ := Step.andThen_eq_iff.mp h
  obtain ⟨found, behindArguments, harguments, h⟩ := Step.andThen_eq_iff.mp h
  obtain ⟨equals, behindEquals, hequals, h⟩ := Step.andThen_eq_iff.mp h
  obtain ⟨result, behindResult, hresult, h⟩ := Step.andThen_eq_iff.mp h
  obtain ⟨semicolon, hsemicolon, rfl⟩ := Step.map_eq_iff.mp h
  obtain ⟨rfl, hequalsKind⟩ := expect_eq_iff.mp hequals
  obtain ⟨rfl, hsemicolonKind⟩ := expect_eq_iff.mp hsemicolon
  have hbehindTag : behindTag ⊆ tokens := by
    have hleft := (tag?_blames stop tokens).subset
    rwa [htag] at hleft
  have hbehindGenerics : behindGenerics ⊆ behindTag := by
    have hleft := (parameters_blames stop behindTag).subset
    rwa [hgenerics] at hleft
  obtain ⟨_, rfl, hspelled⟩ := arguments_spells
    (hshape.mono (List.Subset.trans hbehindGenerics hbehindTag)) harguments
  exact .statement hname (tag?_spells hshape htag) (parameters_spells hgenerics) hspelled
    hequalsKind (term_spells hresult) hsemicolonKind

theorem declaration_reads {isFunction : Bool} {name : Token} {tokens rest : List Token}
    {d : Declaration} (h : Spelled isFunction (name :: tokens) d rest) :
    declaration isFunction stop name tokens = (.ok d, rest) := by
  cases h with
  | @statement _ equals semicolon _ _ _ behindEquals _ _ _ _ _ hname htag hgenerics harguments
      hequals hresult hsemicolon =>
    have hlead {kind : Token.Kind} (hkind : kind ≠ .equals) :
        ¬ Token.Leads kind (equals :: behindEquals) :=
      fun hleads ↦ hkind (hleads.symm.trans hequals)
    have hend : ¬ Token.Leads .leftAngle (semicolon :: rest) :=
      fun hleads ↦ absurd (hleads.symm.trans hsemicolon) (by decide)
    refine Step.andThen_eq_iff.mpr ⟨_, _, tag?_reads htag (hgenerics.not_leads
      (harguments.not_leads (hlead (by decide)) (by decide)) (by decide)), ?_⟩
    refine Step.andThen_eq_iff.mpr ⟨_, _, parameters_reads hgenerics
      (harguments.not_leads (hlead (by decide)) (by decide)), ?_⟩
    refine Step.andThen_eq_iff.mpr ⟨_, _, arguments_reads List.nodup_nil harguments
      (hlead (by decide)) (hlead (by decide)) (hlead (by decide)), ?_⟩
    refine Step.andThen_eq_iff.mpr ⟨_, _, expect_ok hequals, ?_⟩
    refine Step.andThen_eq_iff.mpr ⟨_, _, term_reads hresult hend, ?_⟩
    exact Step.map_eq_iff.mpr ⟨_, expect_ok hsemicolon, rfl⟩

/-! ### Whole texts -/

theorem opening_none_spells {inFunctions isFunction : Bool} {tokens rest : List Token}
    (h : opening inFunctions tokens = (isFunction, .ok none, rest)) :
    SpelledAll inFunctions tokens [] := by
  fun_induction opening inFunctions tokens with
  | case1 => exact .nil
  | case2 inFunctions t behind hkind htext ih => exact .functions hkind htext (ih h)
  | case3 inFunctions t behind hkind _ htext ih => exact .types hkind htext (ih h)
  | case4 => cases h
  | case5 inFunctions t behind hkind ih => exact .semicolon hkind (ih h)
  | case6 => cases h
  | case7 => cases h

/-- What is passed over before a statement may stand before any text that starts with it. -/
theorem opening_some_spells {inFunctions isFunction : Bool} {tokens rest : List Token}
    {name : Token} (h : opening inFunctions tokens = (isFunction, .ok (some name), rest)) :
    name.kind = .ident ∧ (name :: rest) ⊆ tokens ∧ ∀ ds,
      SpelledAll isFunction (name :: rest) ds → SpelledAll inFunctions tokens ds := by
  fun_induction opening inFunctions tokens with
  | case1 => cases h
  | case2 inFunctions t behind hkind htext ih =>
    obtain ⟨hname, hleft, hspelled⟩ := ih h
    exact ⟨hname, List.Subset.trans hleft (List.subset_cons_self t behind),
      fun ds hds ↦ .functions hkind htext (hspelled ds hds)⟩
  | case3 inFunctions t behind hkind _ htext ih =>
    obtain ⟨hname, hleft, hspelled⟩ := ih h
    exact ⟨hname, List.Subset.trans hleft (List.subset_cons_self t behind),
      fun ds hds ↦ .types hkind htext (hspelled ds hds)⟩
  | case4 => cases h
  | case5 inFunctions t behind hkind ih =>
    obtain ⟨hname, hleft, hspelled⟩ := ih h
    exact ⟨hname, List.Subset.trans hleft (List.subset_cons_self t behind),
      fun ds hds ↦ .semicolon hkind (hspelled ds hds)⟩
  | case6 inFunctions t behind hkind =>
    cases h
    exact ⟨hkind, List.Subset.refl _, fun _ hds ↦ hds⟩
  | case7 => cases h

theorem next_none_spells {r : Reader} (h : r.next.1 = .ok none) :
    SpelledAll r.inFunctions r.cursor.ahead [] := by
  unfold next at h
  dsimp only at h
  split at h
  · cases h
  · rename_i hopening
    exact opening_none_spells (Prod.ext rfl (Prod.ext hopening rfl))
  · cases hstep : (declaration (opening r.inFunctions r.cursor.ahead).1 r.cursor.stop _
      (opening r.inFunctions r.cursor.ahead).2.2).1 <;> rw [hstep] at h <;> cases h

theorem next_some_spells {r : Reader} {d : Declaration}
    (hshape : Token.Shaped r.cursor.ahead) (h : r.next.1 = .ok (some d)) :
    ∀ ds, SpelledAll r.next.2.inFunctions r.next.2.cursor.ahead ds →
      SpelledAll r.inFunctions r.cursor.ahead (d :: ds) := by
  unfold next at h ⊢
  dsimp only at h ⊢
  split at h
  · cases h
  · cases h
  rename_i name hopening
  dsimp only at h ⊢
  intro ds hds
  obtain ⟨hname, hleft, hspelled⟩ :=
    opening_some_spells (Prod.ext rfl (Prod.ext hopening rfl) :
      opening r.inFunctions r.cursor.ahead = (_, .ok (some name), _))
  have hstep : Step.map some (declaration (opening r.inFunctions r.cursor.ahead).1 r.cursor.stop
      name (opening r.inFunctions r.cursor.ahead).2.2) = (.ok (some d), _) := Prod.ext h rfl
  obtain ⟨other, hread, hsome⟩ := Step.map_eq_iff.mp hstep
  cases hsome
  have hfirst := declaration_spells hname (hshape.mono hleft).tail hread
  exact hspelled _ (.statement hfirst hds)

theorem all_eq (r : Reader) : r.all =
    match r.next.1 with
    | .error e => .error e
    | .ok none => .ok []
    | .ok (some d) => (all r.next.2).map (d :: ·) := by
  fun_cases all r with
  | case1 step e hnext => rw [show r.next.1 = .error e from hnext]
  | case2 step hnext => rw [show r.next.1 = .ok none from hnext]
  | case3 step d hnext => rw [show r.next.1 = .ok (some d) from hnext]

theorem next_congr {stop : Token} {inFunctions others : Bool} {tokens behind : List Token}
    (h : opening inFunctions tokens = opening others behind) :
    (⟨⟨tokens, stop⟩, inFunctions⟩ : Reader).next = next ⟨⟨behind, stop⟩, others⟩ := by
  simp only [next, h]

/-- What a reader reads depends only on where the next statement opens. -/
theorem all_congr {stop : Token} {inFunctions others : Bool} {tokens behind : List Token}
    (h : opening inFunctions tokens = opening others behind) :
    (⟨⟨tokens, stop⟩, inFunctions⟩ : Reader).all = (⟨⟨behind, stop⟩, others⟩ : Reader).all := by
  rw [all_eq, all_eq ⟨⟨behind, stop⟩, others⟩, next_congr h]

/-! What is passed over before a statement changes only the section. -/

theorem opening_functions {inFunctions : Bool} {marker : Token}
    (hkind : marker.kind = .sectionMarker) (htext : marker.text = "---functions---")
    (rest : List Token) : opening inFunctions (marker :: rest) = opening true rest := by
  have htext : marker.text = functionsMarker := htext
  simp only [opening, hkind, htext, if_true]

theorem opening_types {inFunctions : Bool} {marker : Token}
    (hkind : marker.kind = .sectionMarker) (htext : marker.text = "---types---")
    (rest : List Token) : opening inFunctions (marker :: rest) = opening false rest := by
  have htext : marker.text = typesMarker := htext
  have hother : ¬ typesMarker = functionsMarker := by decide
  simp only [opening, hkind, htext, if_neg hother, if_true]

theorem opening_semicolon {inFunctions : Bool} {semicolon : Token}
    (hkind : semicolon.kind = .semicolon) (rest : List Token) :
    opening inFunctions (semicolon :: rest) = opening inFunctions rest := by
  simp only [opening, hkind]

theorem next_of_spelled {isFunction : Bool} {tokens rest : List Token} {d : Declaration}
    (h : Spelled isFunction tokens d rest) (stop : Token) :
    (⟨⟨tokens, stop⟩, isFunction⟩ : Reader).next =
      (.ok (some d), ⟨⟨rest, stop⟩, isFunction⟩) := by
  obtain ⟨name, behind, rfl, hname⟩ : ∃ name behind, tokens = name :: behind ∧
      name.kind = .ident := by
    cases h with
    | statement hname => exact ⟨_, _, rfl, hname⟩
  have hread : declaration isFunction stop name behind = (.ok d, rest) := declaration_reads h
  simp only [next, opening, hname, hread]
  rfl

theorem all_spells {r : Reader} {ds : List Declaration}
    (hshape : Token.Shaped r.cursor.ahead) (h : r.all = .ok ds) :
    SpelledAll r.inFunctions r.cursor.ahead ds := by
  fun_induction all r generalizing ds with
  | case1 => cases h
  | case2 =>
    rename_i hnext
    cases h
    exact next_none_spells hnext
  | case3 r =>
    rename_i step d hnext ih
    have hleft := (next_blames r).subset
    cases hrest : all step.2 with
    | error e =>
      rw [hrest] at h
      cases h
    | ok rest =>
      rw [hrest] at h
      cases h
      exact next_some_spells hshape hnext rest (ih (hshape.mono hleft) hrest)

theorem all_reads {inFunctions : Bool} {tokens : List Token} {ds : List Declaration}
    (h : SpelledAll inFunctions tokens ds) (stop : Token) :
    (⟨⟨tokens, stop⟩, inFunctions⟩ : Reader).all = .ok ds := by
  induction h with
  | nil => rw [all_eq]; rfl
  | functions hmarker htext _ ih =>
    rw [← ih]
    exact all_congr (opening_functions hmarker htext _)
  | types hmarker htext _ ih =>
    rw [← ih]
    exact all_congr (opening_types hmarker htext _)
  | semicolon hsemicolon _ ih =>
    rw [← ih]
    exact all_congr (opening_semicolon hsemicolon _)
  | statement hfirst _ ih =>
    rw [all_eq, next_of_spelled hfirst]
    dsimp only
    rw [ih]
    rfl

end Declaration.Reader

namespace Declaration

/-- A text is read as declarations exactly if its tokens spell them. -/
theorem parse_eq_ok_iff {source : String} {ds : List Declaration} : parse source = .ok ds ↔
    SpelledAll false ((Token.tokenize source).takeWhile (·.kind != .finish)) ds := by
  have hshape := (Token.shaped_tokenize source).mono (List.takeWhile_subset (·.kind != .finish))
  exact ⟨Reader.all_spells hshape, fun h ↦ Reader.all_reads h _⟩

/-- The reader accepts the spelled texts and no others: a text whose tokens spell no declarations is
at fault, and at one of its tokens. -/
theorem parse_exact (source : String) :
    (∀ ds, parse source = .ok ds ↔
      SpelledAll false ((Token.tokenize source).takeWhile (·.kind != .finish)) ds) ∧
    ((∀ ds, ¬ SpelledAll false ((Token.tokenize source).takeWhile (·.kind != .finish)) ds) ↔
      ∃ t ∈ Token.tokenize source, ∃ fault,
        parse source = .error (.badSyntax t.position.line t.position.column fault)) := by
  refine ⟨fun ds ↦ parse_eq_ok_iff, fun hnone ↦ ?_, ?_⟩
  · cases hparse : parse source with
    | ok ds => exact absurd (parse_eq_ok_iff.mp hparse) (hnone ds)
    | error e =>
      obtain ⟨t, ht, fault, rfl⟩ := parse_blames hparse
      exact ⟨t, ht, fault, rfl⟩
  · rintro ⟨t, _, fault, herror⟩ ds hds
    rw [parse_eq_ok_iff.mpr hds] at herror
    cases herror

end Declaration

end TypeLang
