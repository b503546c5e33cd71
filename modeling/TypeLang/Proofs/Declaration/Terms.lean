import TypeLang.Proofs.Declaration.Blame
import TypeLang.Proofs.Declaration.Grammar
import TypeLang.Proofs.Token.Shape

/-!
The reader of types and arguments, and their grammar. Each step of the reader takes what the
grammar spells (`…_spells`), and takes it whenever the tokens behind do not lengthen it
(`…_reads`); a type, for instance, may not stand before an angle bracket. Two facts about the tokens
and arguments at hand are carried along. Tokens are shaped as those of a text are, so a condition
ends in nothing but digits; and arguments have different names, so a condition can mean only one of
them.
-/

set_option autoImplicit false
set_option relaxedAutoImplicit false

namespace TypeLang

namespace Step

variable {α β : Type}

theorem andThen_eq_iff {s : Step α} {f : α → List Token → Step β} {b : β} {rest : List Token} :
    s.andThen f = (.ok b, rest) ↔
      ∃ a between, s = (.ok a, between) ∧ f a between = (.ok b, rest) := by
  obtain ⟨outcome, left⟩ := s
  cases outcome with
  | ok a =>
    refine ⟨fun h ↦ ⟨a, left, rfl, h⟩, ?_⟩
    rintro ⟨_, _, hs, h⟩
    cases hs
    exact h
  | error e => simp [andThen]

theorem map_eq_iff {s : Step α} {f : α → β} {b : β} {rest : List Token} :
    s.map f = (.ok b, rest) ↔ ∃ a, s = (.ok a, rest) ∧ f a = b := by
  obtain ⟨outcome, left⟩ := s
  cases outcome with
  | ok a =>
    refine ⟨fun h ↦ ?_, ?_⟩
    · cases h
      exact ⟨a, rfl, rfl⟩
    · rintro ⟨_, hs, rfl⟩
      cases hs
      rfl
  | error e => simp [map, Except.map]

end Step

/-! ### Names and conditions -/

namespace QualifiedName

theorem splitLastDot?_eq_none_iff {text : List Char} : splitLastDot? text = none ↔ '.' ∉ text := by
  fun_induction splitLastDot? text with
  | case1 => simp
  | case2 c rest front back hrest ih =>
    rw [hrest] at ih
    simp only [reduceCtorEq, false_iff, Decidable.not_not] at ih ⊢
    exact List.mem_cons_of_mem c ih
  | case3 rest hrest ih => simp
  | case4 c rest hrest hc ih =>
    rw [hrest] at ih
    simp only [true_iff] at ih ⊢
    exact List.not_mem_cons_of_ne_of_not_mem (Ne.symm hc) ih

theorem splitLastDot?_append (front : List Char) {back : List Char} (hback : '.' ∉ back) :
    splitLastDot? (front ++ '.' :: back) = some (front, back) := by
  induction front with
  | nil => rw [List.nil_append, splitLastDot?, splitLastDot?_eq_none_iff.mpr hback, if_pos rfl]
  | cons c front ih => rw [List.cons_append, splitLastDot?, ih]

theorem splitLastDot?_eq_some_iff {text front back : List Char} :
    splitLastDot? text = some (front, back) ↔ text = front ++ '.' :: back ∧ '.' ∉ back := by
  constructor
  · intro h
    fun_induction splitLastDot? text generalizing front back with
    | case1 => cases h
    | case2 c rest inner tail hrest ih =>
      cases h
      obtain ⟨rfl, hback⟩ := ih hrest
      exact ⟨rfl, hback⟩
    | case3 rest hrest ih =>
      cases h
      exact ⟨rfl, splitLastDot?_eq_none_iff.mp hrest⟩
    | case4 => cases h
  · rintro ⟨rfl, hback⟩
    exact splitLastDot?_append front hback

end QualifiedName

namespace Declaration.Reader

variable {stop : Token}

theorem condition_spells {t : Token} {previous : List Argument} {c : Condition}
    (hshape : t.toPiece.WellShaped) (hident : t.kind = .ident)
    (h : condition t previous = .ok c) : Condition.Spelled previous t.text c := by
  have hname : Piece.IsName t.text.toList := hshape.name (congrArg some hident)
  unfold condition at h
  split at h
  · cases h
  rename_i front back hsplit
  obtain ⟨htext, hback⟩ := QualifiedName.splitLastDot?_eq_some_iff.mp hsplit
  have hplus : '+' ∉ back := by
    intro hmem
    have hin : '+' ∈ t.text.toList := by
      rw [htext]
      exact List.mem_append_right _ (List.mem_cons_of_mem _ hmem)
    exact absurd (hname.continuesName '+' hin) (by decide)
  dsimp only at h
  split at h
  · cases h
  rename_i bit hread
  obtain ⟨hstands, _⟩ := (Text.Numeral.read?_eq_some_iff hplus).mp hread
  split at h
  · cases h
  rename_i hbit
  have hbit : bit < 32 := Nat.lt_of_not_le hbit
  have htoNat : (UInt8.ofNat bit).toNat = bit := by
    rw [UInt8.toNat_ofNat']
    omega
  split at h
  · rename_i a hfind
    split at h
    · rename_i hmask
      cases h
      refine ⟨⟨String.ofList back, ?_, ?_⟩, ?_, a, List.mem_of_find?_eq_some hfind, ?_, hmask⟩
      · apply String.toList_inj.mp
        rw [htext]
        simp
      · rwa [String.toList_ofList, htoNat]
      · rwa [htoNat]
      · have hname := List.find?_some hfind
        exact beq_iff_eq.mp hname
    · cases h
  · cases h

theorem find?_eq_some_of_nodup {previous : List Argument} {a : Argument}
    (hnodup : (previous.map Argument.name).Nodup) (ha : a ∈ previous) :
    previous.find? (·.name == a.name) = some a := by
  induction previous with
  | nil => cases ha
  | cons first rest ih =>
    rw [List.map_cons, List.nodup_cons] at hnodup
    rcases List.mem_cons.mp ha with rfl | ha
    · rw [List.find?_cons_of_pos]
      exact beq_self_eq_true _
    · have hne : first.name ≠ a.name := fun heq ↦
        hnodup.1 (heq ▸ List.mem_map_of_mem ha)
      rw [List.find?_cons_of_neg (by simpa using hne)]
      exact ih hnodup.2 ha

theorem condition_reads {t : Token} {previous : List Argument} {c : Condition}
    (hnodup : (previous.map Argument.name).Nodup) (h : Condition.Spelled previous t.text c) :
    condition t previous = .ok c := by
  obtain ⟨digits, htext, hstands⟩ := h.form
  obtain ⟨a, ha, hname, hmask⟩ := h.declared
  have hsplit : QualifiedName.splitLastDot? t.text.toList =
      some (c.field.toList, digits.toList) := by
    rw [htext]
    simp only [String.toList_append, List.append_assoc]
    exact QualifiedName.splitLastDot?_append _ (hstands.notMem (by decide))
  have hread : Text.Numeral.read? 10 256 digits.toList = some c.bit.toNat :=
    (Text.Numeral.read?_eq_some_iff (hstands.notMem (by decide))).mpr
      ⟨hstands, Nat.lt_of_lt_of_le h.bit_lt (by decide)⟩
  have hfind : previous.find? (·.name == c.field) = some a :=
    hname ▸ find?_eq_some_of_nodup hnodup ha
  unfold condition
  rw [hsplit]
  dsimp only
  rw [hread]
  dsimp only
  rw [if_neg (Nat.not_le_of_lt h.bit_lt), String.ofList_toList, hfind]
  dsimp only
  rw [if_pos hmask, UInt8.ofNat_toNat]

/-! ### Types -/

theorem expect_eq_iff {kind : Token.Kind} {expected : Expectation} {tokens rest : List Token}
    {t : Token} : expect kind expected stop tokens = (.ok t, rest) ↔
      tokens = t :: rest ∧ t.kind = kind := by
  cases tokens with
  | nil => simp [expect]
  | cons first behind =>
    simp only [expect, Prod.mk.injEq, List.cons.injEq]
    split
    · rename_i hkind
      constructor
      · rintro ⟨hok, rfl⟩
        cases hok
        exact ⟨⟨rfl, rfl⟩, hkind⟩
      · rintro ⟨⟨rfl, rfl⟩, _⟩
        exact ⟨rfl, rfl⟩
    · rename_i hkind
      constructor
      · rintro ⟨hok, _⟩
        cases hok
      · rintro ⟨⟨rfl, rfl⟩, habsurd⟩
        exact absurd habsurd hkind

theorem expect_ok {kind : Token.Kind} {expected : Expectation} {t : Token} {rest : List Token}
    (h : t.kind = kind) : expect kind expected stop (t :: rest) = (.ok t, rest) :=
  expect_eq_iff.mpr ⟨rfl, h⟩

theorem plainTerm_eq_iff {t : Token} {behind rest : List Token} {type : TypeTerm} :
    plainTerm t behind = (.ok type, rest) ↔
      (TypeTerm.Head.ofText t.text).isVector = false ∧ type = .ofText t.text ∧ rest = behind := by
  unfold plainTerm
  dsimp only
  split
  · rename_i hvector
    simp [hvector]
  · rename_i hvector
    simp [hvector, TypeTerm.ofText, eq_comm]

theorem invocation_eq_iff {generics : List GenericParameter} {tokens rest : List Token}
    {type : TypeTerm} : invocation generics stop tokens = (.ok type, rest) ↔
      ∃ name, tokens = name :: rest ∧ name.kind = .ident ∧
        (∃ p ∈ generics, p.name = name.text) ∧ type = .invocation name.text := by
  unfold invocation
  rw [Step.andThen_eq_iff]
  constructor
  · rintro ⟨name, between, hname, hchecked⟩
    obtain ⟨rfl, hkind⟩ := expect_eq_iff.mp hname
    split at hchecked
    · rename_i hparameter
      cases hchecked
      simp only [List.any_eq_true, beq_iff_eq] at hparameter
      exact ⟨name, rfl, hkind, hparameter, rfl⟩
    · cases hchecked
  · rintro ⟨name, rfl, hkind, hparameter, rfl⟩
    refine ⟨name, rest, expect_ok hkind, ?_⟩
    rw [if_pos]
    simpa only [List.any_eq_true, beq_iff_eq] using hparameter

theorem term_spells {generics : List GenericParameter} {tokens rest : List Token} {type : TypeTerm}
    (h : term generics stop tokens = (.ok type, rest)) :
    TypeTerm.Spelled generics tokens type rest := by
  fun_induction term generics stop tokens generalizing type rest with
  | case1 => cases h
  | case2 generics t behind hkind =>
    cases h
    exact .mask hkind
  | case3 generics t behind hkind =>
    obtain ⟨name, rfl, hname, hparameter, rfl⟩ := invocation_eq_iff.mp h
    exact .invocation hkind hname hparameter
  | case4 generics t behind hkind ih =>
    obtain ⟨inner, hinner, rfl⟩ := Step.map_eq_iff.mp h
    exact .bare hkind (ih hinner)
  | case5 generics t hkind =>
    obtain ⟨hvector, rfl, rfl⟩ := plainTerm_eq_iff.mp h
    exact .name hkind hvector
  | case6 generics t hkind sign inner hsign ih =>
    obtain ⟨element, between, helement, hbehind⟩ := Step.andThen_eq_iff.mp h
    obtain ⟨right, hexpect, rfl⟩ := Step.map_eq_iff.mp hbehind
    obtain ⟨rfl, hright⟩ := expect_eq_iff.mp hexpect
    exact .applied hkind hsign (ih helement) hright
  | case7 generics t hkind sign inner hsign =>
    obtain ⟨hvector, rfl, rfl⟩ := plainTerm_eq_iff.mp h
    exact .name hkind hvector
  | case8 => cases h

theorem term_reads {generics : List GenericParameter} {tokens rest : List Token}
    {type : TypeTerm} (h : TypeTerm.Spelled generics tokens type rest)
    (hrest : ¬ Token.Leads .leftAngle rest) : term generics stop tokens = (.ok type, rest) := by
  induction h with
  | mask hhash =>
    unfold term
    simp only [hhash]
  | invocation hbang hname hparameter =>
    unfold term
    simp only [hbang]
    exact invocation_eq_iff.mpr ⟨_, rfl, hname, hparameter, rfl⟩
  | bare hpercent _ ih =>
    unfold term
    simp only [hpercent]
    exact Step.map_eq_iff.mpr ⟨_, ih hrest, rfl⟩
  | @name _ name rest hname hvector =>
    have hplain : plainTerm name rest = (.ok (.ofText name.text), rest) :=
      plainTerm_eq_iff.mpr ⟨hvector, rfl, rfl⟩
    cases rest with
    | nil => simpa only [term, hname] using hplain
    | cons sign inner => simpa only [term, hname, if_neg (show ¬ sign.kind = .leftAngle from hrest)]
  | applied hname hleft _ hright ih =>
    simp only [term, hname, if_pos hleft]
    have hinner := ih fun hleads ↦ absurd (hright.symm.trans hleads) (by decide)
    exact Step.andThen_eq_iff.mpr ⟨_, _, hinner, Step.map_eq_iff.mpr ⟨_, expect_ok hright, rfl⟩⟩

/-! ### Arguments -/

theorem conditionedTerm_spells {generics : List GenericParameter} {previous : List Argument}
    {tokens rest : List Token} {c? : Option Condition} {type : TypeTerm}
    (hshape : Token.Shaped tokens)
    (h : conditionedTerm generics previous stop tokens = (.ok (c?, type), rest)) :
    (c? = none ∧ TypeTerm.Spelled generics tokens type rest) ∨
      ∃ mask question behind c, tokens = mask :: question :: behind ∧ mask.kind = .ident ∧
        question.kind = .question ∧ Condition.Spelled previous mask.text c ∧ c? = some c ∧
        TypeTerm.Spelled generics behind type rest ∧ type.isMask = false := by
  have hplain (hread : ((term generics stop tokens).map fun type ↦ (none, type)) =
      (.ok (c?, type), rest)) : c? = none ∧ TypeTerm.Spelled generics tokens type rest := by
    obtain ⟨inner, hinner, hpair⟩ := Step.map_eq_iff.mp hread
    cases hpair
    exact ⟨rfl, term_spells hinner⟩
  unfold conditionedTerm at h
  dsimp only at h
  split at h
  · rename_i mask question behind
    split at h
    · rename_i hkinds
      split at h
      · cases h
      · rename_i c hcondition
        obtain ⟨inner, between, hinner, hchecked⟩ := Step.andThen_eq_iff.mp h
        split at hchecked
        · cases hchecked
        · rename_i hmask
          cases hchecked
          have hspelled := condition_spells (hshape mask List.mem_cons_self) hkinds.1 hcondition
          exact .inr ⟨mask, question, behind, c, rfl, hkinds.1, hkinds.2, hspelled, rfl,
            term_spells hinner, Bool.eq_false_iff.mpr hmask⟩
    · exact .inl (hplain h)
  · exact .inl (hplain h)

theorem argument_spells {generics : List GenericParameter} {previous : List Argument}
    {name : Token} {tokens rest : List Token} {a : Argument} (hname : name.kind = .ident)
    (hshape : Token.Shaped tokens)
    (h : argument generics previous stop name tokens = (.ok a, rest)) :
    Argument.Spelled generics previous (name :: tokens) a rest := by
  unfold argument at h
  split at h
  · cases h
  rename_i hdot
  split at h
  · cases h
  rename_i hduplicate
  have hplain : '.' ∉ name.text.toList := by simpa using hdot
  have hfresh : ∀ b ∈ previous, b.name ≠ name.text := by simpa using hduplicate
  obtain ⟨colon, behind, hexpect, hterm⟩ := Step.andThen_eq_iff.mp h
  obtain ⟨rfl, hcolon⟩ := expect_eq_iff.mp hexpect
  obtain ⟨⟨c?, type⟩, hread, rfl⟩ := Step.map_eq_iff.mp hterm
  rcases conditionedTerm_spells hshape.tail hread with
    ⟨rfl, htype⟩ | ⟨mask, question, inner, c, rfl, hmask, hquestion, hcondition, rfl, htype, hbare⟩
  · exact .plain hname hplain hfresh hcolon htype
  · exact .conditional hname hplain hfresh hcolon hmask hquestion hcondition htype hbare

/-- A type never reads as a condition: no question mark follows it. -/
theorem conditionedTerm_of_type {generics : List GenericParameter} {previous : List Argument}
    {tokens rest : List Token} {type : TypeTerm} (h : TypeTerm.Spelled generics tokens type rest)
    (hangle : ¬ Token.Leads .leftAngle rest) (hquestion : ¬ Token.Leads .question rest) :
    conditionedTerm generics previous stop tokens = (.ok (none, type), rest) := by
  have hread : ((term generics stop tokens).map fun type ↦ ((none : Option Condition), type)) =
      (.ok (none, type), rest) := Step.map_eq_iff.mpr ⟨type, term_reads h hangle, rfl⟩
  unfold conditionedTerm
  dsimp only
  split
  · rename_i first second behind
    rw [if_neg]
    · exact hread
    · rintro ⟨hident, hsecond⟩
      cases h with
      | mask hhash => exact absurd (hident.symm.trans hhash) (by decide)
      | invocation hbang => exact absurd (hident.symm.trans hbang) (by decide)
      | bare hpercent => exact absurd (hident.symm.trans hpercent) (by decide)
      | name => exact hquestion hsecond
      | applied _ hleft => exact absurd (hsecond.symm.trans hleft) (by decide)
  · exact hread

theorem argument_reads {generics : List GenericParameter} {previous : List Argument}
    {name : Token} {tokens rest : List Token} {a : Argument}
    (hnodup : (previous.map Argument.name).Nodup)
    (h : Argument.Spelled generics previous (name :: tokens) a rest)
    (hangle : ¬ Token.Leads .leftAngle rest) (hquestion : ¬ Token.Leads .question rest) :
    argument generics previous stop name tokens = (.ok a, rest) := by
  unfold argument
  cases h with
  | plain hname hplain hfresh hcolon htype =>
    rw [if_neg (by simpa using hplain), if_neg (by simpa using hfresh)]
    refine Step.andThen_eq_iff.mpr ⟨_, _, expect_ok hcolon, Step.map_eq_iff.mpr ?_⟩
    exact ⟨(none, _), conditionedTerm_of_type htype hangle hquestion, rfl⟩
  | conditional hname hplain hfresh hcolon hmask hsign hcondition htype hbare =>
    rw [if_neg (by simpa using hplain), if_neg (by simpa using hfresh)]
    refine Step.andThen_eq_iff.mpr ⟨_, _, expect_ok hcolon, Step.map_eq_iff.mpr ?_⟩
    refine ⟨(some _, _), ?_, rfl⟩
    unfold conditionedTerm
    dsimp only
    rw [if_pos ⟨hmask, hsign⟩, condition_reads hnodup hcondition]
    refine Step.andThen_eq_iff.mpr ⟨_, _, term_reads htype hangle, ?_⟩
    rw [hbare]
    rfl

theorem arguments_spells {generics : List GenericParameter} {previous found : List Argument}
    {tokens rest : List Token} (hshape : Token.Shaped tokens)
    (h : arguments generics stop previous tokens = (.ok found, rest)) :
    ∃ more, found = previous ++ more ∧
      Argument.SpelledAll generics previous tokens more rest := by
  fun_induction arguments generics stop previous tokens with
  | case1 previous =>
    cases h
    exact ⟨[], (List.append_nil _).symm, .nil⟩
  | case2 previous t behind hident step a hok ih =>
    have hleft := (argument_blames stop generics previous t behind).subset
    obtain ⟨more, rfl, hmore⟩ := ih (hshape.mono hleft) h
    have hfirst : argument generics previous stop t behind = (.ok a, step.2) := Prod.ext hok rfl
    refine ⟨a :: more, List.append_assoc previous [a] more, .cons ?_ hmore⟩
    exact argument_spells hident hshape.tail hfirst
  | case3 => cases h
  | case4 previous t behind =>
    cases h
    exact ⟨[], (List.append_nil _).symm, .nil⟩

theorem arguments_reads {generics : List GenericParameter} {previous more : List Argument}
    {tokens rest : List Token} (hnodup : (previous.map Argument.name).Nodup)
    (h : Argument.SpelledAll generics previous tokens more rest)
    (hangle : ¬ Token.Leads .leftAngle rest) (hquestion : ¬ Token.Leads .question rest)
    (hident : ¬ Token.Leads .ident rest) :
    arguments generics stop previous tokens = (.ok (previous ++ more), rest) := by
  induction h with
  | @nil previous rest =>
    cases rest with
    | nil => rw [arguments, List.append_nil]
    | cons t behind =>
      rw [Token.leads_cons] at hident
      rw [arguments, if_neg hident, List.append_nil]
  | @cons previous more a tokens between rest hfirst hmore ih =>
    have hbehind := ih (hfirst.names_nodup hnodup) hangle hquestion hident
    obtain ⟨name, behind, rfl, hkind, _⟩ := hfirst.exists_name
    have hstep : argument generics previous stop name behind = (.ok a, between) :=
      argument_reads hnodup hfirst (hmore.not_leads hangle (by decide))
        (hmore.not_leads hquestion (by decide))
    rw [arguments, if_pos hkind, hstep]
    dsimp only
    rw [hbehind, List.append_assoc, List.singleton_append]

end Declaration.Reader

end TypeLang
