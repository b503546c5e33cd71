import TypeLang.Proofs.Declaration.Parsing

/-!
What the grammar asks of arguments: no two of a declaration share a name, a condition names one of
the 32 bits of a mask, and a mask has no condition. Each argument that is spelled keeps
`Argument.Sound` of those before it, so a parsed declaration has it
(`Declaration.arguments_sound_of_parse`). Every argument is spelled behind those before it, so the
mask that its condition names is one of them (`Declaration.argument_spelled_of_parse`).
-/

set_option autoImplicit false
set_option relaxedAutoImplicit false

namespace TypeLang

/-- Whether an argument may stand in a declaration, the other arguments apart. -/
structure Argument.FitsAlone (a : Argument) : Prop where
  bit_lt : ∀ c, a.condition = some c → c.bit < 32
  unconditional : a.type.isMask = true → a.condition = none

/-- Arguments that may stand together in a declaration. -/
structure Argument.Sound (args : List Argument) : Prop where
  names_nodup : (args.map Argument.name).Nodup
  fits : ∀ a ∈ args, a.FitsAlone

variable {generics : List GenericParameter} {tokens rest : List Token}

theorem Argument.Spelled.fitsAlone {previous : List Argument} {a : Argument}
    (h : Argument.Spelled generics previous tokens a rest) : a.FitsAlone := by
  cases h with
  | plain => exact ⟨nofun, fun _ ↦ rfl⟩
  | conditional _ _ _ _ _ _ hcondition _ hunmasked =>
    refine ⟨fun c hc ↦ ?_, fun hmask ↦ absurd (hunmasked.symm.trans hmask) Bool.false_ne_true⟩
    cases hc
    exact UInt8.lt_iff_toNat_lt.mpr hcondition.bit_lt

/-- The name of an argument is outside any namespace. -/
theorem Argument.Spelled.dot_notMem {previous : List Argument} {a : Argument}
    (h : Argument.Spelled generics previous tokens a rest) : '.' ∉ a.name.toList := by
  cases h with
  | plain _ hplain => exact hplain
  | conditional _ hplain => exact hplain

theorem Argument.Spelled.declared {previous : List Argument} {a : Argument} {c : Condition}
    (h : Argument.Spelled generics previous tokens a rest) (hc : a.condition = some c) :
    ∃ b ∈ previous, b.name = c.field ∧ b.type.isMask = true := by
  cases h with
  | plain => cases hc
  | conditional _ _ _ _ _ _ hcondition =>
    cases hc
    exact hcondition.declared

/-- Of arguments one behind the other, each is spelled behind those before it. -/
theorem Argument.SpelledAll.exists_spelled {previous found : List Argument} {j : Nat}
    {a : Argument} (h : Argument.SpelledAll generics previous tokens found rest)
    (ha : found[j]? = some a) :
    ∃ here behind, Argument.Spelled generics (previous ++ found.take j) here a behind := by
  induction h generalizing j with
  | nil => cases ha
  | cons hfirst _ ih =>
    cases j with
    | zero =>
      cases ha
      rw [List.take_zero, List.append_nil]
      exact ⟨_, _, hfirst⟩
    | succ j =>
      obtain ⟨here, behind, hspelled⟩ := ih ha
      rw [List.append_assoc, List.singleton_append] at hspelled
      exact ⟨here, behind, hspelled⟩

theorem Argument.SpelledAll.sound {previous found : List Argument}
    (h : Argument.SpelledAll generics previous tokens found rest)
    (hprevious : Argument.Sound previous) : Argument.Sound (previous ++ found) := by
  induction h with
  | nil =>
    rw [List.append_nil]
    exact hprevious
  | @cons previous more a _ _ _ hfirst _ ih =>
    have hstep : Argument.Sound (previous ++ [a]) := by
      refine ⟨hfirst.names_nodup hprevious.names_nodup, fun b hb ↦ ?_⟩
      rcases List.mem_append.mp hb with hb | hb
      · exact hprevious.fits b hb
      · obtain rfl := List.mem_singleton.mp hb
        exact hfirst.fitsAlone
    have hall := ih hstep
    rwa [List.append_assoc, List.singleton_append] at hall

theorem Declaration.arguments_sound_of_parse {source : String} {ds : List Declaration}
    (h : Declaration.parse source = .ok ds) : ∀ d ∈ ds, Argument.Sound d.arguments := by
  intro d hd
  obtain ⟨_, _, _, _, hspelled⟩ := (Declaration.parse_eq_ok_iff.mp h).exists_spelled hd
  cases hspelled with
  | statement _ _ _ harguments => exact harguments.sound ⟨List.nodup_nil, nofun⟩

theorem Declaration.argument_spelled_of_parse {source : String} {ds : List Declaration}
    (h : Declaration.parse source = .ok ds) {d : Declaration} (hd : d ∈ ds) {j : Nat}
    {a : Argument} (ha : d.arguments[j]? = some a) :
    ∃ here behind, Argument.Spelled d.generics (d.arguments.take j) here a behind := by
  obtain ⟨_, _, _, _, hspelled⟩ := (Declaration.parse_eq_ok_iff.mp h).exists_spelled hd
  cases hspelled with
  | statement _ _ _ harguments => exact harguments.exists_spelled ha

/-! ### Places -/

theorem getElem?_take_eq_some_iff {α : Type} {xs : List α} {n i : Nat} {x : α} :
    (xs.take n)[i]? = some x ↔ i < n ∧ xs[i]? = some x := by
  rw [List.getElem?_take]
  split <;> simp [*]

theorem mem_take_iff {α : Type} {xs : List α} {n : Nat} {x : α} :
    x ∈ xs.take n ↔ ∃ i < n, xs[i]? = some x := by
  simp only [List.mem_iff_getElem?, getElem?_take_eq_some_iff]

/-- In a list with no two elements of a kind, the place of the only one is found. -/
theorem findIdx?_eq_some_iff_of_pairwise {α : Type} {xs : List α} {p : α → Bool} {i : Nat}
    (h : xs.Pairwise fun x y => p x = true → p y = false) :
    xs.findIdx? p = some i ↔ ∃ x, xs[i]? = some x ∧ p x = true := by
  rw [List.findIdx?_eq_some_iff_getElem]
  constructor
  · rintro ⟨hlt, hp, -⟩
    exact ⟨xs[i], List.getElem?_eq_getElem hlt, hp⟩
  · rintro ⟨x, hx, hp⟩
    obtain ⟨hlt, rfl⟩ := List.getElem?_eq_some_iff.mp hx
    refine ⟨hlt, hp, fun j hj hpj ↦ ?_⟩
    have hlater := List.pairwise_iff_getElem.mp h j i (Nat.lt_trans hj hlt) hlt hj hpj
    exact Bool.noConfusion (hp.symm.trans hlater)

theorem Declaration.argumentIndex?_eq {d : Declaration} {i : Nat} {a : Argument}
    (hnames : (d.arguments.map Argument.name).Nodup) (ha : d.arguments[i]? = some a) :
    d.argumentIndex? a.name = some i := by
  have hapart : d.arguments.Pairwise fun b c => (b.name == a.name) = true →
      (c.name == a.name) = false := by
    refine (List.pairwise_map.mp hnames).imp fun hne hb ↦ ?_
    rw [beq_iff_eq] at hb
    rw [beq_eq_false_iff_ne, ← hb]
    exact hne.symm
  exact (findIdx?_eq_some_iff_of_pairwise hapart).mpr ⟨a, ha, beq_self_eq_true a.name⟩

end TypeLang
