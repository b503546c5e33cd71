import Mathlib.Data.List.Nodup
import Mathlib.Data.List.Perm.Subperm
import TypeLang.Generate.Items

/-!
The names of the items of a module. A name is chosen so that it is none of those taken before it
(`fresh_notMem`), so the names chosen in turn are distinct (`assign_nodup`). As combinators and
types have names of their own, the items of all of them do as well (`ItemNames.items_nodup`), and an
item says whose it is.
-/

set_option autoImplicit false
set_option relaxedAutoImplicit false

namespace TypeLang.Generate

/-! ### Choosing a name -/

theorem toString_injective : Function.Injective (toString : Nat → String) := by
  intro m n h
  have hdigits : Nat.toDigits 10 m = Nat.toDigits 10 n := by
    rw [← Nat.toList_repr, ← Nat.toList_repr]
    exact congrArg String.toList h
  rw [← Nat.ofDigitChars_ten_toDigits (n := m), hdigits, Nat.ofDigitChars_ten_toDigits]

theorem numbered_injective (name : String) : Function.Injective (numbered name) := by
  have hlonger : ∀ n : Nat, name ≠ name ++ toString (n + 2) := by
    intro n h
    refine Nat.repr_ne_empty (n := n + 2) ((String.append_right_inj name).mp ?_)
    rw [String.append_empty]
    exact h.symm
  intro m n h
  match m, n, h with
  | 0, 0, _ => rfl
  | 0, n + 1, h => exact absurd h (hlonger n)
  | m + 1, 0, h => exact absurd h.symm (hlonger m)
  | m + 1, n + 1, h =>
    have hnumeral := toString_injective ((String.append_right_inj name).mp h)
    rw [Nat.add_right_cancel hnumeral]

/-- One more candidates than names taken cannot all be taken. -/
theorem fresh_notMem (taken : List String) (name : String) : fresh taken name ∉ taken := by
  have hcandidates : ((List.range (taken.length + 1)).map (numbered name)).Nodup :=
    List.nodup_range.map (numbered_injective name)
  unfold fresh
  cases hfind : ((List.range (taken.length + 1)).map (numbered name)).find?
      (!taken.contains ·) with
  | some candidate => simpa using List.find?_some hfind
  | none =>
    have hall : (List.range (taken.length + 1)).map (numbered name) ⊆ taken := by
      intro candidate hcandidate
      simpa using List.find?_eq_none.mp hfind candidate hcandidate
    have hlength := (List.Nodup.subperm hcandidates hall).length_le
    rw [List.length_map, List.length_range] at hlength
    exact absurd hlength (Nat.not_succ_le_self _)

theorem chooseStruct_notMem (taken : List String) (name : String) :
    chooseStruct taken name ∉ taken := by
  unfold chooseStruct
  dsimp only
  split
  · exact fresh_notMem taken _
  · rename_i hfree
    simpa using hfree

theorem chooseEnum_notMem (taken : List String) (name : String) :
    chooseEnum taken name ∉ taken :=
  fresh_notMem taken _

theorem length_assign (choose : List String → String → String) (taken names : List String) :
    (assign choose taken names).length = names.length := by
  induction names generalizing taken with
  | nil => rfl
  | cons name rest ih => rw [assign, List.length_cons, List.length_cons, ih]

/-- Names chosen in turn are distinct from one another and from those that were taken. -/
theorem assign_nodup {choose : List String → String → String}
    (hchoose : ∀ taken name, choose taken name ∉ taken) (taken names : List String) :
    (assign choose taken names).Nodup ∧ (assign choose taken names).Disjoint taken := by
  induction names generalizing taken with
  | nil => exact ⟨List.nodup_nil, List.disjoint_nil_left taken⟩
  | cons name rest ih =>
    obtain ⟨hnodup, hdisjoint⟩ := ih (choose taken name :: taken)
    obtain ⟨hfirst, hrest⟩ := List.disjoint_cons_right.mp hdisjoint
    exact ⟨List.nodup_cons.mpr ⟨hfirst, hnodup⟩,
      List.disjoint_cons_left.mpr ⟨hchoose taken name, hrest⟩⟩

/-! ### The items of a schema -/

/-- Where no key stands twice, every key leads to the value beside it. -/
theorem map_lookup_zip {keys values : List String} (hkeys : keys.Nodup)
    (hlength : values.length = keys.length) :
    keys.map (fun key => ((keys.zip values).lookup key).getD "") = values := by
  induction keys generalizing values with
  | nil => exact (List.length_eq_zero_iff.mp hlength).symm
  | cons key rest ih =>
    obtain ⟨hkey, hrest⟩ := List.nodup_cons.mp hkeys
    cases values with
    | nil => cases hlength
    | cons value others =>
      rw [List.zip_cons_cons, List.map_cons, List.lookup_cons_self, Option.getD_some,
        List.cons.injEq]
      refine ⟨rfl, Eq.trans (List.map_congr_left fun k hk ↦ ?_) (ih hrest (Nat.succ.inj hlength))⟩
      -- The first key is none of the others.
      have hne : (k == key) = false := beq_false_of_ne fun h ↦ hkey (h ▸ hk)
      rw [List.lookup_cons, hne]

namespace ItemNames

theorem map_struct_ofSchema {s : Schema} (h : (s.combinators.map Combinator.name).Nodup) :
    s.combinators.map (ofSchema s).struct =
      assign chooseStruct ((assign chooseEnum [anyObjectItem] (s.unions.map (·.name))).reverse ++
        [anyObjectItem]) (s.combinators.map Combinator.name) := by
  rw [← map_lookup_zip h (length_assign _ _ _), List.map_map]
  rfl

theorem map_enum_ofSchema {s : Schema} (h : (s.unions.map (·.name)).Nodup) :
    s.unions.map (fun g => (ofSchema s).enum g.name) =
      assign chooseEnum [anyObjectItem] (s.unions.map (·.name)) := by
  rw [← map_lookup_zip h (length_assign _ _ _), List.map_map]
  rfl

/-- No two items of a module have one name. -/
theorem items_nodup {s : Schema} (hcombinators : (s.combinators.map Combinator.name).Nodup)
    (hunions : (s.unions.map (·.name)).Nodup) :
    (anyObjectItem :: (s.unions.map (fun g => (ofSchema s).enum g.name) ++
      s.combinators.map (ofSchema s).struct)).Nodup := by
  rw [map_enum_ofSchema hunions, map_struct_ofSchema hcombinators]
  obtain ⟨henums, hany⟩ :=
    assign_nodup chooseEnum_notMem [anyObjectItem] (s.unions.map (·.name))
  obtain ⟨hstructs, htaken⟩ := assign_nodup chooseStruct_notMem
    ((assign chooseEnum [anyObjectItem] (s.unions.map (·.name))).reverse ++ [anyObjectItem])
    (s.combinators.map Combinator.name)
  obtain ⟨hstructsEnums, hstructsAny⟩ := List.disjoint_append_right.mp htaken
  refine List.nodup_cons.mpr ⟨fun hmem ↦ ?_, henums.append hstructs fun item henum hstruct ↦ ?_⟩
  · rcases List.mem_append.mp hmem with henum | hstruct
    · exact hany henum (List.mem_singleton.mpr rfl)
    · exact hstructsAny hstruct (List.mem_singleton.mpr rfl)
  · exact hstructsEnums hstruct (List.mem_reverse.mpr henum)

end ItemNames

end TypeLang.Generate
