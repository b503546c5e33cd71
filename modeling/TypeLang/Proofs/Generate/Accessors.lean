import TypeLang.Proofs.Generate.Names
import TypeLang.Proofs.Schema.Tables

/-!
Names that do not clash. A name that is taken is numbered until it is not, and the numbering comes
to an end at the first number that is free (`fresh_firstFree`). It cannot make a reserved word of a
name that is none, since reserved words end in letters (`fresh_notMem_words`). So the items of a
module are distinct, and the accessors of an item are distinct names that an item may have
(`namesApart_of_compile`).
-/

set_option autoImplicit false
set_option relaxedAutoImplicit false

namespace TypeLang.Generate

/-! ### Numberings -/

/-- The first of the numberings of a name that is not taken. -/
structure FirstFree (taken : List String) (name chosen : String) : Prop where
  free : chosen ∉ taken
  first : ∃ number, chosen = numbered name number ∧ ∀ k < number, numbered name k ∈ taken

/-- However many names are taken, the search for a free numbering ends at the first one. -/
theorem fresh_firstFree (taken : List String) (name : String) :
    FirstFree taken name (fresh taken name) := by
  have hfree := fresh_notMem taken name
  refine ⟨hfree, ?_⟩
  unfold fresh at hfree ⊢
  rw [List.find?_map] at hfree ⊢
  cases hfind : (List.range (taken.length + 1)).find?
      ((fun candidate => !taken.contains candidate) ∘ numbered name) with
  | none =>
    -- Then the name itself is taken, which is the first of its numberings.
    rw [hfind] at hfree
    have hzero := List.find?_eq_none.mp hfind 0 (List.mem_range.mpr (Nat.succ_pos _))
    have htaken : numbered name 0 ∈ taken := by simpa using hzero
    exact absurd htaken hfree
  | some number =>
    obtain ⟨-, -, hbefore⟩ := List.find?_range_eq_some.mp hfind
    exact ⟨number, rfl, fun k hk ↦ by simpa using hbefore k hk⟩

/-! ### Reserved words -/

/-- Whether a word ends in a letter. -/
def endsInLetter (word : String) : Bool := word.toList.getLast?.any Char.isAlpha

theorem endsInLetter_append {word ending : String} (h : ending ≠ "") :
    endsInLetter (word ++ ending) = endsInLetter ending := by
  have hne : ending.toList ≠ [] := fun hnil ↦ h (String.toList_eq_nil_iff.mp hnil)
  unfold endsInLetter
  rw [String.toList_append, List.getLast?_append, List.getLast?_eq_some_getLast hne, Option.some_or]

theorem isAlpha_of_isDigit {c : Char} (h : c.isDigit = true) : c.isAlpha = false := by
  simp only [Char.isDigit, ge_iff_le, Bool.and_eq_true, decide_eq_true_eq,
    UInt32.le_iff_toNat_le] at h
  have hnine : '9'.val.toNat = 57 := rfl
  have hupper : ¬ 'A'.val ≤ c.val := by
    have hA : 'A'.val.toNat = 65 := rfl
    rw [UInt32.le_iff_toNat_le]
    omega
  have hlower : ¬ 'a'.val ≤ c.val := by
    have ha : 'a'.val.toNat = 97 := rfl
    rw [UInt32.le_iff_toNat_le]
    omega
  unfold Char.isAlpha Char.isUpper Char.isLower
  simp only [ge_iff_le, hupper, hlower, false_and, decide_false, Bool.false_and, Bool.or_self]

/-- A number behind a name ends in a digit. -/
theorem endsInLetter_numbered (name : String) (number : Nat) :
    endsInLetter (numbered name (number + 1)) = false := by
  have hdigits : (toString (number + 2)).toList = Nat.toDigits 10 (number + 2) := Nat.toList_repr
  have hne : Nat.toDigits 10 (number + 2) ≠ [] := Nat.toDigits_ne_nil
  have hne' : toString (number + 2) ≠ "" := Nat.repr_ne_empty
  have hlast := Nat.isDigit_of_mem_toDigits (Nat.succ_pos 9) (Nat.le_refl 10)
    (List.getLast_mem hne)
  show endsInLetter (name ++ toString (number + 2)) = false
  rw [endsInLetter_append hne']
  unfold endsInLetter
  rw [hdigits, List.getLast?_eq_some_getLast hne, Option.any_some, isAlpha_of_isDigit hlast]

/-- Numbering a name does not make it one of some words that end in letters. -/
theorem fresh_notMem_words {words taken : List String} {name : String}
    (hwords : ∀ word ∈ words, endsInLetter word = true) (hname : name ∉ words) :
    fresh taken name ∉ words := by
  obtain ⟨-, number, hnumber, -⟩ := fresh_firstFree taken name
  rw [hnumber]
  cases number with
  | zero => exact hname
  | succ number =>
    intro hmem
    have hletter := hwords _ hmem
    rw [endsInLetter_numbered] at hletter
    cases hletter

theorem endsInLetter_of_mem_keywords : ∀ word ∈ keywords, endsInLetter word = true := by
  decide +kernel

theorem endsInLetter_of_mem_viewMethods : ∀ word ∈ viewMethods, endsInLetter word = true := by
  decide +kernel

theorem escapeKeyword_notMem (name : String) : escapeKeyword name ∉ keywords := by
  unfold escapeKeyword
  split
  · intro hmem
    have hletter := endsInLetter_of_mem_keywords _ hmem
    rw [endsInLetter_append (by decide)] at hletter
    cases hletter
  · rename_i hname
    simpa using hname

/-- An accessor is no keyword and no method that items have anyway. -/
theorem chooseAccessor_notMem_reserved (taken : List String) (name : String) :
    chooseAccessor taken name ∉ keywords ∧ chooseAccessor taken name ∉ viewMethods := by
  have hfields : ∀ method ∈ viewMethods,
      method ++ "_field" ∉ keywords ∧ method ++ "_field" ∉ viewMethods := by
    decide +kernel
  have hwanted : ∀ wanted, wanted ∉ keywords ∧ wanted ∉ viewMethods →
      fresh taken wanted ∉ keywords ∧ fresh taken wanted ∉ viewMethods := fun wanted h ↦
    ⟨fresh_notMem_words endsInLetter_of_mem_keywords h.1,
      fresh_notMem_words endsInLetter_of_mem_viewMethods h.2⟩
  unfold chooseAccessor
  dsimp only
  refine hwanted _ ?_
  split
  · rename_i hmethod
    exact hfields _ (List.contains_iff_mem.mp hmethod)
  · rename_i hmethod
    exact ⟨escapeKeyword_notMem _, fun hmem ↦ hmethod (List.contains_iff_mem.mpr hmem)⟩

/-! ### The names of a module -/

theorem exists_of_mem_assign {choose : List String → String → String} {taken names : List String}
    {chosen : String} (h : chosen ∈ assign choose taken names) :
    ∃ known, ∃ name ∈ names, chosen = choose known name := by
  induction names generalizing taken with
  | nil => cases h
  | cons name rest ih =>
    rcases List.mem_cons.mp h with rfl | hrest
    · exact ⟨taken, name, List.mem_cons_self, rfl⟩
    · obtain ⟨known, other, hother, heq⟩ := ih hrest
      exact ⟨known, other, List.mem_cons_of_mem _ hother, heq⟩

theorem accessors_nodup (arguments : List String) : (accessors arguments).Nodup :=
  (assign_nodup (fun taken _ ↦ fresh_notMem taken _) [] arguments).1

/-- The accessors of a combinator. -/
def accessorsOf (c : Combinator) : List String :=
  accessors (c.declaration.arguments.map Argument.name)

/-- The names of a module do not clash: no two items have one name, and the accessors of an item,
one to an argument, are distinct and none of the words that an item cannot have for an accessor. -/
structure NamesApart (s : Schema) : Prop where
  items_nodup : (anyObjectItem :: (s.unions.map (fun g => (ItemNames.ofSchema s).enum g.name) ++
    s.combinators.map (ItemNames.ofSchema s).struct)).Nodup
  accessors_length : ∀ c ∈ s.combinators,
    (accessorsOf c).length = c.declaration.arguments.length
  accessors_nodup : ∀ c ∈ s.combinators, (accessorsOf c).Nodup
  accessors_allowed : ∀ c ∈ s.combinators, ∀ accessor ∈ accessorsOf c,
    accessor ∉ keywords ∧ accessor ∉ viewMethods

theorem namesApart_of_compatible {ds : List Declaration} (h : Declaration.Compatible ds) :
    NamesApart ⟨ds.map .ofDeclaration⟩ where
  items_nodup := by
    refine ItemNames.items_nodup ?_ ?_
    · rw [List.map_map]
      exact h.names_nodup
    · exact Schema.nodup_map_name_unions _
  accessors_length c _ := by
    unfold accessorsOf accessors
    rw [length_assign, List.length_map]
  accessors_nodup c _ := Generate.accessors_nodup _
  accessors_allowed c _ accessor haccessor := by
    obtain ⟨known, name, -, rfl⟩ := exists_of_mem_assign haccessor
    exact chooseAccessor_notMem_reserved known name

/-- The names of the module of a schema do not clash, and every search for a free name ends at the
first that is free. -/
theorem namesApart_of_compile {source : String} {s : Schema} (h : Schema.compile source = .ok s) :
    NamesApart s ∧ ∀ taken name, FirstFree taken name (fresh taken name) := by
  unfold Schema.compile at h
  cases hds : Declaration.parse source with
  | error e => rw [hds] at h; cases h
  | ok ds =>
    rw [hds] at h
    obtain ⟨hcompatible, rfl⟩ := Schema.ofDeclarations_eq_ok_iff.mp h
    exact ⟨namesApart_of_compatible hcompatible, fresh_firstFree⟩

/-- The source of a schema in which names are the same but for their case and for dots, or become
words that are reserved. -/
def clashingSource : String :=
  "any.object#1 type:int build:int buildField:int Build:int = Tree; any_object#2 = Tree; " ++
  "tree#3 self:int Self:int = Tree;"

/-- Every name gives way to those taken before it. -/
theorem namesApart_clashing :
    ∃ s, Schema.compile clashingSource = .ok s ∧
      s.combinators.map (ItemNames.ofSchema s).struct =
        ["AnyObjectCtor", "AnyObjectCtor2", "TreeCtor"] ∧
      s.combinators.map accessorsOf =
        [["type_", "build_field", "build_field2", "build_field3"], [], ["self_", "self_2"]] ∧
      NamesApart s := by
  have hrun : (Schema.compile clashingSource).toOption.map (fun s =>
      (s.combinators.map (ItemNames.ofSchema s).struct, s.combinators.map accessorsOf)) =
      some (["AnyObjectCtor", "AnyObjectCtor2", "TreeCtor"],
        [["type_", "build_field", "build_field2", "build_field3"], [], ["self_", "self_2"]]) := by
    decide +kernel
  obtain ⟨s, hs, hpair⟩ := Option.map_eq_some_iff.mp hrun
  obtain ⟨hstructs, haccessors⟩ := Prod.mk.inj hpair
  have hcompile := Wire.ok_of_toOption hs
  exact ⟨s, hcompile, hstructs, haccessors, (namesApart_of_compile hcompile).1⟩

end TypeLang.Generate
