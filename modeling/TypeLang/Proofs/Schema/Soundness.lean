import TypeLang.Proofs.Declaration.Arguments
import TypeLang.Proofs.Wire.Place
import TypeLang.Proofs.Wire.Presence
import TypeLang.Schema.Basic

/-!
What a compiled schema is known to be. The masks of a combinator are numbered in the order of its
fields and every gate is a bit of an earlier mask (`Field.Numbered`), so all gates can be asked
(`Schema.Sound.testable`); fields have names of their own (`Combinator.Sound`), and so have
combinators, whose tags differ as well (`Schema.Sound`).
-/

set_option autoImplicit false
set_option relaxedAutoImplicit false

namespace TypeLang

open Wire

/-! ### Masks and gates -/

/-- Fields whose masks are numbered from `n` on and have no gates, and whose gates are bits of
masks before them. -/
inductive Field.Numbered : Nat → List Field → Prop
  | nil (n : Nat) : Numbered n []
  | mask {n : Nat} {name : String} {rest : List Field} (hlimit : n < maskLimit)
      (hrest : Numbered (n + 1) rest) : Numbered n (⟨name, .mask, none, some n⟩ :: rest)
  | plain {n : Nat} {f : Field} {rest : List Field} (hslot : f.slot = none)
      (hkind : f.kind ≠ .mask) (hgate : ∀ g, f.gate = some g → g.slot < n ∧ g.bit < 32)
      (hrest : Numbered n rest) : Numbered n (f :: rest)

/-- All their gates can be asked. -/
theorem Field.Numbered.testable {n : Nat} {fields : List Field} (h : Numbered n fields) :
    ∀ f ∈ fields, f.Testable := by
  induction h with
  | nil => exact nofun
  | mask _ _ ih => exact List.forall_mem_cons.mpr ⟨nofun, ih⟩
  | plain _ _ hgate _ ih => exact List.forall_mem_cons.mpr ⟨fun g hg ↦ (hgate g hg).2, ih⟩

theorem Kind.builtin?_ne_mask (base : String) : builtin? base ≠ some mask := by
  unfold builtin?
  split <;> simp

theorem Kind.ofHead_eq_mask_iff (isGeneric : String → Bool) (head : TypeTerm.Head) :
    ofHead isGeneric head = mask ↔ head.name.base = "#" := by
  unfold ofHead
  dsimp only
  by_cases hbase : head.name.base = "#"
  · simp [hbase]
  · rw [if_neg (by simpa using hbase)]
    refine ⟨fun h ↦ ?_, fun h ↦ absurd h hbase⟩
    split at h
    · cases h
    · split at h
      · cases h
      · cases hbuiltin : builtin? head.name.base with
        | none => rw [hbuiltin] at h; cases h
        | some kind =>
          rw [hbuiltin] at h
          obtain rfl : kind = mask := h
          exact absurd hbuiltin (builtin?_ne_mask _)

theorem TypeTerm.Head.base_ne_of_isVector {head : TypeTerm.Head} (h : head.isVector = true) :
    head.name.base ≠ "#" := by
  intro hbase
  unfold isVector at h
  rw [hbase, Bool.and_eq_true_iff] at h
  exact absurd h.2 (by decide)

/-- A field is a mask when its argument has the type of one. -/
theorem Kind.ofTerm_eq_mask_iff (isGeneric : String → Bool) (t : TypeTerm) :
    ofTerm isGeneric t = mask ↔ t.isMask = true := by
  have hhead : ∀ head : TypeTerm.Head, ∀ kind : Kind, kind ≠ mask →
      ((if head.isVector && !isGeneric head.name.base then kind
        else ofHead isGeneric head) = mask ↔ (head.name.base == "#") = true) := by
    intro head kind hkind
    rw [beq_iff_eq]
    by_cases hvector : (head.isVector && !isGeneric head.name.base) = true
    · rw [if_pos hvector]
      have hbase := TypeTerm.Head.base_ne_of_isVector (Bool.and_eq_true_iff.mp hvector).1
      exact ⟨fun h ↦ absurd h hkind, fun h ↦ absurd h hbase⟩
    · rw [if_neg hvector]
      exact ofHead_eq_mask_iff isGeneric head
  cases t with
  | name head => exact hhead head _ (by simp)
  | applied head argument => exact hhead head _ (by simp)

namespace Field

theorem resolveGate_eq_ok {owner : Declaration} {a : Argument} {masks : List String}
    {gate : Option Gate} (h : resolveGate owner a masks = .ok gate) (hfits : a.FitsAlone) :
    ∀ g, gate = some g → g.slot < masks.length ∧ g.bit < 32 := by
  unfold resolveGate at h
  split at h
  · cases h
    exact nofun
  · rename_i c hcondition
    split at h
    · rename_i slot hslot
      cases h
      intro g hg
      cases hg
      exact ⟨(List.findIdx?_eq_some_iff_getElem.mp hslot).1, hfits.bit_lt c hcondition⟩
    · cases h

theorem resolveAll_numbered {owner : Declaration} {args : List Argument}
    (hfits : ∀ a ∈ args, a.FitsAlone) {masks : List String} (hmasks : masks.length ≤ maskLimit)
    {fields : List Field} (h : resolveAll owner masks args = .ok fields) :
    Numbered masks.length fields := by
  induction args generalizing masks fields with
  | nil => cases h; exact .nil _
  | cons a rest ih =>
    have hhere := hfits a (by simp)
    rw [resolveAll] at h
    unfold resolve at h
    dsimp only at h
    by_cases hkind : Kind.ofTerm owner.isGeneric a.type = .mask
    · rw [if_pos hkind] at h
      by_cases hfull : masks.length = maskLimit
      · rw [if_pos hfull] at h
        cases h
      · -- A mask is unconditional, so its gate is none.
        have hnone := hhere.unconditional ((Kind.ofTerm_eq_mask_iff _ _).mp hkind)
        have hgate : resolveGate owner a (masks ++ [a.name]) = .ok none := by
          unfold resolveGate
          rw [hnone]
        rw [if_neg hfull, hgate] at h
        obtain ⟨behind, hbehind, rfl⟩ := map_ok_iff.mp h
        have hbound : (masks ++ [a.name]).length ≤ maskLimit := by
          rw [List.length_append, List.length_singleton]
          omega
        have hrest := ih (fun b hb ↦ hfits b (by simp [hb])) hbound hbehind
        rw [List.length_append, List.length_singleton] at hrest
        rw [hkind]
        exact .mask (by omega) hrest
    · rw [if_neg hkind] at h
      cases hgate : resolveGate owner a masks with
      | error fault => rw [hgate] at h; cases h
      | ok gate =>
        rw [hgate] at h
        obtain ⟨behind, hbehind, rfl⟩ := map_ok_iff.mp h
        have hrest := ih (fun b hb ↦ hfits b (by simp [hb])) hmasks hbehind
        exact .plain rfl hkind (resolveGate_eq_ok hgate hhere) hrest

theorem resolveAll_names {owner : Declaration} {args : List Argument} {masks : List String}
    {fields : List Field} (h : resolveAll owner masks args = .ok fields) :
    fields.map Field.name = args.map Argument.name := by
  induction args generalizing masks fields with
  | nil => cases h; rfl
  | cons a rest ih =>
    rw [resolveAll] at h
    cases hfield : resolve owner masks a with
    | error fault => rw [hfield] at h; cases h
    | ok found =>
      obtain ⟨field, masks'⟩ := found
      rw [hfield] at h
      obtain ⟨behind, hbehind, rfl⟩ := map_ok_iff.mp h
      have hname : field.name = a.name := by
        unfold resolve at hfield
        dsimp only at hfield
        split at hfield
        · split at hfield
          · cases hfield
          · obtain ⟨_, _, hpair⟩ := map_ok_iff.mp hfield
            cases hpair
            rfl
        · obtain ⟨_, _, hpair⟩ := map_ok_iff.mp hfield
          cases hpair
          rfl
      rw [List.map_cons, List.map_cons, hname, ih hbehind]

end Field

/-! ### Combinators and schemas -/

/-- A combinator whose fields are numbered and have names of their own. -/
structure Combinator.Sound (c : Combinator) : Prop where
  numbered : Field.Numbered 0 c.fields
  names_eq : c.fields.map Field.name = c.declaration.arguments.map Argument.name
  names_nodup : (c.fields.map Field.name).Nodup

/-- A schema of such combinators, in which names and tags each belong to one combinator. -/
structure Schema.Sound (s : Schema) : Prop where
  combinator_sound : ∀ c ∈ s.combinators, c.Sound
  name_injective : ∀ c ∈ s.combinators, ∀ d ∈ s.combinators, c.name = d.name → c = d
  tag_injective : ∀ c ∈ s.combinators, ∀ d ∈ s.combinators, ∀ tag,
    c.tag = some tag → d.tag = some tag → c = d

/-- A schema all of whose gates can be asked. -/
def Schema.Testable (s : Schema) : Prop := ∀ c ∈ s.combinators, ∀ f ∈ c.fields, f.Testable

namespace Schema

theorem Sound.testable {s : Schema} (hs : s.Sound) : s.Testable :=
  fun c hc ↦ (hs.combinator_sound c hc).numbered.testable

theorem sound_nil : Sound ⟨[]⟩ := ⟨nofun, nofun, nofun⟩

theorem Sound.accept {earlier : List Combinator} (h : Sound ⟨earlier⟩) {d : Declaration}
    (hargs : Argument.Sound d.arguments) {c : Combinator} (haccept : accept earlier d = .ok c) :
    Sound ⟨earlier ++ [c]⟩ := by
  unfold Schema.accept at haccept
  split at haccept
  · cases haccept
  rename_i hname
  split at haccept
  · cases haccept
  rename_i htag
  obtain ⟨fields, hfields, rfl⟩ := map_ok_iff.mp haccept
  have hnames := Field.resolveAll_names hfields
  have hsound : Combinator.Sound ⟨d, fields⟩ :=
    ⟨Field.resolveAll_numbered hargs.fits (Nat.zero_le _) hfields, hnames,
      by rw [hnames]; exact hargs.names_nodup⟩
  have hfreshName : ∀ e ∈ earlier, e.name ≠ d.qualifiedName := fun e he heq ↦
    absurd (beq_iff_eq.mpr heq) (List.find?_eq_none.mp hname e he)
  have hfreshTag : ∀ e ∈ earlier, ∀ tag, e.tag = some tag → d.tag ≠ some tag := by
    intro e he tag hetag hdtag
    rw [hdtag] at htag
    have hnone : earlier.find? (·.tag == some tag) = none := by simpa using htag
    exact absurd (beq_iff_eq.mpr hetag) (List.find?_eq_none.mp hnone e he)
  constructor
  · intro e he
    rcases List.mem_append.mp he with he | he
    · exact h.combinator_sound e he
    · obtain rfl := List.mem_singleton.mp he
      exact hsound
  · intro e he f hf heq
    rcases List.mem_append.mp he with he | he <;> rcases List.mem_append.mp hf with hf | hf
    · exact h.name_injective e he f hf heq
    · obtain rfl := List.mem_singleton.mp hf
      exact absurd heq (hfreshName e he)
    · obtain rfl := List.mem_singleton.mp he
      exact absurd heq.symm (hfreshName f hf)
    · rw [List.mem_singleton.mp he, List.mem_singleton.mp hf]
  · intro e he f hf tag hetag hftag
    rcases List.mem_append.mp he with he | he <;> rcases List.mem_append.mp hf with hf | hf
    · exact h.tag_injective e he f hf tag hetag hftag
    · obtain rfl := List.mem_singleton.mp hf
      exact absurd hftag (hfreshTag e he tag hetag)
    · obtain rfl := List.mem_singleton.mp he
      exact absurd hetag (hfreshTag f hf tag hftag)
    · rw [List.mem_singleton.mp he, List.mem_singleton.mp hf]

theorem Sound.acceptAll {ds : List Declaration} (hargs : ∀ d ∈ ds, Argument.Sound d.arguments)
    {earlier combinators : List Combinator} (h : Sound ⟨earlier⟩)
    (haccept : acceptAll earlier ds = .ok combinators) : Sound ⟨combinators⟩ := by
  induction ds generalizing earlier with
  | nil => cases haccept; exact h
  | cons d rest ih =>
    rw [Schema.acceptAll] at haccept
    cases hfirst : Schema.accept earlier d with
    | error fault => rw [hfirst] at haccept; cases haccept
    | ok c =>
      rw [hfirst] at haccept
      exact ih (fun e he ↦ hargs e (by simp [he])) (h.accept (hargs d (by simp)) hfirst) haccept

/-- A compiled schema is sound. -/
theorem sound_of_compile {source : String} {s : Schema} (h : compile source = .ok s) :
    s.Sound := by
  unfold compile at h
  cases hparse : Declaration.parse source with
  | error e => rw [hparse] at h; cases h
  | ok ds =>
    rw [hparse] at h
    dsimp only at h
    unfold ofDeclarations at h
    split at h
    · cases h
    · rename_i combinators haccept
      dsimp only at h
      split at h
      · cases h
      · cases h
        exact sound_nil.acceptAll (Declaration.arguments_sound_of_parse hparse) haccept

variable {s : Schema} {c : Combinator}

theorem mem_of_combinator? {name : String} (h : s.combinator? name = some c) :
    c ∈ s.combinators ∧ c.name = name :=
  ⟨List.mem_of_find?_eq_some h, by simpa using List.find?_some h⟩

theorem mem_of_byTag? {tag : UInt32} (h : s.byTag? tag = some c) :
    c ∈ s.combinators ∧ c.tag = some tag :=
  ⟨List.mem_of_find?_eq_some h, by simpa using List.find?_some h⟩

theorem Sound.combinator?_eq (hs : s.Sound) (hc : c ∈ s.combinators) :
    s.combinator? c.name = some c := by
  cases hfind : s.combinator? c.name with
  | none => simpa using List.find?_eq_none.mp hfind c hc
  | some d =>
    obtain ⟨hd, hname⟩ := mem_of_combinator? hfind
    rw [hs.name_injective d hd c hc hname]

theorem Sound.byTag?_eq (hs : s.Sound) (hc : c ∈ s.combinators) {tag : UInt32}
    (htag : c.tag = some tag) : s.byTag? tag = some c := by
  cases hfind : s.byTag? tag with
  | none => exact absurd (beq_iff_eq.mpr htag) (List.find?_eq_none.mp hfind c hc)
  | some d =>
    obtain ⟨hd, hdtag⟩ := mem_of_byTag? hfind
    rw [hs.tag_injective d hd c hc tag hdtag htag]

end Schema

/-! ### A schema of lines -/

/-- The source of a schema in which a line may have a label and a next line. -/
def lineSource : String :=
  "line#00000001 flags:# label:flags.0?string next:flags.1?Line points:vector<int> = Line;"

/-- The combinator of lines. -/
def line : Combinator where
  declaration :=
    { name := ⟨none, "line"⟩
      tag := some 1
      generics := []
      arguments :=
        [⟨"flags", .mask, none⟩, ⟨"label", .ofText "string", some ⟨"flags", 0⟩⟩,
          ⟨"next", .ofText "Line", some ⟨"flags", 1⟩⟩,
          ⟨"points", .applied ⟨⟨none, "vector"⟩, true, false⟩ (.ofText "int"), none⟩]
      result := .ofText "Line"
      isFunction := false
      position := ⟨0, 1, 1⟩ }
  fields :=
    [⟨"flags", .mask, none, some 0⟩, ⟨"label", .string, some ⟨0, 0⟩, none⟩,
      ⟨"next", .object "Line" false, some ⟨0, 1⟩, none⟩,
      ⟨"points", .vector false .int, none, none⟩]

/-- The schema of lines. -/
def lineSchema : Schema := ⟨[line]⟩

theorem compile_lineSource : Schema.compile lineSource = .ok lineSchema :=
  ok_of_toOption (by decide +kernel)

/-- A line with a label and a next line, as bytes. -/
def lineBytes : ByteArray :=
  ⟨#[1, 0, 0, 0, 3, 0, 0, 0, 1, 97, 0, 0, 1, 0, 0, 0, 0, 0, 0, 0, 1, 0, 0, 0, 7, 0, 0, 0,
    0, 0, 0, 0]⟩

/-! ### A schema of trees -/

/-- The source of a schema of trees with labels at their leaves. -/
def treeSource : String :=
  "leaf#00000001 label:string = Tree; node#00000002 left:Tree right:Tree = Tree;"

/-- A node with two leaves, as bytes. -/
def treeBytes : ByteArray :=
  ⟨#[2, 0, 0, 0, 1, 0, 0, 0, 1, 97, 0, 0, 1, 0, 0, 0, 1, 98, 0, 0]⟩

end TypeLang
