import TypeLang.Declaration.Reader
import TypeLang.Proofs.Text.Numerals

/-!
The grammar of schema texts, over the tokens of a text. A relation `Spelled` says that some tokens
start with the spelling of a thing and which tokens stand behind it; it is defined by the forms that
the thing can take, without regard to how a text is read.

```text
type       := # | ! name | % type | name | name < type >
argument   := name : type | name : mask.bit ? type
parameter  := { name : name }
statement  := name [# digits] parameter* argument* = type ;
text       := (---functions--- | ---types--- | ; | statement)*
```

What a production asks beside the kinds of its tokens is part of it: an exclamation mark stands
before a generic parameter of the same statement and not between angle brackets, a type of vectors
is applied, a condition names a bit of an earlier mask, and arguments have names of their own.

A production that may end in a name is bounded by the token behind it. `Token.Leads` speaks of that
token, and the lemmas at the end say which kinds of tokens a production can start with.
-/

set_option autoImplicit false
set_option relaxedAutoImplicit false

namespace TypeLang

/-- Whether some tokens start with one of a given kind. -/
def Token.Leads (kind : Token.Kind) : List Token → Prop
  | [] => False
  | t :: _ => t.kind = kind

theorem Token.leads_cons {kind : Token.Kind} {t : Token} {rest : List Token} :
    Leads kind (t :: rest) ↔ t.kind = kind :=
  Iff.rfl

/-- The spelling of a type that may invoke some generic parameters. -/
inductive TypeTerm.Spelled : List GenericParameter → List Token → TypeTerm → List Token → Prop
  | mask {generics : List GenericParameter} {hash : Token} {rest : List Token}
      (hhash : hash.kind = .hash) : Spelled generics (hash :: rest) .mask rest
  | invocation {generics : List GenericParameter} {bang name : Token} {rest : List Token}
      (hbang : bang.kind = .bang) (hname : name.kind = .ident)
      (hparameter : ∃ p ∈ generics, p.name = name.text) :
      Spelled generics (bang :: name :: rest) (.invocation name.text) rest
  | bare {generics : List GenericParameter} {percent : Token} {tokens rest : List Token}
      {type : TypeTerm} (hpercent : percent.kind = .percent)
      (htype : Spelled generics tokens type rest) :
      Spelled generics (percent :: tokens) type.asBare rest
  | name {generics : List GenericParameter} {name : Token} {rest : List Token}
      (hname : name.kind = .ident) (hvector : (Head.ofText name.text).isVector = false) :
      Spelled generics (name :: rest) (.ofText name.text) rest
  | applied {generics : List GenericParameter} {name left right : Token}
      {tokens rest : List Token} {element : TypeTerm} (hname : name.kind = .ident)
      (hleft : left.kind = .leftAngle) (helement : Spelled [] tokens element (right :: rest))
      (hright : right.kind = .rightAngle) :
      Spelled generics (name :: left :: tokens) (.applied (Head.ofText name.text) element) rest

/-- A name of the form `mask.bit`, where the mask is one of the arguments before it. -/
structure Condition.Spelled (previous : List Argument) (text : String) (c : Condition) : Prop where
  form : ∃ digits : String, text = c.field ++ "." ++ digits ∧
    Text.Numeral.Stands 10 digits.toList c.bit.toNat
  bit_lt : c.bit.toNat < 32
  declared : ∃ a ∈ previous, a.name = c.field ∧ a.type.isMask = true

/-- The spelling of an argument behind other arguments. -/
inductive Argument.Spelled (generics : List GenericParameter) (previous : List Argument) :
    List Token → Argument → List Token → Prop
  | plain {name colon : Token} {tokens rest : List Token} {type : TypeTerm}
      (hname : name.kind = .ident) (hplain : '.' ∉ name.text.toList)
      (hfresh : ∀ a ∈ previous, a.name ≠ name.text) (hcolon : colon.kind = .colon)
      (htype : TypeTerm.Spelled generics tokens type rest) :
      Spelled generics previous (name :: colon :: tokens) ⟨name.text, type, none⟩ rest
  | conditional {name colon mask question : Token} {tokens rest : List Token} {type : TypeTerm}
      {condition : Condition} (hname : name.kind = .ident) (hplain : '.' ∉ name.text.toList)
      (hfresh : ∀ a ∈ previous, a.name ≠ name.text) (hcolon : colon.kind = .colon)
      (hmask : mask.kind = .ident) (hquestion : question.kind = .question)
      (hcondition : Condition.Spelled previous mask.text condition)
      (htype : TypeTerm.Spelled generics tokens type rest) (hunmasked : type.isMask = false) :
      Spelled generics previous (name :: colon :: mask :: question :: tokens)
        ⟨name.text, type, some condition⟩ rest

/-- The spelling of arguments one behind the other, and behind other arguments. -/
inductive Argument.SpelledAll (generics : List GenericParameter) :
    List Argument → List Token → List Argument → List Token → Prop
  | nil {previous : List Argument} {rest : List Token} : SpelledAll generics previous rest [] rest
  | cons {previous more : List Argument} {a : Argument} {tokens between rest : List Token}
      (hfirst : Argument.Spelled generics previous tokens a between)
      (hmore : SpelledAll generics (previous ++ [a]) between more rest) :
      SpelledAll generics previous tokens (a :: more) rest

/-- The spelling of generic parameters, each between braces. -/
inductive GenericParameter.SpelledAll :
    List Token → List GenericParameter → List Token → Prop
  | nil {rest : List Token} : SpelledAll rest [] rest
  | cons {left name colon constraint right : Token} {between rest : List Token}
      {more : List GenericParameter} (hleft : left.kind = .leftBrace) (hname : name.kind = .ident)
      (hcolon : colon.kind = .colon) (hconstraint : constraint.kind = .ident)
      (hright : right.kind = .rightBrace) (hmore : SpelledAll between more rest) :
      SpelledAll (left :: name :: colon :: constraint :: right :: between)
        (⟨name.text, constraint.text⟩ :: more) rest

namespace Declaration

/-- The spelling of a tag, which may be left out: at most eight hexadecimal digits behind a hash
sign. -/
inductive TagSpelled : List Token → Option UInt32 → List Token → Prop
  | absent {rest : List Token} : TagSpelled rest none rest
  | present {hash digits : Token} {rest : List Token} {value : Nat} (hhash : hash.kind = .hash)
      (hdigits : digits.kind = .number) (hlength : digits.text.toList.length ≤ 8)
      (hvalue : Text.Numeral.Stands 16 digits.text.toList value) :
      TagSpelled (hash :: digits :: rest) (some (UInt32.ofNat value)) rest

/-- The spelling of a declaration, which stands where the name of its combinator does. -/
inductive Spelled (isFunction : Bool) : List Token → Declaration → List Token → Prop
  | statement {name equals semicolon : Token}
      {behindName behindTag behindGenerics behindEquals rest : List Token} {tag : Option UInt32}
      {generics : List GenericParameter} {arguments : List Argument} {result : TypeTerm}
      (hname : name.kind = .ident) (htag : TagSpelled behindName tag behindTag)
      (hgenerics : GenericParameter.SpelledAll behindTag generics behindGenerics)
      (harguments : Argument.SpelledAll generics [] behindGenerics arguments
        (equals :: behindEquals))
      (hequals : equals.kind = .equals)
      (hresult : TypeTerm.Spelled generics behindEquals result (semicolon :: rest))
      (hsemicolon : semicolon.kind = .semicolon) :
      Spelled isFunction (name :: behindName)
        { name := QualifiedName.ofText name.text
          tag := tag
          generics := generics
          arguments := arguments
          result := result
          isFunction := isFunction
          position := name.position } rest

/-- The spelling of a whole text. A declaration is a function if the last marker before it says
so. -/
inductive SpelledAll : Bool → List Token → List Declaration → Prop
  | nil {isFunction : Bool} : SpelledAll isFunction [] []
  | functions {isFunction : Bool} {marker : Token} {rest : List Token} {ds : List Declaration}
      (hmarker : marker.kind = .sectionMarker) (htext : marker.text = "---functions---")
      (hrest : SpelledAll true rest ds) : SpelledAll isFunction (marker :: rest) ds
  | types {isFunction : Bool} {marker : Token} {rest : List Token} {ds : List Declaration}
      (hmarker : marker.kind = .sectionMarker) (htext : marker.text = "---types---")
      (hrest : SpelledAll false rest ds) : SpelledAll isFunction (marker :: rest) ds
  | semicolon {isFunction : Bool} {semicolon : Token} {rest : List Token} {ds : List Declaration}
      (hsemicolon : semicolon.kind = .semicolon) (hrest : SpelledAll isFunction rest ds) :
      SpelledAll isFunction (semicolon :: rest) ds
  | statement {isFunction : Bool} {tokens rest : List Token} {d : Declaration}
      {ds : List Declaration} (hfirst : Spelled isFunction tokens d rest)
      (hrest : SpelledAll isFunction rest ds) : SpelledAll isFunction tokens (d :: ds)

end Declaration

/-! ### What a spelling starts with -/

theorem Argument.Spelled.exists_name {generics : List GenericParameter} {previous : List Argument}
    {tokens rest : List Token} {a : Argument} (h : Spelled generics previous tokens a rest) :
    ∃ name behind, tokens = name :: behind ∧ name.kind = .ident ∧ a.name = name.text := by
  cases h with
  | plain hname => exact ⟨_, _, rfl, hname, rfl⟩
  | conditional hname => exact ⟨_, _, rfl, hname, rfl⟩

theorem Argument.Spelled.fresh {generics : List GenericParameter} {previous : List Argument}
    {tokens rest : List Token} {a : Argument} (h : Spelled generics previous tokens a rest) :
    ∀ b ∈ previous, b.name ≠ a.name := by
  cases h with
  | plain _ _ hfresh => exact hfresh
  | conditional _ _ hfresh => exact hfresh

theorem Argument.Spelled.names_nodup {generics : List GenericParameter} {previous : List Argument}
    {tokens rest : List Token} {a : Argument} (h : Spelled generics previous tokens a rest)
    (hnodup : (previous.map Argument.name).Nodup) :
    ((previous ++ [a]).map Argument.name).Nodup := by
  rw [List.map_append, List.nodup_append]
  refine ⟨hnodup, List.nodup_cons.mpr ⟨List.not_mem_nil, List.nodup_nil⟩, ?_⟩
  intro name hname other hother
  obtain ⟨b, hb, rfl⟩ := List.mem_map.mp hname
  obtain rfl := List.mem_singleton.mp hother
  exact h.fresh b hb

theorem Argument.SpelledAll.not_leads {generics : List GenericParameter}
    {previous found : List Argument} {tokens rest : List Token} {kind : Token.Kind}
    (h : SpelledAll generics previous tokens found rest) (hrest : ¬ Token.Leads kind rest)
    (hkind : kind ≠ .ident) : ¬ Token.Leads kind tokens := by
  cases h with
  | nil => exact hrest
  | cons hfirst =>
    obtain ⟨name, behind, rfl, hname, _⟩ := hfirst.exists_name
    exact fun hleads ↦ hkind (hleads.symm.trans hname)

theorem GenericParameter.SpelledAll.not_leads {tokens rest : List Token}
    {found : List GenericParameter} {kind : Token.Kind} (h : SpelledAll tokens found rest)
    (hrest : ¬ Token.Leads kind rest) (hkind : kind ≠ .leftBrace) : ¬ Token.Leads kind tokens := by
  cases h with
  | nil => exact hrest
  | cons hleft => exact fun hleads ↦ hkind (hleads.symm.trans hleft)

/-! ### What a spelling leaves -/

theorem TypeTerm.Spelled.subset {generics : List GenericParameter} {tokens rest : List Token}
    {type : TypeTerm} (h : Spelled generics tokens type rest) : rest ⊆ tokens := by
  induction h with
  | mask => exact List.subset_cons_self _ _
  | invocation => exact List.subset_cons_of_subset _ (List.subset_cons_self _ _)
  | bare _ _ ih => exact List.subset_cons_of_subset _ ih
  | name => exact List.subset_cons_self _ _
  | applied _ _ _ _ ih =>
    have hbehind := List.Subset.trans (List.subset_cons_self _ _) ih
    exact List.subset_cons_of_subset _ (List.subset_cons_of_subset _ hbehind)

theorem Argument.Spelled.subset {generics : List GenericParameter} {previous : List Argument}
    {tokens rest : List Token} {a : Argument} (h : Spelled generics previous tokens a rest) :
    rest ⊆ tokens := by
  cases h with
  | plain _ _ _ _ htype =>
    exact List.subset_cons_of_subset _ (List.subset_cons_of_subset _ htype.subset)
  | conditional _ _ _ _ _ _ _ htype =>
    exact List.subset_cons_of_subset _ (List.subset_cons_of_subset _
      (List.subset_cons_of_subset _ (List.subset_cons_of_subset _ htype.subset)))

theorem Argument.SpelledAll.subset {generics : List GenericParameter}
    {previous found : List Argument} {tokens rest : List Token}
    (h : SpelledAll generics previous tokens found rest) : rest ⊆ tokens := by
  induction h with
  | nil => exact List.Subset.refl _
  | cons hfirst _ ih => exact List.Subset.trans ih hfirst.subset

theorem GenericParameter.SpelledAll.subset {tokens rest : List Token}
    {found : List GenericParameter} (h : SpelledAll tokens found rest) : rest ⊆ tokens := by
  induction h with
  | nil => exact List.Subset.refl _
  | @cons left name colon constraint right between _ _ _ _ _ _ _ _ ih =>
    exact List.Subset.trans ih
      (List.subset_append_right [left, name, colon, constraint, right] between)

theorem Declaration.TagSpelled.subset {tokens rest : List Token} {tag : Option UInt32}
    (h : TagSpelled tokens tag rest) : rest ⊆ tokens := by
  cases h with
  | absent => exact List.Subset.refl _
  | present => exact List.subset_cons_of_subset _ (List.subset_cons_self _ _)

theorem Declaration.Spelled.subset {isFunction : Bool} {tokens rest : List Token} {d : Declaration}
    (h : Spelled isFunction tokens d rest) : rest ⊆ tokens := by
  cases h with
  | statement _ htag hgenerics harguments _ hresult =>
    have hbehindArguments := List.Subset.trans (List.subset_cons_self _ _) hresult.subset
    have hbehindGenerics :=
      List.Subset.trans (List.subset_cons_of_subset _ hbehindArguments) harguments.subset
    have hbehindTag := List.Subset.trans hbehindGenerics hgenerics.subset
    exact List.subset_cons_of_subset _ (List.Subset.trans hbehindTag htag.subset)

/-- Every declaration of a text is spelled by some of its tokens. -/
theorem Declaration.SpelledAll.exists_spelled {isFunction : Bool} {tokens : List Token}
    {ds : List Declaration} (h : SpelledAll isFunction tokens ds) {d : Declaration} (hd : d ∈ ds) :
    ∃ inFunctions own rest, own ⊆ tokens ∧ Spelled inFunctions own d rest := by
  induction h with
  | nil => cases hd
  | functions _ _ _ ih | types _ _ _ ih | semicolon _ _ ih =>
    obtain ⟨inFunctions, own, rest, hown, hspelled⟩ := ih hd
    exact ⟨inFunctions, own, rest, List.subset_cons_of_subset _ hown, hspelled⟩
  | statement hfirst _ ih =>
    rcases List.mem_cons.mp hd with rfl | hd
    · exact ⟨_, _, _, List.Subset.refl _, hfirst⟩
    · obtain ⟨inFunctions, own, rest, hown, hspelled⟩ := ih hd
      exact ⟨inFunctions, own, rest, List.Subset.trans hown hfirst.subset, hspelled⟩

end TypeLang
