import TypeLang.Generate.Code

/-!
Code as the lines of a text. What a text has is said of its lines alone: a block is a head, lines
that are indented further, and a brace (`HasBlock`), and it may have another block in its body
(`HasInner`). The text of some code has the lines of every piece of it (`emits_render`), and among
them those of its blocks.
-/

set_option autoImplicit false
set_option relaxedAutoImplicit false

namespace TypeLang.Generate

/-- A text consists of lines that are all ended, and some lines are among them, one behind the
other. -/
def HasLines (text : String) (lines : List String) : Prop :=
  ∃ front back, text = String.join ((front ++ lines ++ back).map (· ++ "\n"))

/-- The space before a line at some depth. -/
def indent (depth : Nat) : String := String.ofList (List.replicate (4 * depth) ' ')

/-- Lines at some depth or further in. An empty line has no space before it. -/
def Indented (depth : Nat) (lines : List String) : Prop :=
  ∀ line ∈ lines, line = "" ∨ ∃ text, line = indent depth ++ text

/-- The lines of a block at some depth: its head, those of its body, and the brace behind them. -/
def blockLines (depth : Nat) (head : String) (body : List String) : List String :=
  (indent depth ++ head ++ " \x7b") :: (body ++ [indent depth ++ "\x7d"])

/-- A text has a block whose body has some lines. -/
structure HasBlock (text head : String) (body : List String) : Prop where
  lines : HasLines text (blockLines 0 head body)
  inside : Indented 1 body

/-- A text has a block with another one in its body. -/
def HasInner (text owner head : String) : Prop :=
  ∃ front body back, HasBlock text owner (front ++ blockLines 1 head body ++ back) ∧
    Indented 2 body

/-! ### The lines of code -/

section

variable {depth : Nat}

theorem append_ne_empty (front : String) {back : String} (h : back ≠ "") : front ++ back ≠ "" :=
  fun hempty ↦ h (String.append_eq_empty_iff.mp hempty).2

theorem indent_succ (depth : Nat) : indent (depth + 1) = indent depth ++ "    " := by
  unfold indent
  rw [Nat.mul_add, ← List.replicate_append_replicate, String.ofList_append]
  rfl

/-- What is indented further stands at any lesser depth. -/
theorem Indented.outer {lines : List String} (h : Indented (depth + 1) lines) :
    Indented depth lines := by
  intro line hline
  refine (h line hline).imp_right fun ⟨text, htext⟩ ↦ ⟨"    " ++ text, ?_⟩
  rw [htext, indent_succ, String.append_assoc]

theorem indented_append_iff {front back : List String} :
    Indented depth (front ++ back) ↔ Indented depth front ∧ Indented depth back :=
  List.forall_mem_append

end

namespace Code

variable {text : String}

theorem indented_eq (depth : Nat) (h : text ≠ "") : indented depth text = indent depth ++ text :=
  if_neg (mt String.isEmpty_iff.mp h)

theorem lines_block (depth : Nat) (head : String) (body : List Code) :
    lines depth (block head body) = blockLines depth head (allLines (depth + 1) body) := by
  have hhead : head ++ " \x7b" ≠ "" := append_ne_empty head (by decide)
  rw [lines, indented_eq depth hhead, indented_eq depth (by decide), ← String.append_assoc]
  rfl

theorem allLines_append (depth : Nat) (front back : List Code) :
    allLines depth (front ++ back) = allLines depth front ++ allLines depth back := by
  induction front with
  | nil => rfl
  | cons c rest ih => rw [List.cons_append, allLines, ih, allLines, List.append_assoc]

theorem allLines_map_line {α : Type} (depth : Nat) {text : α → String} {items : List α}
    (h : ∀ a ∈ items, text a ≠ "") :
    allLines depth (items.map fun a => line (text a)) =
      items.map fun a => indent depth ++ text a := by
  induction items with
  | nil => rfl
  | cons a rest ih =>
    obtain ⟨hfirst, hrest⟩ := List.forall_mem_cons.mp h
    rw [List.map_cons, allLines, ih hrest, lines, indented_eq depth hfirst]
    rfl

theorem allLines_line (depth : Nat) (h : text ≠ "") :
    allLines depth [line text] = [indent depth ++ text] := by
  rw [allLines, lines, indented_eq depth h]
  rfl

mutual

theorem indented_lines (depth : Nat) : ∀ c : Code, Indented depth (lines depth c)
  | line text => by
    intro found hfound
    rw [lines, List.mem_singleton] at hfound
    subst hfound
    by_cases hempty : text = ""
    · exact .inl (if_pos (String.isEmpty_iff.mpr hempty))
    · exact .inr ⟨text, indented_eq depth hempty⟩
  | block head body => by
    intro found hfound
    rw [lines_block] at hfound
    rcases List.mem_cons.mp hfound with rfl | hfound
    · exact .inr ⟨head ++ " \x7b", String.append_assoc⟩
    · rcases List.mem_append.mp hfound with hbody | hlast
      · exact (indented_allLines (depth + 1) body).outer found hbody
      · exact .inr ⟨"\x7d", List.mem_singleton.mp hlast⟩

theorem indented_allLines (depth : Nat) : ∀ code : List Code, Indented depth (allLines depth code)
  | [] => nofun
  | c :: rest => indented_append_iff.mpr ⟨indented_lines depth c, indented_allLines depth rest⟩

end

end Code

/-! ### Code in a text -/

/-- A text has the lines of some code. -/
def Emits (text : String) (code : List Code) : Prop := HasLines text (Code.allLines 0 code)

variable {text : String} {code items : List Code}

theorem Emits.mono {part : List Code} (h : Emits text code) (hpart : part <:+: code) :
    Emits text part := by
  obtain ⟨front, back, htext⟩ := h
  obtain ⟨before, behind, rfl⟩ := hpart
  refine ⟨front ++ Code.allLines 0 before, Code.allLines 0 behind ++ back, htext.trans ?_⟩
  simp only [Code.allLines_append, List.append_assoc]

/-- The text of some code has the lines of every piece of it. -/
theorem emits_render (h : code <:+: items) : Emits (Code.render items) code :=
  Emits.mono ⟨[], [], by rw [List.nil_append, List.append_nil]; rfl⟩ h

theorem Emits.hasBlock {head : String} {body : List Code} (h : Emits text [.block head body]) :
    HasBlock text head (Code.allLines 1 body) where
  lines := by
    unfold Emits at h
    rw [Code.allLines, Code.lines_block, Code.allLines, List.append_nil] at h
    exact h
  inside := Code.indented_allLines 1 body

theorem Emits.hasInner {owner head : String} {body inner : List Code}
    (h : Emits text [.block owner body]) (hinner : [.block head inner] <:+: body) :
    HasInner text owner head := by
  obtain ⟨front, back, rfl⟩ := hinner
  have hblock := h.hasBlock
  rw [Code.allLines_append, Code.allLines_append, Code.allLines, Code.lines_block, Code.allLines,
    List.append_nil] at hblock
  exact ⟨_, _, _, hblock, Code.indented_allLines 2 inner⟩

end TypeLang.Generate
