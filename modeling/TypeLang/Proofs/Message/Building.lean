import TypeLang.Proofs.Message.Length
import TypeLang.Proofs.Message.Writing

/-!
The bytes of an object are its tag and what its fields are written as; they are built just when the
masks of the object can be found and its fields can be written (`Schema.build_eq_ok_iff`).
-/

set_option autoImplicit false
set_option relaxedAutoImplicit false

namespace TypeLang.Schema

open Wire Message

variable {s : Schema} {held : Nat} {name : String} {entries : Entries} {bytes : ByteArray}

theorem size_tagBytes_located (c : Combinator) : c.located.tagBytes.size = c.header := by
  refine Located.size_tagBytes ?_
  by_cases hheader : c.header = 0
  · exact .inl hheader
  · exact .inr (Combinator.tag_of_header hheader)

/-- An object is built from the entries of the combinator of a name. -/
theorem build_eq_ok_iff (hsound : s.Sound) :
    (s.build held name entries).outcome = .ok bytes ↔
      ∃ c masks body, s.combinator? name = some c ∧ resolveMasks c.fields entries = .ok masks ∧
        s.Written held (.body masks entries c.fields) body ∧
        bytes = c.located.tagBytes ++ body := by
  have hlocated : ∀ object, s.locateNamed name = .ok object → object.combinator.Sound := by
    intro object h
    obtain ⟨c, hc, rfl⟩ := locateNamed_eq_ok_iff.mp h
    exact hsound.combinator_sound c (mem_of_combinator? hc).1
  have hputs : ∀ limit, (emitInstance ⟨s, held, limit⟩ (s.locateNamed name) entries
      (fun f at_ => emitEntry ⟨s, held, limit⟩ f.name f.kind at_ entries) 0).Puts bytes ↔ _ :=
    fun limit ↦ emitInstance_puts_iff hlocated (fun f ↦ emits_entry fun e _ field kind ↦
      emitValue_puts_iff hsound e.2 field kind) (Nat.zero_le limit)
  unfold build
  constructor
  · intro h
    dsimp only at h
    split at h
    · cases h
    · rename_i size _
      obtain ⟨object, masks, body, hobject, hmasks, hbody, rfl, -⟩ :=
        (hputs size).mp (Emission.outcome_map_eq_ok_iff.mp h)
      obtain ⟨c, hc, rfl⟩ := locateNamed_eq_ok_iff.mp hobject
      exact ⟨c, masks, body, hc, hmasks, hbody, rfl⟩
  · rintro ⟨c, masks, body, hc, hmasks, hbody, rfl⟩
    have hobject := locateNamed_eq_ok_iff.mpr ⟨c, hc, rfl⟩
    have hlength : instanceLength (s.locateNamed name) entries
        (fun f => entryLength s f.name f.kind entries) =
          .ok (c.located.tagBytes ++ body).size := by
      rw [hobject, ByteArray.size_append, size_tagBytes_located]
      unfold instanceLength
      dsimp only
      rw [show c.located.combinator = c from rfl, hmasks]
      dsimp only
      rw [hbody.measures]
      rfl
    dsimp only
    rw [hlength]
    refine Emission.outcome_map_eq_ok_iff.mpr ((hputs _).mpr ?_)
    exact ⟨_, masks, body, hobject, hmasks, hbody, rfl, Nat.le_of_eq (Nat.zero_add _)⟩

end TypeLang.Schema
