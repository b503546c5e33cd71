import TypeLang.Proofs.Wire.Emission

/-!
Where writers put down what they put down. It lies within the buffer (`Emission.Within`), also where
a fault stops the writer, so the buffer keeps its size, and its bytes elsewhere stay as they are
(`Emission.getElem?_apply`).
-/

set_option autoImplicit false
set_option relaxedAutoImplicit false

namespace TypeLang.Wire.Emission

variable {e : Emission} {buffer : ByteArray} {limit offset : Nat} {next : Nat → Emission}

/-- What is put down at a place lies within a buffer, also where a fault stops the writer. -/
def Within (limit offset : Nat) (e : Emission) : Prop := offset + e.bytes.size ≤ limit

theorem within_empty (h : offset ≤ limit) : empty.Within limit offset := h

theorem within_fail (h : offset ≤ limit) (fault : Error) : (fail fault).Within limit offset := h

theorem within_refuse (h : offset ≤ limit) (fault : StateFault) :
    (refuse fault).Within limit offset := h

theorem within_piece (h : offset ≤ limit) (data : ByteArray) :
    (piece limit offset data).Within limit offset := by
  unfold piece
  split
  · assumption
  · exact within_fail h _

theorem Within.andThen (h : e.Within limit offset)
    (hnext : ∀ n, offset + n ≤ limit → (next n).Within limit (offset + n)) :
    (e.andThen next).Within limit offset := by
  cases hfault : e.fault? with
  | some fault =>
    rw [andThen_of_fault (by rw [hfault]; rfl)]
    exact h
  | none =>
    rw [andThen_of_none hfault]
    show offset + (e.bytes ++ (next e.bytes.size).bytes).size ≤ limit
    rw [ByteArray.size_append, ← Nat.add_assoc]
    exact hnext _ h

theorem within_ofMetered {α : Type} {m : Metered α} {next : α → Emission} (h : offset ≤ limit)
    (hnext : ∀ a, (next a).Within limit offset) : (ofMetered m next).Within limit offset := by
  unfold ofMetered
  cases m.outcome with
  | error fault => exact h
  | ok a =>
    show offset + (ByteArray.empty ++ (next a).bytes).size ≤ limit
    rw [ByteArray.empty_append]
    exact hnext a

theorem within_byteString (h : offset ≤ limit) (data : ByteArray) :
    (byteString limit offset data).Within limit offset := by
  unfold byteString
  split
  · exact within_refuse h _
  · exact within_piece h _

theorem within_vectorHeader (h : offset ≤ limit) (boxed : Bool) (count : Nat) :
    (vectorHeader limit offset boxed count).Within limit offset := by
  rw [vectorHeader_of_within h]
  split
  · exact (within_piece h _).andThen fun n hn ↦ within_piece hn _
  · exact within_piece h _

/-- A byte of a buffer in which something is put down is the byte put down there, or the one that
was there before. -/
theorem getElem?_apply (h : e.Within buffer.size offset) (i : Nat) :
    (e.apply buffer offset).data[i]? =
      if offset ≤ i ∧ i < offset + e.bytes.size then e.bytes.data[i - offset]?
      else buffer.data[i]? := by
  unfold Within at h
  unfold apply
  split
  · rename_i hempty
    have hsize : e.bytes.size = 0 := by simpa [ByteArray.isEmpty] using hempty
    rw [if_neg (by omega)]
  · have hfront : min offset buffer.data.size - 0 = offset := by
      show min offset buffer.size - 0 = offset
      omega
    have hback : min buffer.size buffer.data.size = buffer.size := Nat.min_self _
    have hbytes : e.bytes.data.size = e.bytes.size := rfl
    rw [overwrite_eq, ByteArray.data_append, ByteArray.data_append, Array.getElem?_append,
      Array.getElem?_append]
    simp only [ByteArray.data_extract, Array.getElem?_extract, Array.size_append,
      Array.size_extract, hfront, hback, hbytes]
    by_cases hbefore : i < offset
    · rw [if_pos (by omega), if_pos hbefore, if_pos hbefore, if_neg (by omega), Nat.zero_add]
    · by_cases hwithin : i < offset + e.bytes.size
      · rw [if_pos hwithin, if_neg hbefore, if_pos ⟨Nat.not_lt.mp hbefore, hwithin⟩]
      · have hbehind : ¬ (offset ≤ i ∧ i < offset + e.bytes.size) := by omega
        rw [if_neg hwithin, if_neg hbehind, Nat.add_sub_cancel' (Nat.not_lt.mp hwithin)]
        split
        · rfl
        · rw [Array.getElem?_eq_none]
          show buffer.size ≤ i
          omega

theorem size_apply (h : e.Within buffer.size offset) :
    (e.apply buffer offset).size = buffer.size := by
  unfold Within at h
  unfold apply
  split
  · rfl
  · rw [overwrite_eq]
    simp only [ByteArray.size_append, ByteArray.size_extract]
    omega

/-- What fills a buffer is all that is left of it. -/
theorem apply_eq_bytes (h : e.bytes.size = buffer.size) : e.apply buffer 0 = e.bytes := by
  have hwithin : e.Within buffer.size 0 := by
    show 0 + e.bytes.size ≤ buffer.size
    omega
  apply ByteArray.ext
  apply Array.ext_getElem?
  intro i
  rw [getElem?_apply hwithin]
  split
  · rfl
  · rw [Array.getElem?_eq_none, Array.getElem?_eq_none]
    · show e.bytes.size ≤ i
      omega
    · show buffer.size ≤ i
      omega

end TypeLang.Wire.Emission
