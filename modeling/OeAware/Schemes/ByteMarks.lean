import Mathlib.Data.Nat.Basic

/-! @scheme byte-marks | name:searching a word for a byte | models:bit tricks on words of bytes

    A search that looks at a whole word makes a mask first: the bits of the bytes that are looked for are set, the
    other bits are not. Shifting such a mask by whole bytes passes over the first bytes, and the first bit that is
    set in it lies in the first byte that is marked. -/

namespace Schemes

/-- The bits of the bytes with `P` are set in the mask, and no others. -/
def Marks {w : ℕ} (mask : BitVec w) (P : ℕ → Prop) : Prop :=
  ∀ i < w, mask.getLsbD i = true ↔ P (i / 8)

namespace Marks
variable {w : ℕ} {mask : BitVec w} {P : ℕ → Prop}

/-- The first `k` bytes have been passed over. -/
theorem shift (h : Marks mask P) (hw : 8 ∣ w) (k : ℕ) :
    Marks (mask >>> (8 * k)) (fun i => 8 * (k + i) < w ∧ P (k + i)) := by
  intro i hi
  rw [BitVec.getLsbD_ushiftRight]
  have hbyte : (8 * k + i) / 8 = k + i / 8 := by omega
  by_cases hlt : 8 * k + i < w
  · rw [h _ hlt, hbyte]
    exact (and_iff_right (by omega)).symm
  · refine iff_of_false (fun hbit => hlt (BitVec.lt_of_getLsbD hbit)) (fun hh => hlt ?_)
    have := hh.1
    omega

/-- Nothing is marked. -/
theorem eq_zero (h : Marks mask P) (h0 : mask = 0#w) {i : ℕ} (hi : 8 * i < w) : ¬ P i := by
  intro hP
  have hbit := (h (8 * i) hi).mpr (by rwa [Nat.mul_div_cancel_left i (by decide)])
  rw [h0, BitVec.getLsbD_zero] at hbit
  cases hbit

/-- The first bit that is set is in the first byte that is marked. -/
theorem first (h : Marks mask P) (h0 : mask ≠ 0#w) :
    P (mask.ctz.toNat / 8) ∧ (∀ i < mask.ctz.toNat / 8, ¬ P i) ∧ mask.ctz.toNat < w := by
  have hbit := BitVec.getLsbD_true_ctz_of_ne_zero h0
  have hlt := BitVec.lt_of_getLsbD hbit
  refine ⟨(h _ hlt).mp hbit, fun i hi hP => ?_, hlt⟩
  have hbefore : 8 * i < mask.ctz.toNat := by omega
  have hset := (h (8 * i) (by omega)).mpr (by rwa [Nat.mul_div_cancel_left i (by decide)])
  rw [BitVec.getLsbD_false_of_lt_ctz hbefore] at hset
  cases hset

end Marks

end Schemes
