import Mathlib.Tactic

/-!
# Leading bits

Bit vectors compared on their first bits, the most significant ones. The same comparison is
stated bit by bit, as an equality under a mask of leading ones, as an equality of quotients,
and as membership in a block of numbers.
-/

namespace WsTcpProxy.Library

variable {w n : ℕ} {x y z : BitVec w}

/-- The first `n` bits of `x` and of `y` are the same. -/
def AgreeOn (n : ℕ) (x y : BitVec w) : Prop := ∀ i < n, x.getMsbD i = y.getMsbD i

instance : Decidable (AgreeOn n x y) :=
  inferInstanceAs (Decidable (∀ i < n, x.getMsbD i = y.getMsbD i))

@[simp] lemma agreeOn_zero : AgreeOn 0 x y := by simp [AgreeOn]

lemma AgreeOn.refl (n : ℕ) (x : BitVec w) : AgreeOn n x x := fun _ _ => rfl

lemma AgreeOn.symm (h : AgreeOn n x y) : AgreeOn n y x := fun i hi => (h i hi).symm

lemma AgreeOn.trans (h : AgreeOn n x y) (h' : AgreeOn n y z) : AgreeOn n x z :=
  fun i hi => (h i hi).trans (h' i hi)

lemma AgreeOn.mono {m : ℕ} (hm : m ≤ n) (h : AgreeOn n x y) : AgreeOn m x y :=
  fun i hi => h i (hi.trans_le hm)

/-- No bit follows from the bits before it. -/
lemma exists_agreeOn_not_succ (hn : n < w) (y : BitVec w) :
    ∃ x, AgreeOn n x y ∧ ¬AgreeOn (n + 1) x y := by
  refine ⟨y ^^^ BitVec.twoPow w (w - 1 - n), ?_, ?_⟩
  · intro i hi
    rw [BitVec.getMsbD_xor, BitVec.getMsbD_eq_getLsbD (BitVec.twoPow w _), BitVec.getLsbD_twoPow]
    simp only [show ¬w - 1 - n = w - 1 - i by omega, decide_false, Bool.and_false, Bool.xor_false]
  · intro h
    have hlast := h n (Nat.lt_succ_self n)
    rw [BitVec.getMsbD_xor, BitVec.getMsbD_eq_getLsbD (BitVec.twoPow w _), BitVec.getLsbD_twoPow]
      at hlast
    simp only [hn, show w - 1 - n < w by omega, decide_true, Bool.and_self, Bool.xor_true] at hlast
    cases hbit : y.getMsbD n <;> simp [hbit] at hlast

/-! ### Masks -/

/-- Ones in the first `n` bits and zeros in the others. -/
def leadingMask (w n : ℕ) : BitVec w := BitVec.allOnes w <<< (w - n)

lemma getMsbD_leadingMask (hn : n ≤ w) (i : ℕ) : (leadingMask w n).getMsbD i = decide (i < n) := by
  rw [leadingMask, BitVec.getMsbD_shiftLeft, BitVec.getMsbD_allOnes, decide_eq_decide]
  omega

lemma leadingMask_zero : leadingMask w 0 = 0 := by
  apply BitVec.eq_of_getMsbD_eq
  intro i _
  simp [getMsbD_leadingMask (Nat.zero_le w)]

lemma leadingMask_width : leadingMask w w = BitVec.allOnes w := by
  simp [leadingMask]

lemma and_leadingMask_agreeOn (hn : n ≤ w) : AgreeOn n (x &&& leadingMask w n) x := by
  intro i hi
  simp [getMsbD_leadingMask hn, hi]

lemma and_leadingMask_eq_iff (hn : n ≤ w) :
    x &&& leadingMask w n = y &&& leadingMask w n ↔ AgreeOn n x y := by
  constructor
  · intro h
    exact (and_leadingMask_agreeOn hn).symm.trans (h ▸ and_leadingMask_agreeOn hn)
  · intro h
    apply BitVec.eq_of_getMsbD_eq
    intro i _
    by_cases hi : i < n
    · simp [h i hi]
    · simp [getMsbD_leadingMask hn, hi]

lemma and_leadingMask_twice : x &&& leadingMask w n &&& leadingMask w n = x &&& leadingMask w n := by
  rw [BitVec.and_assoc, BitVec.and_self]

/-! ### Numbers -/

lemma toNat_append_add {m : ℕ} (x : BitVec w) (y : BitVec m) :
    (x ++ y).toNat = x.toNat * 2 ^ m + y.toNat := by
  rw [BitVec.toNat_append, ← Nat.shiftLeft_add_eq_or_of_lt y.isLt, Nat.shiftLeft_eq]

lemma toNat_field (x : BitVec w) (k m : ℕ) :
    ((x >>> k).setWidth m).toNat = x.toNat / 2 ^ k % 2 ^ m := by
  rw [BitVec.toNat_setWidth, BitVec.toNat_ushiftRight, Nat.shiftRight_eq_div_pow]

lemma getMsbD_eq_testBit {i : ℕ} (hi : i < w) : x.getMsbD i = x.toNat.testBit (w - 1 - i) := by
  rw [BitVec.getMsbD_eq_getLsbD, BitVec.testBit_toNat]
  simp [hi]

lemma agreeOn_iff_toNat_div (hn : n ≤ w) :
    AgreeOn n x y ↔ x.toNat / 2 ^ (w - n) = y.toNat / 2 ^ (w - n) := by
  constructor
  · intro h
    apply Nat.eq_of_testBit_eq
    intro j
    simp only [Nat.testBit_div_two_pow]
    -- Bit `j` of the quotient is bit `n - 1 - j` from the left, or lies above the vector.
    by_cases hj : j < n
    · have := h (n - 1 - j) (by omega)
      rw [getMsbD_eq_testBit (by omega), getMsbD_eq_testBit (by omega)] at this
      rwa [show w - 1 - (n - 1 - j) = j + (w - n) by omega] at this
    · rw [BitVec.testBit_toNat, BitVec.testBit_toNat, BitVec.getLsbD_of_ge _ _ (by omega),
        BitVec.getLsbD_of_ge _ _ (by omega)]
  · intro h i hi
    have := congrArg (fun q => Nat.testBit q (n - 1 - i)) h
    simp only [Nat.testBit_div_two_pow] at this
    rw [getMsbD_eq_testBit (by omega), getMsbD_eq_testBit (by omega)]
    rwa [show n - 1 - i + (w - n) = w - 1 - i by omega] at this

/-- `x` is one of the `2 ^ (w - n)` numbers from `base` on. -/
def InBlock (x base : BitVec w) (n : ℕ) : Prop :=
  base.toNat ≤ x.toNat ∧ x.toNat < base.toNat + 2 ^ (w - n)

instance (x base : BitVec w) (n : ℕ) : Decidable (InBlock x base n) :=
  inferInstanceAs (Decidable (_ ∧ _))

lemma InBlock.mono {base base' : BitVec w} {m : ℕ} (hfirst : base.toNat ≤ base'.toNat)
    (hlast : base'.toNat + 2 ^ (w - m) ≤ base.toNat + 2 ^ (w - n)) (h : InBlock x base' m) :
    InBlock x base n :=
  ⟨hfirst.trans h.1, h.2.trans_le hlast⟩

lemma agreeOn_iff_inBlock (hn : n ≤ w) (hy : 2 ^ (w - n) ∣ y.toNat) :
    AgreeOn n x y ↔ InBlock x y n := by
  obtain ⟨q, hq⟩ := hy
  have hpos : 0 < 2 ^ (w - n) := Nat.two_pow_pos _
  rw [agreeOn_iff_toNat_div hn, InBlock, hq, Nat.mul_div_cancel_left q hpos,
    Nat.div_eq_iff hpos, Nat.mul_comm q]
  omega

end WsTcpProxy.Library
