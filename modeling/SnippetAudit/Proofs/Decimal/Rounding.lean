import Mathlib

/-!
Rounding positive numbers to 53 bits.

A number is rounded by shifting its significand until 53 bits are left, and then adding at most one
(`roundWithAccuracy_eq`). So rounding keeps every bound that has 53 bits itself (`AtLeast`), and a
bound goes through a product and a quotient. Applied to tenths: a quotient by ten of an integer that
is ten or more is one or more (`one_le_ofNat_div_ten`), although tenths are not exact.
-/

namespace SnippetAudit.Decimal

open Float.Model Float.Model.UnpackedFloat

/-! ### Rounding -/

section Rounding

theorem mantissa_shiftRight (em : ExtendedMantissa) (n : Nat) :
    (em >>> n).mantissa = em.mantissa / 2 ^ n := by
  induction n with
  | zero => rw [Nat.pow_zero, Nat.div_one]; rfl
  | succ n ih =>
    calc (em >>> (n + 1)).mantissa
        = (em >>> n).mantissa / 2 := rfl
      _ = em.mantissa / 2 ^ (n + 1) := by rw [ih, Nat.div_div_eq_div_mul, Nat.pow_succ]

theorem roundedMantissa_mem (em : ExtendedMantissa) :
    em.mantissa ≤ em.roundedMantissa ∧ em.roundedMantissa ≤ em.mantissa + 1 := by
  obtain ⟨m, r, s⟩ := em
  cases r <;> cases s <;>
    simp only [ExtendedMantissa.roundedMantissa, ExtendedMantissa.accuracy,
      Accuracy.roundToNearestEven] <;> omega

theorem mantissa_ofMantissaAndAccuracy (m : Nat) (a : Accuracy) :
    (ExtendedMantissa.ofMantissaAndAccuracy m a).mantissa = m := by
  cases a with
  | exact => rfl
  | inexact o => cases o <;> rfl

variable {m : Nat} {e : Int} (a : Accuracy)

/-- A significand of 53 or more bits is shifted until 53 are left. -/
theorem shiftToTargetExponent_eq (wide : 2 ^ 52 ≤ m) (normal : -1022 ≤ e + m.log2) :
    shiftToTargetExponent .binary64 m e a =
      (ExtendedMantissa.ofMantissaAndAccuracy m a >>> (m.log2 - 52),
        e + (m.log2 - 52 : Nat)) := by
  have bits : 52 ≤ m.log2 := (Nat.le_log2 (by omega)).mpr wide
  have target : Format.binary64.targetExponent (totalExponent m e) = e + (m.log2 - 52 : Nat) := by
    simp only [Format.targetExponent, totalExponent, Format.mantissaBits, Format.minExponent]
    omega
  have amount : (e + ((m.log2 - 52 : Nat) : Int) - e).toNat = m.log2 - 52 := by omega
  simp only [shiftToTargetExponent, shiftToExponent, target, amount]

theorem div_two_pow_mem (wide : 2 ^ 52 ≤ m) :
    2 ^ 52 ≤ m / 2 ^ (m.log2 - 52) ∧ m / 2 ^ (m.log2 - 52) < 2 ^ 53 := by
  have bits : 52 ≤ m.log2 := (Nat.le_log2 (by omega)).mpr wide
  have least : 2 ^ 52 * 2 ^ (m.log2 - 52) ≤ m := by
    rw [← Nat.pow_add, Nat.add_sub_cancel' bits]
    exact Nat.log2_self_le (by omega)
  have greatest : m < 2 ^ 53 * 2 ^ (m.log2 - 52) := by
    rw [← Nat.pow_add, show 53 + (m.log2 - 52) = m.log2 + 1 by omega]
    exact Nat.lt_log2_self
  exact ⟨(Nat.le_div_iff_mul_le (Nat.two_pow_pos _)).mpr least,
    (Nat.div_lt_iff_lt_mul (Nat.two_pow_pos _)).mpr greatest⟩

/-- Rounding shifts twice, since it may carry into another bit. -/
theorem roundWithAccuracy_of_shift {em em' : ExtendedMantissa} {e₁ e₂ : Int} {r : Nat}
    (first : shiftToTargetExponent .binary64 m e a = (em, e₁)) (rounded : em.roundedMantissa = r)
    (second : shiftToTargetExponent .binary64 r e₁ .exact = (em', e₂)) (pos : 0 < em'.mantissa) :
    roundWithAccuracy .binary64 .positive m e a = .finite .positive em'.mantissa e₂ pos := by
  subst rounded
  simp only [roundWithAccuracy, first, second]
  rw [dif_neg (Nat.ne_of_gt pos)]

/-- **Rounding leaves 53 bits**, with a significand that is no smaller than the bits in front, unless
a carry made the exponent greater. -/
theorem roundWithAccuracy_eq (wide : 2 ^ 52 ≤ m) (normal : -1022 ≤ e + m.log2) :
    ∃ m' e' pos, roundWithAccuracy .binary64 .positive m e a = .finite .positive m' e' pos ∧
      2 ^ 52 ≤ m' ∧ m' < 2 ^ 53 ∧
      (e' = e + (m.log2 - 52 : Nat) ∧ m / 2 ^ (m.log2 - 52) ≤ m' ∨
        e' = e + (m.log2 - 52 : Nat) + 1) := by
  have bits : 52 ≤ m.log2 := (Nat.le_log2 (by omega)).mpr wide
  obtain ⟨least, greatest⟩ := div_two_pow_mem wide
  obtain ⟨low, high⟩ :=
    roundedMantissa_mem (ExtendedMantissa.ofMantissaAndAccuracy m a >>> (m.log2 - 52))
  rw [mantissa_shiftRight, mantissa_ofMantissaAndAccuracy] at low high
  have first := shiftToTargetExponent_eq a wide normal
  obtain ⟨r, rounded⟩ : ∃ r,
      (ExtendedMantissa.ofMantissaAndAccuracy m a >>> (m.log2 - 52)).roundedMantissa = r := ⟨_, rfl⟩
  rw [rounded] at low high
  have wide' : 2 ^ 52 ≤ r := by omega
  have bits' : 52 ≤ r.log2 := (Nat.le_log2 (by omega)).mpr wide'
  have second : shiftToTargetExponent .binary64 r (e + (m.log2 - 52 : Nat)) .exact = _ :=
    shiftToTargetExponent_eq .exact wide' (by omega)
  have shifted := mantissa_shiftRight (ExtendedMantissa.ofMantissaAndAccuracy r .exact) (r.log2 - 52)
  rw [mantissa_ofMantissaAndAccuracy] at shifted
  obtain ⟨least', greatest'⟩ := div_two_pow_mem wide'
  rw [← shifted] at least' greatest'
  refine ⟨_, _, _, roundWithAccuracy_of_shift a first rounded second (by omega), least',
    greatest', ?_⟩
  rw [shifted]
  -- The second shift does something only if the first rounding carried into a new bit.
  rcases Nat.lt_or_ge r (2 ^ 53) with below | above
  · have same : r.log2 = 52 := by
      have := (Nat.log2_lt (by omega)).mpr below
      omega
    left
    rw [same, Nat.sub_self, Nat.pow_zero, Nat.div_one]
    exact ⟨by omega, low⟩
  · have carried : r = 2 ^ 53 := by omega
    right
    rw [carried, Nat.log2_two_pow]
    omega

end Rounding

/-! ### Numbers and their bits -/

section Normal

/- A significand of 53 bits, of which the first is not stored, and an exponent in range. -/
variable {m : Nat} {e : Int} (pos : 0 < m) (least : 2 ^ 52 ≤ m) (greatest : m < 2 ^ 53)
  (low : -1074 ≤ e) (high : e ≤ 971)

include least greatest high in
theorem pack_eq :
    UnpackedFloat.pack .binary64 (.finite .positive m e pos) =
      packComponents .binary64 .positive (BitVec.ofNat 11 (e + 1075).toNat) (BitVec.ofNat 52 m) := by
  have bits : m.log2 = 52 := (Nat.log2_eq_iff (by omega)).mpr ⟨least, greatest⟩
  have biased : (e + Format.binary64.exponentBias
      + Format.binary64.mantissaBitsWithoutImplicit).toNat = (e + 1075).toNat := by
    simp only [Format.exponentBias]
    omega
  simp only [UnpackedFloat.pack, biased, bits, Format.mantissaBits]
  rw [if_neg (by omega), if_pos trivial]

include least greatest low high

theorem unpack_components :
    UnpackedFloat.unpack .binary64 (packComponents .binary64 .positive
      (BitVec.ofNat 11 (e + 1075).toNat) (BitVec.ofNat 52 m)) = .finite .positive m e pos := by
  have stored : (BitVec.ofNat 11 (e + 1075).toNat).toNat = (e + 1075).toNat := by
    rw [BitVec.toNat_ofNat]
    omega
  have finite : BitVec.ofNat 11 (e + 1075).toNat ≠ -1#11 := by
    intro h
    rw [h] at stored
    simp at stored
    omega
  have normal : BitVec.ofNat 11 (e + 1075).toNat ≠ 0#11 := by
    intro h
    rw [h] at stored
    simp at stored
    omega
  have whole : (1#1 ++ BitVec.ofNat 52 m).toNat = m := by
    rw [BitVec.toNat_append, ← Nat.shiftLeft_add_eq_or_of_lt (BitVec.ofNat 52 m).isLt,
      BitVec.toNat_ofNat, Nat.shiftLeft_eq]
    simp
    omega
  have exponent : ((BitVec.ofNat 11 (e + 1075).toNat).toNat : Int)
      - (Format.binary64.exponentBias + Format.binary64.mantissaBitsWithoutImplicit) = e := by
    rw [stored]
    simp only [Format.exponentBias]
    omega
  rw [UnpackedFloat.unpack]
  simp only [unpackMantissa_packComponents, unpackExponent_packComponents,
    unpackSign_packComponents, Sign.ofBitVec_toBitVec]
  rw [if_neg finite, if_neg normal]
  simp only [whole, exponent]

/-- A number that needs no rounding is what its bits say. -/
theorem unpack_pack :
    (Float.Model.pack (.finite .positive m e pos)).unpack = .finite .positive m e pos := by
  show UnpackedFloat.unpack .binary64 (UnpackedFloat.pack .binary64 _) = _
  rw [pack_eq pos least greatest high]
  exact unpack_components pos least greatest low high

end Normal

/-! ### Bounds -/

/-- A positive number with a significand of 53 bits that is at least `m · 2^e`; its exponent is at
most `top`. -/
def AtLeast (m : Nat) (e top : Int) (x : UnpackedFloat) : Prop :=
  ∃ m' e' pos, x = .finite .positive m' e' pos ∧ 2 ^ 52 ≤ m' ∧ m' < 2 ^ 53 ∧
    (e < e' ∨ e = e' ∧ m ≤ m') ∧ e' ≤ top

variable {m : Nat} {e top : Int}

theorem AtLeast.unpack_pack {x : UnpackedFloat} (h : AtLeast m e top x) (normal : -1074 ≤ e)
    (small : top ≤ 971) : (Float.Model.pack x).unpack = x := by
  obtain ⟨m', e', pos, rfl, least, greatest, reached, top⟩ := h
  exact Decimal.unpack_pack pos least greatest (by omega) (by omega)

/-- Rounding keeps a bound. -/
theorem atLeast_roundWithAccuracy {m' : Nat} {e' : Int} (a : Accuracy) (wide : 2 ^ 52 ≤ m')
    (normal : -1022 ≤ e' + m'.log2) (small : e' + m'.log2 ≤ top + 51)
    (reached : e < e' + (m'.log2 - 52 : Nat) ∨
      e = e' + (m'.log2 - 52 : Nat) ∧ m ≤ m' / 2 ^ (m'.log2 - 52)) :
    AtLeast m e top (roundWithAccuracy .binary64 .positive m' e' a) := by
  obtain ⟨m'', e'', pos, rounded, least, greatest, near⟩ := roundWithAccuracy_eq a wide normal
  have bits : 52 ≤ m'.log2 := (Nat.le_log2 (by omega)).mpr wide
  exact ⟨m'', e'', pos, rounded, least, greatest, by omega, by omega⟩

/-- Rounding a positive integer of at most 53 bits. -/
theorem round_ofNat {n : Nat} (greatest : n < 2 ^ 53) (pos : 0 < n) :
    UnpackedFloat.normalize .binary64 n 0 .positive =
      roundWithAccuracy .binary64 .positive (n * 2 ^ (52 - n.log2)) (n.log2 - 52) .exact := by
  have greater : compare (n : Int) 0 = .gt := Int.compare_eq_gt.mpr (by omega)
  have bits : n.log2 < 53 := (Nat.log2_lt (by omega)).mpr greatest
  have target : Format.binary64.targetExponent (totalExponent n 0) = n.log2 - 52 := by
    simp only [Format.targetExponent, totalExponent, Format.mantissaBits, Format.minExponent]
    omega
  have amount : (0 - ((n.log2 : Int) - 52)).toNat = 52 - n.log2 := by omega
  have exponent : 0 - ((52 - n.log2 : Nat) : Int) = n.log2 - 52 := by omega
  simp only [UnpackedFloat.normalize, greater, Int.toNat_natCast, UnpackedFloat.round,
    decreaseExponent, target, amount, exponent, Nat.shiftLeft_eq]

/-- An integer of at most 53 bits, shifted so that it has all of them. -/
theorem shifted_mem {n : Nat} (pos : 0 < n) (greatest : n < 2 ^ 53) :
    2 ^ 52 ≤ n * 2 ^ (52 - n.log2) ∧ n * 2 ^ (52 - n.log2) < 2 ^ 53 := by
  have bits : n.log2 < 53 := (Nat.log2_lt (by omega)).mpr greatest
  have low : 2 ^ n.log2 * 2 ^ (52 - n.log2) ≤ n * 2 ^ (52 - n.log2) :=
    Nat.mul_le_mul_right _ (Nat.log2_self_le (by omega))
  have high : n * 2 ^ (52 - n.log2) < 2 ^ (n.log2 + 1) * 2 ^ (52 - n.log2) :=
    Nat.mul_lt_mul_of_pos_right Nat.lt_log2_self (Nat.two_pow_pos _)
  rw [← Nat.pow_add, show n.log2 + (52 - n.log2) = 52 by omega] at low
  rw [← Nat.pow_add, show n.log2 + 1 + (52 - n.log2) = 53 by omega] at high
  exact ⟨low, high⟩

/-- Ten is `5 · 2^50 · 2^-49`. -/
theorem atLeast_toFloat {n : Nat} (least : 10 ≤ n) (greatest : n < 2 ^ 53) :
    AtLeast (5 * 2 ^ 50) (-49) 1 n.toUInt64.toFloat.toModel.unpack := by
  have fits : n.toUInt64.toNat = n := by
    rw [Nat.toUInt64, UInt64.toNat_ofNat']
    omega
  have bits : n.log2 < 53 := (Nat.log2_lt (by omega)).mpr greatest
  have three : 3 ≤ n.log2 := (Nat.le_log2 (by omega)).mpr (by omega)
  obtain ⟨low, high⟩ := shifted_mem (by omega : 0 < n) greatest
  have whole : (n * 2 ^ (52 - n.log2)).log2 = 52 := (Nat.log2_eq_iff (by omega)).mpr ⟨low, high⟩
  have reached : AtLeast (5 * 2 ^ 50) (-49) 1
      (roundWithAccuracy .binary64 .positive (n * 2 ^ (52 - n.log2)) (n.log2 - 52) .exact) := by
    refine atLeast_roundWithAccuracy .exact low (by omega) (by omega) ?_
    rw [whole, Nat.sub_self, Nat.pow_zero, Nat.div_one]
    rcases Nat.lt_or_eq_of_le three with more | three
    · left
      omega
    · right
      rw [← three]
      omega
  rw [← round_ofNat greatest (by omega)] at reached
  have unpacked : n.toUInt64.toFloat.toModel =
      Float.Model.pack (UnpackedFloat.normalize .binary64 n 0 .positive) := by
    show Float.Model.pack (UnpackedFloat.normalize .binary64 n.toUInt64.toNat 0 .positive) = _
    rw [fits]
  rw [unpacked, reached.unpack_pack (by decide) (by decide)]
  exact reached

theorem unpack_one : (Float.ofBits 0x3FF0000000000000).toModel.unpack =
    .finite .positive (2 ^ 52) (-52) (by decide) := rfl

theorem unpack_ten : (10 : Float).toModel.unpack =
    .finite .positive (5 * 2 ^ 50) (-49) (by decide) := rfl

/-- Multiplying by one keeps a bound. -/
theorem AtLeast.mul_one {x : Float} (h : AtLeast m e top x.toModel.unpack) (normal : -970 ≤ e)
    (small : top ≤ 970) :
    AtLeast m e (top + 1) (x * Float.ofBits 0x3FF0000000000000).toModel.unpack := by
  obtain ⟨m', e', pos, same, least, greatest, reached, below⟩ := h
  have product : (x * Float.ofBits 0x3FF0000000000000).toModel =
      Float.Model.pack
        (UnpackedFloat.mul .binary64 x.toModel.unpack
          (Float.ofBits 0x3FF0000000000000).toModel.unpack) := rfl
  have rounded : AtLeast m e (top + 1)
      (roundWithAccuracy .binary64 .positive (m' * 2 ^ 52) (e' + -52) .exact) := by
    have bits : (m' * 2 ^ 52).log2 = 104 := by
      rw [Nat.log2_eq_iff (by omega)]
      omega
    refine atLeast_roundWithAccuracy .exact (by omega) (by omega) (by omega) ?_
    rw [bits]
    omega
  rw [product, same, unpack_one]
  show AtLeast m e _ (Float.Model.pack (roundWithAccuracy _ .positive _ _ _)).unpack
  rw [rounded.unpack_pack (by omega) (by omega)]
  exact rounded

/-- A number that is at least ten, divided by ten. -/
theorem AtLeast.div_ten {x : Float} (h : AtLeast (5 * 2 ^ 50) (-49) top x.toModel.unpack)
    (small : top ≤ 970) :
    AtLeast (2 ^ 52) (-52) (top + 1) (x / 10).toModel.unpack := by
  obtain ⟨m', e', pos, same, least, greatest, reached, below⟩ := h
  have quotient : (x / 10).toModel = Float.Model.pack
        (UnpackedFloat.div .binary64 x.toModel.unpack (10 : Float).toModel.unpack) := rfl
  have bits : m'.log2 = 52 := (Nat.log2_eq_iff (by omega)).mpr ⟨least, greatest⟩
  have bits' : (5 * 2 ^ 50).log2 = 52 := by decide
  have target : min (e' - -49) (Format.binary64.targetExponent
      (totalExponent m' e' - totalExponent (5 * 2 ^ 50) (-49))) = e' - 4 := by
    simp only [Format.targetExponent, totalExponent, Format.mantissaBits, Format.minExponent, bits,
      bits']
    omega
  have amount : (e' - -49 - (e' - 4)).toNat = 53 := by omega
  have rounded (a : Accuracy) : AtLeast (2 ^ 52) (-52) (top + 1)
      (roundWithAccuracy .binary64 .positive (m' * 2 ^ 53 / (5 * 2 ^ 50)) (e' - 4) a) := by
    have wide : 2 ^ 52 ≤ m' * 2 ^ 53 / (5 * 2 ^ 50) := by omega
    rcases Nat.lt_or_ge (m' * 2 ^ 53 / (5 * 2 ^ 50)) (2 ^ 53) with under | above
    · have bits'' : (m' * 2 ^ 53 / (5 * 2 ^ 50)).log2 = 52 :=
        (Nat.log2_eq_iff (by omega)).mpr ⟨wide, under⟩
      refine atLeast_roundWithAccuracy a wide (by omega) (by omega) ?_
      rw [bits'']
      omega
    · have bits'' : (m' * 2 ^ 53 / (5 * 2 ^ 50)).log2 = 53 :=
        (Nat.log2_eq_iff (by omega)).mpr ⟨above, by omega⟩
      refine atLeast_roundWithAccuracy a wide (by omega) (by omega) ?_
      rw [bits'']
      omega
  rw [quotient, same, unpack_ten]
  simp only [UnpackedFloat.div, divCore, target, amount, Nat.shiftLeft_eq]
  show AtLeast _ _ _ (Float.Model.pack (roundWithAccuracy _ .positive _ _ _)).unpack
  rw [(rounded _).unpack_pack (by omega) (by omega)]
  exact rounded _

theorem one_le_of_atLeast {x : Float} (h : AtLeast (2 ^ 52) (-52) top x.toModel.unpack) : 1 ≤ x := by
  obtain ⟨m', e', pos, same, least, greatest, reached, -⟩ := h
  have one : (1 : Float).toModel.unpack = .finite .positive (2 ^ 52) (-52) (by decide) := rfl
  have ordered : ((compare (-52) e').then (compare (2 ^ 52) m')).isLE = true := by
    rw [Ordering.isLE_then_iff_or, Int.compare_eq_lt, Int.compare_eq_eq, Nat.isLE_compare]
    omega
  have model : (1 : Float).toModel ≤ x.toModel := by
    show UnpackedFloat.le _ _ = true
    rw [one, same]
    exact ordered
  exact decide_eq_true model

theorem ofNat_eq {n : Nat} (greatest : n < 2 ^ 53) :
    Float.ofNat n = n.toUInt64.toFloat * Float.ofBits 0x3FF0000000000000 := by
  show Float.ofScientific n false 0 = _
  rw [Float.ofScientific, dif_pos ⟨greatest, by decide⟩]
  rfl

theorem one_le_ofNat_div_ten {n : Nat} (least : 10 ≤ n) (greatest : n < 2 ^ 53) :
    (1 : Float) ≤ Float.ofNat n / 10 := by
  rw [ofNat_eq greatest]
  exact one_le_of_atLeast
    (((atLeast_toFloat least greatest).mul_one (by decide) (by decide)).div_ten (by decide))

end SnippetAudit.Decimal
