import FeatureSql.Proofs.Binary.Rounding
import Mathlib.Tactic.FieldSimp

/-! The shortest decimal of a number of the format is one of those that round to it. -/

set_option autoImplicit false

namespace FeatureSql

/-- The number that a decimal stands for. -/
def Decimal.value (d : Decimal) : ℚ := d.digits * 10 ^ d.exponent

namespace Binary

section Compare
variable (a : Nat) (i : Int) (b : Nat) (j : Int)

theorem scaled_eq_div : (a * 10 ^ i : ℚ) = (a * 10 ^ i.toNat : Nat) / (10 ^ (-i).toNat : Nat) ∧
    (b * 2 ^ j : ℚ) = (b * 2 ^ j.toNat : Nat) / (2 ^ (-j).toNat : Nat) := by
  rw [zpow_eq_div (by norm_num) i, zpow_eq_div (by norm_num) j]
  push_cast
  exact ⟨(mul_div_assoc _ _ _).symm, (mul_div_assoc _ _ _).symm⟩

variable {a i b j}

theorem compareScaled_eq_lt : compareScaled a i b j = .lt ↔ (a * 10 ^ i : ℚ) < b * 2 ^ j := by
  obtain ⟨hten, htwo⟩ := scaled_eq_div a i b j
  rw [hten, htwo, div_lt_div_iff₀ (by positivity) (by positivity), compareScaled,
    Nat.compare_eq_lt]
  norm_cast

theorem compareScaled_eq_gt : compareScaled a i b j = .gt ↔ (b * 2 ^ j : ℚ) < a * 10 ^ i := by
  obtain ⟨hten, htwo⟩ := scaled_eq_div a i b j
  rw [hten, htwo, div_lt_div_iff₀ (by positivity) (by positivity), compareScaled,
    Nat.compare_eq_gt]
  norm_cast

theorem compareScaled_eq_eq : compareScaled a i b j = .eq ↔ (a * 10 ^ i : ℚ) = b * 2 ^ j := by
  obtain ⟨hten, htwo⟩ := scaled_eq_div a i b j
  rw [hten, htwo, div_eq_div_iff (by positivity) (by positivity), compareScaled,
    Nat.compare_eq_eq]
  norm_cast

end Compare

variable {x : Binary} {d : Decimal}

theorem near_of_readsBack (hx : x.Canonical) (h : x.readsBack d = true) : x.Near d.value := by
  have hpower : (0 : ℚ) < 2 ^ x.exponent := by positivity
  have hquarter : ∀ n : Nat, (n * 2 ^ (x.exponent - 2) : ℚ) = n / 4 * 2 ^ x.exponent := by
    intro n
    rw [zpow_sub₀ (by norm_num)]
    ring
  have hlow : ((4 * x.significand - (if x.narrowBelow then 1 else 2) : Nat) : ℚ) / 4 =
      x.significand - x.reach := by
    have := hx.pos
    rw [Nat.cast_sub (by split <;> omega), reach]
    split <;> push_cast <;> ring
  have hhigh : ((4 * x.significand + 2 : Nat) : ℚ) / 4 = x.significand + 1 / 2 := by
    push_cast
    ring
  unfold readsBack at h
  simp only [Bool.and_eq_true, Bool.or_eq_true, beq_iff_eq, compareScaled_eq_lt,
    compareScaled_eq_gt, compareScaled_eq_eq, hquarter, hlow, hhigh] at h
  change (_ ∨ _ ∧ d.value = _) ∧ (_ ∨ _ ∧ d.value = _) at h
  obtain ⟨hbelow, habove⟩ := h
  constructor
  · rw [le_div_iff₀ hpower]
    exact hbelow.elim le_of_lt fun h => h.2.ge
  · rw [div_le_iff₀ hpower]
    exact habove.elim le_of_lt fun h => h.2.le
  · intro hodd
    rw [lt_div_iff₀ hpower, div_lt_iff₀ hpower]
    exact ⟨hbelow.resolve_right fun h => by omega, habove.resolve_right fun h => by omega⟩

theorem readsBack_of_onGrid? {p : Int} (h : x.onGrid? p = some d) : x.readsBack d = true := by
  unfold onGrid? at h
  dsimp only at h
  split at h
  · next hlower hupper =>
    split at h <;> cases h <;> assumption
  · next hlower _ => exact Option.some.inj h ▸ hlower
  · next _ hupper => exact Option.some.inj h ▸ hupper
  · cases h

theorem value_exact (x : Binary) : x.exact.value = x.value := by
  unfold exact Decimal.value value
  dsimp only
  rcases le_total 0 x.exponent with hexponent | hexponent
  · obtain ⟨n, hn⟩ := Int.eq_ofNat_of_zero_le hexponent
    rw [hn]
    simp
  · obtain ⟨n, hn⟩ := Int.eq_ofNat_of_zero_le (show 0 ≤ -x.exponent by omega)
    have hn : x.exponent = -n := by omega
    have hfive : (5 ^ n * 10 ^ (-n : Int) : ℚ) = 2 ^ (-n : Int) := by
      rw [zpow_neg, zpow_neg, zpow_natCast, zpow_natCast, show (10 : ℚ) = 5 * 2 by norm_num,
        mul_pow]
      field_simp
    rw [hn, ← hfive]
    simp [mul_assoc]

end Binary

theorem pow_dvd_zeros (n : Nat) :
    10 ^ ((Nat.toDigits 10 n).reverse.takeWhile (· == '0')).length ∣ n := by
  induction n using Nat.strongRecOn with
  | ind n ih =>
    by_cases hsmall : n < 10
    · rw [Nat.toDigits_of_lt_base hsmall]
      have hdigit : ∀ m < 10, 10 ^ ([m.digitChar].reverse.takeWhile (· == '0')).length ∣ m := by
        decide
      exact hdigit n hsmall
    · rw [Nat.toDigits_of_base_le (by decide) (by omega), List.reverse_append,
        List.reverse_singleton, List.singleton_append, List.takeWhile_cons]
      split
      · next hzero =>
        have hdigit : ∀ m < 10, (m.digitChar == '0') = true → m = 0 := by decide
        have hlast := hdigit (n % 10) (by omega) hzero
        obtain ⟨q, hq⟩ := ih (n / 10) (by omega)
        rw [List.length_cons]
        generalize (List.takeWhile _ _).length = zeros at hq ⊢
        refine ⟨q, ?_⟩
        rw [Nat.pow_succ, Nat.mul_right_comm, ← hq]
        omega
      · exact Nat.one_dvd n

theorem Decimal.value_strip (d : Decimal) : d.strip.value = d.value := by
  unfold strip value
  dsimp only
  obtain ⟨q, hq⟩ := pow_dvd_zeros d.digits
  generalize ((Nat.toDigits 10 d.digits).reverse.takeWhile (· == '0')).length = zeros at hq ⊢
  have hpos : 0 < 10 ^ zeros := by positivity
  rw [Nat.pow_eq, hq, Nat.mul_div_cancel_left q hpos, zpow_add₀ (by norm_num), zpow_natCast]
  push_cast
  ring

theorem Binary.near_shortest {x : Binary} (hx : x.Canonical) : x.Near x.shortest.value := by
  unfold shortest
  dsimp only
  rw [Decimal.value_strip]
  generalize hfound : List.findSome? _ _ = found
  cases found with
  | none => exact value_exact x ▸ x.near_value
  | some d =>
    obtain ⟨p, _, hgrid⟩ := List.exists_of_findSome?_eq_some hfound
    exact near_of_readsBack hx (readsBack_of_onGrid? hgrid)

end FeatureSql
