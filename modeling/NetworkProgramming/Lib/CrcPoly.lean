import NetworkProgramming.Lib.Crc
import Mathlib.Algebra.Field.ZMod
import Mathlib.Algebra.Polynomial.Div
import Mathlib.Data.List.GetD
import Mathlib.RingTheory.Coprime.Lemmas
import Mathlib.RingTheory.Polynomial.Basic

/-!
# Cyclic redundancy checks as polynomials

A message of bits is a polynomial over the field of two elements, its first bit at the highest
power, and so is a register, its lowest place at the highest power. The register after a message is
the remainder of the message by the generator.

* `message`, `toPoly`, `generator`: the polynomials;
* `dvd_register`: the register is congruent to the message;
* `register_eq_iff`: a check value fits a message when the generator divides the two together;
* `fits_iff`: of two messages with their check values, one of which fits, the other one fits
  exactly when the generator divides their difference;
* `not_dvd_of_odd`, `not_dvd_of_one`, `not_dvd_of_two`: what the generator does not divide.
-/

namespace NetworkProgramming
namespace Crc

open Polynomial

variable {w : ℕ}

/-! ## Bits as coefficients -/

/-- A bit as a coefficient. -/
def coefficient (b : Bool) : ZMod 2 := if b then 1 else 0

@[simp] lemma coefficient_true : coefficient true = 1 := rfl

@[simp] lemma coefficient_false : coefficient false = 0 := rfl

@[simp] lemma coefficient_xor (a b : Bool) :
    coefficient (a ^^ b) = coefficient a + coefficient b := by
  cases a <;> cases b <;> decide

@[simp] lemma coefficient_and (a b : Bool) :
    coefficient (a && b) = coefficient a * coefficient b := by
  cases a <;> cases b <;> decide

lemma coefficient_injective : Function.Injective coefficient := by
  intro a b h
  cases a <;> cases b <;> revert h <;> decide

/-- Every polynomial is its own negative. -/
lemma add_self_eq_zero (p : (ZMod 2)[X]) : p + p = 0 := CharTwo.add_self_eq_zero p

/-- The bits of a message as coefficients, the first one at the highest power. -/
noncomputable def message : List Bool → (ZMod 2)[X]
  | [] => 0
  | b :: l => C (coefficient b) * X ^ l.length + message l

lemma coeff_message (l : List Bool) (j : ℕ) :
    (message l).coeff j = coefficient (l.reverse.getD j false) := by
  induction l with
  | nil => simp [message]
  | cons b l ih =>
    rw [message, coeff_add, coeff_C_mul, coeff_X_pow, ih, List.reverse_cons]
    rcases lt_trichotomy j l.length with hlt | rfl | hgt
    · rw [if_neg (by omega), mul_zero, zero_add, List.getD_append _ _ _ _ (by simpa using hlt)]
    · rw [List.getD_append_right _ _ _ _ (by simp)]
      simp
    · rw [if_neg (by omega), mul_zero, zero_add, List.getD_append_right _ _ _ _ (by simp; omega)]
      have hout : 1 ≤ j - l.reverse.length := by
        rw [List.length_reverse]
        omega
      rw [List.getD_eq_default _ _ (by simp; omega), List.getD_eq_default _ _ (by simpa using hout)]

lemma degree_message_lt (l : List Bool) : (message l).degree < l.length := by
  refine (degree_lt_iff_coeff_zero _ _).mpr fun j hj => ?_
  rw [coeff_message, List.getD_eq_default _ _ (by simpa using hj)]
  rfl

lemma message_append (l l' : List Bool) :
    message (l ++ l') = X ^ l'.length * message l + message l' := by
  induction l with
  | nil => simp [message]
  | cons b l ih =>
    rw [List.cons_append, message, ih, message, List.length_append, pow_add]
    ring

/-- The polynomials of two messages differ by the polynomial of their difference. -/
lemma message_zipWith {l l' : List Bool} (hlen : l.length = l'.length) :
    message (List.zipWith (· ^^ ·) l l') = message l + message l' := by
  induction l generalizing l' with
  | nil =>
    obtain rfl := List.length_eq_zero_iff.mp hlen.symm
    simp [message]
  | cons b l ih =>
    cases l' with
    | nil => simp at hlen
    | cons b' l' =>
      have hrest : l.length = l'.length := by simpa using hlen
      rw [List.zipWith_cons_cons, message, message, message, ih hrest, coefficient_xor, C_add,
        List.length_zipWith, hrest, Nat.min_self]
      ring

lemma message_replicate (n : ℕ) : message (List.replicate n false) = 0 := by
  induction n with
  | zero => rfl
  | succ n ih => simp [List.replicate_succ, message, ih]

/-! ## Registers as polynomials -/

/-- The places of a register, the lowest one first. -/
def places (c : BitVec w) : List Bool := (List.range w).map c.getLsbD

@[simp] lemma length_places (c : BitVec w) : (places c).length = w := by simp [places]

lemma places_xor (c d : BitVec w) :
    places (c ^^^ d) = List.zipWith (· ^^ ·) (places c) (places d) := by
  rw [places, places, places, List.zipWith_map, List.zipWith_self]
  exact List.map_congr_left fun i _ => BitVec.getLsbD_xor

/-- A register as a polynomial, its lowest place at the highest power. -/
noncomputable def toPoly (c : BitVec w) : (ZMod 2)[X] := message (places c)

/-- The generator, its highest power being implied. -/
noncomputable def generator (poly : BitVec w) : (ZMod 2)[X] := X ^ w + toPoly poly

lemma coeff_toPoly (c : BitVec w) (j : ℕ) :
    (toPoly c).coeff j = coefficient (decide (j < w) && c.getLsbD (w - 1 - j)) := by
  rw [toPoly, coeff_message]
  congr 1
  by_cases hj : j < w
  · rw [List.getD_eq_getElem?_getD, List.getElem?_reverse (by simpa using hj), length_places,
      places, List.getElem?_map, List.getElem?_range (by omega)]
    simp [hj]
  · rw [List.getD_eq_default _ _ (by simp; omega)]
    simp [hj]

lemma degree_toPoly_lt (c : BitVec w) : (toPoly c).degree < w := by
  have hlt := degree_message_lt (places c)
  rwa [length_places] at hlt

@[simp] lemma toPoly_xor (c d : BitVec w) : toPoly (c ^^^ d) = toPoly c + toPoly d := by
  rw [toPoly, places_xor, message_zipWith (by simp)]
  rfl

lemma toPoly_injective : Function.Injective (toPoly : BitVec w → (ZMod 2)[X]) := by
  intro c d h
  apply BitVec.eq_of_getLsbD_eq
  intro i hi
  have hplace := congrArg (·.coeff (w - 1 - i)) h
  simp only [coeff_toPoly, show w - 1 - i < w by omega, show w - 1 - (w - 1 - i) = i by omega,
    decide_true, Bool.true_and] at hplace
  exact coefficient_injective hplace

lemma toPoly_unit (hw : 0 < w) (b : Bool) :
    toPoly (unit b : BitVec w) = C (coefficient b) * X ^ (w - 1) := by
  ext j
  rw [coeff_toPoly, getLsbD_unit, coeff_C_mul, coeff_X_pow]
  by_cases hj : j = w - 1
  · subst hj
    simp [hw]
  · rw [if_neg hj, mul_zero]
    by_cases hlt : j < w
    · have hne : w - 1 - j ≠ 0 := by omega
      simp [hne]
    · simp [hlt]

lemma degree_generator (poly : BitVec w) : (generator poly).degree = w := by
  have hlt : (toPoly poly).degree < ((X : (ZMod 2)[X]) ^ w).degree := by
    rw [degree_X_pow]
    exact degree_toPoly_lt poly
  rw [generator, degree_add_eq_left_of_degree_lt hlt, degree_X_pow]

/-- Of the registers only zero is divided by the generator. -/
lemma eq_zero_of_dvd {poly c : BitVec w} (h : generator poly ∣ toPoly c) : c = 0#w := by
  have hzero : toPoly c = 0 := by
    refine eq_zero_of_dvd_of_degree_lt h ?_
    rw [degree_generator]
    exact degree_toPoly_lt c
  apply toPoly_injective
  rw [hzero, toPoly, eq_comm]
  have hplaces : places (0#w) = List.replicate w false := by
    refine List.eq_replicate_iff.mpr ⟨length_places _, fun b hb => ?_⟩
    obtain ⟨i, -, rfl⟩ := List.mem_map.mp hb
    exact BitVec.getLsbD_zero
  rw [hplaces, message_replicate]

/-! ## The register is the remainder -/

lemma getLsbD_shift (poly c : BitVec w) (i : ℕ) :
    (shift poly c).getLsbD i = (c.getLsbD (i + 1) ^^ (c.getLsbD 0 && poly.getLsbD i)) := by
  unfold shift
  cases hlow : c.getLsbD 0 with
  | false => simp [Nat.add_comm]
  | true => simp [Nat.add_comm]

/-- A register that moves by one bit is multiplied by `X`, up to the generator. -/
lemma X_mul_toPoly (hw : 0 < w) (poly c : BitVec w) :
    X * toPoly c = toPoly (shift poly c) + C (coefficient (c.getLsbD 0)) * generator poly := by
  ext j
  rw [generator, coeff_add, coeff_C_mul, coeff_add, coeff_toPoly, coeff_toPoly, coeff_X_pow,
    getLsbD_shift]
  cases j with
  | zero =>
    have hlast : w - 1 - 0 + 1 = w := by omega
    rw [coeff_X_mul_zero, hlast, BitVec.getLsbD_of_ge c w le_rfl, if_neg (by omega)]
    simp [hw, CharTwo.add_self_eq_zero]
  | succ j =>
    rw [coeff_X_mul, coeff_toPoly]
    rcases lt_trichotomy (j + 1) w with hlt | heq | hgt
    · have hnext : w - 1 - (j + 1) + 1 = w - 1 - j := by omega
      rw [hnext, if_neg (by omega)]
      simp [hlt, Nat.lt_of_succ_lt hlt, add_assoc, CharTwo.add_self_eq_zero]
    · have hlow : w - 1 - j = 0 := by omega
      rw [hlow, if_pos heq]
      simp [heq, show j < w by omega]
    · rw [if_neg (by omega)]
      simp [show ¬ j + 1 < w by omega, show ¬ j < w by omega]

/-- **The register after a message is congruent to it.** -/
theorem dvd_register (hw : 0 < w) (poly c : BitVec w) (l : List Bool) :
    generator poly ∣ X ^ w * message l + X ^ l.length * toPoly c + toPoly (register poly c l) := by
  induction l generalizing c with
  | nil => simp [message, add_self_eq_zero]
  | cons b l ih =>
    obtain ⟨q, hq⟩ := ih (shift poly (c ^^^ unit b))
    have hmove := X_mul_toPoly hw poly (c ^^^ unit b)
    have hpow : (X : (ZMod 2)[X]) ^ w = X * X ^ (w - 1) := by
      rw [← pow_succ', Nat.sub_add_cancel hw]
    rw [toPoly_xor, toPoly_unit hw] at hmove
    refine ⟨q + X ^ l.length * C (coefficient ((c ^^^ unit b).getLsbD 0)), ?_⟩
    rw [message, List.length_cons, register_cons, pow_succ, hpow]
    rw [hpow] at hq
    -- the new bit and the register move up together
    linear_combination hq + X ^ l.length * hmove

/-- **A check value fits a message exactly when the generator divides the two together.** -/
theorem register_eq_iff (hw : 0 < w) {poly d : BitVec w} {l : List Bool} :
    register poly 0#w l = d ↔ generator poly ∣ message (l ++ places d) := by
  have hdvd := dvd_register hw poly 0#w l
  have hzero : toPoly (0#w) = 0 := by
    have hself := toPoly_xor (0#w) 0#w
    rw [BitVec.xor_self, add_self_eq_zero] at hself
    exact hself
  rw [hzero, mul_zero, add_zero] at hdvd
  have hword : message (l ++ places d) = X ^ w * message l + toPoly d := by
    rw [message_append, length_places]
    rfl
  rw [hword]
  constructor
  · rintro rfl
    exact hdvd
  · intro h
    have hsum := dvd_add hdvd h
    have hreg : X ^ w * message l + toPoly (register poly 0#w l) + (X ^ w * message l + toPoly d)
        = toPoly (register poly 0#w l ^^^ d) := by
      rw [toPoly_xor]
      linear_combination add_self_eq_zero (X ^ w * message l)
    rw [hreg] at hsum
    exact BitVec.xor_eq_zero_iff.mp (eq_zero_of_dvd hsum)

/-- **What passes for a message.** Of two messages with their check values, one of which fits, the
other one fits exactly when the generator divides their difference. -/
theorem fits_iff (hw : 0 < w) {poly c d d' : BitVec w} {l l' : List Bool}
    (hlen : l'.length = l.length) (hfits : register poly c l = d) :
    register poly c l' = d' ↔
      generator poly ∣ message (List.zipWith (· ^^ ·) (l' ++ places d') (l ++ places d)) := by
  have hxor := register_xor poly hlen c c
  rw [BitVec.xor_self, hfits] at hxor
  rw [List.zipWith_append hlen, ← places_xor, ← register_eq_iff hw, ← hxor, BitVec.xor_left_inj]

/-! ## What the generator does not divide -/

lemma eval_one_message (l : List Bool) : (message l).eval 1 = (l.count true : ZMod 2) := by
  induction l with
  | nil => simp [message]
  | cons b l ih =>
    cases b <;> simp [message, ih, add_comm]

/-- **An odd number of bits**, when the generator has an even number of terms. -/
theorem not_dvd_of_odd {poly : BitVec w} (hpoly : Odd ((places poly).count true)) {l : List Bool}
    (hl : Odd (l.count true)) : ¬ generator poly ∣ message l := by
  intro h
  have hroot : (generator poly).eval 1 = 0 := by
    rw [generator, toPoly, eval_add, eval_pow, eval_X, one_pow, eval_one_message,
      ZMod.natCast_eq_one_iff_odd.mpr hpoly]
    decide
  have hzero := eval_dvd (x := 1) h
  rw [hroot, zero_dvd_iff, eval_one_message, ZMod.natCast_eq_one_iff_odd.mpr hl] at hzero
  exact one_ne_zero hzero

lemma message_of_count_zero {l : List Bool} (h : l.count true = 0) : message l = 0 := by
  have hnone := List.count_eq_zero.mp h
  have hzero : l = List.replicate l.length false := by
    refine List.eq_replicate_iff.mpr ⟨rfl, fun b hb => ?_⟩
    cases b with
    | false => rfl
    | true => exact absurd hb hnone
  rw [hzero, message_replicate]

lemma message_of_count_one {l : List Bool} (h : l.count true = 1) :
    ∃ a < l.length, message l = X ^ a := by
  induction l with
  | nil => simp at h
  | cons b l ih =>
    cases b with
    | true =>
      rw [List.count_cons_self, Nat.add_eq_right] at h
      exact ⟨l.length, by simp, by simp [message, message_of_count_zero h]⟩
    | false =>
      rw [List.count_cons_of_ne (by simp)] at h
      obtain ⟨a, ha, hmessage⟩ := ih h
      exact ⟨a, by simp; omega, by simp [message, hmessage]⟩

lemma message_of_count_two {l : List Bool} (h : l.count true = 2) :
    ∃ a b, a < b ∧ b < l.length ∧ message l = X ^ a * (X ^ (b - a) + 1) := by
  induction l with
  | nil => simp at h
  | cons b l ih =>
    cases b with
    | true =>
      rw [List.count_cons_self, Nat.succ_inj] at h
      obtain ⟨a, ha, hmessage⟩ := message_of_count_one h
      refine ⟨a, l.length, ha, by simp, ?_⟩
      rw [mul_add, ← pow_add, Nat.add_sub_cancel' ha.le, message, hmessage]
      simp
    | false =>
      rw [List.count_cons_of_ne (by simp)] at h
      obtain ⟨a, b, hab, hb, hmessage⟩ := ih h
      exact ⟨a, b, hab, by simp; omega, by simp [message, hmessage]⟩

/-- With its highest place set, the generator shares no factor with `X`. -/
lemma isCoprime_generator {poly : BitVec w} (hpoly : poly.getLsbD (w - 1) = true) (hw : 0 < w)
    (a : ℕ) : IsCoprime (generator poly) (X ^ a) := by
  have hlast : (generator poly).coeff 0 = 1 := by
    rw [generator, coeff_add, coeff_X_pow, if_neg (by omega), zero_add, coeff_toPoly, Nat.sub_zero,
      hpoly]
    simp [hw]
  refine IsCoprime.pow_right ⟨1, -divX (generator poly), ?_⟩
  have hsplit := divX_mul_X_add (generator poly)
  rw [hlast, C_1] at hsplit
  linear_combination -hsplit

lemma not_dvd_one (hw : 0 < w) (poly : BitVec w) : ¬ generator poly ∣ 1 := by
  intro h
  have hdegree := degree_eq_zero_of_isUnit (isUnit_of_dvd_one h)
  rw [degree_generator] at hdegree
  exact absurd (Nat.cast_eq_zero.mp hdegree) hw.ne'

/-- **One bit.** -/
theorem not_dvd_of_one {poly : BitVec w} (hpoly : poly.getLsbD (w - 1) = true) (hw : 0 < w)
    {l : List Bool} (hl : l.count true = 1) : ¬ generator poly ∣ message l := by
  intro h
  obtain ⟨a, -, hmessage⟩ := message_of_count_one hl
  rw [hmessage, ← one_mul (X ^ a)] at h
  exact not_dvd_one hw poly ((isCoprime_generator hpoly hw a).dvd_of_dvd_mul_right h)

/-- The register that is 1 as a polynomial. -/
def highest (w : ℕ) : BitVec w := BitVec.twoPow w (w - 1)

lemma toPoly_highest (hw : 0 < w) : toPoly (highest w) = 1 := by
  ext j
  rw [coeff_toPoly, highest, BitVec.getLsbD_twoPow, coeff_one]
  by_cases hj : j = 0
  · subst hj
    simp [hw]
  · by_cases hlt : j < w
    · simp [hj, show w - 1 ≠ w - 1 - j by omega]
    · simp [hj, hlt]

/-- The register does not come back to `c₀` within `n` more moves. -/
def avoids (poly c₀ : BitVec w) : ℕ → BitVec w → Bool
  | 0, _ => true
  | n + 1, c => shift poly c != c₀ && avoids poly c₀ n (shift poly c)

lemma shifts_ne_of_avoids {poly c₀ : BitVec w} {n : ℕ} {c : BitVec w}
    (h : avoids poly c₀ n c = true) {m : ℕ} (hm : 0 < m) (hle : m ≤ n) :
    shifts poly m c ≠ c₀ := by
  induction n generalizing c m with
  | zero => omega
  | succ n ih =>
    obtain ⟨hne, hrest⟩ := Bool.and_eq_true_iff.mp h
    obtain ⟨m, rfl⟩ := Nat.exists_eq_add_of_lt hm
    rw [Nat.zero_add, shifts_succ]
    rcases Nat.eq_zero_or_pos m with rfl | hpos
    · exact bne_iff_ne.mp hne
    · exact ih hrest hpos (by omega)

/-- **Two bits**, no further apart than the powers of `X` have been looked at. -/
theorem not_dvd_of_two {poly : BitVec w} (hpoly : poly.getLsbD (w - 1) = true) (hw : 0 < w) {n : ℕ}
    (havoids : avoids poly (highest w) n (highest w) = true) {l : List Bool}
    (hlen : l.length ≤ n + 1) (hl : l.count true = 2) : ¬ generator poly ∣ message l := by
  intro h
  obtain ⟨a, b, hab, hb, hmessage⟩ := message_of_count_two hl
  rw [hmessage, mul_comm] at h
  have hpower := (isCoprime_generator hpoly hw a).dvd_of_dvd_mul_right h
  -- the power of `X` is what the register of 1 moves to
  have hmoves := dvd_register hw poly (highest w) (List.replicate (b - a) false)
  rw [message_replicate, List.length_replicate, toPoly_highest hw, mul_zero, zero_add, mul_one,
    register_false poly (fun c hc => List.eq_of_mem_replicate hc), List.length_replicate] at hmoves
  have hsum := dvd_add hpower hmoves
  have hback : X ^ (b - a) + 1 + (X ^ (b - a) + toPoly (shifts poly (b - a) (highest w)))
      = toPoly (shifts poly (b - a) (highest w) ^^^ highest w) := by
    rw [toPoly_xor, toPoly_highest hw]
    linear_combination add_self_eq_zero (X ^ (b - a))
  rw [hback] at hsum
  exact shifts_ne_of_avoids havoids (by omega) (by omega)
    (BitVec.xor_eq_zero_iff.mp (eq_zero_of_dvd hsum))

/-! ## Distances -/

/-- In how many places two messages of one length differ. -/
def distance (l l' : List Bool) : ℕ := (List.zipWith (· ^^ ·) l l').count true

lemma distance_append {l₁ l₁' : List Bool} (h : l₁.length = l₁'.length) (l₂ l₂' : List Bool) :
    distance (l₁ ++ l₂) (l₁' ++ l₂') = distance l₁ l₁' + distance l₂ l₂' := by
  rw [distance, List.zipWith_append h, List.count_append]
  rfl

@[simp] lemma distance_self (l : List Bool) : distance l l = 0 := by
  rw [distance, List.zipWith_self, List.count_eq_zero]
  simp

end Crc
end NetworkProgramming
