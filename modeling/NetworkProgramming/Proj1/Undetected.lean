import NetworkProgramming.Lib.CrcPoly
import NetworkProgramming.Proj1.Crc16

/-!
# What `crc16` does not detect

The bits of a packet, with those of its `check` field moved behind them, are a multiple of the
CCITT generator, up to a constant. So a packet in which any bits have been hit, those of `check`
included, passes `check_crc` exactly when the generator divides what has been hit
(`recvCheck_iff_dvd`). That is never the case for an odd number of bits, and never for two.
-/

namespace NetworkProgramming.Proj1

open Polynomial

/-- "CCITT". -/
noncomputable def crc16Generator : (ZMod 2)[X] := X ^ 16 + X ^ 12 + X ^ 5 + 1

/-- Its powers below the highest one, from `X ^ 15` on, are the places of `POLY`. -/
lemma generator_crc16Poly : Crc.generator crc16Poly = crc16Generator := by
  have hplaces : Crc.places crc16Poly = [false, false, false, true, false, false, false, false,
      false, false, true, false, false, false, false, true] := by
    decide
  rw [Crc.generator, Crc.toPoly, hplaces, crc16Generator]
  simp only [Crc.message, Crc.coefficient_false, Crc.coefficient_true, C_0, C_1, zero_mul, one_mul,
    zero_add, List.length_cons, List.length_nil, add_zero]
  ring

/-- Up to `X ^ 6700` no power of `X` leaves the remainder 1. -/
lemma avoids_crc16Poly :
    Crc.avoids crc16Poly (Crc.highest 16) 6700 (Crc.highest 16) = true := by
  decide +kernel

/-! ## The check field and the register -/

/-- The register behind a check field: `release` read backwards. -/
def captured (check : UInt16) : BitVec 16 :=
  check.toBitVec.rotateLeft 8 ^^^ BitVec.allOnes 16

lemma getLsbD_rotateLeft (x : BitVec 16) {i : ℕ} (hi : i < 16) :
    (x.rotateLeft 8).getLsbD i = x.getLsbD ((i + 8) % 16) := by
  rw [BitVec.getLsbD_rotateLeft, Bool.cond_decide, decide_eq_true hi, Bool.true_and]
  split
  · congr 1
    omega
  · congr 1
    omega

lemma getLsbD_captured (check : UInt16) {i : ℕ} (hi : i < 16) :
    (captured check).getLsbD i = !check.toBitVec.getLsbD ((i + 8) % 16) := by
  rw [captured, BitVec.getLsbD_xor, getLsbD_rotateLeft _ hi, BitVec.getLsbD_allOnes,
    decide_eq_true hi, Bool.xor_true]

lemma release_captured (check : UInt16) : release (widen (captured check)) = check := by
  apply UInt16.toBitVec_inj.mp
  apply BitVec.eq_of_getLsbD_eq
  intro i hi
  have hplace := getLsbD_release (captured check) (i := (i + 8) % 16) (Nat.mod_lt _ (by decide))
  rw [getLsbD_captured check (Nat.mod_lt _ (by decide)), Bool.not_not,
    show ((i + 8) % 16 + 8) % 16 = i by omega] at hplace
  exact hplace

lemma crc16_eq_iff {data : List UInt8} (h : data ≠ []) (check : UInt16) :
    crc16 data = check ↔
      Crc.register crc16Poly 0xffff#16 (Crc.bits data) = captured check := by
  rw [crc16_of_ne_nil h]
  constructor
  · intro heq
    exact release_injective (heq.trans (release_captured check).symm)
  · intro heq
    rw [heq, release_captured]

lemma getLsbD_checkField {l : List UInt8} (h : 18 ≤ l.length) (i : ℕ) (hi : i < 16) :
    (checkField l).toBitVec.getLsbD i
      = if i < 8 then l[16].toBitVec.getLsbD i else l[17].toBitVec.getLsbD (i - 8) := by
  have hlow := l[16].toNat_lt
  have hsplit : l[16].toNat + 256 * l[17].toNat = 2 ^ 8 * l[17].toNat + l[16].toNat := by omega
  rw [checkField_eq h, hsplit]
  show (BitVec.ofNat 16 _).getLsbD i = _
  rw [BitVec.getLsbD_ofNat, Nat.testBit_two_pow_mul_add _ hlow]
  by_cases hbyte : i < 8
  · simp only [hi, hbyte, if_true, decide_true, Bool.true_and]
    rfl
  · simp only [hi, hbyte, if_false, decide_true, Bool.true_and]
    rfl

/-- The two bytes of the check field, the second one first. -/
def swapped (l : List UInt8) : List UInt8 := [l.getD 17 0, l.getD 16 0]

/-- The places of the register are the bits of the check field, its bytes exchanged. -/
lemma places_rotateLeft {l : List UInt8} (h : 18 ≤ l.length) :
    Crc.places ((checkField l).toBitVec.rotateLeft 8) = Crc.bits (swapped l) := by
  apply List.ext_getElem?
  intro i
  by_cases hi : i < 16
  · rw [Crc.getElem?_bits, Crc.places, List.getElem?_map, List.getElem?_range hi, Option.map_some,
      getLsbD_rotateLeft _ hi, getLsbD_checkField h _ (Nat.mod_lt _ (by decide)), swapped,
      List.getD_eq_getElem _ _ (by omega), List.getD_eq_getElem _ _ (by omega)]
    by_cases hlow : i < 8
    · rw [if_neg (by omega), Nat.div_eq_of_lt hlow, Nat.mod_eq_of_lt hlow,
        show (i + 8) % 16 - 8 = i by omega]
      rfl
    · rw [if_pos (by omega), show i / 8 = 1 by omega, show i % 8 = (i + 8) % 16 by omega]
      rfl
  · rw [List.getElem?_eq_none (by rw [Crc.length_places]; omega),
      List.getElem?_eq_none (by rw [Crc.length_bits]; simp [swapped]; omega)]

/-! ## Segments -/

/-- The bits of a segment, those of the check field moved behind the others. -/
def segmentWord (l : List UInt8) : List Bool := Crc.bits (zeroCheck l ++ swapped l)

lemma length_segmentWord {l : List UInt8} (h : 18 ≤ l.length) :
    (segmentWord l).length = 8 * l.length + 16 := by
  rw [segmentWord, Crc.length_bits, List.length_append, length_zeroCheck h, swapped]
  simp
  omega

/-- A segment passes exactly when its check field is the checksum of the rest. -/
lemma recvCheck_eq_zero_iff {sendTo l : List UInt8} (hsendTo : sendTo.length = SEND_TO_LEN)
    (hmin : 18 ≤ l.length) (hmax : l.length ≤ 20 + BODY_LEN) :
    recvCheck (sendTo ++ l) = some 0 ↔ crc16 (zeroCheck l) = checkField l := by
  rw [recvCheck_eq hsendTo hmin hmax, Option.some.injEq, checkCrc]
  split
  · rename_i heq
    exact ⟨fun _ => heq, fun _ => rfl⟩
  · rename_i hne
    exact ⟨fun h => absurd h (by decide), fun h => absurd h hne⟩

lemma recvCheck_eq_neg_one_iff {sendTo l : List UInt8} (hsendTo : sendTo.length = SEND_TO_LEN)
    (hmin : 18 ≤ l.length) (hmax : l.length ≤ 20 + BODY_LEN) :
    recvCheck (sendTo ++ l) = some (-1) ↔ crc16 (zeroCheck l) ≠ checkField l := by
  rw [recvCheck_eq hsendTo hmin hmax, Option.some.injEq, checkCrc]
  split
  · rename_i heq
    exact ⟨fun h => absurd h (by decide), fun h => absurd heq h⟩
  · rename_i hne
    exact ⟨fun _ => hne, fun _ => rfl⟩

variable {got sent : List UInt8}

/-- Of two segments, one of which has a right check field, the other one has a right one exactly
when the generator divides their difference. -/
lemma crc16_eq_iff_dvd (hlen : got.length = sent.length) (hmin : 18 ≤ sent.length)
    (hsent : crc16 (zeroCheck sent) = checkField sent) :
    crc16 (zeroCheck got) = checkField got ↔ crc16Generator ∣
      Crc.message (List.zipWith (· ^^ ·) (segmentWord got) (segmentWord sent)) := by
  have hmin' : 18 ≤ got.length := hlen ▸ hmin
  have hne : ∀ {l : List UInt8}, 18 ≤ l.length → zeroCheck l ≠ [] := by
    intro l hl hnil
    have hlength := length_zeroCheck hl
    rw [hnil, List.length_nil] at hlength
    omega
  have hbits : (Crc.bits (zeroCheck got)).length = (Crc.bits (zeroCheck sent)).length := by
    rw [Crc.length_bits, Crc.length_bits, length_zeroCheck hmin', length_zeroCheck hmin, hlen]
  have hword : ∀ l : List UInt8, 18 ≤ l.length → segmentWord l
      = Crc.bits (zeroCheck l) ++ Crc.places ((checkField l).toBitVec.rotateLeft 8) := by
    intro l hl
    rw [segmentWord, places_rotateLeft hl, Crc.bits, Crc.bits, Crc.bits, List.flatMap_append]
  -- the complement at the end cancels out
  have hcancel : captured (checkField got) ^^^ captured (checkField sent)
      = (checkField got).toBitVec.rotateLeft 8 ^^^ (checkField sent).toBitVec.rotateLeft 8 := by
    rw [captured, captured, BitVec.xor_comm ((checkField sent).toBitVec.rotateLeft 8),
      ← BitVec.xor_assoc, BitVec.xor_assoc ((checkField got).toBitVec.rotateLeft 8),
      BitVec.xor_self, BitVec.xor_zero]
  rw [crc16_eq_iff (hne hmin'),
    Crc.fits_iff (by decide) hbits ((crc16_eq_iff (hne hmin) _).mp hsent), generator_crc16Poly,
    List.zipWith_append hbits, ← Crc.places_xor, hcancel, Crc.places_xor,
    ← List.zipWith_append hbits, ← hword got hmin', ← hword sent hmin]

/-- Moving the check field does not change in how many places two segments differ. -/
lemma distance_segmentWord (hlen : got.length = sent.length) (hmin : 18 ≤ sent.length) :
    Crc.distance (segmentWord got) (segmentWord sent)
      = Crc.distance (Crc.bits got) (Crc.bits sent) := by
  have hparts : ∀ l : List UInt8, 18 ≤ l.length → ∃ front x y rest, front.length = 16 ∧
      rest.length = l.length - 18 ∧ l = front ++ ([x] ++ ([y] ++ rest)) ∧
      segmentWord l = Crc.bits (front ++ ([0, 0] ++ (rest ++ ([y] ++ [x])))) := by
    intro l hl
    have hsplit : l = l.take 16 ++ ([l[16]] ++ ([l[17]] ++ l.drop 18)) := by
      conv_lhs => rw [← List.take_append_drop 16 l, List.drop_eq_getElem_cons (by omega),
        List.drop_eq_getElem_cons (by omega)]
      rfl
    refine ⟨l.take 16, l[16], l[17], l.drop 18, by simp; omega, by simp, hsplit, ?_⟩
    rw [segmentWord, zeroCheck, swapped, List.getD_eq_getElem _ _ (by omega),
      List.getD_eq_getElem _ _ (by omega)]
    simp
  have happend : ∀ {a a' : List UInt8}, a.length = a'.length → ∀ b b' : List UInt8,
      Crc.distance (Crc.bits (a ++ b)) (Crc.bits (a' ++ b'))
        = Crc.distance (Crc.bits a) (Crc.bits a') + Crc.distance (Crc.bits b) (Crc.bits b') := by
    intro a a' ha b b'
    have hbits : (Crc.bits a).length = (Crc.bits a').length := by
      rw [Crc.length_bits, Crc.length_bits, ha]
    rw [Crc.bits, Crc.bits, List.flatMap_append, List.flatMap_append]
    exact Crc.distance_append hbits _ _
  obtain ⟨front, x, y, rest, hfront, hrest, hgot, hwordGot⟩ := hparts got (hlen ▸ hmin)
  obtain ⟨front', x', y', rest', hfront', hrest', hsent, hwordSent⟩ := hparts sent hmin
  have hfronts : front.length = front'.length := hfront.trans hfront'.symm
  have hrests : rest.length = rest'.length := by rw [hrest, hrest', hlen]
  have hx : [x].length = [x'].length := rfl
  have hy : [y].length = [y'].length := rfl
  rw [hwordGot, hwordSent]
  conv_rhs => rw [hgot, hsent]
  rw [happend hfronts, happend hfronts, happend rfl, happend hrests, happend hy, happend hx,
    happend hy, Crc.distance_self]
  ring

/-- **What `crc16` does not detect.** Take a packet that the send branch has filled in, and any
bits of it, those of the check field included, that are hit on the way: the receive branch passes
it exactly when the generator divides the polynomial of the bits that have been hit, and fails it
otherwise. An odd number of bits is always detected, and so are two. -/
theorem recvCheck_iff_dvd (head : TrollHeader) (bytes : ℕ) (hbytes : bytes ≤ BODY_LEN)
    (sendTo : List UInt8) (hsendTo : sendTo.length = SEND_TO_LEN) (got sent : List UInt8)
    (hsent : sent = (head.fillCheck bytes).segment bytes) (hlen : got.length = sent.length) :
    (recvCheck (sendTo ++ got) = some 0 ↔ crc16Generator ∣
      Crc.message (List.zipWith (· ^^ ·) (segmentWord got) (segmentWord sent))) ∧
    (recvCheck (sendTo ++ got) = some (-1) ↔ ¬ crc16Generator ∣
      Crc.message (List.zipWith (· ^^ ·) (segmentWord got) (segmentWord sent))) ∧
    (Odd (Crc.distance (Crc.bits got) (Crc.bits sent)) ∨
      Crc.distance (Crc.bits got) (Crc.bits sent) = 2 →
        recvCheck (sendTo ++ got) = some (-1)) := by
  have hlength := length_segment (head.fillCheck bytes) hbytes
  have hfilled := checkField_segment head bytes
  rw [← hsent] at hlength hfilled
  have hmin : 18 ≤ sent.length := by omega
  have hmin' : 18 ≤ got.length := hlen ▸ hmin
  have hmax : got.length ≤ 20 + BODY_LEN := by omega
  have hiff := crc16_eq_iff_dvd hlen hmin hfilled.symm
  have hfails := (recvCheck_eq_neg_one_iff hsendTo hmin' hmax).trans (not_congr hiff)
  refine ⟨(recvCheck_eq_zero_iff hsendTo hmin' hmax).trans hiff, hfails, fun hhit => ?_⟩
  rw [hfails, ← generator_crc16Poly]
  rw [← distance_segmentWord hlen hmin] at hhit
  rcases hhit with hodd | htwo
  · exact Crc.not_dvd_of_odd (by decide) hodd
  · refine Crc.not_dvd_of_two (by decide) (by decide) avoids_crc16Poly ?_ htwo
    rw [List.length_zipWith, length_segmentWord hmin', length_segmentWord hmin, hlen, Nat.min_self]
    unfold BODY_LEN at hbytes
    omega

/-- A packet of three zeros. -/
def threeZeros : List UInt8 :=
  (TrollHeader.fillCheck ⟨default, default, .zero BODY_LEN⟩ 3).segment 3

/-- Three bits of its body are hit. -/
theorem recvCheck_iff_dvd_threeBits :
    recvCheck (List.replicate 16 0 ++ threeZeros.set 20 7) = some (-1) := by
  have hlen : (threeZeros.set 20 7).length = threeZeros.length := List.length_set
  have hodd : Odd (Crc.distance (Crc.bits (threeZeros.set 20 7)) (Crc.bits threeZeros)) := by
    decide +kernel
  exact (recvCheck_iff_dvd ⟨default, default, .zero BODY_LEN⟩ 3 (by decide) _ (by decide)
    (threeZeros.set 20 7) threeZeros rfl hlen).2.2 (Or.inl hodd)

end NetworkProgramming.Proj1
