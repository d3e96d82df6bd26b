import NetworkProgramming.Final.Integrity
import NetworkProgramming.Lib.CrcPoly

/-!
# What the checksum does not detect

The bytes a checksum covers and the checksum itself, taken together, are a multiple of the
generator that the comment in `crc32.c` spells out, up to a constant. So a frame or an ack in
which any bits have been hit, those of its `CheckSum` field included, is taken exactly when the
generator divides what has been hit (`taken_iff_dvd`). One or two bits never are a multiple of it.
-/

namespace NetworkProgramming

open Polynomial

/-- "The polynomial itself". -/
noncomputable def crc32Generator : (ZMod 2)[X] :=
  X ^ 32 + X ^ 26 + X ^ 23 + X ^ 22 + X ^ 16 + X ^ 12 + X ^ 11 + X ^ 10 + X ^ 8 + X ^ 7 + X ^ 5
    + X ^ 4 + X ^ 2 + X ^ 1 + X ^ 0

/-- Its powers below the implied one, from `X ^ 31` on, are the places of the word `0xEDB88320`. -/
lemma generator_crc32Poly : Crc.generator crc32Poly = crc32Generator := by
  have hplaces : Crc.places crc32Poly =
      [false, false, false, false, false, true, false, false, true, true, false, false, false,
        false, false, true, false, false, false, true, true, true, false, true, true, false, true,
        true, false, true, true, true] := by
    decide
  rw [Crc.generator, Crc.toPoly, hplaces, crc32Generator]
  simp only [Crc.message, Crc.coefficient_false, Crc.coefficient_true, C_0, C_1, zero_mul, one_mul,
    zero_add, List.length_cons, List.length_nil, add_zero]
  ring

/-- The polynomial has 32 places, and the lowest power is one of its terms. -/
lemma crc32Poly_getLsbD : crc32Poly.getLsbD (32 - 1) = true := by decide

/-- Up to `X ^ 8191` no power of `X` leaves the remainder 1. -/
lemma avoids_crc32Poly :
    Crc.avoids crc32Poly (Crc.highest 32) 8191 (Crc.highest 32) = true := by
  decide +kernel

/-- A block of bytes with the checksum that comes with it. -/
def checkedWord (bytes : List UInt8) (sum : UInt32) : List Bool :=
  Crc.bits bytes ++ Crc.places sum.toBitVec

lemma length_checkedWord (bytes : List UInt8) (sum : UInt32) :
    (checkedWord bytes sum).length = 8 * bytes.length + 32 := by
  rw [checkedWord, List.length_append, Crc.length_bits, Crc.length_places]

/-- Bytes that were sent with a right checksum arrive with a right one exactly when the generator
divides what has been hit. -/
lemma crc32_eq_iff_dvd {built received : List UInt8} {builtSum sum : UInt32}
    (hlen : received.length = built.length) (hbuilt : crc32 0 built = builtSum) :
    crc32 0 received = sum ↔ crc32Generator ∣ Crc.message
      (List.zipWith (· ^^ ·) (checkedWord received sum) (checkedWord built builtSum)) := by
  have hbits : (Crc.bits received).length = (Crc.bits built).length := by
    rw [Crc.length_bits, Crc.length_bits, hlen]
  -- the complement at the end cancels out
  have hregister : ∀ (bytes : List UInt8) (s : UInt32), crc32 0 bytes = s ↔
      Crc.register crc32Poly ((0 : UInt32) ^^^ 0xFFFFFFFF).toBitVec (Crc.bits bytes)
        = s.toBitVec ^^^ (0xFFFFFFFF : UInt32).toBitVec := by
    intro bytes s
    rw [← UInt32.toBitVec_inj, crc32_eq, ← BitVec.xor_left_inj (0xFFFFFFFF : UInt32).toBitVec,
      BitVec.xor_assoc, BitVec.xor_self, BitVec.xor_zero]
  have hcancel : ∀ s s' x : BitVec 32, s ^^^ x ^^^ (s' ^^^ x) = s ^^^ s' := by
    intro s s' x
    rw [BitVec.xor_comm s' x, ← BitVec.xor_assoc, BitVec.xor_assoc s, BitVec.xor_self,
      BitVec.xor_zero]
  rw [hregister, Crc.fits_iff (by decide) hbits ((hregister built builtSum).mp hbuilt),
    generator_crc32Poly, List.zipWith_append hbits, ← Crc.places_xor, hcancel, Crc.places_xor,
    ← List.zipWith_append hbits]
  rfl

/-- One or two bits are always detected. -/
lemma not_dvd_of_distance {built received : List UInt8} {builtSum sum : UInt32}
    (hlen : received.length = built.length) (hsmall : built.length ≤ 20 + BUF_LEN)
    (hhit : Crc.distance (checkedWord received sum) (checkedWord built builtSum) = 1 ∨
      Crc.distance (checkedWord received sum) (checkedWord built builtSum) = 2) :
    ¬ crc32Generator ∣ Crc.message
      (List.zipWith (· ^^ ·) (checkedWord received sum) (checkedWord built builtSum)) := by
  rw [← generator_crc32Poly]
  rcases hhit with hone | htwo
  · exact Crc.not_dvd_of_one crc32Poly_getLsbD (by decide) hone
  · refine Crc.not_dvd_of_two crc32Poly_getLsbD (by decide) avoids_crc32Poly ?_ htwo
    rw [List.length_zipWith, length_checkedWord, length_checkedWord, hlen, Nat.min_self]
    unfold BUF_LEN at hsmall
    omega

namespace TrollMessageStruct

/-- The checked bytes of a frame with its `CheckSum`. -/
def word (m : TrollMessageStruct) : List Bool := checkedWord m.checkedBytes m.checkSum

/-- No frame is both taken and dropped. -/
lemma Taken.not_dropped {m : TrollMessageStruct} (h : m.Taken) : ¬ m.Dropped := by
  intro hdropped
  have htaken := h .globalInit 0 default
  rw [hdropped .globalInit 0 default] at htaken
  cases htaken

lemma taken_iff_valid {m : TrollMessageStruct} : m.Taken ↔ m.Valid := by
  refine ⟨fun h => ?_, taken_of_valid⟩
  by_contra hvalid
  exact h.not_dropped (dropped_of_not_valid hvalid)

lemma dropped_iff_not_valid {m : TrollMessageStruct} : m.Dropped ↔ ¬ m.Valid :=
  ⟨fun h hvalid => (taken_of_valid hvalid).not_dropped h, dropped_of_not_valid⟩

end TrollMessageStruct

namespace TrollAckStruct

/-- The checked bytes of an ack with its `CheckSum`. -/
def word (a : TrollAckStruct) : List Bool := checkedWord a.checkedBytes a.checkSum

/-- No ack is both taken and dropped. -/
lemma Taken.not_dropped {a : TrollAckStruct} (h : a.Taken) : ¬ a.Dropped := by
  intro hdropped
  have htaken := h .globalInit 0 (.create 0 0 default) default
  rw [(hdropped .globalInit 0 (.create 0 0 default) default).1] at htaken
  cases htaken

lemma taken_iff_valid {a : TrollAckStruct} : a.Taken ↔ a.Valid := by
  refine ⟨fun h => ?_, taken_of_valid⟩
  by_contra hvalid
  exact h.not_dropped (dropped_of_not_valid hvalid)

lemma dropped_iff_not_valid {a : TrollAckStruct} : a.Dropped ↔ ¬ a.Valid :=
  ⟨fun h hvalid => (taken_of_valid hvalid).not_dropped h, dropped_of_not_valid⟩

end TrollAckStruct

/-- **What the checksum does not detect.** Whatever bits of the checked bytes and of the `CheckSum`
field have been hit on the way: a frame that was sent with a right checksum is taken exactly when
the generator divides the polynomial of the bits that have been hit, and dropped otherwise, and so
is an ack. One or two bits are always detected. -/
theorem taken_iff_dvd :
    (∀ built m : TrollMessageStruct, built.Valid →
      (m.Taken ↔ crc32Generator ∣ Crc.message (List.zipWith (· ^^ ·) m.word built.word)) ∧
      (m.Dropped ↔ ¬ crc32Generator ∣ Crc.message (List.zipWith (· ^^ ·) m.word built.word)) ∧
      (Crc.distance m.word built.word = 1 ∨ Crc.distance m.word built.word = 2 → m.Dropped)) ∧
    (∀ built a : TrollAckStruct, built.Valid →
      (a.Taken ↔ crc32Generator ∣ Crc.message (List.zipWith (· ^^ ·) a.word built.word)) ∧
      (a.Dropped ↔ ¬ crc32Generator ∣ Crc.message (List.zipWith (· ^^ ·) a.word built.word)) ∧
      (Crc.distance a.word built.word = 1 ∨ Crc.distance a.word built.word = 2 → a.Dropped)) := by
  constructor
  · intro built m hbuilt
    have hlen : m.checkedBytes.length = built.checkedBytes.length := by
      rw [TrollMessageStruct.length_checkedBytes, TrollMessageStruct.length_checkedBytes]
    have hiff : m.Valid ↔ _ := crc32_eq_iff_dvd hlen hbuilt
    refine ⟨TrollMessageStruct.taken_iff_valid.trans hiff,
      TrollMessageStruct.dropped_iff_not_valid.trans (not_congr hiff), fun hhit => ?_⟩
    refine TrollMessageStruct.dropped_of_not_valid (mt hiff.mp (not_dvd_of_distance hlen ?_ hhit))
    rw [TrollMessageStruct.length_checkedBytes]
  · intro built a hbuilt
    have hlen : a.checkedBytes.length = built.checkedBytes.length := by
      rw [TrollAckStruct.length_checkedBytes, TrollAckStruct.length_checkedBytes]
    have hiff : a.Valid ↔ _ := crc32_eq_iff_dvd hlen hbuilt
    refine ⟨TrollAckStruct.taken_iff_valid.trans hiff,
      TrollAckStruct.dropped_iff_not_valid.trans (not_congr hiff), fun hhit => ?_⟩
    refine TrollAckStruct.dropped_of_not_valid (mt hiff.mp (not_dvd_of_distance hlen ?_ hhit))
    rw [TrollAckStruct.length_checkedBytes]
    decide

/-- An ack in session 7. -/
def sealedSeven : TrollAckStruct := TrollAckStruct.sealed ⟨default, 0, 7, 0⟩

/-- Two bits of its number are hit. -/
theorem taken_iff_dvd_twoBits : { sealedSeven with seqNum := 3 }.Dropped := by
  have htwo : Crc.distance { sealedSeven with seqNum := 3 }.word sealedSeven.word = 2 := by
    decide +kernel
  have hsealed : sealedSeven.Valid := TrollAckStruct.valid_sealed _
  exact (taken_iff_dvd.2 sealedSeven _ hsealed).2.2 (Or.inr htwo)

end NetworkProgramming
