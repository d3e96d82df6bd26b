import NetworkProgramming.Lib.Bytes

/-!
# Cyclic redundancy checks

The reflected form of a CRC of any width `w` and any polynomial with its highest bit set: the
bits of a message enter the register at its lowest end, the least significant bit of a byte
first.

* `shift`: the register moves by one bit; it is linear and loses nothing;
* `register`: a message of bits is taken in;
* `register_ne_of_burst`: two messages that differ only within `w` consecutive bits leave
  different registers;
* `byteStep`, `shifts_eight`: eight bits at once, and their table of 256 entries.
-/

namespace NetworkProgramming
namespace Crc

variable {w : ℕ}

/-- The register moves by one bit. -/
def shift (poly c : BitVec w) : BitVec w :=
  if c.getLsbD 0 then (c >>> 1) ^^^ poly else c >>> 1

/-- The register moves by `n` bits. -/
def shifts (poly : BitVec w) (n : ℕ) (c : BitVec w) : BitVec w := (shift poly)^[n] c

/-- One bit in the lowest place. -/
def unit (b : Bool) : BitVec w := (BitVec.ofBool b).setWidth w

/-- The register after the bits `l`. -/
def register (poly c : BitVec w) (l : List Bool) : BitVec w :=
  l.foldl (fun c b => shift poly (c ^^^ unit b)) c

section Shift

variable {poly : BitVec w}

lemma getLsbD_unit (b : Bool) (i : ℕ) :
    (unit b : BitVec w).getLsbD i = (decide (i < w) && decide (i = 0) && b) := by
  unfold unit
  rw [BitVec.getLsbD_setWidth]
  cases i with
  | zero => cases b <;> simp
  | succ i => cases b <;> simp

@[simp] lemma shift_zero : shift poly 0#w = 0#w := by
  simp [shift]

lemma shift_xor (a b : BitVec w) : shift poly (a ^^^ b) = shift poly a ^^^ shift poly b := by
  apply BitVec.eq_of_getLsbD_eq
  intro i hi
  unfold shift
  rw [BitVec.getLsbD_xor]
  cases a.getLsbD 0 <;> cases b.getLsbD 0 <;> simp [Bool.xor_left_comm, Bool.xor_comm]

/-- Nothing but zero is shifted to zero: the bit that has left the register can be read off its
highest place. -/
lemma eq_zero_of_shift (hpoly : poly.getLsbD (w - 1) = true) {c : BitVec w}
    (h : shift poly c = 0#w) : c = 0#w := by
  have hbit : ∀ i, (shift poly c).getLsbD i = false := by simp [h]
  have hw : 0 < w := by
    by_contra hzero
    obtain rfl : w = 0 := by omega
    simp [BitVec.getLsbD_of_ge] at hpoly
  have hlow : c.getLsbD 0 = false := by
    by_contra hset
    have htop := hbit (w - 1)
    unfold shift at htop
    rw [if_pos (by simpa using hset), BitVec.getLsbD_xor, BitVec.getLsbD_ushiftRight,
      BitVec.getLsbD_of_ge c (1 + (w - 1)) (by omega), hpoly] at htop
    simp at htop
  apply BitVec.eq_of_getLsbD_eq
  intro i hi
  rw [BitVec.getLsbD_zero]
  cases i with
  | zero => exact hlow
  | succ i =>
    have hnext := hbit i
    unfold shift at hnext
    rwa [if_neg (by simp [hlow]), BitVec.getLsbD_ushiftRight, Nat.add_comm] at hnext

/-- A register with a free highest place moves up and down again. -/
lemma shift_shiftLeft {x : BitVec w} (h : x.getLsbD (w - 1) = false) :
    shift poly (x <<< 1) = x := by
  apply BitVec.eq_of_getLsbD_eq
  intro i hi
  have hlow : (x <<< 1).getLsbD 0 = false := by simp
  unfold shift
  rw [if_neg (by simp [hlow]), BitVec.getLsbD_ushiftRight, BitVec.getLsbD_shiftLeft]
  by_cases hlast : 1 + i < w
  · simp [hlast]
  · obtain rfl : i = w - 1 := by omega
    simp [hlast, h]

@[simp] lemma shifts_zero (n : ℕ) : shifts poly n 0#w = 0#w := by
  unfold shifts
  induction n with
  | zero => rfl
  | succ n ih => rw [Function.iterate_succ_apply, shift_zero, ih]

lemma shifts_succ (n : ℕ) (c : BitVec w) : shifts poly (n + 1) c = shifts poly n (shift poly c) :=
  rfl

lemma shifts_xor (n : ℕ) (a b : BitVec w) :
    shifts poly n (a ^^^ b) = shifts poly n a ^^^ shifts poly n b := by
  induction n generalizing a b with
  | zero => rfl
  | succ n ih => rw [shifts_succ, shift_xor, ih, ← shifts_succ, ← shifts_succ]

lemma eq_zero_of_shifts (hpoly : poly.getLsbD (w - 1) = true) {n : ℕ} {c : BitVec w}
    (h : shifts poly n c = 0#w) : c = 0#w := by
  induction n generalizing c with
  | zero => exact h
  | succ n ih => exact eq_zero_of_shift hpoly (ih h)

end Shift

/-! ## Messages -/

section Register

variable (poly : BitVec w)

@[simp] lemma register_nil (c : BitVec w) : register poly c [] = c := rfl

lemma register_cons (c : BitVec w) (b : Bool) (l : List Bool) :
    register poly c (b :: l) = register poly (shift poly (c ^^^ unit b)) l := rfl

lemma register_append (c : BitVec w) (l l' : List Bool) :
    register poly c (l ++ l') = register poly (register poly c l) l' := List.foldl_append

lemma unit_xor (a b : Bool) : (unit (a ^^ b) : BitVec w) = unit a ^^^ unit b := by
  apply BitVec.eq_of_getLsbD_eq
  intro i hi
  simp only [BitVec.getLsbD_xor, getLsbD_unit]
  cases a <;> cases b <;> simp

/-- The registers of two messages differ by the register of their difference. -/
lemma register_xor {l l' : List Bool} (hlen : l.length = l'.length) (c c' : BitVec w) :
    register poly c l ^^^ register poly c' l'
      = register poly (c ^^^ c') (List.zipWith (· ^^ ·) l l') := by
  induction l generalizing l' c c' with
  | nil =>
    obtain rfl := List.length_eq_zero_iff.mp hlen.symm
    rfl
  | cons b l ih =>
    cases l' with
    | nil => simp at hlen
    | cons b' l' =>
      have hstep : shift poly (c ^^^ unit b) ^^^ shift poly (c' ^^^ unit b')
          = shift poly (c ^^^ c' ^^^ unit (b ^^ b')) := by
        rw [← shift_xor, unit_xor]
        congr 1
        ac_rfl
      rw [register_cons, register_cons, ih (by simpa using hlen), hstep]
      rfl

/-- Zeros only move the register. -/
lemma register_false {l : List Bool} (h : ∀ b ∈ l, b = false) (c : BitVec w) :
    register poly c l = shifts poly l.length c := by
  induction l generalizing c with
  | nil => rfl
  | cons b l ih =>
    obtain rfl := h b List.mem_cons_self
    have hzero : (unit false : BitVec w) = 0#w := by simp [unit]
    rw [register_cons, hzero, BitVec.xor_zero, ih fun b hb => h b (List.mem_cons_of_mem _ hb)]
    rfl

/-- The bits `l` in the places `0`, `1`, … -/
def pack : List Bool → BitVec w
  | [] => 0#w
  | b :: l => unit b ^^^ (pack l <<< 1)

lemma getLsbD_pack (l : List Bool) (i : ℕ) :
    (pack l : BitVec w).getLsbD i = (decide (i < w) && l.getD i false) := by
  induction l generalizing i with
  | nil => simp [pack]
  | cons b l ih =>
    rw [pack, BitVec.getLsbD_xor, getLsbD_unit, BitVec.getLsbD_shiftLeft]
    cases i with
    | zero => simp
    | succ i =>
      rw [Nat.add_sub_cancel, ih]
      by_cases hi : i + 1 < w
      · simp [hi, Nat.lt_of_succ_lt hi]
      · simp [hi]

/-- At most `w` bits may as well enter the register at once. -/
lemma register_eq_shifts {l : List Bool} (hlen : l.length ≤ w) (c : BitVec w) :
    register poly c l = shifts poly l.length (c ^^^ pack l) := by
  induction l generalizing c with
  | nil => simp [pack, shifts]
  | cons b l ih =>
    rw [List.length_cons] at hlen
    have hfree : (pack l : BitVec w).getLsbD (w - 1) = false := by
      rw [getLsbD_pack, List.getD_eq_getElem?_getD, List.getElem?_eq_none (by omega)]
      simp
    have hstep : shift poly (c ^^^ pack (b :: l)) = shift poly (c ^^^ unit b) ^^^ pack l := by
      rw [pack, ← BitVec.xor_assoc, shift_xor, shift_shiftLeft hfree]
    rw [register_cons, ih (by omega), List.length_cons, shifts_succ, hstep]

end Register

/-! ## Bursts -/

/-- The two messages agree outside of `n` consecutive bits. -/
def DifferWithin (n : ℕ) (l l' : List Bool) : Prop :=
  ∃ s, ∀ i, l[i]? ≠ l'[i]? → s ≤ i ∧ i < s + n

/-- **A burst does not cancel.** Two messages of one length that differ, but only within `w`
consecutive bits, leave different registers. -/
theorem register_ne_of_burst {poly : BitVec w} (hpoly : poly.getLsbD (w - 1) = true)
    {l l' : List Bool} (hlen : l.length = l'.length) (hne : l ≠ l') (h : DifferWithin w l l')
    (c : BitVec w) : register poly c l ≠ register poly c l' := by
  intro heq
  obtain ⟨s, hburst⟩ := h
  let d := List.zipWith (· ^^ ·) l l'
  have hd : d.length = l.length := by simp [d, hlen]
  have hbit : ∀ i : ℕ, d[i]? ≠ some true ↔ l[i]? = l'[i]? := by
    intro i
    by_cases hi : i < l.length
    · rw [List.getElem?_eq_getElem (hd ▸ hi), List.getElem?_eq_getElem hi,
        List.getElem?_eq_getElem (hlen ▸ hi)]
      simp [d]
    · rw [List.getElem?_eq_none (by omega), List.getElem?_eq_none (by omega),
        List.getElem?_eq_none (by omega)]
      simp
  have hquiet : ∀ i : ℕ, ¬ (s ≤ i ∧ i < s + w) → d[i]? ≠ some true := fun i hi =>
    (hbit i).mpr (not_not.mp (mt (hburst i) hi))
  have hfalse : ∀ {m : List Bool}, (∀ i : ℕ, m[i]? ≠ some true) → ∀ b ∈ m, b = false := by
    intro m hm b hb
    obtain ⟨i, hi⟩ := List.mem_iff_getElem?.mp hb
    cases b with
    | false => rfl
    | true => exact absurd hi (hm i)
  have hzero : register poly 0#w d = 0#w := by
    have hxor := register_xor poly hlen c c
    rwa [heq, BitVec.xor_self, BitVec.xor_self, eq_comm] at hxor
  -- before the burst the register of the difference is zero, after it the burst only moves
  have hsplit : d = d.take s ++ ((d.drop s).take w ++ (d.drop s).drop w) := by
    rw [List.take_append_drop, List.take_append_drop]
  have hbefore : ∀ b ∈ d.take s, b = false := hfalse fun i => by
    by_cases hi : i < s
    · rw [List.getElem?_take_of_lt hi]
      exact hquiet i (by omega)
    · rw [List.getElem?_eq_none (by rw [List.length_take]; omega)]
      simp
  have hafter : ∀ b ∈ (d.drop s).drop w, b = false := hfalse fun i => by
    rw [List.getElem?_drop, List.getElem?_drop]
    exact hquiet _ (by omega)
  have hlength : ((d.drop s).take w).length ≤ w := by
    rw [List.length_take]
    omega
  rw [hsplit, register_append, register_append, register_false poly hbefore, shifts_zero,
    register_false poly hafter, register_eq_shifts poly hlength, BitVec.zero_xor] at hzero
  have hpack : (pack ((d.drop s).take w) : BitVec w) = 0#w :=
    eq_zero_of_shifts hpoly (eq_zero_of_shifts hpoly hzero)
  apply hne
  apply List.ext_getElem?
  intro i
  rw [← hbit]
  by_cases hi : s ≤ i ∧ i < s + w
  · intro hset
    have hplace := getLsbD_pack (w := w) ((d.drop s).take w) (i - s)
    rw [hpack, BitVec.getLsbD_zero, List.getD_eq_getElem?_getD, List.getElem?_take_of_lt (by omega),
      List.getElem?_drop, Nat.add_sub_cancel' hi.1, hset] at hplace
    simp at hplace
    omega
  · exact hquiet i hi

/-! ## Bytes -/

/-- The bits of a byte, the least significant one first. -/
def byteBits (b : UInt8) : List Bool := (List.range 8).map b.toBitVec.getLsbD

/-- The bits of a block. -/
def bits (buf : List UInt8) : List Bool := buf.flatMap byteBits

lemma bits_cons (b : UInt8) (buf : List UInt8) : bits (b :: buf) = byteBits b ++ bits buf :=
  List.flatMap_cons

@[simp] lemma length_byteBits (b : UInt8) : (byteBits b).length = 8 := by simp [byteBits]

lemma byteBits_injective : Function.Injective byteBits := by
  intro a b h
  apply UInt8.toBitVec_inj.mp
  apply BitVec.eq_of_getLsbD_eq
  intro i hi
  have hget := congrArg (·[i]?) h
  simpa [byteBits, hi] using hget

lemma length_bits (buf : List UInt8) : (bits buf).length = 8 * buf.length := by
  induction buf with
  | nil => rfl
  | cons b buf ih =>
    rw [bits_cons, List.length_append, length_byteBits, ih, List.length_cons]
    omega

lemma bits_injective {buf buf' : List UInt8} (hlen : buf.length = buf'.length)
    (h : bits buf = bits buf') : buf = buf' := by
  induction buf generalizing buf' with
  | nil => exact (List.length_eq_zero_iff.mp hlen.symm).symm
  | cons b buf ih =>
    cases buf' with
    | nil => simp at hlen
    | cons b' buf' =>
      obtain ⟨hfirst, hrest⟩ := List.append_inj h (by simp)
      rw [byteBits_injective hfirst, ih (by simpa using hlen) hrest]

/-- A bit of a block is a bit of one of its bytes. -/
lemma getElem?_bits (buf : List UInt8) (i : ℕ) :
    (bits buf)[i]? = buf[i / 8]?.map (·.toBitVec.getLsbD (i % 8)) := by
  induction buf generalizing i with
  | nil => simp [bits]
  | cons b buf ih =>
    rw [bits_cons]
    by_cases hi : i < 8
    · rw [List.getElem?_append_left (by simpa using hi), Nat.div_eq_of_lt hi, Nat.mod_eq_of_lt hi]
      simp [byteBits, hi]
    · obtain ⟨j, rfl⟩ := Nat.exists_eq_add_of_le' (not_lt.mp hi)
      rw [List.getElem?_append_right (by simp), length_byteBits, Nat.add_sub_cancel, ih,
        Nat.add_div_right j (by norm_num), Nat.add_mod_right, List.getElem?_cons_succ]

/-- A byte is known from its bits. -/
lemma getElem?_eq_of_bits {buf buf' : List UInt8} (hlen : buf.length = buf'.length) {j : ℕ}
    (h : ∀ i, i / 8 = j → (bits buf)[i]? = (bits buf')[i]?) : buf[j]? = buf'[j]? := by
  by_cases hj : j < buf.length
  · have hj' : j < buf'.length := hlen ▸ hj
    rw [List.getElem?_eq_getElem hj, List.getElem?_eq_getElem hj', Option.some.injEq]
    apply UInt8.toBitVec_inj.mp
    apply BitVec.eq_of_getLsbD_eq
    intro k hk
    have hbit := h (8 * j + k) (by omega)
    rw [getElem?_bits, getElem?_bits, show (8 * j + k) / 8 = j by omega,
      show (8 * j + k) % 8 = k by omega, List.getElem?_eq_getElem hj,
      List.getElem?_eq_getElem hj'] at hbit
    exact Option.some.inj hbit
  · rw [List.getElem?_eq_none (not_lt.mp hj), List.getElem?_eq_none (hlen ▸ not_lt.mp hj)]

/-- The register takes in a whole byte. -/
def byteStep (poly c : BitVec w) (b : UInt8) : BitVec w :=
  shifts poly 8 (c ^^^ b.toBitVec.setWidth w)

lemma register_byteBits (poly c : BitVec w) (hw : 8 ≤ w) (b : UInt8) :
    register poly c (byteBits b) = byteStep poly c b := by
  have hpack : (pack (byteBits b) : BitVec w) = b.toBitVec.setWidth w := by
    apply BitVec.eq_of_getLsbD_eq
    intro i hi
    rw [getLsbD_pack, BitVec.getLsbD_setWidth, List.getD_eq_getElem?_getD]
    by_cases hbyte : i < 8
    · simp [byteBits, hbyte]
    · simp [byteBits, hbyte, BitVec.getLsbD_of_ge b.toBitVec i (by omega)]
  rw [register_eq_shifts poly (by simpa using hw), hpack, length_byteBits]
  rfl

/-- Taking in a block byte by byte is taking in its bits. -/
theorem foldl_byteStep (poly c : BitVec w) (hw : 8 ≤ w) (buf : List UInt8) :
    buf.foldl (byteStep poly) c = register poly c (bits buf) := by
  induction buf generalizing c with
  | nil => rfl
  | cons b buf ih =>
    rw [List.foldl_cons, ih, bits_cons, register_append, register_byteBits poly c hw]

lemma shifts_shiftLeft {poly x : BitVec w} {n : ℕ} (h : ∀ i, w ≤ i + n → x.getLsbD i = false) :
    shifts poly n (x <<< n) = x := by
  induction n generalizing x with
  | zero => simp [shifts]
  | succ n ih =>
    have hfree : (x <<< n).getLsbD (w - 1) = false := by
      rw [BitVec.getLsbD_shiftLeft]
      by_cases hn : w - 1 < n
      · simp [hn]
      · rw [h (w - 1 - n) (by omega), Bool.and_false]
    rw [shifts_succ, BitVec.shiftLeft_add, shift_shiftLeft hfree]
    exact ih fun i hi => h i (by omega)

/-- The lowest byte goes through the table, the others move down. -/
lemma shifts_eight (poly x : BitVec w) :
    shifts poly 8 x = shifts poly 8 (x &&& 255#w) ^^^ (x >>> 8) := by
  have hparts : x = (x &&& 255#w) ^^^ ((x >>> 8) <<< 8) := by
    apply BitVec.eq_of_getLsbD_eq
    intro i hi
    have hmask : (255#w).getLsbD i = decide (i < 8) := by
      rw [BitVec.getLsbD_ofNat, show (255 : ℕ) = 2 ^ 8 - 1 by rfl, Nat.testBit_two_pow_sub_one]
      simp [hi]
    rw [BitVec.getLsbD_xor, BitVec.getLsbD_and, hmask, BitVec.getLsbD_shiftLeft,
      BitVec.getLsbD_ushiftRight]
    by_cases hbyte : i < 8
    · simp [hbyte, hi]
    · rw [Nat.add_sub_cancel' (by omega)]
      simp [hbyte, hi]
  have hhigh : shifts poly 8 ((x >>> 8) <<< 8) = x >>> 8 := by
    apply shifts_shiftLeft
    intro i hi
    rw [BitVec.getLsbD_ushiftRight]
    exact BitVec.getLsbD_of_ge x _ (by omega)
  calc shifts poly 8 x
      = shifts poly 8 ((x &&& 255#w) ^^^ ((x >>> 8) <<< 8)) := by rw [← hparts]
    _ = shifts poly 8 (x &&& 255#w) ^^^ (x >>> 8) := by rw [shifts_xor, hhigh]

end Crc
end NetworkProgramming
