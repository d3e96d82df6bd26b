import Mathlib.Tactic
import Mathlib.Data.Vector.Basic

/-!
# Little-endian words and bounds-checked byte buffers

* `leBytes w x` is the `w`-byte little-endian image of `x`, and `ofLeBytes` reads one back;
* `Buffer n` is a block of exactly `n` bytes. `read?` and `write?` are the accesses that stay
  inside the block; they answer `none` where a C program would leave it.
-/

namespace NetworkProgramming

/-! ## Little-endian words -/

/-- The `w` low bytes of `x`, least significant first. -/
def leBytes : ℕ → ℕ → List UInt8
  | 0, _ => []
  | w + 1, x => UInt8.ofNat x :: leBytes w (x / 256)

/-- The number a little-endian byte string denotes. -/
def ofLeBytes : List UInt8 → ℕ
  | [] => 0
  | b :: bs => b.toNat + 256 * ofLeBytes bs

@[simp] lemma length_leBytes (w x : ℕ) : (leBytes w x).length = w := by
  induction w generalizing x with
  | zero => rfl
  | succ w ih => simp [leBytes, ih]

/-- Reading a `w`-byte image back gives the number modulo `256 ^ w`. -/
theorem ofLeBytes_leBytes (w x : ℕ) : ofLeBytes (leBytes w x) = x % 256 ^ w := by
  induction w generalizing x with
  | zero => simp [leBytes, ofLeBytes, Nat.mod_one]
  | succ w ih =>
    have hsplit : x % 256 ^ (w + 1) = x % 256 + 256 * (x / 256 % 256 ^ w) := by
      rw [pow_succ', Nat.mod_mul]
    simp [leBytes, ofLeBytes, ih, hsplit]

lemma ofLeBytes_lt (bs : List UInt8) : ofLeBytes bs < 256 ^ bs.length := by
  induction bs with
  | nil => exact Nat.one_pos
  | cons b bs ih =>
    have hb := b.toNat_lt
    rw [ofLeBytes, List.length_cons, Nat.pow_succ']
    omega

/-- The image of the number a byte string denotes is this string. -/
theorem leBytes_ofLeBytes (bs : List UInt8) : leBytes bs.length (ofLeBytes bs) = bs := by
  induction bs with
  | nil => rfl
  | cons b bs ih =>
    have hb := b.toNat_lt
    have hlow : UInt8.ofNat (b.toNat + 256 * ofLeBytes bs) = b := by
      apply UInt8.toNat_inj.mp
      rw [UInt8.toNat_ofNat']
      omega
    have hhigh : (b.toNat + 256 * ofLeBytes bs) / 256 = ofLeBytes bs := by omega
    rw [List.length_cons, ofLeBytes, leBytes, hlow, hhigh, ih]

/-- Zeros at the end do not count. -/
lemma ofLeBytes_append_replicate (bs : List UInt8) (n : ℕ) :
    ofLeBytes (bs ++ List.replicate n 0) = ofLeBytes bs := by
  induction bs with
  | nil =>
    induction n with
    | zero => rfl
    | succ n ih => simpa [ofLeBytes, List.replicate_succ] using ih
  | cons b bs ih => rw [List.cons_append, ofLeBytes, ih, ofLeBytes]

/-! ## Buffers -/

/-- A block of `n` bytes. -/
abbrev Buffer (n : ℕ) := List.Vector UInt8 n

namespace Buffer

variable {n : ℕ}

/-- The block filled with zeros. -/
def zero (n : ℕ) : Buffer n := List.Vector.replicate n 0

/-- `len` bytes from offset `off` on, when they lie inside the block. -/
def read? (b : Buffer n) (off len : ℕ) : Option (List UInt8) :=
  if off + len ≤ n then some ((b.toList.drop off).take len) else none

/-- The block after `src` is stored from offset `off` on. -/
def write (b : Buffer n) (off : ℕ) (src : List UInt8) (h : off + src.length ≤ n) : Buffer n :=
  ⟨b.toList.take off ++ src ++ b.toList.drop (off + src.length), by simp; omega⟩

/-- Store `src` from offset `off` on, when it fits in the block. -/
def write? (b : Buffer n) (off : ℕ) (src : List UInt8) : Option (Buffer n) :=
  if h : off + src.length ≤ n then some (b.write off src h) else none

lemma read?_eq_some {b : Buffer n} {off len : ℕ} {bs : List UInt8} :
    b.read? off len = some bs ↔ off + len ≤ n ∧ bs = (b.toList.drop off).take len := by
  unfold read?; split <;> simp [*, eq_comm]

lemma write?_eq_some {b b' : Buffer n} {off : ℕ} {src : List UInt8} :
    b.write? off src = some b' ↔ ∃ h : off + src.length ≤ n, b' = b.write off src h := by
  unfold write?; split <;> simp [*, eq_comm]

/-- What lies before the end of the stored bytes. -/
lemma take_write {b : Buffer n} {off k : ℕ} {src : List UInt8} (h : off + src.length ≤ n)
    (hk : k = off + src.length) :
    (b.write off src h).toList.take k = b.toList.take off ++ src := by
  have hlen : (b.toList.take off ++ src).length = k := by simp; omega
  rw [write, List.Vector.toList_mk, ← hlen, List.take_left]

/-- Bytes before the stored ones keep their value. -/
lemma take_write_of_le {b : Buffer n} {off k : ℕ} {src : List UInt8} (h : off + src.length ≤ n)
    (hk : k ≤ off) : (b.write off src h).toList.take k = b.toList.take k := by
  have hle : k ≤ (b.toList.take off).length := by simp; omega
  rw [write, List.Vector.toList_mk, List.append_assoc, List.take_append_of_le_length hle,
    List.take_take, min_eq_left hk]

end Buffer
end NetworkProgramming
