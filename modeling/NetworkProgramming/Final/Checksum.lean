import NetworkProgramming.Lib.Bytes
import NetworkProgramming.Lib.Loop
import NetworkProgramming.Final.Global

/-!
# `checksum.c`: the sum of words

`checksum32` adds the 32-bit words of a block in 64 bits and folds the carries back in. Its word
loop ends only where the bytes left are exactly `0`, and takes 4 of them a round: in a block
whose length is no multiple of 4 it runs past the end (`checksum32_outOfBounds`). On all others
it is the folded sum of the words, and that sum shows every change of a single byte
(`checksum32_exact_iff`).
-/

namespace NetworkProgramming

/-! ## The loops -/

/-- What the word loop of `checksum32` works on. The pointer is an offset into the block. -/
structure WordState where
  sum : UInt64
  bufUint32 : ℕ
  len : UInt64

/-- One round of the word loop. -/
def wordBody {n : ℕ} (buf : Buffer n) (s : WordState) : Round Halt WordState :=
  if s.len = 0 then .leave
  else
    match buf.read? s.bufUint32 4 with
    | none => .fail .outOfBounds
    | some word =>
      .again { sum := s.sum + UInt64.ofNat (ofLeBytes word), bufUint32 := s.bufUint32 + 4,
               len := s.len - 4 }

lemma wordBody_leave {n : ℕ} {buf : Buffer n} {s : WordState} :
    wordBody buf s = .leave ↔ s.len = 0 := by
  unfold wordBody
  split
  · simp [*]
  · split <;> simp [*]

lemma wordBody_again {n : ℕ} {buf : Buffer n} {s u : WordState} :
    wordBody buf s = .again u ↔ s.len ≠ 0 ∧ s.bufUint32 + 4 ≤ n ∧
      u = { sum := s.sum + UInt64.ofNat (ofLeBytes ((buf.toList.drop s.bufUint32).take 4)),
            bufUint32 := s.bufUint32 + 4, len := s.len - 4 } := by
  unfold wordBody Buffer.read?
  split
  · simp [*]
  · rename_i hlen
    split_ifs with hin
    · simp [hlen, hin, eq_comm]
    · simp [hin]

lemma wordBody_fail {n : ℕ} {buf : Buffer n} {s : WordState} {x : Halt} :
    wordBody buf s = .fail x ↔ s.len ≠ 0 ∧ n < s.bufUint32 + 4 ∧ x = .outOfBounds := by
  unfold wordBody Buffer.read?
  split
  · simp [*]
  · rename_i hlen
    split_ifs with hin
    · simp [hin]
    · simp [hlen, not_le.mp hin, eq_comm]

/-- The word loop: every round reads 4 bytes further on in the block. -/
def wordLoop {n : ℕ} (buf : Buffer n) : Loop Halt WordState where
  body := wordBody buf
  measure s := n - s.bufUint32
  decreases s u h := by
    obtain ⟨-, hin, rfl⟩ := wordBody_again.mp h
    dsimp only
    omega

/-- What the loop over the remaining bytes works on. -/
structure RemainState where
  remain : UInt32
  bufUint8 : ℕ
  len : UInt64

/-- One of the 4 rounds over the remaining bytes. -/
def remainRound {n : ℕ} (buf : Buffer n) (r : RemainState) : Except Halt RemainState :=
  let remain := r.remain <<< 8
  if r.len = 0 then .ok { r with remain }
  else
    match buf.toList[r.bufUint8]? with
    | none => .error .outOfBounds
    | some b =>
      .ok { remain := remain + b.toUInt32, bufUint8 := r.bufUint8 + 1, len := r.len - 1 }

/-- `checksum32` of the `len` bytes in `buf`. The seed `crc` is not used. -/
def checksum32 (_crc : UInt32) {n : ℕ} (buf : Buffer n) (len : UInt64) : Except Halt UInt32 := do
  let s ← (wordLoop buf).run { sum := 0, bufUint32 := 0, len }
  let r ← (List.range 4).foldlM (fun r _ => remainRound buf r)
    { remain := 0, bufUint8 := s.bufUint32, len := s.len }
  let sum := s.sum + r.remain.toUInt64
  return ((sum >>> 32) + sum).toUInt32

/-! ## The sum of a byte string -/

/-- The number a byte string denotes in four places, its first byte in the highest. -/
def leftAligned (bs : List UInt8) : ℕ :=
  ofLeBytes (bs ++ List.replicate (4 - bs.length) 0).reverse

/-- The complete little-endian words and the remaining bytes as one more word. -/
def wordSum : List UInt8 → ℕ
  | a :: b :: c :: d :: bs => ofLeBytes [a, b, c, d] + wordSum bs
  | bs => leftAligned bs

lemma wordSum_of_four_le {l : List UInt8} (h : 4 ≤ l.length) :
    wordSum l = ofLeBytes (l.take 4) + wordSum (l.drop 4) := by
  rcases l with _ | ⟨w, _ | ⟨x, _ | ⟨y, _ | ⟨z, l⟩⟩⟩⟩
  · cases h
  · simp at h
  · simp at h
  · simp at h
  · rfl

lemma wordSum_of_length_lt {l : List UInt8} (h : l.length < 4) : wordSum l = leftAligned l := by
  rcases l with _ | ⟨w, _ | ⟨x, _ | ⟨y, _ | ⟨z, l⟩⟩⟩⟩
  · rfl
  · rfl
  · rfl
  · rfl
  · simp only [List.length_cons] at h
    omega

/-- The carries out of the low 32 bits are added back in. -/
def folded (s : ℕ) : ℕ := (s + s / 2 ^ 32) % 2 ^ 32

lemma folded_lt (s : ℕ) : folded s < UInt32.size := Nat.mod_lt _ (by norm_num)

/-- Numbers less than `2 ^ 32 - 1` apart are folded to different ones. -/
lemma folded_ne {s u : ℕ} (hlt : s < u) (hnear : u < s + (2 ^ 32 - 1)) :
    folded s ≠ folded u := by
  -- at most one carry lies between them
  have hcarry : u / 2 ^ 32 = s / 2 ^ 32 ∨ u / 2 ^ 32 = s / 2 ^ 32 + 1 := by omega
  unfold folded
  rcases hcarry with hq | hq <;> rw [hq] <;> omega

/-- A byte that grows in place `k` of four moves the sum by less than a lap. -/
lemma folded_ne_of_place_lt {s u k : ℕ} {a b : UInt8} (hk : k < 4) (hlt : a.toNat < b.toNat)
    (h : s + b.toNat * 256 ^ k = u + a.toNat * 256 ^ k) : folded s ≠ folded u := by
  have hb := b.toNat_lt
  obtain ⟨d, hd⟩ := Nat.exists_eq_add_of_lt hlt
  have hplace : 256 ^ k ≤ 256 ^ 3 := Nat.pow_le_pow_right (by norm_num) (by omega)
  have hmul : (d + 1) * 256 ^ k ≤ 255 * 256 ^ 3 := Nat.mul_le_mul (by omega) hplace
  have hmove : 0 < (d + 1) * 256 ^ k := by positivity
  have hsum : s + (d + 1) * 256 ^ k = u := by
    rw [hd] at h
    nlinarith
  exact folded_ne (by omega) (by omega)

/-- A byte that changes in place `k` of four changes the folded sum. -/
lemma folded_ne_of_place {s u k : ℕ} {a b : UInt8} (hk : k < 4) (hne : a ≠ b)
    (h : s + b.toNat * 256 ^ k = u + a.toNat * 256 ^ k) : folded s ≠ folded u := by
  have hne' : a.toNat ≠ b.toNat := fun heq => hne (UInt8.toNat_inj.mp heq)
  rcases lt_or_gt_of_ne hne' with hlt | hlt
  · exact folded_ne_of_place_lt hk hlt h
  · exact (folded_ne_of_place_lt hk hlt h.symm).symm

/-- Fewer than four bytes fill one word, the first of them its highest place. -/
lemma leftAligned_set (l : List UInt8) (b : UInt8) {i : ℕ} (hi : i < l.length)
    (hshort : l.length < 4) :
    leftAligned (l.set i b) + l[i].toNat * 256 ^ (3 - i)
      = leftAligned l + b.toNat * 256 ^ (3 - i) := by
  have hi3 : i < 3 := by omega
  rcases l with _ | ⟨x, _ | ⟨y, _ | ⟨z, _ | ⟨w, l⟩⟩⟩⟩
  · cases hi
  · obtain rfl : i = 0 := by simpa using hi
    simp [leftAligned, ofLeBytes]
    omega
  · simp only [List.length_cons, List.length_nil] at hi
    interval_cases i <;> simp [leftAligned, ofLeBytes] <;> omega
  · interval_cases i <;> simp [leftAligned, ofLeBytes] <;> omega
  · simp only [List.length_cons] at hshort
    omega

/-- Changing one byte changes one place of one word. -/
lemma wordSum_set (l : List UInt8) (b : UInt8) {i : ℕ} (hi : i < l.length) :
    ∃ k < 4, wordSum (l.set i b) + l[i].toNat * 256 ^ k = wordSum l + b.toNat * 256 ^ k := by
  induction l using wordSum.induct generalizing i with
  | case1 w x y z bs ih =>
    by_cases hword : i < 4
    · refine ⟨i, hword, ?_⟩
      interval_cases i <;> simp [wordSum, ofLeBytes] <;> omega
    · obtain ⟨j, rfl⟩ := Nat.exists_eq_add_of_le' (not_lt.mp hword)
      obtain ⟨k, hk, heq⟩ := ih (i := j) (by simpa using hi)
      refine ⟨k, hk, ?_⟩
      simp only [List.set_cons_succ, wordSum, List.getElem_cons_succ]
      omega
  | case2 bs hshort =>
    have hlen : bs.length < 4 := by
      rcases bs with _ | ⟨w, _ | ⟨x, _ | ⟨y, _ | ⟨z, bs⟩⟩⟩⟩
      · simp
      · simp
      · simp
      · simp
      · exact absurd rfl (hshort w x y z bs)
    refine ⟨3 - i, by omega, ?_⟩
    rw [wordSum_of_length_lt hlen, wordSum_of_length_lt (by rwa [List.length_set])]
    exact leftAligned_set bs b hi hlen

/-- **The folded sum shows a single byte**, at every length. -/
theorem folded_wordSum_ne {l : List UInt8} {b : UInt8} {i : ℕ} (hi : i < l.length)
    (hne : b ≠ l[i]) : folded (wordSum (l.set i b)) ≠ folded (wordSum l) := by
  obtain ⟨k, hk, heq⟩ := wordSum_set l b hi
  exact folded_ne_of_place hk hne heq

/-! ## What `checksum32` answers -/

/-- While whole words are left the loop adds them, and stops at the end of the block. -/
lemma wordLoop_run {n : ℕ} (buf : Buffer n) {s : WordState} (hdvd : 4 ∣ s.len.toNat)
    (hend : s.bufUint32 + s.len.toNat = n) :
    ∃ u, (wordLoop buf).run s = .ok u ∧ u.len = 0 ∧
      u.sum = s.sum + UInt64.ofNat (wordSum (buf.toList.drop s.bufUint32)) := by
  induction s using Loop.run.induct (wordLoop buf) with
  | case1 s hleave =>
    have hlen : s.len = 0 := wordBody_leave.mp hleave
    refine ⟨s, (wordLoop buf).run_of_leave hleave, hlen, ?_⟩
    rw [hlen] at hend
    rw [List.drop_eq_nil_of_le (by simpa using hend.ge)]
    simp [wordSum, leftAligned, ofLeBytes]
  | case2 s x hfail =>
    obtain ⟨hlen, hout, -⟩ := wordBody_fail.mp hfail
    have hpos : s.len.toNat ≠ 0 := fun hzero => hlen (UInt64.toNat_inj.mp hzero)
    omega
  | case3 s v hagain ih =>
    obtain ⟨hlen, hin, rfl⟩ := wordBody_again.mp hagain
    have hpos : s.len.toNat ≠ 0 := fun hzero => hlen (UInt64.toNat_inj.mp hzero)
    have hle : 4 ≤ s.len.toNat := by omega
    have hrest : (s.len - 4).toNat = s.len.toNat - 4 :=
      UInt64.toNat_sub_of_le _ _ (UInt64.le_iff_toNat_le.mpr hle)
    obtain ⟨u, hu, hzero, hsum⟩ := ih (by dsimp only; omega) (by dsimp only; omega)
    refine ⟨u, ((wordLoop buf).run_of_again hagain).trans hu, hzero, ?_⟩
    rw [hsum, wordSum_of_four_le (l := buf.toList.drop s.bufUint32) (by simp; omega),
      List.drop_drop, UInt64.ofNat_add, UInt64.add_assoc]

/-- While the bytes left are no multiple of 4 the loop does not leave. -/
lemma wordLoop_never_leaves {n : ℕ} {buf : Buffer n} {s u : WordState}
    (hdvd : ¬ 4 ∣ s.len.toNat) (h : (wordLoop buf).Visits s u) : ¬ 4 ∣ u.len.toNat := by
  induction h with
  | start => exact hdvd
  | round _ hagain ih =>
    obtain ⟨-, -, rfl⟩ := wordBody_again.mp hagain
    dsimp only
    rw [UInt64.toNat_sub]
    simp
    omega

/-- With nothing left the last 4 rounds read nothing. -/
lemma remainRounds_of_len_zero {n : ℕ} (buf : Buffer n) (p : ℕ) :
    (List.range 4).foldlM (fun r _ => remainRound buf r) ⟨0, p, 0⟩ = .ok ⟨0, p, 0⟩ := by
  have hround : remainRound buf ⟨0, p, 0⟩ = .ok ⟨0, p, 0⟩ := by simp [remainRound]
  have hrounds : ∀ l : List ℕ,
      l.foldlM (fun r _ => remainRound buf r) ⟨0, p, 0⟩ = .ok ⟨0, p, 0⟩ := by
    intro l
    induction l with
    | nil => rfl
    | cons i l ih => rw [List.foldlM_cons, hround]; exact ih
  exact hrounds _

/-- Folding in 64 bits is folding. -/
lemma folded_ofNat (s : ℕ) :
    ((UInt64.ofNat s >>> 32) + UInt64.ofNat s).toUInt32 = UInt32.ofNat (folded s) := by
  apply UInt32.toNat_inj.mp
  simp [folded, Nat.shiftRight_eq_div_pow]
  omega

/-- A block of whole words is summed up, and nothing outside it is read. -/
theorem checksum32_eq (crc : UInt32) {n : ℕ} (buf : Buffer n) {len : UInt64}
    (hlen : len.toNat = n) (hdvd : 4 ∣ n) :
    checksum32 crc buf len = .ok (UInt32.ofNat (folded (wordSum buf.toList))) := by
  obtain ⟨u, hu, hzero, hsum⟩ := wordLoop_run buf
    (s := { sum := 0, bufUint32 := 0, len }) (by rwa [hlen]) (by simpa using hlen)
  have hsum' : u.sum = UInt64.ofNat (wordSum buf.toList) := by
    rw [hsum, List.drop_zero, UInt64.zero_add]
  unfold checksum32
  rw [hu]
  dsimp only [bind, Except.bind]
  rw [hzero, remainRounds_of_len_zero]
  dsimp only [pure, Except.pure]
  rw [← folded_ofNat, ← hsum']
  simp

/-- Any other block is read beyond its end. -/
theorem checksum32_outOfBounds (crc : UInt32) {n : ℕ} (buf : Buffer n) {len : UInt64}
    (hdvd : ¬ 4 ∣ len.toNat) : checksum32 crc buf len = .error .outOfBounds := by
  unfold checksum32
  cases hrun : (wordLoop buf).run { sum := 0, bufUint32 := 0, len } with
  | ok u =>
    obtain ⟨hvisit, hleave⟩ := (wordLoop buf).visits_of_run hrun
    have hnever := wordLoop_never_leaves hdvd hvisit
    rw [wordBody_leave.mp hleave] at hnever
    exact absurd (dvd_zero 4) hnever
  | error x =>
    obtain ⟨u, -, hfail⟩ := (wordLoop buf).visits_of_run_error hrun
    obtain ⟨-, -, rfl⟩ := wordBody_fail.mp hfail
    rfl

/-- `checksum32` reads inside the block, answers with its folded sum of words, and shows every
change of a single byte. -/
def SumsUp (crc : UInt32) {len : UInt64} (buf : Buffer len.toNat) : Prop :=
  checksum32 crc buf len = .ok (UInt32.ofNat (folded (wordSum buf.toList))) ∧
    ∀ i b, b ≠ buf.get i → checksum32 crc (buf.set i b) len ≠ checksum32 crc buf len

/-- **`checksum32` is exact for blocks of whole words, and for no other.** -/
theorem checksum32_exact_iff (crc : UInt32) {len : UInt64} (buf : Buffer len.toNat) :
    SumsUp crc buf ↔ 4 ∣ len.toNat := by
  constructor
  · intro h
    by_contra hdvd
    have hsum := h.1
    rw [checksum32_outOfBounds crc buf hdvd] at hsum
    cases hsum
  · intro hdvd
    refine ⟨checksum32_eq crc buf rfl hdvd, fun i b hne heq => ?_⟩
    rw [checksum32_eq crc buf rfl hdvd, checksum32_eq crc _ rfl hdvd,
      List.Vector.toList_set] at heq
    have hi : (i : ℕ) < buf.toList.length := by simp
    have hget : b ≠ buf.toList[(i : ℕ)] := by
      rwa [List.Vector.get_eq_get_toList] at hne
    apply folded_wordSum_ne hi hget
    have hvalue := congrArg UInt32.toNat (Except.ok.inj heq)
    rwa [UInt32.toNat_ofNat_of_lt' (folded_lt _), UInt32.toNat_ofNat_of_lt' (folded_lt _)]
      at hvalue

/-- A block of 5 bytes is not summed up. -/
theorem not_always_sumsUp :
    ¬ ∀ (crc : UInt32) (len : UInt64) (buf : Buffer len.toNat), SumsUp crc buf := by
  intro h
  have hsum := (h 0 5 (Buffer.zero _)).1
  rw [checksum32_outOfBounds 0 _ (by decide)] at hsum
  cases hsum

end NetworkProgramming
