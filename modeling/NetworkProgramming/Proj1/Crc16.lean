import NetworkProgramming.Lib.Crc
import NetworkProgramming.Proj1.Window

/-!
# `crc16`: the packet checksum

The register of `crc16` is an `unsigned int` of which 16 bits are used. It takes in the bits of
the data one by one, so it is the CRC of `Lib.Crc` with 16 places (`crc16_eq`), and what is
released, complemented and with its bytes exchanged, loses nothing (`release_injective`). A burst
of up to 16 bits changes its value (`crc16_ne_of_burst`).
-/

namespace NetworkProgramming.Proj1

/-! ## The register -/

/-- `POLY` in the 16 places of the register. -/
def crc16Poly : BitVec 16 := 0x8408

/-- The register as the variable `crc` holds it. -/
def widen (c : BitVec 16) : UInt32 := ⟨c.setWidth 32⟩

/-- Masked with 1, a word is its lowest bit. -/
lemma and_one (x : UInt32) : x &&& 1 = ⟨Crc.unit (x.toBitVec.getLsbD 0)⟩ := by
  apply UInt32.toBitVec_inj.mp
  rw [UInt32.toBitVec_and]
  exact BitVec.and_one_eq_setWidth_ofBool_getLsbD

/-- The test of a round compares two bits. -/
lemma and_one_xor_ne_zero (x y : UInt32) :
    (x &&& 1) ^^^ (y &&& 1) ≠ 0 ↔ (x.toBitVec.getLsbD 0 ^^ y.toBitVec.getLsbD 0) = true := by
  rw [and_one, and_one, ne_eq, ← UInt32.toBitVec_inj, UInt32.toBitVec_xor, ← Crc.unit_xor]
  cases x.toBitVec.getLsbD 0 ^^ y.toBitVec.getLsbD 0 <;> decide

/-- Above its lowest place a single bit is not seen. -/
lemma xor_unit_shift (c : BitVec 16) (b : Bool) : (c ^^^ Crc.unit b) >>> 1 = c >>> 1 := by
  apply BitVec.eq_of_getLsbD_eq
  intro i hi
  simp [Crc.getLsbD_unit]

/-- One round of the inner loop takes in the lowest bit of `data`. -/
lemma crc16Bit_eq (c : BitVec 16) (data : UInt32) :
    crc16Bit (widen c) data
      = widen (Crc.shift crc16Poly (c ^^^ Crc.unit (data.toBitVec.getLsbD 0))) := by
  have hlow : (c ^^^ Crc.unit (data.toBitVec.getLsbD 0)).getLsbD 0
      = (c.getLsbD 0 ^^ data.toBitVec.getLsbD 0) := by
    rw [BitVec.getLsbD_xor, Crc.getLsbD_unit]
    simp
  have hwide : (widen c).toBitVec.getLsbD 0 = c.getLsbD 0 := by
    simp [widen]
  have hdown : widen c >>> 1 = widen (c >>> 1) := by
    apply UInt32.toBitVec_inj.mp
    apply BitVec.eq_of_getLsbD_eq
    intro i hi
    simp [widen]
  unfold crc16Bit Crc.shift
  rw [xor_unit_shift, hlow, hdown]
  by_cases hbit : (c.getLsbD 0 ^^ data.toBitVec.getLsbD 0) = true
  · rw [if_pos ((and_one_xor_ne_zero _ _).mpr (hwide ▸ hbit)), if_pos hbit]
    apply UInt32.toBitVec_inj.mp
    have hpoly : POLY.toBitVec = crc16Poly.setWidth 32 := by decide
    rw [UInt32.toBitVec_xor, hpoly]
    simp only [widen, BitVec.setWidth_xor]
  · rw [if_neg (mt (and_one_xor_ne_zero _ _).mp (hwide ▸ hbit)), if_neg hbit]

/-- The first `n` rounds of the inner loop take in the `n` lowest bits of `data`. -/
lemma crc16Rounds_eq (c : BitVec 16) (data : UInt32) (n : ℕ) :
    ∃ rest : UInt32, (∀ i, rest.toBitVec.getLsbD i = data.toBitVec.getLsbD (i + n)) ∧
      (List.range n).foldl (fun s _ => (crc16Bit s.1 s.2, s.2 >>> 1)) (widen c, data)
        = (widen (Crc.register crc16Poly c ((List.range n).map data.toBitVec.getLsbD)), rest) := by
  induction n with
  | zero => exact ⟨data, fun _ => rfl, rfl⟩
  | succ n ih =>
    obtain ⟨rest, hrest, hfold⟩ := ih
    refine ⟨rest >>> 1, fun i => ?_, ?_⟩
    · have hnext := hrest (1 + i)
      rw [show 1 + i + n = i + (n + 1) by omega] at hnext
      rw [← hnext]
      simp
    · rw [List.range_succ, List.foldl_append, hfold, List.map_append, Crc.register_append]
      have hbit := hrest 0
      rw [Nat.zero_add] at hbit
      simp only [List.foldl_cons, List.foldl_nil, List.map_cons, List.map_nil, crc16Bit_eq, hbit]
      rfl

/-- The inner loop takes in the bits of a byte. -/
lemma crc16Byte_eq (c : BitVec 16) (b : UInt8) :
    crc16Byte (widen c) b = widen (Crc.register crc16Poly c (Crc.byteBits b)) := by
  obtain ⟨rest, -, hfold⟩ := crc16Rounds_eq c b.toUInt32 8
  have hbits : (List.range 8).map b.toUInt32.toBitVec.getLsbD = Crc.byteBits b := by
    refine List.map_congr_left fun i hi => ?_
    have hi' : i < 8 := List.mem_range.mp hi
    simp
    omega
  rw [crc16Byte, hfold, hbits]

/-- The loops take in the bits of the data. -/
lemma foldl_crc16Byte (c : BitVec 16) (data : List UInt8) :
    data.foldl crc16Byte (widen c) = widen (Crc.register crc16Poly c (Crc.bits data)) := by
  induction data generalizing c with
  | nil => rfl
  | cons b data ih =>
    rw [List.foldl_cons, crc16Byte_eq, ih, Crc.bits_cons, Crc.register_append]

/-- What `crc16` makes of its register in the end: the complement, its two bytes exchanged. -/
def release (crc : UInt32) : UInt16 :=
  ((~~~ crc <<< 8) ||| (~~~ crc >>> 8 &&& 0xff)).toUInt16

lemma crc16_of_ne_nil {data : List UInt8} (h : data ≠ []) :
    crc16 data = release (widen (Crc.register crc16Poly 0xffff#16 (Crc.bits data))) := by
  rw [← foldl_crc16Byte, crc16, if_neg h]
  rfl

/-- Nothing of the 16 places is lost. -/
lemma getLsbD_release (c : BitVec 16) {i : ℕ} (hi : i < 16) :
    (release (widen c)).toBitVec.getLsbD ((i + 8) % 16) = !c.getLsbD i := by
  have hmask : ∀ j (hj : j < 16), (255#16)[j] = decide (j < 8) := by decide
  by_cases hlow : i < 8
  · rw [Nat.mod_eq_of_lt (by omega)]
    simp [release, widen, hmask, hi, show i + 8 < 16 by omega]
  · obtain ⟨j, rfl⟩ := Nat.exists_eq_add_of_le' (not_lt.mp hlow)
    have hj : j < 8 := by omega
    rw [show (j + 8 + 8) % 16 = j by omega]
    simp [release, widen, hmask, hj, show j < 16 by omega, show j + 8 < 32 by omega,
      Nat.add_comm 8 j]

lemma release_injective {c c' : BitVec 16} (h : release (widen c) = release (widen c')) :
    c = c' := by
  apply BitVec.eq_of_getLsbD_eq
  intro i hi
  have hplace := getLsbD_release c hi
  rw [h, getLsbD_release c' hi] at hplace
  exact (Bool.not_inj hplace).symm

/-- **A burst of up to 16 bits changes the checksum**, whatever the length. -/
theorem crc16_ne_of_burst {data data' : List UInt8} (hlen : data.length = data'.length)
    (hne : data ≠ data') (h : Crc.DifferWithin 16 (Crc.bits data) (Crc.bits data')) :
    crc16 data ≠ crc16 data' := by
  intro heq
  have hbits : (Crc.bits data).length = (Crc.bits data').length := by
    rw [Crc.length_bits, Crc.length_bits, hlen]
  have hnil : data ≠ [] := by
    rintro rfl
    exact hne (List.length_eq_zero_iff.mp hlen.symm).symm
  have hnil' : data' ≠ [] := by
    rintro rfl
    exact hnil (List.length_eq_zero_iff.mp hlen)
  rw [crc16_of_ne_nil hnil, crc16_of_ne_nil hnil'] at heq
  have htop : crc16Poly.getLsbD (16 - 1) = true := by decide
  exact Crc.register_ne_of_burst htop hbits (fun hb => hne (Crc.bits_injective hlen hb)) h _
    (release_injective heq)

/-! ## Sending and checking -/

/-- The size of `send_to`. -/
def SEND_TO_LEN : ℕ := 16

/-- The size of a `TrollHeader`. -/
def TROLL_HEADER_LEN : ℕ := SEND_TO_LEN + 20 + BODY_LEN

/-- The send branch fills in `check`, over the header and `bytes` bytes of `body`. -/
def TrollHeader.fillCheck (head : TrollHeader) (bytes : ℕ) : TrollHeader :=
  let tcpHeader := { head.tcpHeader with check := 0 }
  { head with tcpHeader := { tcpHeader with
      check := crc16 (tcpHeader.bytes ++ head.body.toList.take bytes) } }

/-- What is sent of a packet behind `send_to`. -/
def TrollHeader.segment (head : TrollHeader) (bytes : ℕ) : List UInt8 :=
  head.tcpHeader.bytes ++ head.body.toList.take bytes

/-- The packets of the window are filled in this way. -/
lemma packet_eq (head : TrollHeader) (sendTo : SockaddrIn) (seq : ℕ) (buffer : Payload) :
    packet head sendTo seq buffer
      = (generateTrollHeader head sendTo seq buffer).fillCheck buffer.bytes.length := rfl

/-- `check_crc`. -/
def checkCrc (crcSend crcRecv : UInt16) : Int32 := if crcRecv = crcSend then 0 else -1

/-- `bzero` and `recvfrom`: the memory of `head_received`, and how many bytes have arrived. -/
def headReceived (datagram : List UInt8) : Buffer TROLL_HEADER_LEN × ℕ :=
  (⟨(datagram ++ List.replicate TROLL_HEADER_LEN 0).take TROLL_HEADER_LEN, by simp⟩,
    min datagram.length TROLL_HEADER_LEN)

/-- The receive branch up to `check_crc`. With fewer bytes than `send_to` has, the length that
`crc16` is given is negative. -/
def recvCheck (datagram : List UInt8) : Option Int32 := do
  let (head, bytes) := headReceived datagram
  let crcSend ← head.read? (SEND_TO_LEN + 16) 2
  let head ← head.write? (SEND_TO_LEN + 16) [0, 0]
  if bytes < SEND_TO_LEN then none
  else
    let data ← head.read? SEND_TO_LEN (bytes - SEND_TO_LEN)
    return checkCrc (UInt16.ofNat (ofLeBytes crcSend)) (crc16 data)

/-! ### The check field -/

/-- A segment with zeros in the place of `check`. -/
def zeroCheck (l : List UInt8) : List UInt8 := l.take 16 ++ [0, 0] ++ l.drop 18

/-- The check field of a segment. -/
def checkField (l : List UInt8) : UInt16 := UInt16.ofNat (ofLeBytes ((l.drop 16).take 2))

/-- The bit belongs to the check field. -/
def InCheck (i : ℕ) : Prop := 128 ≤ i ∧ i < 144

lemma length_zeroCheck {l : List UInt8} (h : 18 ≤ l.length) :
    (zeroCheck l).length = l.length := by
  simp [zeroCheck]
  omega

lemma zeroCheck_append {l : List UInt8} (h : 18 ≤ l.length) (rest : List UInt8) :
    zeroCheck (l ++ rest) = zeroCheck l ++ rest := by
  rw [zeroCheck, zeroCheck, List.take_append_of_le_length (by omega),
    List.drop_append_of_le_length h, List.append_assoc, List.append_assoc, List.append_assoc]

lemma getElem?_zeroCheck {l : List UInt8} (h : 18 ≤ l.length) (j : ℕ) :
    (zeroCheck l)[j]? = if j = 16 ∨ j = 17 then some 0 else l[j]? := by
  have hfront : (l.take 16).length = 16 := by
    rw [List.length_take]
    omega
  unfold zeroCheck
  rw [List.append_assoc]
  by_cases hj : j < 16
  · rw [List.getElem?_append_left (by omega), List.getElem?_take_of_lt hj, if_neg (by omega)]
  · obtain ⟨k, rfl⟩ := Nat.exists_eq_add_of_le' (not_lt.mp hj)
    rw [List.getElem?_append_right (by omega), hfront, Nat.add_sub_cancel]
    match k with
    | 0 => rfl
    | 1 => rfl
    | k + 2 =>
      rw [if_neg (by omega), show k + 2 + 16 = 18 + k by omega]
      simp

/-- Outside of the check field a segment keeps its bits, inside it they are cleared. -/
lemma getElem?_bits_zeroCheck {l : List UInt8} (h : 18 ≤ l.length) (i : ℕ) [Decidable (InCheck i)] :
    (Crc.bits (zeroCheck l))[i]? = if InCheck i then some false else (Crc.bits l)[i]? := by
  rw [Crc.getElem?_bits, getElem?_zeroCheck h, Crc.getElem?_bits]
  have hplace : (i / 8 = 16 ∨ i / 8 = 17) ↔ InCheck i := by
    unfold InCheck
    omega
  by_cases hi : InCheck i
  · rw [if_pos hi, if_pos (hplace.mpr hi)]
    simp
  · rw [if_neg hi, if_neg (mt hplace.mp hi)]

/-- What the receiver makes of a segment, whatever lies before it. -/
lemma recvCheck_eq {sendTo l : List UInt8} (hsendTo : sendTo.length = SEND_TO_LEN)
    (hmin : 18 ≤ l.length) (hmax : l.length ≤ 20 + BODY_LEN) :
    recvCheck (sendTo ++ l) = some (checkCrc (checkField l) (crc16 (zeroCheck l))) := by
  have hsize : SEND_TO_LEN = 16 := rfl
  have hbody : BODY_LEN = 800 := rfl
  have hlen : (sendTo ++ l).length = 16 + l.length := by rw [List.length_append, hsendTo, hsize]
  have hmem : (headReceived (sendTo ++ l)).1.toList
      = sendTo ++ (l ++ List.replicate (820 - l.length) 0) := by
    simp only [headReceived, List.Vector.toList_mk, TROLL_HEADER_LEN, SEND_TO_LEN, BODY_LEN]
    rw [List.take_append, List.take_of_length_le (by omega), hlen, List.take_replicate,
      List.append_assoc, show min (16 + 20 + 800 - (16 + l.length)) (16 + 20 + 800)
        = 820 - l.length by omega]
  have hbytes : (headReceived (sendTo ++ l)).2 = 16 + l.length := by
    simp only [headReceived, hlen, TROLL_HEADER_LEN, SEND_TO_LEN, BODY_LEN]
    omega
  obtain ⟨head, bytes, hreceived⟩ : ∃ head bytes, headReceived (sendTo ++ l) = (head, bytes) :=
    ⟨_, _, rfl⟩
  rw [hreceived] at hmem hbytes
  dsimp only at hmem hbytes
  have hfield : head.read? (SEND_TO_LEN + 16) 2 = some ((l.drop 16).take 2) := by
    refine Buffer.read?_eq_some.mpr ⟨by decide, ?_⟩
    rw [hmem, ← hsendTo, List.drop_length_add_append, List.drop_append_of_le_length (by omega),
      List.take_append_of_le_length (by rw [List.length_drop]; omega)]
  have hinside : SEND_TO_LEN + 16 + ([0, 0] : List UInt8).length ≤ TROLL_HEADER_LEN := by decide
  have hread : (head.write (SEND_TO_LEN + 16) [0, 0] hinside).read? SEND_TO_LEN
      (bytes - SEND_TO_LEN) = some (zeroCheck l) := by
    have hrest : bytes - SEND_TO_LEN = l.length := by
      omega
    refine Buffer.read?_eq_some.mpr ⟨by rw [hrest]; unfold TROLL_HEADER_LEN; omega, ?_⟩
    have hmove : (head.write (SEND_TO_LEN + 16) [0, 0] hinside).toList
        = sendTo ++ zeroCheck (l ++ List.replicate (820 - l.length) 0) := by
      rw [Buffer.write, List.Vector.toList_mk, hmem, ← hsendTo, List.take_length_add_append,
        Nat.add_assoc, List.drop_length_add_append, zeroCheck]
      simp
    rw [hmove, hrest, ← hsendTo, List.drop_left, zeroCheck_append hmin,
      List.take_left' (length_zeroCheck hmin)]
  have hlong : ¬ bytes < SEND_TO_LEN := by omega
  simp only [recvCheck, hreceived, bind, Option.bind, hfield, Buffer.write?, dif_pos hinside,
    if_neg hlong, hread]
  rfl

/-- The sender computes the checksum of the segment with its check field cleared. -/
lemma checkField_segment (head : TrollHeader) (bytes : ℕ) :
    checkField ((head.fillCheck bytes).segment bytes)
      = crc16 (zeroCheck ((head.fillCheck bytes).segment bytes)) := by
  have hzero : zeroCheck ((head.fillCheck bytes).segment bytes)
      = { head.tcpHeader with check := 0 }.bytes ++ head.body.toList.take bytes := by
    simp [zeroCheck, TrollHeader.segment, TrollHeader.fillCheck, TcpHdr.bytes, leBytes]
  have hfield : checkField ((head.fillCheck bytes).segment bytes)
      = UInt16.ofNat (ofLeBytes (leBytes 2 (head.fillCheck bytes).tcpHeader.check.toNat)) := by
    simp [checkField, TrollHeader.segment, TcpHdr.bytes, leBytes]
  have hcheck := (head.fillCheck bytes).tcpHeader.check.toNat_lt
  rw [hzero, hfield, ofLeBytes_leBytes, Nat.mod_eq_of_lt (by simpa using hcheck),
    UInt16.ofNat_toNat]
  rfl

lemma checkField_eq {l : List UInt8} (h : 18 ≤ l.length) :
    checkField l = UInt16.ofNat (l[16].toNat + 256 * l[17].toNat) := by
  have hpair : (l.drop 16).take 2 = [l[16], l[17]] := by
    rw [List.drop_eq_getElem_cons (by omega), List.drop_eq_getElem_cons (by omega)]
    rfl
  rw [checkField, hpair]
  simp [ofLeBytes]

/-- The check field is its two bytes. -/
lemma checkField_inj {l l' : List UInt8} (h : 18 ≤ l.length) (h' : 18 ≤ l'.length) :
    checkField l = checkField l' ↔ l[16]? = l'[16]? ∧ l[17]? = l'[17]? := by
  rw [checkField_eq h, checkField_eq h', List.getElem?_eq_getElem (by omega),
    List.getElem?_eq_getElem (by omega), List.getElem?_eq_getElem (by omega),
    List.getElem?_eq_getElem (by omega), Option.some.injEq, Option.some.injEq]
  constructor
  · intro heq
    have h16 := l[16].toNat_lt
    have h17 := l[17].toNat_lt
    have h16' := l'[16].toNat_lt
    have h17' := l'[17].toNat_lt
    have hnat := congrArg UInt16.toNat heq
    rw [UInt16.toNat_ofNat', UInt16.toNat_ofNat'] at hnat
    exact ⟨UInt8.toNat_inj.mp (by omega), UInt8.toNat_inj.mp (by omega)⟩
  · rintro ⟨hlow, hhigh⟩
    rw [hlow, hhigh]

/-! ### What the check tells -/

/-- The receiver passes the segment as it was sent, and fails one that is hit by a burst of up to
16 bits outside of the check field or only inside it. -/
def Detects (sent : List UInt8) : Prop :=
  ∀ sendTo : List UInt8, sendTo.length = SEND_TO_LEN →
    recvCheck (sendTo ++ sent) = some 0 ∧
      ∀ got : List UInt8, got.length = sent.length → got ≠ sent →
        Crc.DifferWithin 16 (Crc.bits got) (Crc.bits sent) →
        ((∀ i, InCheck i → (Crc.bits got)[i]? = (Crc.bits sent)[i]?) ∨
          ∀ i, ¬ InCheck i → (Crc.bits got)[i]? = (Crc.bits sent)[i]?) →
        recvCheck (sendTo ++ got) = some (-1)

lemma length_segment (head : TrollHeader) {bytes : ℕ} (h : bytes ≤ BODY_LEN) :
    (head.segment bytes).length = 20 + bytes := by
  simp [TrollHeader.segment, TcpHdr.bytes, h]
  omega

variable {got sent : List UInt8}

/-- A burst outside of the check field. -/
lemma crc16_ne_of_outside (hlen : got.length = sent.length) (hmin : 18 ≤ sent.length)
    (hne : got ≠ sent) (hburst : Crc.DifferWithin 16 (Crc.bits got) (Crc.bits sent))
    (hout : ∀ i, InCheck i → (Crc.bits got)[i]? = (Crc.bits sent)[i]?) :
    crc16 (zeroCheck got) ≠ crc16 (zeroCheck sent) := by
  classical
  have hmin' : 18 ≤ got.length := hlen ▸ hmin
  obtain ⟨s, hs⟩ := hburst
  -- clearing the check field neither hides a difference nor makes one
  have hiff : ∀ i : ℕ, (Crc.bits (zeroCheck got))[i]? = (Crc.bits (zeroCheck sent))[i]? ↔
      (Crc.bits got)[i]? = (Crc.bits sent)[i]? := by
    intro i
    rw [getElem?_bits_zeroCheck hmin', getElem?_bits_zeroCheck hmin]
    by_cases hi : InCheck i
    · simp [hi, hout i hi]
    · simp [hi]
  refine crc16_ne_of_burst ?_ (fun heq => hne ?_) ⟨s, fun i hi => hs i (mt (hiff i).mpr hi)⟩
  · rw [length_zeroCheck hmin', length_zeroCheck hmin, hlen]
  · refine Crc.bits_injective hlen (List.ext_getElem? fun i => (hiff i).mp ?_)
    rw [heq]

/-- A burst inside the check field leaves the rest of the segment. -/
lemma zeroCheck_of_inside (hlen : got.length = sent.length) (hmin : 18 ≤ sent.length)
    (hin : ∀ i, ¬ InCheck i → (Crc.bits got)[i]? = (Crc.bits sent)[i]?) :
    zeroCheck got = zeroCheck sent := by
  classical
  have hmin' : 18 ≤ got.length := hlen ▸ hmin
  refine Crc.bits_injective (by rw [length_zeroCheck hmin', length_zeroCheck hmin, hlen])
    (List.ext_getElem? fun i => ?_)
  rw [getElem?_bits_zeroCheck hmin', getElem?_bits_zeroCheck hmin]
  by_cases hi : InCheck i
  · rw [if_pos hi, if_pos hi]
  · rw [if_neg hi, if_neg hi, hin i hi]

/-- Without a burst in it the check field is the one that was sent. -/
lemma checkField_of_outside (hlen : got.length = sent.length) (hmin : 18 ≤ sent.length)
    (hout : ∀ i, InCheck i → (Crc.bits got)[i]? = (Crc.bits sent)[i]?) :
    checkField got = checkField sent := by
  refine (checkField_inj (hlen ▸ hmin) hmin).mpr ⟨?_, ?_⟩ <;>
    refine Crc.getElem?_eq_of_bits hlen fun i hi => hout i ?_ <;>
    unfold InCheck <;> omega

/-- When nothing but the check field differs, it does. -/
lemma checkField_ne_of_inside (hlen : got.length = sent.length) (hmin : 18 ≤ sent.length)
    (hne : got ≠ sent) (hin : ∀ i, ¬ InCheck i → (Crc.bits got)[i]? = (Crc.bits sent)[i]?) :
    checkField got ≠ checkField sent := by
  intro heq
  obtain ⟨hlow, hhigh⟩ := (checkField_inj (hlen ▸ hmin) hmin).mp heq
  refine hne (List.ext_getElem? fun j => ?_)
  by_cases hj : j = 16 ∨ j = 17
  · rcases hj with rfl | rfl
    · exact hlow
    · exact hhigh
  · refine Crc.getElem?_eq_of_bits hlen fun i hi => hin i ?_
    unfold InCheck
    omega

lemma detects_fillCheck (head : TrollHeader) {bytes : ℕ} (h : bytes ≤ BODY_LEN) :
    Detects ((head.fillCheck bytes).segment bytes) := by
  intro sendTo hsendTo
  have hlength := length_segment (head.fillCheck bytes) h
  have hmin : 18 ≤ ((head.fillCheck bytes).segment bytes).length := by omega
  have hmax : ((head.fillCheck bytes).segment bytes).length ≤ 20 + BODY_LEN := by omega
  have hfilled := checkField_segment head bytes
  generalize (head.fillCheck bytes).segment bytes = sent at hmin hmax hfilled
  refine ⟨?_, fun got hlen hne hburst hplace => ?_⟩
  · rw [recvCheck_eq hsendTo hmin hmax, hfilled, checkCrc, if_pos rfl]
  · have hcrc : crc16 (zeroCheck got) ≠ checkField got := by
      rcases hplace with hout | hin
      · rw [checkField_of_outside hlen hmin hout, hfilled]
        exact crc16_ne_of_outside hlen hmin hne hburst hout
      · rw [zeroCheck_of_inside hlen hmin hin, ← hfilled]
        exact (checkField_ne_of_inside hlen hmin hne hin).symm
    rw [recvCheck_eq hsendTo (hlen ▸ hmin) (hlen ▸ hmax), checkCrc, if_neg hcrc]

/-- **`crc16` detects bursts of up to 16 bits**: in the packets of the program, and as a law about
data of any length. -/
theorem crc16_detects :
    (∀ (head : TrollHeader) (bytes : ℕ), bytes ≤ BODY_LEN →
      Detects ((head.fillCheck bytes).segment bytes)) ∧
    ∀ data data' : List UInt8, data.length = data'.length → data ≠ data' →
      Crc.DifferWithin 16 (Crc.bits data) (Crc.bits data') → crc16 data ≠ crc16 data' :=
  ⟨fun head _ h => detects_fillCheck head h, fun _ _ hlen hne h => crc16_ne_of_burst hlen hne h⟩

/-- A packet of three bytes. -/
theorem crc16_detects_three :
    Detects ((TrollHeader.fillCheck ⟨default, default, .zero BODY_LEN⟩ 3).segment 3) :=
  crc16_detects.1 _ 3 (by decide)

end NetworkProgramming.Proj1
