import NetworkProgramming.Final.TcpdClient
import NetworkProgramming.Final.TcpdServer

/-!
# What the checksum detects

Both ends of a connection compare a `CheckSum` field with `crc32` over the bytes from
`CheckSumOffset` on. A frame or an ack that arrives with these bytes as they were built passes;
one in which up to 32 consecutive bits of them have been hit, or nothing but the field itself,
does not, and the daemon drops it (`frame_integrity`).
-/

namespace NetworkProgramming

/-- Some bits have changed on the way, all of them within 32 consecutive places. -/
def BurstError (built received : List UInt8) : Prop :=
  received ≠ built ∧ Crc.DifferWithin 32 (Crc.bits received) (Crc.bits built)

/-- `recv_data` acknowledges the frame. -/
def TrollMessageStruct.Taken (m : TrollMessageStruct) : Prop :=
  ∀ t socketFD remote, (recvData t socketFD m remote).2 = [.ack socketFD (makeAck m remote)]

/-- `recv_data` drops the frame. -/
def TrollMessageStruct.Dropped (m : TrollMessageStruct) : Prop :=
  ∀ t socketFD remote, recvData t socketFD m remote = (t, [])

/-- `recv_ack` cancels the timer of the package. -/
def TrollAckStruct.Taken (a : TrollAckStruct) : Prop :=
  ∀ t socketFD c now,
    (recvAck t socketFD c a now).2 = [.timer (cancelTimerRequest a.session a.seqNum)]

/-- `recv_ack` drops the ack: no package leaves a window for it. -/
def TrollAckStruct.Dropped (a : TrollAckStruct) : Prop :=
  ∀ t socketFD c now, (recvAck t socketFD c a now).2 = [] ∧
    (recvAck t socketFD c a now).1.connectedSockets = t.connectedSockets

lemma TrollMessageStruct.taken_of_valid {m : TrollMessageStruct} (h : m.Valid) : m.Taken := by
  intro t socketFD remote
  rw [recvData_of_valid h]

lemma TrollMessageStruct.dropped_of_not_valid {m : TrollMessageStruct} (h : ¬ m.Valid) :
    m.Dropped := by
  intro t socketFD remote
  exact recvData_of_not_valid h t socketFD remote

lemma TrollAckStruct.taken_of_valid {a : TrollAckStruct} (h : a.Valid) : a.Taken := by
  intro t socketFD c now
  exact recvAck_of_valid h t socketFD c now

lemma TrollAckStruct.dropped_of_not_valid {a : TrollAckStruct} (h : ¬ a.Valid) : a.Dropped := by
  intro t socketFD c now
  rw [recvAck_of_not_valid h]
  exact ⟨rfl, rfl⟩

/-- All frames have the same number of checked bytes. -/
lemma TrollMessageStruct.length_checkedBytes (m : TrollMessageStruct) :
    m.checkedBytes.length = 20 + BUF_LEN := by
  simp [checkedBytes]
  omega

lemma TrollAckStruct.length_checkedBytes (a : TrollAckStruct) : a.checkedBytes.length = 8 := by
  simp [checkedBytes]

/-- A burst changes the checksum. -/
lemma crc32_ne_of_burstError {built received : List UInt8}
    (hlen : received.length = built.length) (h : BurstError built received) :
    crc32 0 received ≠ crc32 0 built :=
  crc32_ne_of_burst 0 hlen h.1 h.2

/-- What becomes of bytes that were sent with a right checksum, when they are taken or dropped
by their own. -/
lemma integrity_of_checksum {built received : List UInt8} {builtSum sum : UInt32}
    {Taken Dropped : Prop} (hbuilt : crc32 0 built = builtSum)
    (hlen : received.length = built.length) (htaken : crc32 0 received = sum → Taken)
    (hdropped : crc32 0 received ≠ sum → Dropped) :
    (sum = builtSum → (received = built → Taken) ∧ (BurstError built received → Dropped)) ∧
      (received = built → sum ≠ builtSum → Dropped) := by
  refine ⟨fun hsum => ⟨fun hbytes => ?_, fun hburst => ?_⟩, fun hbytes hsum => ?_⟩
  · apply htaken
    rw [hbytes, hsum]
    exact hbuilt
  · apply hdropped
    intro hvalid
    exact crc32_ne_of_burstError hlen hburst (hvalid.trans (hsum.trans hbuilt.symm))
  · apply hdropped
    intro hvalid
    apply hsum
    rw [← hvalid, ← hbuilt, hbytes]

/-- What becomes of a frame that was built with a right checksum. -/
lemma TrollMessageStruct.integrity {built m : TrollMessageStruct} (hbuilt : built.Valid) :
    (m.checkSum = built.checkSum →
      (m.checkedBytes = built.checkedBytes → m.Taken) ∧
        (BurstError built.checkedBytes m.checkedBytes → m.Dropped)) ∧
      (m.checkedBytes = built.checkedBytes → m.checkSum ≠ built.checkSum → m.Dropped) := by
  have hlen : m.checkedBytes.length = built.checkedBytes.length := by
    rw [length_checkedBytes, length_checkedBytes]
  exact integrity_of_checksum hbuilt hlen taken_of_valid dropped_of_not_valid

/-- What becomes of an ack that was built with a right checksum. -/
lemma TrollAckStruct.integrity {built a : TrollAckStruct} (hbuilt : built.Valid) :
    (a.checkSum = built.checkSum →
      (a.checkedBytes = built.checkedBytes → a.Taken) ∧
        (BurstError built.checkedBytes a.checkedBytes → a.Dropped)) ∧
      (a.checkedBytes = built.checkedBytes → a.checkSum ≠ built.checkSum → a.Dropped) := by
  have hlen : a.checkedBytes.length = built.checkedBytes.length := by
    rw [length_checkedBytes, length_checkedBytes]
  exact integrity_of_checksum hbuilt hlen taken_of_valid dropped_of_not_valid

/-- **What the checksum detects.** Buffers of one length that differ only within 32 consecutive
bits have different checksums, whatever the seed. So a frame that `tcpd_SEND` has built and an
ack that `recv_data` has built are taken when their checked bytes arrive as they were built,
and dropped when these have been hit by a burst or only the `CheckSum` field has changed. -/
theorem frame_integrity :
    (∀ (seed : UInt32) (buf buf' : List UInt8), buf.length = buf'.length → BurstError buf' buf →
      crc32 seed buf ≠ crc32 seed buf') ∧
    (∀ (c : ConnectedSock) (buf : Buffer BUF_LEN) (len : UInt64)
      (fresh m : TrollMessageStruct) (built : TrollMessageStruct),
      built = c.makePackage buf len fresh →
      (m.checkSum = built.checkSum →
        (m.checkedBytes = built.checkedBytes → m.Taken) ∧
          (BurstError built.checkedBytes m.checkedBytes → m.Dropped)) ∧
        (m.checkedBytes = built.checkedBytes → m.checkSum ≠ built.checkSum → m.Dropped)) ∧
    (∀ (now : TrollMessageStruct) (remote : SockaddrIn) (a built : TrollAckStruct),
      built = makeAck now remote →
      (a.checkSum = built.checkSum →
        (a.checkedBytes = built.checkedBytes → a.Taken) ∧
          (BurstError built.checkedBytes a.checkedBytes → a.Dropped)) ∧
        (a.checkedBytes = built.checkedBytes → a.checkSum ≠ built.checkSum → a.Dropped)) := by
  refine ⟨fun seed buf buf' hlen h => crc32_ne_of_burst seed hlen h.1 h.2, ?_, ?_⟩
  · intro c buf len fresh m built hbuilt
    apply TrollMessageStruct.integrity
    rw [hbuilt]
    exact TrollMessageStruct.valid_sealed _
  · intro now remote a built hbuilt
    apply TrollAckStruct.integrity
    rw [hbuilt]
    rfl

/-! ## Bytes that are hit -/

/-- Up to four bytes in a row are within a burst. -/
lemma burstError_of_middle (pre post hit kept : List UInt8) (hlen : hit.length = kept.length)
    (hfew : kept.length ≤ 4) (hne : hit ≠ kept) :
    BurstError (pre ++ kept ++ post) (pre ++ hit ++ post) := by
  refine ⟨fun hsame => hne ?_, 8 * pre.length, fun i hi => ?_⟩
  · exact List.append_cancel_left (List.append_cancel_right hsame)
  · have hbits : ∀ l : List UInt8, Crc.bits (pre ++ l ++ post)
        = Crc.bits pre ++ Crc.bits l ++ Crc.bits post := by simp [Crc.bits, List.flatMap_append]
    rw [hbits, hbits] at hi
    refine ⟨Nat.not_lt.mp fun hbefore => hi ?_, Nat.not_le.mp fun hafter => hi ?_⟩
    · -- before the bytes that are hit
      rw [List.append_assoc, List.append_assoc,
        List.getElem?_append_left (by rw [Crc.length_bits]; omega),
        List.getElem?_append_left (by rw [Crc.length_bits]; omega)]
    · -- behind them
      have hsame : (Crc.bits pre ++ Crc.bits hit).length
          = (Crc.bits pre ++ Crc.bits kept).length := by
        simp only [List.length_append, Crc.length_bits, hlen]
      have hlong : (Crc.bits pre ++ Crc.bits kept).length ≤ i := by
        simp only [List.length_append, Crc.length_bits]
        omega
      rw [List.getElem?_append_right (hsame ▸ hlong), List.getElem?_append_right hlong, hsame]

lemma TrollMessageStruct.burstError_session (m : TrollMessageStruct) {s : UInt32}
    (hne : leBytes 4 s.toNat ≠ leBytes 4 m.session.toNat) :
    BurstError m.checkedBytes { m with session := s }.checkedBytes := by
  simp only [checkedBytes, List.append_assoc]
  exact burstError_of_middle [] _ _ _ (by simp) (by simp) hne

lemma TrollAckStruct.burstError_seqNum (a : TrollAckStruct) {n : UInt32}
    (hne : leBytes 4 n.toNat ≠ leBytes 4 a.seqNum.toNat) :
    BurstError a.checkedBytes { a with seqNum := n }.checkedBytes := by
  have hhit := burstError_of_middle (leBytes 4 a.session.toNat) [] (leBytes 4 n.toNat)
    (leBytes 4 a.seqNum.toNat) (by simp) (by simp) hne
  simpa only [checkedBytes, List.append_nil] using hhit

/-- A package of two bytes, as it is built for session 7. -/
def builtPackage : TrollMessageStruct :=
  (ConnectedSock.create 4 7 default).makePackage (.zero BUF_LEN) 2 (.ofBytes 0 0 [])

/-- Two bytes are hit in a buffer of three, the session of a frame, its `CheckSum`, and the number
of an ack. -/
theorem frame_integrity_fields :
    crc32 7 [1, 2, 3] ≠ crc32 7 [1, 0x82, 0xFC] ∧
      builtPackage.Taken ∧ { builtPackage with session := 0x7000 }.Dropped ∧
      { builtPackage with checkSum := builtPackage.checkSum + 1 }.Dropped ∧
      { makeAck builtPackage default with seqNum := 6 }.Dropped := by
  obtain ⟨hbuffer, hframe, hack⟩ := frame_integrity
  have hsession : builtPackage.session = 7 := rfl
  have hseq : (makeAck builtPackage default).seqNum = 0 := rfl
  have hbuilt := fun m => hframe (.create 4 7 default) (.zero BUF_LEN) 2 (.ofBytes 0 0 []) m
    builtPackage rfl
  -- for any package, so that no checksum of the built one is computed
  have hnext : ∀ m : TrollMessageStruct,
      { m with checkSum := m.checkSum + 1 }.checkedBytes = m.checkedBytes ∧
        { m with checkSum := m.checkSum + 1 }.checkSum ≠ m.checkSum := fun m => ⟨rfl, by simp⟩
  have hmade := fun a => hack builtPackage default a (makeAck builtPackage default) rfl
  refine ⟨hbuffer 7 [1, 2, 3] [1, 0x82, 0xFC] rfl ?_, ?_, ?_, ?_, ?_⟩
  · exact burstError_of_middle [1] [] [2, 3] [0x82, 0xFC] rfl (by decide) (by decide)
  · exact ((hbuilt builtPackage).1 rfl).1 rfl
  · refine ((hbuilt _).1 ?_).2 (builtPackage.burstError_session ?_)
    · rfl
    · rw [hsession]
      decide
  · obtain ⟨hsame, hsum⟩ := hnext builtPackage
    exact (hbuilt _).2 hsame hsum
  · refine ((hmade _).1 ?_).2 ((makeAck builtPackage default).burstError_seqNum ?_)
    · rfl
    · rw [hseq]
      decide

end NetworkProgramming
