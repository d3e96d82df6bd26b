import NetworkProgramming.Proj1.Window

/-!
# The window holds the most recent packets

Along every run of sends and acks the window holds the packets sent last, in the order of their
sending. Their numbers lie less than 65535 apart, so no two are equal, and a packet has left
the window only when an ack with its number was received while it was outstanding
(`window_holds_recent`). `Client.Holds` is the invariant.
-/

namespace NetworkProgramming.Proj1

open RingBuffer

/-! ## Numbers -/

/-- `next` is the number after `number` when up to 800 bytes are sent. -/
def Follows (number next : ℕ) : Prop :=
  ∃ bytes, 0 < bytes ∧ bytes ≤ BODY_LEN ∧ next = (number + bytes) % 65535

/-- `k` packets on, the number is `k` to `800 * k` further. -/
lemma exists_distance {l : List ℕ} (h : l.IsChain Follows) {i k : ℕ} (hk : i + k < l.length)
    (hi : l[i] < 65535) : ∃ s, k ≤ s ∧ s ≤ BODY_LEN * k ∧ l[i + k] = (l[i] + s) % 65535 := by
  induction k with
  | zero => exact ⟨0, Nat.le_refl 0, Nat.zero_le _, (Nat.mod_eq_of_lt hi).symm⟩
  | succ k ih =>
    obtain ⟨s, hlow, hhigh, heq⟩ := ih (by omega) hi
    obtain ⟨bytes, hpos, hle, hnext⟩ := h.getElem (i + k) (by omega)
    refine ⟨s + bytes, by omega, ?_, ?_⟩
    · rw [Nat.mul_succ]
      omega
    · have hlast : l[i + (k + 1)] = (l[i + k] + bytes) % 65535 := hnext
      rw [hlast, heq, Nat.mod_add_mod, Nat.add_assoc]

/-- Numbers that are less than a turn of the counter apart are different. -/
lemma ne_of_follows {l : List ℕ} (h : l.IsChain Follows) (hlt : ∀ x ∈ l, x < 65535) {i j : ℕ}
    (hij : i < j) (hj : j < l.length) (hnear : BODY_LEN * (j - i) < 65535) : l[i] ≠ l[j] := by
  have hi := hlt _ (List.getElem_mem (by omega : i < l.length))
  obtain ⟨s, hlow, hhigh, heq⟩ :=
    exists_distance h (by omega : i + (j - i) < l.length) hi
  have hat : i + (j - i) = j := Nat.add_sub_cancel' (Nat.le_of_lt hij)
  simp only [hat] at heq
  omega

/-! ## Acknowledged packets -/

/-- In the run over `es` an ack with the number of the packet that was sent as the `i`th, counted
from 0, was received while that packet was outstanding. -/
def AckedWhileOutstanding (w : MyWindow) (es : List Event) (i : ℕ) : Prop :=
  ∃ pre head post u sent k h, es = pre ++ .ack head :: post ∧
    Client.machine.exec (.start w) pre = .ok (u, sent) ∧
    i + u.windowClient.inFlight = sent.length + k ∧
    u.windowClient.outstanding[k]? = some h ∧ h.tcpHeader.seq = head.tcpHeader.seq

lemma AckedWhileOutstanding.snoc {w : MyWindow} {es : List Event} {i : ℕ} (e : Event)
    (h : AckedWhileOutstanding w es i) : AckedWhileOutstanding w (es ++ [e]) i := by
  obtain ⟨pre, head, post, u, sent, k, p, rfl, hpre, hi, hp, hseq⟩ := h
  exact ⟨pre, head, post ++ [e], u, sent, k, p, by simp, hpre, hi, hp, hseq⟩

/-! ## The invariant -/

/-- What holds of the client after the run over `es` that has sent `sent`. -/
structure Client.Holds (w : MyWindow) (es : List Event) (c : Client)
    (sent : List TrollHeader) : Prop where
  ok : c.windowClient.Ok
  inFlight_le : c.windowClient.inFlight ≤ sent.length
  recent : c.windowClient.outstanding = sent.drop (sent.length - c.windowClient.inFlight)
  follows : (sent.map (·.tcpHeader.seq.toNat) ++ [c.seq]).IsChain Follows
  small : ∀ x ∈ sent.map (·.tcpHeader.seq.toNat) ++ [c.seq], x < 65535
  /-- the oldest outstanding packet is not marked -/
  waits : c.windowClient.marks.head? ≠ some 1
  left : ∀ i, i + c.windowClient.inFlight < sent.length → AckedWhileOutstanding w es i
  marked : ∀ i k, i + c.windowClient.inFlight = sent.length + k →
    c.windowClient.marks[k]? = some 1 → AckedWhileOutstanding w es i

namespace Client

variable {w : MyWindow} {es : List Event} {c : Client} {sent : List TrollHeader}

lemma marks_start (w : MyWindow) : (start w).windowClient.marks = [] := by
  apply List.eq_nil_of_length_eq_zero
  rw [MyWindow.length_marks]
  exact MyWindow.inFlight_init w

lemma holds_start (w : MyWindow) : (start w).Holds w [] [] where
  ok := MyWindow.ok_init w
  inFlight_le := Nat.le_of_eq (MyWindow.inFlight_init w)
  recent := by
    apply List.eq_nil_of_length_eq_zero
    rw [MyWindow.length_outstanding]
    exact MyWindow.inFlight_init w
  follows := List.isChain_singleton _
  small := by
    intro x hx
    obtain rfl : x = randomIniSeq := by simpa [start] using hx
    decide
  waits := by
    rw [marks_start]
    simp
  left := fun i hi => absurd hi (by simp)
  marked := by
    intro i k hi hmark
    rw [marks_start] at hmark
    cases hmark

/-- A send. -/
lemma Holds.send (h : c.Holds w es sent) (hroom : c.windowClient.full = false)
    (head : TrollHeader) (sendTo : SockaddrIn) (buffer : Payload) :
    Holds w (es ++ [.send head sendTo buffer])
      ⟨c.windowClient.savePacket (packet head sendTo c.seq buffer),
        (c.seq + buffer.bytes.length) % 65535⟩
      (sent ++ [packet head sendTo c.seq buffer]) := by
  have hinFlight := MyWindow.inFlight_savePacket h.ok (packet head sendTo c.seq buffer)
  obtain ⟨hout, hmarks⟩ :=
    MyWindow.outstanding_savePacket h.ok hroom (packet head sendTo c.seq buffer)
  have hle := h.inFlight_le
  have hseq : (packet head sendTo c.seq buffer).tcpHeader.seq.toNat = c.seq := by
    have := h.small c.seq (by simp)
    rw [seq_packet, UInt32.toNat_ofNat']
    exact Nat.mod_eq_of_lt (by omega)
  refine ⟨MyWindow.ok_savePacket h.ok hroom _, ?_, ?_, ?_, ?_, ?_, ?_, ?_⟩
  · rw [hinFlight, List.length_append, List.length_singleton]
    omega
  · rw [hout, hinFlight, h.recent, List.length_append, List.length_singleton,
      List.drop_append_of_le_length (by omega)]
    congr 2
    omega
  · rw [List.map_append, List.map_singleton, hseq]
    refine h.follows.append (List.isChain_singleton _) ?_
    intro x hx y hy
    obtain rfl : c.seq = x := by simpa using hx
    obtain rfl : (c.seq + buffer.bytes.length) % 65535 = y := by simpa using hy
    exact ⟨_, buffer.nonempty, buffer.fits, rfl⟩
  · intro x hx
    rw [List.map_append, List.map_singleton, hseq] at hx
    rcases List.mem_append.mp hx with hbefore | hnow
    · exact h.small x hbefore
    · obtain rfl : x = (c.seq + buffer.bytes.length) % 65535 := by simpa using hnow
      exact Nat.mod_lt _ (by decide)
  · rw [hmarks]
    have hwaits := h.waits
    cases hm : c.windowClient.marks with
    | nil => decide
    | cons x l =>
      rw [hm] at hwaits
      exact hwaits
  · intro i hi
    rw [hinFlight, List.length_append, List.length_singleton] at hi
    exact (h.left i (by omega)).snoc _
  · intro i k hi hmark
    rw [hinFlight, List.length_append, List.length_singleton] at hi
    rw [hmarks] at hmark
    -- the mark of the new packet is not set
    have hk : k < c.windowClient.marks.length := by
      by_contra hge
      rw [List.getElem?_append_right (by omega)] at hmark
      have hzero := List.mem_singleton.mp (List.mem_of_getElem? hmark)
      exact absurd hzero (by decide)
    rw [List.getElem?_append_left hk] at hmark
    exact (h.marked i k (by omega) hmark).snoc _

/-- An ack. -/
lemma Holds.ack (h : c.Holds w es sent) (hrun : machine.exec (start w) es = .ok (c, sent))
    (head : TrollHeader) :
    Holds w (es ++ [.ack head])
      { c with windowClient := c.windowClient.receiveAck head } sent := by
  have hle := h.inFlight_le
  -- what is marked after the first loop has been acknowledged while it was outstanding
  have hmarked : ∀ i k, i + c.windowClient.inFlight = sent.length + k →
      (c.windowClient.markAt (c.windowClient.found head.tcpHeader.seq)).marks[k]? = some 1 →
      AckedWhileOutstanding w (es ++ [.ack head]) i := by
    intro i k hi hmark
    by_cases hbefore : c.windowClient.marks[k]? = some 1
    · exact (h.marked i k hi hbefore).snoc _
    · obtain ⟨p, hp, hseq⟩ := MyWindow.exists_of_marked h.ok hmark hbefore
      exact ⟨es, head, [], c, sent, k, p, rfl, hrun, hi, hp, hseq⟩
  have hok := MyWindow.ok_markAt h.ok (c.windowClient.found head.tcpHeader.seq)
  rw [MyWindow.receiveAck_eq h.ok]
  have hin := MyWindow.inFlight_advanceAcked hok
  have hd := MyWindow.ackedPrefix_le
    (c.windowClient.markAt (c.windowClient.found head.tcpHeader.seq))
  obtain ⟨hout, hmarks⟩ := MyWindow.outstanding_advanceAcked hok
  rw [MyWindow.inFlight_markAt] at hin hd
  rw [MyWindow.outstanding_markAt] at hout
  generalize hw' : c.windowClient.markAt (c.windowClient.found head.tcpHeader.seq) = w' at *
  refine ⟨MyWindow.ok_advanceAcked hok, ?_, ?_, h.follows, h.small, ?_, ?_, ?_⟩
  · dsimp only
    omega
  · rw [hout, h.recent, List.drop_drop, hin]
    congr 1
    omega
  · exact MyWindow.head_marks_advanceAcked hok
  · intro i hi
    rw [hin] at hi
    by_cases hbefore : i + c.windowClient.inFlight < sent.length
    · exact (h.left i hbefore).snoc _
    · refine hmarked i (i + c.windowClient.inFlight - sent.length) (by omega) ?_
      exact MyWindow.getElem?_marks_of_lt (by omega)
  · intro i k hi hmark
    rw [hin] at hi
    rw [hmarks, List.getElem?_drop] at hmark
    exact hmarked i (w'.ackedPrefix + k) (by omega) hmark

/-- The invariant holds of every run. -/
theorem holds_of_run (hrun : machine.exec (start w) es = .ok (c, sent)) : c.Holds w es sent := by
  refine machine.exec_induction (motive := fun es c sent => c.Holds w es sent) (holds_start w) ?_
    hrun
  intro es u o e t o' hes ih hstep
  cases e with
  | send head sendTo buffer =>
    simp only [machine, step] at hstep
    split at hstep
    · cases hstep
    · rename_i hroom
      cases hstep
      exact ih.send (Bool.eq_false_iff.mpr hroom) head sendTo buffer
  | ack head =>
    cases hstep
    rw [List.append_nil]
    exact ih.ack hes head

/-- The numbers of the outstanding packets are different. -/
lemma Holds.nodup (h : c.Holds w es sent) :
    (c.windowClient.outstanding.map (·.tcpHeader.seq)).Nodup := by
  have hle := h.inFlight_le
  have hsize : c.windowClient.inFlight ≤ 10 := h.ok.inFlight_le
  rw [h.recent, List.nodup_iff_pairwise_ne, List.pairwise_iff_getElem]
  intro i j hi hj hij heq
  simp only [List.length_map, List.length_drop] at hi hj
  simp only [List.getElem_map, List.getElem_drop] at heq
  have hne := ne_of_follows h.follows h.small
    (by omega : sent.length - c.windowClient.inFlight + i
      < sent.length - c.windowClient.inFlight + j)
    (by rw [List.length_append, List.length_map]; omega) (by unfold BODY_LEN; omega)
  rw [List.getElem_append_left (by rw [List.length_map]; omega),
    List.getElem_append_left (by rw [List.length_map]; omega), List.getElem_map,
    List.getElem_map] at hne
  exact hne (congrArg UInt32.toNat heq)

end Client

/-- **The window holds the most recent packets.** In every run the counter is in range and agrees
with the two indices, the outstanding slots hold the packets sent last, in order and with
different numbers, and every packet that has left the window was acknowledged while it was
outstanding. -/
theorem window_holds_recent (w : MyWindow) (es : List Event) (c : Client)
    (sent : List TrollHeader) (hrun : Client.machine.exec (.start w) es = .ok (c, sent)) :
    0 ≤ c.windowClient.numEmpty ∧ c.windowClient.numEmpty ≤ WINDOW_SIZE ∧
      (c.windowClient.lastSend : ℤ) ≡
        c.windowClient.lastAck + (WINDOW_SIZE - c.windowClient.numEmpty) [ZMOD WINDOW_SIZE] ∧
      c.windowClient.outstanding =
        sent.drop (sent.length - (WINDOW_SIZE - c.windowClient.numEmpty).toNat) ∧
      (c.windowClient.outstanding.length : ℤ) = WINDOW_SIZE - c.windowClient.numEmpty ∧
      (c.windowClient.outstanding.map (·.tcpHeader.seq)).Nodup ∧
      ∀ i, i + c.windowClient.outstanding.length < sent.length →
        AckedWhileOutstanding w es i := by
  have h := Client.holds_of_run hrun
  refine ⟨h.ok.nonneg, h.ok.le, ?_, h.recent, ?_, h.nodup, ?_⟩
  · have hin := h.ok.inFlight_eq
    rw [h.ok.lastSend, ← hin, slotAfter, Fin.val_ofNat]
    push_cast
    exact Int.mod_modEq _ _
  · rw [MyWindow.length_outstanding]
    exact h.ok.inFlight_eq
  · intro i hi
    rw [MyWindow.length_outstanding] at hi
    exact h.left i hi

/-! ## A first packet -/

/-- A packet of zeros. -/
def blankHead : TrollHeader := ⟨default, default, .zero _⟩

/-- A window of zeros. -/
def blankWindow : MyWindow := ⟨0, 0, 0, fun _ => blankHead, fun _ => 0⟩

/-- A datagram of one byte. -/
def oneByte : Payload := ⟨[1], by decide, by decide⟩

/-- The packet that is sent first, with the number 1. -/
def firstPacket : TrollHeader := packet blankHead default 1 oneByte

/-- The client after it has sent the packet. -/
def afterFirst : Client := ⟨(Client.start blankWindow).windowClient.savePacket firstPacket, 2⟩

/-- The ack of the packet with a number. -/
def ackOf (seq : UInt32) : TrollHeader :=
  { blankHead with tcpHeader := { (default : TcpHdr) with seq } }

/-- Three packets are sent, the second is acknowledged before the first, and a fourth is sent. -/
def ackTwo : List Event :=
  List.replicate 3 (.send blankHead default oneByte)
    ++ [.ack (ackOf 2), .ack (ackOf 1), .send blankHead default oneByte]

/-- The client after that. -/
def afterAckTwo : Client := Client.machine.play (.start blankWindow) ackTwo

/-- The window holds the third packet and the fourth; the others were acknowledged before they
left it. -/
theorem window_holds_recent_ackTwo : ∃ sent,
    Client.machine.exec (.start blankWindow) ackTwo = .ok (afterAckTwo, sent) ∧
      afterAckTwo.windowClient.outstanding.map (·.tcpHeader.seq) = [3, 4] ∧ sent.length = 4 ∧
      afterAckTwo.windowClient.outstanding = sent.drop 2 ∧
      ∀ i < 2, AckedWhileOutstanding blankWindow ackTwo i := by
  obtain ⟨sent, hrun⟩ : ∃ sent, Client.machine.exec (.start blankWindow) ackTwo
      = .ok (afterAckTwo, sent) := Client.machine.exec_play _ _ (by decide +kernel)
  obtain ⟨-, -, -, hrecent, hlen, -, hleft⟩ := window_holds_recent _ _ _ _ hrun
  have hnumbers : afterAckTwo.windowClient.outstanding.map (·.tcpHeader.seq) = [3, 4] := by
    decide +kernel
  have htwo : afterAckTwo.windowClient.outstanding.length = 2 := by
    simpa using congrArg List.length hnumbers
  have hfour : ((Client.machine.exec (.start blankWindow) ackTwo).toOption.map
      fun r => r.2.length) = some 4 := by decide +kernel
  rw [hrun] at hfour
  have hfour : sent.length = 4 := Option.some.inj hfour
  have hempty : afterAckTwo.windowClient.numEmpty = 8 := by decide +kernel
  rw [hempty, hfour] at hrecent
  exact ⟨sent, hrun, hnumbers, hfour, hrecent, fun i hi => hleft i (by omega)⟩

end NetworkProgramming.Proj1
