import NetworkProgramming.Proj1.Header
import NetworkProgramming.Lib.Machine
import Mathlib.Data.List.TakeWhile

/-!
# The send window of the simulated TCP

The branches of the main loop of `tcpd` that touch the client's window: a datagram from `ftpc` is
sent and saved in the window, and an ack from the server marks a packet and moves `last_ack` over
the packets acknowledged without a gap. The estimate of the round-trip time and the timer
requests of these branches read nothing of the window and are left out here.
-/

namespace NetworkProgramming.Proj1

open RingBuffer

/-! ## The functions of `tcpd.c` -/

namespace MyWindow

/-- `window_full`. -/
def full (w : MyWindow) : Bool := w.numEmpty == 0

/-- `window_init`: `sizeof(window)` is the size of a pointer, so only the two indices are
cleared before the fields are set. -/
def init (w : MyWindow) : MyWindow :=
  { w with lastAck := 0, lastSend := 0, numEmpty := WINDOW_SIZE }

/-- `save_packet`. -/
def savePacket (w : MyWindow) (head : TrollHeader) : MyWindow :=
  let nextIndex := w.lastSend + 1
  { w with
    ackBitmap := Function.update w.ackBitmap nextIndex 0
    trollHeaders := Function.update w.trollHeaders nextIndex head
    lastSend := nextIndex
    numEmpty := w.numEmpty - 1 }

/-- The loop over the packets from slot `i` up to `last_send` that marks the one with the number
`seq`. -/
def markAcked (w : MyWindow) (seq : UInt32) (i : Fin WINDOW_SIZE) : MyWindow :=
  if i = w.lastSend + 1 then w
  else if seq = (w.trollHeaders i).tcpHeader.seq then
    { w with ackBitmap := Function.update w.ackBitmap i 1 }
  else markAcked w seq (i + 1)
termination_by (w.lastSend + 1 - i).val
decreasing_by
  rename_i hne _
  have hstep : ∀ j i : Fin 10, ¬ i = j → (j - (i + 1)).val < (j - i).val := by decide
  exact hstep _ _ hne

/-- The loop over the next `cnt` packets from slot `i` on that stops at one without a mark. -/
def slide (w : MyWindow) (i : Fin WINDOW_SIZE) : ℕ → MyWindow
  | 0 => w
  | cnt + 1 =>
    if w.ackBitmap i = 1 then
      slide { w with lastAck := w.lastAck + 1, numEmpty := w.numEmpty + 1 } (i + 1) cnt
    else w

/-- The two loops of the ack branch. -/
def receiveAck (w : MyWindow) (headReceived : TrollHeader) : MyWindow :=
  let w := w.markAcked headReceived.tcpHeader.seq (w.lastAck + 1)
  w.slide (w.lastAck + 1) (WINDOW_SIZE - w.numEmpty).toNat

end MyWindow

/-- `random_ini_seq`. -/
def randomIniSeq : ℕ := 1

/-- `generate_TrollHeader`, in a variable that holds `head`. -/
def generateTrollHeader (head : TrollHeader) (sendTo : SockaddrIn) (seq : ℕ) (buffer : Payload) :
    TrollHeader :=
  { sendTo := sendTo
    tcpHeader := { head.tcpHeader with
      seq := UInt32.ofNat seq, flags := head.tcpHeader.flags &&& ~~~ ackFlag }
    body := head.body.write 0 buffer.bytes (by rw [Nat.zero_add]; exact buffer.fits) }

/-- The packet that is sent for a datagram: the checksum covers the header, with a zero in the
place of the checksum, and the bytes of the datagram. -/
def packet (head : TrollHeader) (sendTo : SockaddrIn) (seq : ℕ) (buffer : Payload) : TrollHeader :=
  let head := generateTrollHeader head sendTo seq buffer
  let tcpHeader := { head.tcpHeader with check := 0 }
  { head with tcpHeader := { tcpHeader with
      check := crc16 (tcpHeader.bytes ++ head.body.toList.take buffer.bytes.length) } }

@[simp] lemma seq_packet (head : TrollHeader) (sendTo : SockaddrIn) (seq : ℕ) (buffer : Payload) :
    (packet head sendTo seq buffer).tcpHeader.seq = UInt32.ofNat seq := rfl

/-! ## The client side -/

/-- The window of the client and the number of the next packet. -/
structure Client where
  windowClient : MyWindow
  seq : ℕ

/-- What the main loop takes from a socket. -/
inductive Event
  /-- a datagram from `ftpc`; `head` lies in the variable that becomes the packet -/
  | send (head : TrollHeader) (sendTo : SockaddrIn) (buffer : Payload)
  /-- an ack from the server -/
  | ack (headReceived : TrollHeader)

/-- A datagram is not sent while the window is full. -/
inductive Halt
  | windowFull
deriving DecidableEq

namespace Client

/-- The client after `window_init` on memory that holds `w`. -/
def start (w : MyWindow) : Client := ⟨w.init, randomIniSeq⟩

/-- One event; what is sent is the packet. -/
def step (c : Client) : Event → Except Halt (Client × List TrollHeader)
  | .send head sendTo buffer =>
    if c.windowClient.full then .error .windowFull
    else
      let head := packet head sendTo c.seq buffer
      .ok (⟨c.windowClient.savePacket head, (c.seq + buffer.bytes.length) % 65535⟩, [head])
  | .ack headReceived => .ok ({ c with windowClient := c.windowClient.receiveAck headReceived }, [])

/-- The client as a machine. -/
def machine : Machine Client Event TrollHeader Halt := ⟨step⟩

end Client
/-! ## The window as a queue -/

namespace MyWindow

variable {w : MyWindow}

/-- How many packets are outstanding. -/
def inFlight (w : MyWindow) : ℕ := (WINDOW_SIZE - w.numEmpty).toNat

/-- The outstanding packets, oldest first. -/
def outstanding (w : MyWindow) : List TrollHeader :=
  slots w.trollHeaders (w.lastAck + 1) w.inFlight

/-- Their acknowledgement flags. -/
def marks (w : MyWindow) : List Int32 := slots w.ackBitmap (w.lastAck + 1) w.inFlight

@[simp] lemma length_outstanding (w : MyWindow) : w.outstanding.length = w.inFlight :=
  length_slots _ _ _

@[simp] lemma length_marks (w : MyWindow) : w.marks.length = w.inFlight := length_slots _ _ _

/-- The counter is in range and the two indices are as far apart as it says. -/
structure Ok (w : MyWindow) : Prop where
  nonneg : 0 ≤ w.numEmpty
  le : w.numEmpty ≤ WINDOW_SIZE
  lastSend : w.lastSend = slotAfter w.lastAck w.inFlight

lemma Ok.inFlight_eq (hw : w.Ok) : (w.inFlight : ℤ) = WINDOW_SIZE - w.numEmpty :=
  Int.toNat_of_nonneg (Int.sub_nonneg.mpr hw.le)

lemma Ok.inFlight_le (hw : w.Ok) : w.inFlight ≤ WINDOW_SIZE := by
  have := hw.inFlight_eq
  have := hw.nonneg
  omega

lemma Ok.full_iff (hw : w.Ok) : w.full = true ↔ w.inFlight = WINDOW_SIZE := by
  have := hw.inFlight_eq
  rw [full, beq_iff_eq]
  omega

/-- The slot behind the outstanding packets. -/
lemma Ok.lastSend_succ (hw : w.Ok) : w.lastSend + 1 = slotAfter (w.lastAck + 1) w.inFlight := by
  rw [hw.lastSend, slotAfter_succ', slotAfter_succ]

lemma ok_init (w : MyWindow) : w.init.Ok where
  nonneg := Int.natCast_nonneg _
  le := Int.le_refl _
  lastSend := by
    have hzero : w.init.inFlight = 0 := by simp [inFlight, init]
    rw [hzero, slotAfter_zero]
    rfl

@[simp] lemma inFlight_init (w : MyWindow) : w.init.inFlight = 0 := by simp [inFlight, init]

/-! ### A packet is saved -/

lemma inFlight_savePacket (hw : w.Ok) (head : TrollHeader) :
    (w.savePacket head).inFlight = w.inFlight + 1 := by
  have := hw.inFlight_eq
  have := hw.le
  unfold inFlight savePacket at *
  dsimp only
  omega

lemma ok_savePacket (hw : w.Ok) (hroom : w.full = false) (head : TrollHeader) :
    (w.savePacket head).Ok where
  nonneg := by
    have := hw.nonneg
    have hne : w.numEmpty ≠ 0 := by simpa [full] using hroom
    change 0 ≤ w.numEmpty - 1
    omega
  le := by
    have := hw.le
    change w.numEmpty - 1 ≤ WINDOW_SIZE
    omega
  lastSend := by
    rw [inFlight_savePacket hw]
    change w.lastSend + 1 = slotAfter w.lastAck _
    rw [hw.lastSend, slotAfter_succ']

/-- Saving a packet adds it behind the outstanding ones, without a mark. -/
lemma outstanding_savePacket (hw : w.Ok) (hroom : w.full = false) (head : TrollHeader) :
    (w.savePacket head).outstanding = w.outstanding ++ [head] ∧
      (w.savePacket head).marks = w.marks ++ [0] := by
  have hlt : w.inFlight < WINDOW_SIZE := by
    have hne : ¬ w.inFlight = WINDOW_SIZE := fun h => by
      rw [hw.full_iff.mpr h] at hroom
      cases hroom
    have := hw.inFlight_le
    omega
  unfold outstanding marks
  rw [inFlight_savePacket hw, savePacket, hw.lastSend_succ]
  exact ⟨slots_update_end _ _ head hlt, slots_update_end _ _ 0 hlt⟩

/-! ### An ack is received -/

/-- Which outstanding packet the first loop of the ack branch finds. When the window is full the
loop starts where it ends, and finds none. -/
def found (w : MyWindow) (seq : UInt32) : Option ℕ :=
  if w.full then none else w.outstanding.findIdx? fun h => seq = h.tcpHeader.seq

/-- The window with a mark on an outstanding packet. -/
def markAt (w : MyWindow) : Option ℕ → MyWindow
  | none => w
  | some k => { w with ackBitmap := Function.update w.ackBitmap (slotAfter (w.lastAck + 1) k) 1 }

/-- How many packets are marked before the first one that is not. -/
def ackedPrefix (w : MyWindow) : ℕ := (w.marks.takeWhile (· = 1)).length

/-- The window past the packets that are marked before the first one that is not. -/
def advanceAcked (w : MyWindow) : MyWindow :=
  { w with
    lastAck := slotAfter w.lastAck w.ackedPrefix
    numEmpty := w.numEmpty + w.ackedPrefix }

lemma markAcked_eq (seq : UInt32) {i : Fin WINDOW_SIZE} {m : ℕ}
    (hm : w.lastSend + 1 = slotAfter i m) (hlt : m < WINDOW_SIZE) :
    w.markAcked seq i =
      match (slots w.trollHeaders i m).findIdx? fun h => seq = h.tcpHeader.seq with
      | none => w
      | some k => { w with ackBitmap := Function.update w.ackBitmap (slotAfter i k) 1 } := by
  induction m generalizing i with
  | zero =>
    rw [slotAfter_zero] at hm
    rw [markAcked, if_pos hm.symm]
    rfl
  | succ m ih =>
    have hne : ¬ i = w.lastSend + 1 := by
      intro h
      rw [hm] at h
      nth_rewrite 1 [← slotAfter_zero i] at h
      exact absurd ((slotAfter_inj i (by omega) hlt).mp h) (by omega)
    rw [markAcked, if_neg hne, slots_succ, List.findIdx?_cons]
    split
    · rename_i heq
      simp [heq]
    · rename_i heq
      rw [ih (by rw [slotAfter_succ, hm]) (by omega), if_neg (by simpa using heq)]
      cases (slots w.trollHeaders (i + 1) m).findIdx? fun h => seq = h.tcpHeader.seq with
      | none => rfl
      | some k =>
        simp only [Option.map_some]
        rw [slotAfter_succ]

lemma slide_eq (w : MyWindow) (i : Fin WINDOW_SIZE) (cnt : ℕ) :
    w.slide i cnt =
      { w with
        lastAck := slotAfter w.lastAck ((slots w.ackBitmap i cnt).takeWhile (· = 1)).length
        numEmpty := w.numEmpty + ((slots w.ackBitmap i cnt).takeWhile (· = 1)).length } := by
  induction cnt generalizing w i with
  | zero => simp [slide]
  | succ cnt ih =>
    rw [slide, slots_succ, List.takeWhile_cons]
    split
    · rename_i hone
      rw [ih, if_pos (by simpa using hone), List.length_cons]
      simp only [slotAfter_succ, mk.injEq, true_and, and_true]
      push_cast
      omega
    · rename_i hone
      rw [if_neg (by simpa using hone)]
      simp

/-- The ack branch marks a packet that it finds and moves past those marked without a gap. -/
lemma receiveAck_eq (hw : w.Ok) (head : TrollHeader) :
    w.receiveAck head = (w.markAt (w.found head.tcpHeader.seq)).advanceAcked := by
  have hmark : w.markAcked head.tcpHeader.seq (w.lastAck + 1)
      = w.markAt (w.found head.tcpHeader.seq) := by
    unfold found
    split
    · rename_i hfull
      have hlap : slotAfter (w.lastAck + 1) WINDOW_SIZE = w.lastAck + 1 := by
        have hstep : ∀ i : Fin 10, slotAfter i 10 = i := by decide
        exact hstep _
      rw [markAcked, hw.lastSend_succ, hw.full_iff.mp hfull, if_pos hlap.symm]
      rfl
    · rename_i hroom
      have hlt : w.inFlight < WINDOW_SIZE := by
        have := hw.inFlight_le
        have : ¬ w.inFlight = WINDOW_SIZE := fun h => hroom (hw.full_iff.mpr h)
        omega
      rw [markAcked_eq _ hw.lastSend_succ hlt]
      unfold outstanding
      cases (slots w.trollHeaders (w.lastAck + 1) w.inFlight).findIdx?
          fun h => head.tcpHeader.seq = h.tcpHeader.seq <;> rfl
  unfold receiveAck
  rw [hmark]
  exact slide_eq _ _ _

@[simp] lemma inFlight_markAt (o : Option ℕ) : (w.markAt o).inFlight = w.inFlight := by
  cases o <;> rfl

@[simp] lemma outstanding_markAt (o : Option ℕ) : (w.markAt o).outstanding = w.outstanding := by
  cases o <;> rfl

lemma marks_markAt (hw : w.Ok) {k : ℕ} (hk : k < w.inFlight) :
    (w.markAt (some k)).marks = w.marks.set k 1 :=
  slots_update w.ackBitmap (w.lastAck + 1) 1 hw.inFlight_le hk

lemma ok_markAt (hw : w.Ok) (o : Option ℕ) : (w.markAt o).Ok := by
  cases o with
  | none => exact hw
  | some k => exact ⟨hw.nonneg, hw.le, hw.lastSend⟩

lemma ackedPrefix_le (w : MyWindow) : w.ackedPrefix ≤ w.inFlight := by
  rw [← length_marks]
  exact (List.takeWhile_sublist _).length_le

lemma inFlight_advanceAcked (hw : w.Ok) :
    w.advanceAcked.inFlight = w.inFlight - w.ackedPrefix := by
  have := hw.inFlight_eq
  have := w.ackedPrefix_le
  have hnow : (w.advanceAcked.inFlight : ℤ) = max (WINDOW_SIZE - (w.numEmpty + w.ackedPrefix)) 0 :=
    Int.ofNat_toNat _
  omega

lemma ok_advanceAcked (hw : w.Ok) : w.advanceAcked.Ok where
  nonneg := by
    have := hw.nonneg
    change 0 ≤ w.numEmpty + w.ackedPrefix
    omega
  le := by
    have := hw.inFlight_eq
    have := w.ackedPrefix_le
    change w.numEmpty + w.ackedPrefix ≤ WINDOW_SIZE
    omega
  lastSend := by
    have := w.ackedPrefix_le
    rw [inFlight_advanceAcked hw]
    change w.lastSend = slotAfter (slotAfter w.lastAck w.ackedPrefix) _
    rw [hw.lastSend, slotAfter_add, Nat.add_sub_cancel' (by omega)]

/-- The packets that are passed leave the front of the queue. -/
lemma outstanding_advanceAcked (hw : w.Ok) :
    w.advanceAcked.outstanding = w.outstanding.drop w.ackedPrefix ∧
      w.advanceAcked.marks = w.marks.drop w.ackedPrefix := by
  have hle := w.ackedPrefix_le
  unfold outstanding marks
  rw [inFlight_advanceAcked hw, slots_drop _ _ hle, slots_drop _ _ hle, slotAfter_succ,
    ← slotAfter_succ']
  exact ⟨rfl, rfl⟩

/-- A packet that has a mark after the first loop and had none before is one that the loop has
found. -/
lemma exists_of_marked (hw : w.Ok) {seq : UInt32} {k : ℕ}
    (hmark : (w.markAt (w.found seq)).marks[k]? = some 1) (hbefore : w.marks[k]? ≠ some 1) :
    ∃ p, w.outstanding[k]? = some p ∧ p.tcpHeader.seq = seq := by
  cases hfound : w.found seq with
  | none =>
    rw [hfound] at hmark
    exact absurd hmark hbefore
  | some j =>
    unfold found at hfound
    split at hfound
    · cases hfound
    · obtain ⟨hj, hseq, -⟩ := List.findIdx?_eq_some_iff_getElem.mp hfound
      rw [length_outstanding] at hj
      have hfound' : w.found seq = some j := by
        unfold found
        rwa [if_neg (by assumption)]
      rw [hfound', marks_markAt hw hj, List.getElem?_set] at hmark
      by_cases hjk : j = k
      · subst hjk
        refine ⟨_, List.getElem?_eq_getElem (by rwa [length_outstanding]), ?_⟩
        exact (of_decide_eq_true hseq).symm
      · rw [if_neg hjk] at hmark
        exact absurd hmark hbefore

/-- The packets that are passed have marks. -/
lemma getElem?_marks_of_lt {k : ℕ} (hk : k < w.ackedPrefix) : w.marks[k]? = some 1 := by
  have hlt : k < w.marks.length := by
    have := w.ackedPrefix_le
    rw [length_marks]
    omega
  have hone := List.mem_takeWhile_imp (List.getElem_mem hk)
  rw [(List.takeWhile_prefix _).getElem hk] at hone
  rw [List.getElem?_eq_getElem hlt]
  exact congrArg some (of_decide_eq_true hone)

/-- The packet at which the second loop stops has none. -/
lemma head_marks_advanceAcked (hw : w.Ok) : w.advanceAcked.marks.head? ≠ some 1 := by
  rw [(outstanding_advanceAcked hw).2]
  have hsplit : (w.marks.takeWhile fun x => decide (x = 1)) ++
      (w.marks.dropWhile fun x => decide (x = 1)) = w.marks := List.takeWhile_append_dropWhile
  have hdrop : w.marks.drop w.ackedPrefix = w.marks.dropWhile fun x => decide (x = 1) := by
    nth_rewrite 1 [← hsplit]
    exact List.drop_left
  rw [hdrop]
  have hstop := List.head?_dropWhile_not (fun x : Int32 => decide (x = 1)) w.marks
  intro hone
  rw [hone] at hstop
  simp at hstop

end MyWindow
end NetworkProgramming.Proj1
