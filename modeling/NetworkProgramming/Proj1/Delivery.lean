import NetworkProgramming.Proj1.BackPressure

/-!
# The simulated TCP over a network that loses packets

Both ends of `tcpd` and what is in flight between them. The client sends a packet once and keeps it
in its window; the server hands the body of every packet to `ftps`, whatever its checksum says, and
sends an ack with the number of the packet straight back. The network may lose, repeat, delay and
reorder.

While no number is used twice, a packet is acknowledged only after its body has been handed over
(`handed_of_acked`). But nothing is sent again: once a packet and its acks are lost, it stays in
the window for ever, and so does every packet behind it (`lost_for_good`).
-/

namespace NetworkProgramming.Proj1

/-! ## The server side -/

/-- What travels through the troll: the two headers and the first `bytes` bytes of the body. -/
structure Datagram where
  head : TrollHeader
  bytes : ℕ
deriving DecidableEq

namespace Datagram

/-- The number of the packet. -/
def seq (m : Datagram) : UInt32 := m.head.tcpHeader.seq

/-- What the branch for `sock_server_remote` sends to `ftps`. The branch compares the checksums
first, and goes on in either case. -/
def body (m : Datagram) : List UInt8 := m.head.body.toList.take m.bytes

/-- `ack_packet`, in a variable that holds `ackPacket`; `ret` is what the `sendto` to `ftps` has
returned. -/
def ack (m : Datagram) (ackPacket : TrollHeader) (ret : UInt32) : TrollHeader :=
  { ackPacket with tcpHeader := { ackPacket.tcpHeader with
      flags := ackPacket.tcpHeader.flags ||| ackFlag
      seq := m.seq
      ackSeq := m.seq + ret } }

@[simp] lemma seq_ack (m : Datagram) (ackPacket : TrollHeader) (ret : UInt32) :
    (m.ack ackPacket ret).tcpHeader.seq = m.seq := rfl

end Datagram

/-- What the client sends to the troll for a datagram of `ftpc`. -/
def outgoing (head : TrollHeader) (sendTo : SockaddrIn) (seq : ℕ) (buffer : Payload) : Datagram :=
  ⟨packet head sendTo seq buffer, buffer.bytes.length⟩

/-- The body is what `ftpc` has sent. -/
@[simp] lemma body_outgoing (head : TrollHeader) (sendTo : SockaddrIn) (seq : ℕ)
    (buffer : Payload) : (outgoing head sendTo seq buffer).body = buffer.bytes := by
  have hfits : 0 + buffer.bytes.length ≤ BODY_LEN := by
    rw [Nat.zero_add]
    exact buffer.fits
  show (head.body.write 0 buffer.bytes hfits).toList.take buffer.bytes.length = buffer.bytes
  rw [Buffer.take_write hfits (Nat.zero_add _).symm]
  rfl

/-! ## The two ends -/

/-- The client, and what is in flight in both directions. The server keeps nothing. -/
structure Path where
  client : Client
  packets : List Datagram
  acks : List TrollHeader

/-- What happens at one of the ends, or a loss. -/
inductive PathEvent
  /-- a datagram from `ftpc` at the client -/
  | send (head : TrollHeader) (sendTo : SockaddrIn) (buffer : Payload)
  /-- a packet at the server -/
  | packet (m : Datagram) (ackPacket : TrollHeader) (ret : UInt32)
  /-- an ack at the client -/
  | ack (headReceived : TrollHeader)
  /-- of what is in flight the network keeps only these -/
  | lose (packets : Datagram → Bool) (acks : TrollHeader → Bool)

/-- What is sent to the troll, and what `ftps` receives. -/
inductive PathOut
  | sent (m : Datagram)
  | handed (bytes : List UInt8)

/-- The packets sent, in their order. -/
def sentOf (os : List PathOut) : List Datagram :=
  os.filterMap fun o => match o with
    | .sent m => some m
    | .handed _ => none

@[simp] lemma sentOf_append (os os' : List PathOut) :
    sentOf (os ++ os') = sentOf os ++ sentOf os' :=
  List.filterMap_append

namespace Path

/-- Nothing has happened since `window_init` on memory that holds `w`. -/
def start (w : MyWindow) : Path := ⟨.start w, [], []⟩

/-- One event. A datagram that comes while the window is full goes to `tmp_save_buf`, which nothing
reads. -/
def step (l : Path) : PathEvent → Except NotEnabled (Path × List PathOut)
  | .send head sendTo buffer =>
    match l.client.step (.send head sendTo buffer) with
    | .error .windowFull => .ok (l, [])
    | .ok (client, heads) =>
      let ms : List Datagram := heads.map (⟨·, buffer.bytes.length⟩)
      .ok ({ l with client, packets := l.packets ++ ms }, ms.map .sent)
  | .packet m ackPacket ret =>
    if m ∈ l.packets then
      .ok ({ l with acks := l.acks ++ [m.ack ackPacket ret] }, [.handed m.body])
    else .error .notReady
  | .ack headReceived =>
    if headReceived ∈ l.acks then
      .ok ({ l with client := { l.client with
        windowClient := l.client.windowClient.receiveAck headReceived } }, [])
    else .error .notReady
  | .lose packets acks =>
    .ok ({ l with packets := l.packets.filter packets, acks := l.acks.filter acks }, [])

/-- The two ends as a machine. -/
def machine : Machine Path PathEvent PathOut NotEnabled := ⟨step⟩

/-- A packet in flight reaches the server. -/
lemma step_packet {l : Path} {m : Datagram} (hm : m ∈ l.packets) (ackPacket : TrollHeader)
    (ret : UInt32) : machine.step l (.packet m ackPacket ret)
      = .ok ({ l with acks := l.acks ++ [m.ack ackPacket ret] }, [.handed m.body]) := if_pos hm

/-- An ack in flight reaches the client. -/
lemma step_ack {l : Path} {head : TrollHeader} (ha : head ∈ l.acks) : machine.step l (.ack head)
      = .ok ({ l with client := { l.client with
        windowClient := l.client.windowClient.receiveAck head } }, []) := if_pos ha

end Path

/-- What one event does. -/
inductive PathStep (l : Path) : PathEvent → Path → List PathOut → Prop
  | send {head : TrollHeader} {sendTo : SockaddrIn} {buffer : Payload}
      (hroom : l.client.windowClient.full = false) :
      PathStep l (.send head sendTo buffer)
        { l with
          client := ⟨l.client.windowClient.savePacket (packet head sendTo l.client.seq buffer),
            (l.client.seq + buffer.bytes.length) % 65535⟩
          packets := l.packets ++ [outgoing head sendTo l.client.seq buffer] }
        [.sent (outgoing head sendTo l.client.seq buffer)]
  | blocked {head : TrollHeader} {sendTo : SockaddrIn} {buffer : Payload} :
      PathStep l (.send head sendTo buffer) l []
  | packet {m : Datagram} {ackPacket : TrollHeader} {ret : UInt32} (hm : m ∈ l.packets) :
      PathStep l (.packet m ackPacket ret) { l with acks := l.acks ++ [m.ack ackPacket ret] }
        [.handed m.body]
  | ack {headReceived : TrollHeader} (ha : headReceived ∈ l.acks) :
      PathStep l (.ack headReceived)
        { l with client := { l.client with
          windowClient := l.client.windowClient.receiveAck headReceived } } []
  | lose {packets : Datagram → Bool} {acks : TrollHeader → Bool} :
      PathStep l (.lose packets acks)
        { l with packets := l.packets.filter packets, acks := l.acks.filter acks } []

lemma path_step {l l' : Path} {e : PathEvent} {os : List PathOut} (h : l.step e = .ok (l', os)) :
    PathStep l e l' os := by
  cases e with
  | send head sendTo buffer =>
    cases hfull : l.client.windowClient.full with
    | true =>
      simp only [Path.step, Client.step, hfull, if_true] at h
      cases h
      exact .blocked
    | false =>
      simp only [Path.step, Client.step, hfull, Bool.false_eq_true, if_false] at h
      cases h
      exact .send hfull
  | packet m ackPacket ret =>
    simp only [Path.step] at h
    split at h <;> cases h
    exact .packet ‹_›
  | ack headReceived =>
    simp only [Path.step] at h
    split at h <;> cases h
    exact .ack ‹_›
  | lose packets acks =>
    cases h
    exact .lose

/-! ## Numbers -/

/-- The packets sent carry the numbers that their lengths add up to, and the next one is `seq`. -/
structure Numbered (seq : ℕ) (ms : List Datagram) : Prop where
  next : seq = (randomIniSeq + (ms.map (·.bytes)).sum) % 65535
  each : ∀ i (hi : i < ms.length),
    ms[i].seq.toNat = (randomIniSeq + ((ms.map (·.bytes)).take i).sum) % 65535
  pos : ∀ m ∈ ms, 0 < m.bytes

/-- Sums of positive sizes grow with every size. -/
lemma sum_take_lt {sizes : List ℕ} (hpos : ∀ n ∈ sizes, 0 < n) {i j : ℕ} (hij : i < j)
    (hj : j ≤ sizes.length) : (sizes.take i).sum < (sizes.take j).sum := by
  induction j with
  | zero => exact absurd hij (Nat.not_lt_zero i)
  | succ j ih =>
    have hnext := hpos sizes[j] (List.getElem_mem hj)
    rw [List.sum_take_succ sizes j hj]
    rcases Nat.lt_succ_iff_lt_or_eq.mp hij with hlt | rfl
    · have hbefore := ih hlt (Nat.le_of_lt hj)
      omega
    · omega

/-- Up to 65535 bytes no number is used twice. -/
lemma Numbered.seq_inj {seq : ℕ} {ms : List Datagram} (h : Numbered seq ms)
    (hsize : (ms.map (·.bytes)).sum ≤ 65535) {i j : ℕ} (hi : i < ms.length) (hj : j < ms.length)
    (heq : ms[i].seq = ms[j].seq) : i = j := by
  have hpos : ∀ n ∈ ms.map (·.bytes), 0 < n := by
    intro n hn
    obtain ⟨m, hm, rfl⟩ := List.mem_map.mp hn
    exact h.pos m hm
  -- two numbers are less than a turn of the counter apart
  have hapart : ∀ i j, i < j → j < ms.length →
      ((ms.map (·.bytes)).take i).sum < ((ms.map (·.bytes)).take j).sum ∧
        ((ms.map (·.bytes)).take j).sum < (ms.map (·.bytes)).sum := by
    intro i j hij hj
    have hj' : j < (ms.map (·.bytes)).length := by rwa [List.length_map]
    have hlast := sum_take_lt hpos hj' le_rfl
    rw [List.take_length] at hlast
    exact ⟨sum_take_lt hpos hij hj'.le, hlast⟩
  have hnumber := congrArg UInt32.toNat heq
  rw [h.each i hi, h.each j hj] at hnumber
  simp only [randomIniSeq] at hnumber
  rcases lt_trichotomy i j with hij | hij | hij
  · have hlt := hapart i j hij hj
    omega
  · exact hij
  · have hlt := hapart j i hij hi
    omega

/-- One more packet carries the number that was next. -/
lemma Numbered.send {seq : ℕ} {ms : List Datagram} (h : Numbered seq ms) {m : Datagram}
    (hseq : m.seq = UInt32.ofNat seq) (hpos : 0 < m.bytes) :
    Numbered ((seq + m.bytes) % 65535) (ms ++ [m]) where
  next := by
    rw [h.next, Nat.mod_add_mod, List.map_append, List.sum_append, Nat.add_assoc]
    simp
  each i hi := by
    rw [List.length_append, List.length_singleton] at hi
    rw [List.map_append]
    rcases Nat.lt_succ_iff_lt_or_eq.mp hi with hlt | rfl
    · rw [List.getElem_append_left hlt,
        List.take_append_of_le_length (by rw [List.length_map]; omega)]
      exact h.each i hlt
    · have hsmall : seq < 65535 := by
        rw [h.next]
        exact Nat.mod_lt _ (by decide)
      rw [List.getElem_concat_length rfl, hseq, UInt32.toNat_ofNat',
        Nat.mod_eq_of_lt (by omega), h.next, List.take_append_of_le_length (by simp)]
      congr 3
      rw [← List.length_map (f := (·.bytes)), List.take_length]
  pos m' hm' := by
    rcases List.mem_append.mp hm' with hm' | hm'
    · exact h.pos m' hm'
    · rwa [List.mem_singleton.mp hm']

/-! ## Acknowledged packets have been handed over -/

/-- The ack has the number of a packet whose body has been handed over. -/
def Answers (os : List PathOut) (a : TrollHeader) : Prop :=
  ∃ m ∈ sentOf os, m.seq = a.tcpHeader.seq ∧ .handed m.body ∈ os

lemma Answers.mono {os : List PathOut} {a : TrollHeader} (h : Answers os a) (os' : List PathOut) :
    Answers (os ++ os') a := by
  obtain ⟨m, hm, hseq, hhanded⟩ := h
  exact ⟨m, by simp [hm], hseq, List.mem_append_left _ hhanded⟩

/-- What holds of the two ends after the run over `es` with the outputs `os`. -/
structure Path.Holds (w : MyWindow) (es : List PathEvent) (l : Path) (os : List PathOut) :
    Prop where
  /-- the client has gone through a run of its own, on acks that answer packets -/
  client : ∃ es', Client.machine.exec (.start w) es' = .ok (l.client, (sentOf os).map (·.head)) ∧
    ∀ a, .ack a ∈ es' → Answers os a
  numbered : Numbered l.client.seq (sentOf os)
  packets : ∀ m ∈ l.packets, m ∈ sentOf os
  acks : ∀ a ∈ l.acks, Answers os a
  handed : ∀ bytes, .handed bytes ∈ os → ∃ m ∈ sentOf os, m.body = bytes
  sent : ∀ m ∈ sentOf os, ∃ head sendTo buffer,
    .send head sendTo buffer ∈ es ∧ m.body = buffer.bytes

namespace Path

variable {w : MyWindow} {es : List PathEvent} {l : Path} {os : List PathOut}

lemma holds_start (w : MyWindow) : Holds w [] (start w) [] where
  client := ⟨[], rfl, fun a ha => by cases ha⟩
  numbered := ⟨rfl, fun i hi => absurd hi (Nat.not_lt_zero i), fun m hm => by cases hm⟩
  packets m hm := by cases hm
  acks a ha := by cases ha
  handed bytes h := by cases h
  sent m hm := by cases hm

/-- **One more event.** -/
lemma Holds.step (h : l.Holds w es os) {e : PathEvent} {l' : Path} {os' : List PathOut}
    (hstep : l.step e = .ok (l', os')) : l'.Holds w (es ++ [e]) (os ++ os') := by
  obtain ⟨es', hclient, hacks⟩ := h.client
  -- without a new packet
  have hquiet : ∀ {os' : List PathOut}, sentOf os' = [] → sentOf (os ++ os') = sentOf os := by
    intro os' hnone
    rw [sentOf_append, hnone, List.append_nil]
  have hsent : ∀ m ∈ sentOf os, ∃ head sendTo buffer,
      .send head sendTo buffer ∈ es ++ [e] ∧ m.body = buffer.bytes := by
    intro m hm
    obtain ⟨head, sendTo, buffer, hmem, hbody⟩ := h.sent m hm
    exact ⟨head, sendTo, buffer, List.mem_append_left _ hmem, hbody⟩
  cases path_step hstep with
  | @send head sendTo buffer hroom =>
    have hnew : sentOf (os ++ [.sent (outgoing head sendTo l.client.seq buffer)])
        = sentOf os ++ [outgoing head sendTo l.client.seq buffer] := by
      rw [sentOf_append]
      rfl
    refine ⟨⟨es' ++ [.send head sendTo buffer], ?_, fun a ha => ?_⟩, ?_, fun m hm => ?_,
      fun a ha => (h.acks a ha).mono _, fun bytes hb => ?_, fun m hm => ?_⟩
    · rw [hnew, List.map_append]
      refine Client.machine.exec_snoc.mpr ⟨_, _, _, hclient, ?_, rfl⟩
      simp only [Client.machine, Client.step, hroom, Bool.false_eq_true, if_false]
      rfl
    · rcases List.mem_append.mp ha with ha | ha
      · exact (hacks a ha).mono _
      · cases List.mem_singleton.mp ha
    · rw [hnew]
      exact h.numbered.send (m := outgoing head sendTo l.client.seq buffer) rfl buffer.nonempty
    · rw [hnew]
      rcases List.mem_append.mp hm with hm | hm
      · exact List.mem_append_left _ (h.packets m hm)
      · exact List.mem_append_right _ hm
    · rw [hnew]
      rcases List.mem_append.mp hb with hb | hb
      · obtain ⟨m, hm, hbody⟩ := h.handed bytes hb
        exact ⟨m, List.mem_append_left _ hm, hbody⟩
      · cases List.mem_singleton.mp hb
    · rw [hnew] at hm
      rcases List.mem_append.mp hm with hm | hm
      · exact hsent m hm
      · rw [List.mem_singleton.mp hm]
        exact ⟨head, sendTo, buffer, by simp, body_outgoing _ _ _ _⟩
  | blocked =>
    rw [List.append_nil]
    exact ⟨⟨es', hclient, hacks⟩, h.numbered, h.packets, h.acks, h.handed, hsent⟩
  | @packet m ackPacket ret hm =>
    have hsame : sentOf (os ++ [.handed m.body]) = sentOf os := hquiet rfl
    have hm' := h.packets m hm
    refine ⟨⟨es', hsame ▸ hclient, fun a ha => (hacks a ha).mono _⟩, ?_, ?_, fun a ha => ?_,
      fun bytes hb => ?_, ?_⟩
    · rw [hsame]
      exact h.numbered
    · rw [hsame]
      exact h.packets
    · rcases List.mem_append.mp ha with ha | ha
      · exact (h.acks a ha).mono _
      · rw [List.mem_singleton.mp ha]
        exact ⟨m, hsame.symm ▸ hm', rfl, by simp⟩
    · rw [hsame]
      rcases List.mem_append.mp hb with hb | hb
      · exact h.handed bytes hb
      · obtain rfl := PathOut.handed.inj (List.mem_singleton.mp hb)
        exact ⟨m, hm', rfl⟩
    · rw [hsame]
      exact hsent
  | @ack headReceived ha =>
    rw [List.append_nil]
    refine ⟨⟨es' ++ [.ack headReceived], ?_, fun a ha' => ?_⟩, h.numbered, h.packets, h.acks,
      h.handed, hsent⟩
    · exact Client.machine.exec_snoc.mpr ⟨_, _, [], hclient, rfl, (List.append_nil _).symm⟩
    · rcases List.mem_append.mp ha' with ha' | ha'
      · exact hacks a ha'
      · obtain rfl := Event.ack.inj (List.mem_singleton.mp ha')
        exact h.acks a ha
  | lose =>
    rw [List.append_nil]
    exact ⟨⟨es', hclient, hacks⟩, h.numbered, fun m hm => h.packets m (List.mem_of_mem_filter hm),
      fun a ha => h.acks a (List.mem_of_mem_filter ha), h.handed, hsent⟩

theorem holds_of_run (h : machine.exec (start w) es = .ok (l, os)) : l.Holds w es os := by
  refine machine.exec_induction (motive := fun es l os => l.Holds w es os) (holds_start w) ?_ h
  intro es u o e t o' _ ih hstep
  exact ih.step hstep

end Path

/-- An acknowledged packet was sent under the number of the ack. -/
lemma AckedWhileOutstanding.exists_ack {w : MyWindow} {es : List Event} {c : Client}
    {sent : List TrollHeader} {i : ℕ} (h : AckedWhileOutstanding w es i)
    (hrun : Client.machine.exec (.start w) es = .ok (c, sent)) :
    ∃ head p, .ack head ∈ es ∧ sent[i]? = some p ∧ p.tcpHeader.seq = head.tcpHeader.seq := by
  obtain ⟨pre, head, post, u, sent', k, p, rfl, hpre, hi, hp, hseq⟩ := h
  obtain ⟨u', o, o', hpre', -, rfl⟩ := Client.machine.exec_append.mp hrun
  rw [hpre] at hpre'
  cases hpre'
  have hu := Client.holds_of_run hpre
  have hle := hu.inFlight_le
  rw [hu.recent, List.getElem?_drop,
    show sent'.length - u.windowClient.inFlight + k = i by omega] at hp
  refine ⟨head, p, by simp, ?_, hseq⟩
  rw [List.getElem?_append_left (List.getElem?_eq_some_iff.mp hp).1]
  exact hp

/-- **Acknowledged packets have been handed over.** Whatever the network loses, repeats and
reorders: what `ftps` receives is always the payload of a `SEND`; and while no more than 65535
bytes have been sent, every packet that has left the window, and every one that is marked in it,
has been handed to `ftps`. -/
theorem handed_of_acked (w : MyWindow) (es : List PathEvent) (l : Path) (os : List PathOut)
    (h : Path.machine.exec (.start w) es = .ok (l, os)) :
    (∀ bytes, .handed bytes ∈ os → ∃ head sendTo buffer,
      .send head sendTo buffer ∈ es ∧ buffer.bytes = bytes) ∧
    (((sentOf os).map (·.bytes)).sum ≤ 65535 → ∀ i (hi : i < (sentOf os).length),
      (i + l.client.windowClient.inFlight < (sentOf os).length ∨
        ∃ k, i + l.client.windowClient.inFlight = (sentOf os).length + k ∧
          l.client.windowClient.marks[k]? = some 1) →
      .handed (sentOf os)[i].body ∈ os) := by
  have hl := Path.holds_of_run h
  obtain ⟨es', hclient, hacks⟩ := hl.client
  have hholds := Client.holds_of_run hclient
  refine ⟨fun bytes hb => ?_, fun hsize i hi hdone => ?_⟩
  · obtain ⟨m, hm, hbody⟩ := hl.handed bytes hb
    obtain ⟨head, sendTo, buffer, hmem, hbuffer⟩ := hl.sent m hm
    exact ⟨head, sendTo, buffer, hmem, hbuffer.symm.trans hbody⟩
  · have hacked : AckedWhileOutstanding w es' i := by
      rcases hdone with hleft | ⟨k, hk, hmark⟩
      · exact hholds.left i (by rwa [List.length_map])
      · exact hholds.marked i k (by rwa [List.length_map]) hmark
    obtain ⟨head, p, hmem, hp, hseq⟩ := hacked.exists_ack hclient
    obtain ⟨m, hm, hnumber, hhanded⟩ := hacks head hmem
    obtain ⟨j, hj, rfl⟩ := List.getElem_of_mem hm
    rw [List.getElem?_map, List.getElem?_eq_getElem hi, Option.map_some, Option.some.injEq] at hp
    have hsame : (sentOf os)[i].seq = (sentOf os)[j].seq := by
      rw [hnumber, ← hseq, ← hp]
      rfl
    obtain rfl := hl.numbered.seq_inj hsize hi hj hsame
    exact hhanded

/-- The first packet, as it is sent. -/
def firstDatagram : Datagram := outgoing blankHead default 1 oneByte

/-- A packet is sent, handed over and acknowledged. -/
def roundTrip : List PathEvent :=
  [.send blankHead default oneByte] ++ [.packet firstDatagram blankHead 1]
    ++ [.ack (firstDatagram.ack blankHead 1)]

/-- The two ends after the first packet has been sent. -/
def afterSend : Path := ⟨afterFirst, [firstDatagram], []⟩

lemma exec_first :
    Path.machine.exec (.start blankWindow) [.send blankHead default oneByte]
      = .ok (afterSend, [.sent firstDatagram]) := rfl

/-- The ack empties the window. -/
lemma exec_roundTrip : ∃ l, Path.machine.exec (.start blankWindow) roundTrip
      = .ok (l, [.sent firstDatagram, .handed firstDatagram.body]) ∧
    l.client.windowClient.inFlight = 0 := by
  have hm : firstDatagram ∈ afterSend.packets := List.mem_singleton_self firstDatagram
  have ha : firstDatagram.ack blankHead 1 ∈ afterSend.acks ++ [firstDatagram.ack blankHead 1] :=
    List.mem_singleton_self (firstDatagram.ack blankHead 1)
  have hpacket := Path.step_packet hm blankHead 1
  have hack := Path.step_ack (l := { afterSend with
    acks := afterSend.acks ++ [firstDatagram.ack blankHead 1] }) ha
  have hsent := Path.machine.exec_snoc.mpr ⟨afterSend, _, _, exec_first, hpacket, rfl⟩
  refine ⟨_, Path.machine.exec_snoc.mpr ⟨_, _, _, hsent, hack, rfl⟩, ?_⟩
  -- the first slot is marked, and the window moves past it
  show (afterFirst.windowClient.receiveAck (firstDatagram.ack blankHead 1)).inFlight = 0
  have hseq : (firstDatagram.ack blankHead 1).tcpHeader.seq = (afterFirst.windowClient.trollHeaders
      (afterFirst.windowClient.lastAck + 1)).tcpHeader.seq := rfl
  rw [MyWindow.receiveAck, MyWindow.markAcked, if_neg (by decide), if_pos hseq]
  rfl

/-- The first packet has left the window, and has been handed over. -/
theorem handed_of_acked_roundTrip : ∃ l os,
    Path.machine.exec (.start blankWindow) roundTrip = .ok (l, os) ∧ .handed [1] ∈ os := by
  obtain ⟨l, h, hempty⟩ := exec_roundTrip
  have hhanded := (handed_of_acked blankWindow roundTrip l _ h).2 (by decide) 0 (by decide)
    (Or.inl (by rw [hempty]; decide))
  have hbody : firstDatagram.body = [1] := body_outgoing _ _ _ _
  exact ⟨l, _, h, hbody ▸ hhanded⟩

/-! ## Lost packets -/

/-- The `i`-th packet, counted from 0, is in the window without a mark, and neither it nor an ack
with its number is in flight. -/
structure Path.Lost (i : ℕ) (p : TrollHeader) (l : Path) (sent : List Datagram) : Prop where
  outstanding : ∃ k, i + l.client.windowClient.inFlight = sent.length + k ∧
    l.client.windowClient.outstanding[k]? = some p ∧ l.client.windowClient.marks[k]? ≠ some 1
  packets : ∀ m ∈ l.packets, m.seq ≠ p.tcpHeader.seq
  acks : ∀ a ∈ l.acks, a.tcpHeader.seq ≠ p.tcpHeader.seq

namespace Path

variable {w : MyWindow} {es : List PathEvent} {l : Path} {os : List PathOut} {i : ℕ}
  {p : TrollHeader}

/-- An ack for another packet moves the window at most up to a packet without a mark. -/
lemma outstanding_receiveAck {win : MyWindow} (hok : win.Ok) {head : TrollHeader} {k : ℕ}
    (hp : win.outstanding[k]? = some p) (hmark : win.marks[k]? ≠ some 1)
    (hother : head.tcpHeader.seq ≠ p.tcpHeader.seq) :
    ∃ d, d ≤ k ∧ (win.receiveAck head).inFlight + d = win.inFlight ∧
      (win.receiveAck head).outstanding[k - d]? = some p ∧
      (win.receiveAck head).marks[k - d]? ≠ some 1 := by
  have hok' := MyWindow.ok_markAt hok (win.found head.tcpHeader.seq)
  have hstill : (win.markAt (win.found head.tcpHeader.seq)).marks[k]? ≠ some 1 := by
    intro hnow
    obtain ⟨q, hq, hseq⟩ := MyWindow.exists_of_marked hok hnow hmark
    obtain rfl : p = q := Option.some.inj (hp.symm.trans hq)
    exact hother hseq.symm
  -- the slide stops at the packet
  have hd : (win.markAt (win.found head.tcpHeader.seq)).ackedPrefix ≤ k := by
    by_contra hlt
    exact hstill (MyWindow.getElem?_marks_of_lt (not_le.mp hlt))
  have hin := MyWindow.inFlight_advanceAcked hok'
  have hle := MyWindow.ackedPrefix_le (win.markAt (win.found head.tcpHeader.seq))
  obtain ⟨hout, hmarks⟩ := MyWindow.outstanding_advanceAcked hok'
  rw [MyWindow.inFlight_markAt] at hin hle
  rw [MyWindow.outstanding_markAt] at hout
  rw [MyWindow.receiveAck_eq hok]
  refine ⟨_, hd, by omega, ?_, ?_⟩
  · rw [hout, List.getElem?_drop, Nat.add_sub_cancel' hd]
    exact hp
  · rw [hmarks, List.getElem?_drop, Nat.add_sub_cancel' hd]
    exact hstill

/-- **One more event does not bring the packet back.** -/
lemma Lost.step (hrun : machine.exec (start w) es = .ok (l, os)) (h : Lost i p l (sentOf os))
    {e : PathEvent} {l' : Path} {os' : List PathOut} (hstep : l.step e = .ok (l', os')) :
    Lost i p l' (sentOf (os ++ os')) ∧ ∀ m ackPacket ret, e = .packet m ackPacket ret →
      m.seq ≠ p.tcpHeader.seq := by
  obtain ⟨es', hclient, -⟩ := (holds_of_run hrun).client
  obtain ⟨es'', hclient', -⟩ :=
    (holds_of_run (machine.exec_snoc.mpr ⟨l, os, os', hrun, hstep, rfl⟩)).client
  have hholds := Client.holds_of_run hclient
  have hnodup := (Client.holds_of_run hclient').nodup
  obtain ⟨k, hk, hp, hmark⟩ := h.outstanding
  cases path_step hstep with
  | @send head sendTo buffer hroom =>
    have hin := MyWindow.inFlight_savePacket hholds.ok (packet head sendTo l.client.seq buffer)
    obtain ⟨hout, hmarks⟩ :=
      MyWindow.outstanding_savePacket hholds.ok hroom (packet head sendTo l.client.seq buffer)
    have hlt := (List.getElem?_eq_some_iff.mp hp).1
    rw [MyWindow.length_outstanding] at hlt
    refine ⟨⟨⟨k, ?_, ?_, ?_⟩, fun m hm => ?_, h.acks⟩, fun _ _ _ he => by cases he⟩
    · rw [sentOf_append, List.length_append, hin, ← Nat.add_assoc, hk]
      show _ = _ + 1 + k
      omega
    · rw [hout, List.getElem?_append_left (by rwa [MyWindow.length_outstanding])]
      exact hp
    · rw [hmarks, List.getElem?_append_left (by rwa [MyWindow.length_marks])]
      exact hmark
    · rcases List.mem_append.mp hm with hm | hm
      · exact h.packets m hm
      · -- both packets are in the window now, so their numbers differ
        rw [List.mem_singleton.mp hm]
        dsimp only at hnodup
        rw [hout, List.map_append, List.nodup_append] at hnodup
        refine fun heq => hnodup.2.2 p.tcpHeader.seq ?_ _ (List.mem_singleton_self _) heq.symm
        exact List.mem_map_of_mem (List.mem_of_getElem? hp)
  | blocked =>
    rw [List.append_nil]
    exact ⟨h, fun _ _ _ he => by cases he⟩
  | @packet m ackPacket ret hm =>
    have hother := h.packets m hm
    rw [sentOf_append, show sentOf [PathOut.handed m.body] = [] from rfl, List.append_nil]
    refine ⟨⟨h.outstanding, h.packets, fun a ha => ?_⟩, fun _ _ _ he => ?_⟩
    · rcases List.mem_append.mp ha with ha | ha
      · exact h.acks a ha
      · rw [List.mem_singleton.mp ha, Datagram.seq_ack]
        exact hother
    · cases he
      exact hother
  | @ack headReceived ha =>
    obtain ⟨d, hd, hin, hout, hmarks⟩ :=
      outstanding_receiveAck hholds.ok hp hmark (h.acks headReceived ha)
    rw [List.append_nil]
    refine ⟨⟨⟨k - d, ?_, hout, hmarks⟩, h.packets, h.acks⟩, fun _ _ _ he => by cases he⟩
    dsimp only
    omega
  | lose =>
    rw [List.append_nil]
    exact ⟨⟨h.outstanding, fun m hm => h.packets m (List.mem_of_mem_filter hm),
      fun a ha => h.acks a (List.mem_of_mem_filter ha)⟩, fun _ _ _ he => by cases he⟩

end Path

/-- **A lost packet is lost for good.** Take any state that is reached in which some packet in the
window has no mark and neither it nor an ack for it is in flight. Whatever happens from there on:
the packet stays in the window without a mark, no packet with its number reaches the server, and of
the packets behind it at most nine are ever sent. -/
theorem lost_for_good (w : MyWindow) (es : List PathEvent) (l : Path) (os : List PathOut)
    (h : Path.machine.exec (.start w) es = .ok (l, os)) (i : ℕ) (p : TrollHeader)
    (hlost : l.Lost i p (sentOf os)) (es' : List PathEvent) (l' : Path) (os' : List PathOut)
    (h' : Path.machine.exec l es' = .ok (l', os')) :
    l'.Lost i p (sentOf (os ++ os')) ∧ (sentOf (os ++ os')).length ≤ i + WINDOW_SIZE ∧
      ∀ m ackPacket ret, .packet m ackPacket ret ∈ es' → m.seq ≠ p.tcpHeader.seq := by
  have hall : l'.Lost i p (sentOf (os ++ os')) ∧
      ∀ m ackPacket ret, .packet m ackPacket ret ∈ es' → m.seq ≠ p.tcpHeader.seq := by
    refine Path.machine.exec_induction (motive := fun es' l' os' =>
      l'.Lost i p (sentOf (os ++ os')) ∧
        ∀ m ackPacket ret, .packet m ackPacket ret ∈ es' → m.seq ≠ p.tcpHeader.seq) ?_ ?_ h'
    · rw [List.append_nil]
      exact ⟨hlost, fun m _ _ hm => by cases hm⟩
    · intro es₁ u o e t o' hes ih hstep
      have hu := Path.machine.exec_append.mpr ⟨l, os, o, h, hes, rfl⟩
      obtain ⟨hstill, hother⟩ := ih.1.step hu hstep
      refine ⟨by rwa [List.append_assoc] at hstill, fun m ackPacket ret hm => ?_⟩
      rcases List.mem_append.mp hm with hm | hm
      · exact ih.2 m ackPacket ret hm
      · exact hother m ackPacket ret (List.mem_singleton.mp hm).symm
  obtain ⟨k, hk, -⟩ := hall.1.outstanding
  obtain ⟨es'', hclient, -⟩ :=
    (Path.holds_of_run (Path.machine.exec_append.mpr ⟨l, os, os', h, h', rfl⟩)).client
  have hin := (Client.holds_of_run hclient).ok.inFlight_le
  exact ⟨hall.1, by omega, hall.2⟩

/-- The first packet has been lost. -/
def afterLoss : Path := ⟨afterFirst, [], []⟩

/-- The run to there. -/
def loseFirst : List PathEvent :=
  [.send blankHead default oneByte, .lose (fun _ => false) fun _ => false]

lemma exec_loseFirst :
    Path.machine.exec (.start blankWindow) loseFirst = .ok (afterLoss, [.sent firstDatagram]) := rfl

lemma lost_afterLoss : afterLoss.Lost 0 firstPacket (sentOf [.sent firstDatagram]) where
  outstanding := ⟨0, rfl, rfl, by decide⟩
  packets m hm := by cases hm
  acks a ha := by cases ha

/-- The first packet is lost, and another one is sent behind it. -/
theorem lost_for_good_first : ∃ l os,
    Path.machine.exec afterLoss [.send blankHead default oneByte] = .ok (l, os) ∧
    (sentOf (.sent firstDatagram :: os)).length = 2 ∧
    l.Lost 0 firstPacket (sentOf (.sent firstDatagram :: os)) := by
  obtain ⟨l, os, h, hlength⟩ : ∃ l os,
      Path.machine.exec afterLoss [.send blankHead default oneByte] = .ok (l, os) ∧
      (sentOf (.sent firstDatagram :: os)).length = 2 := ⟨_, _, rfl, rfl⟩
  exact ⟨l, os, h, hlength, (lost_for_good blankWindow loseFirst afterLoss _ exec_loseFirst 0
    firstPacket lost_afterLoss _ l os h).1⟩

end NetworkProgramming.Proj1
