import NetworkProgramming.Final.Global

/-!
# `tcpd.c`: the sending side

`tcpd_SEND` wraps data into packages, `handle_send_all_back` moves pending packages into the
window and starts their timers, `recv_ack` drops what has been acknowledged and `recv_timer`
puts what has timed out back among the pending packages.
-/

namespace NetworkProgramming

/-- The test of `recv_ack` and `recv_timer` on the packages of the window. -/
def TrollMessageStruct.hasKey (m : TrollMessageStruct) (session seqNum : UInt32) : Bool :=
  m.session = session ∧ m.seqNum = seqNum

/-! ## `tcpd_CONNECT` and `tcpd_SEND` -/

/-- The entry of a fresh connection. -/
def ConnectedSock.create (socketFD : Int32) (session : UInt32) (serverAddr : SockaddrIn) :
    ConnectedSock :=
  { socketFD, session, base := 0, minSeq := 0, serverAddr, packages := [],
    pendingPackages := [] }

/-- `tcpd_CONNECT` after its arguments, with what `rand` has returned. -/
def tcpdConnect (t : Tcpd) (frontAddr : SockaddrIn) (sockfd : Int32) (addr : SockaddrIn)
    (rand : UInt32) : Tcpd × List Out :=
  ({ t with connectedSockets :=
      t.connectedSockets.insert sockfd (ConnectedSock.create sockfd rand addr) },
    [.code frontAddr 0])

namespace ConnectedSock

/-- The package `tcpd_SEND` builds from the first `len` bytes of `buf`, in the memory `fresh`
that `malloc` has returned. -/
def makePackage (c : ConnectedSock) (buf : Buffer BUF_LEN) (len : UInt64)
    (fresh : TrollMessageStruct) : TrollMessageStruct :=
  TrollMessageStruct.sealed
    { fresh with
      header := { c.serverAddr with sinFamily := htonsAfInet }
      session := c.session
      seqNum := c.base
      len
      body := fresh.body.write 0 (buf.toList.take len.toNat) (by simp) }

/-- Queue a package behind the pending ones. -/
def enqueue (c : ConnectedSock) (m : TrollMessageStruct) : ConnectedSock :=
  { c with base := c.base + 1, pendingPackages := c.pendingPackages ++ [m] }

end ConnectedSock

/-- `tcpd_SEND` after its arguments; `buf` is the global buffer once the data has been
received into it. -/
def tcpdSend (t : Tcpd) (frontAddr : SockaddrIn) (sockfd : Int32) (len : UInt64)
    (buf : Buffer BUF_LEN) (fresh : TrollMessageStruct) : Except Halt (Tcpd × List Out) :=
  if BUF_LEN < len.toNat then .error (.exit 5)
  else
    match t.connectedSockets.lookup sockfd with
    | none => .error (.exit 1)
    | some c =>
      let c' := c.enqueue (c.makePackage buf len fresh)
      .ok ({ t with connectedSockets := t.connectedSockets.insert sockfd c',
                    inBufferPackages := t.inBufferPackages + 1 },
        [.code frontAddr len.toUInt32.toInt32])

/-! ## `recv_ack` and `recv_timer` -/

/-- `AckTime` and `ElapsedSeconds` at the reception of an ack. -/
def Estimator.acked (e : Estimator) (now : Timeval) : Estimator :=
  { e with ackTime := now, elapsedSeconds := |e.sendTime.seconds - now.seconds| }

/-- The loop of `recv_ack`. -/
def ConnectedSock.drop (c : ConnectedSock) (ack : TrollAckStruct) : ConnectedSock :=
  { c with packages := c.packages.eraseP (·.hasKey ack.session ack.seqNum) }

/-- `recv_ack` on the entry `c` of `socketFD`, with the structure as `recvfrom` has left it. -/
def recvAck (t : Tcpd) (socketFD : Int32) (c : ConnectedSock) (ack : TrollAckStruct)
    (now : Timeval) : Tcpd × List Out :=
  let t := { t with estimator := t.estimator.acked now }
  if ack.checksum ≠ ack.checkSum then (t, [])
  else
    let t :=
      if c.packages.any (·.hasKey ack.session ack.seqNum) then
        { t with connectedSockets := t.connectedSockets.insert socketFD (c.drop ack),
                 inBufferPackages := t.inBufferPackages - 1 }
      else t
    (t, [.timer (cancelTimerRequest ack.session ack.seqNum)])

/-- A garbled ack is dropped, once the clock has been read. -/
lemma recvAck_of_not_valid {ack : TrollAckStruct} (h : ¬ ack.Valid) (t : Tcpd) (socketFD : Int32)
    (c : ConnectedSock) (now : Timeval) :
    recvAck t socketFD c ack now = ({ t with estimator := t.estimator.acked now }, []) := if_pos h

/-- The timer of an acknowledged package is cancelled. -/
lemma recvAck_of_valid {ack : TrollAckStruct} (h : ack.Valid) (t : Tcpd) (socketFD : Int32)
    (c : ConnectedSock) (now : Timeval) :
    (recvAck t socketFD c ack now).2 = [.timer (cancelTimerRequest ack.session ack.seqNum)] := by
  have hsum : ack.checksum = ack.checkSum := h
  simp only [recvAck, hsum, ne_eq, not_true_eq_false, if_false]

/-- The loop of `recv_timer`: the package that has timed out goes behind the pending ones. -/
def ConnectedSock.expire (c : ConnectedSock) (session seqNum : UInt32) : ConnectedSock :=
  match c.packages.find? (·.hasKey session seqNum) with
  | none => c
  | some m =>
    { c with packages := c.packages.eraseP (·.hasKey session seqNum),
             pendingPackages := c.pendingPackages ++ [m] }

/-- `recv_timer`: the first entry with the session of the expiry is served. -/
def recvTimer (t : Tcpd) (e : TimerExpiredStruct) : Except Halt (Tcpd × List Out) :=
  match t.connectedSockets.rows.find? fun row => row.2.session = e.session.toUInt32 with
  | none => .error (.exit 5)
  | some (socketFD, c) =>
    .ok ({ t with connectedSockets := t.connectedSockets.insert socketFD
                    (c.expire e.session.toUInt32 e.seqNum.toUInt32) }, [])

/-! ## `handle_send_all_back` -/

/-- `abs` on a `double`: the argument is truncated to an `int` first. -/
def cAbs (x : ℚ) : ℤ := ⌊|x|⌋

/-- The estimator after a package has been sent at `now`; `EstimatedRTO` is computed from the
values the package before has left. -/
def Estimator.sent (e : Estimator) (now : Timeval) : Estimator :=
  let elapsedSeconds := if e.elapsedSeconds ≤ 0 then 1 / 100 else e.elapsedSeconds
  let estimatedRTT := 7 / 8 * e.estimatedRTTprev + (1 - 7 / 8) * elapsedSeconds
  let estimatedDEV :=
    (1 - 1 / 4) * e.estimatedDEVprev + 1 / 4 * cAbs (elapsedSeconds - e.estimatedRTTprev)
  { e with
    sendTime := now
    elapsedSeconds, estimatedRTT, estimatedDEV
    estimatedRTO := e.estimatedRTTprev + 4 * e.estimatedDEVprev
    estimatedDEVprev := estimatedDEV
    estimatedRTTprev := estimatedRTT }

namespace ConnectedSock

/-- `MinSeq` as the first loop over the window computes it. -/
def minSeqOf (packages : List TrollMessageStruct) : UInt32 :=
  packages.foldl (fun minSeq m => if m.seqNum < minSeq then m.seqNum else minSeq) 100000000

/-- The test that lets a pending package into the window. -/
def admits (minSeq : UInt32) (m : TrollMessageStruct) : Bool :=
  ¬ minSeq + UInt32.ofNat MAX_BUFFER_PACKAGES ≤ m.seqNum

/-- The second loop, over the pending packages: what is skipped, what is sent, and the
datagrams; the `i`-th package sent in the pass reads the clock `clock i`. -/
def sendPending (clock : ℕ → Timeval) (socketFD : Int32) (minSeq : UInt32) :
    Estimator × ℕ → List TrollMessageStruct →
      (Estimator × ℕ) × List TrollMessageStruct × List TrollMessageStruct × List Out
  | s, [] => (s, [], [], [])
  | s, m :: l =>
    if admits minSeq m then
      let e := s.1.sent (clock s.2)
      let r := sendPending clock socketFD minSeq (e, s.2 + 1) l
      (r.1, r.2.1, m :: r.2.2.1,
        .frame socketFD m :: .timer (sendTimerRequest m.session m.seqNum e.estimatedRTO)
          :: r.2.2.2)
    else
      let r := sendPending clock socketFD minSeq s l
      (r.1, m :: r.2.1, r.2.2)

/-- One iteration of `handle_send_all_back`. -/
def sendAll (clock : ℕ → Timeval) (s : Estimator × ℕ) (c : ConnectedSock) :
    (Estimator × ℕ) × ConnectedSock × List Out :=
  let minSeq := minSeqOf c.packages
  let r := sendPending clock c.socketFD minSeq s c.pendingPackages
  (r.1, { c with minSeq, packages := c.packages ++ r.2.2.1, pendingPackages := r.2.1 }, r.2.2.2)

/-- `sendAll` as the loop over the table calls it. -/
def sendVisit (clock : ℕ → Timeval) (s : Estimator × ℕ) (_socketFD : Int32) (c : ConnectedSock) :
    Except Halt ((Estimator × ℕ) × ConnectedSock × List Out) :=
  .ok (c.sendAll clock s)

end ConnectedSock

/-- `handle_send_all_back`. -/
def handleSendAllBack (t : Tcpd) (clock : ℕ → Timeval) : Except Halt (Tcpd × List Out) :=
  match t.connectedSockets.pass (ConnectedSock.sendVisit clock) (t.estimator, 0) with
  | .error x => .error x
  | .ok (s, connectedSockets, os) => .ok ({ t with connectedSockets, estimator := s.1 }, os)

end NetworkProgramming
