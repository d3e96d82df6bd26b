import NetworkProgramming.Final.TcpdClient
import NetworkProgramming.Final.TcpdServer
import NetworkProgramming.Lib.Machine

/-!
# `tcpd.c`: the daemon as a machine

An event is one call of the main loop: a front request, a frame, an ack, an expiry, or one of
the three passes of `handle_back_imformation`. The main loop makes these calls in rounds; the
machine allows them in any order, as long as `select` watches the socket of the event.
-/

namespace NetworkProgramming

/-- A call of a front process, with its arguments. -/
inductive Request
  | SOCKET
  | BIND (sockfd : Int32) (addr : SockaddrIn)
  | ACCEPT (sockfd : Int32)
  | RECV (sockfd : Int32) (len : UInt64)
  | CONNECT (sockfd : Int32) (addr : SockaddrIn)
  | SEND (sockfd : Int32) (len : UInt64) (buf : Buffer BUF_LEN)
deriving DecidableEq

/-- What the system answers while a request is served: the results of `socket`, `bind` and
`rand`, and the memory `malloc` returns. -/
structure Sys where
  socket : Int32
  bind : Int32
  rand : UInt32
  malloc : TrollMessageStruct
deriving DecidableEq

/-- An event of the main loop. -/
inductive Event
  /-- a request of the front process at `addr` -/
  | front (addr : SockaddrIn) (r : Request) (sys : Sys)
  /-- a frame on a bound socket, from the troll at `remote` -/
  | data (socketFD : Int32) (m : TrollMessageStruct) (remote : SockaddrIn)
  /-- an ack on a connected socket, with the time it is read -/
  | ack (socketFD : Int32) (a : TrollAckStruct) (now : Timeval)
  /-- an expiry from the timer process -/
  | timer (e : TimerExpiredStruct)
  /-- `handle_ack_back` -/
  | ackBack
  /-- `handle_recv_back` -/
  | recvBack
  /-- `handle_send_all_back`, with the clock its packages read -/
  | sendBack (clock : ℕ → Timeval)
  /-- the iterators of the two hash tables change their order -/
  | rehash (acked : List UInt32) (connected : List Int32)

/-- What the system answers in the runs below. -/
def calmSys : Sys := ⟨3, 0, 7, .ofBytes 0 0 []⟩

namespace Tcpd

/-- `process_tcpd_message`, once the datagrams of a request are read. -/
def serve (t : Tcpd) (frontAddr : SockaddrIn) (r : Request) (sys : Sys) :
    Except Halt (Tcpd × List Out) :=
  match r with
  | .SOCKET => tcpdSocket t frontAddr sys.socket
  | .BIND sockfd _ => tcpdBind t frontAddr sockfd sys.bind
  | .ACCEPT sockfd => .ok (tcpdAccept t frontAddr sockfd)
  | .RECV sockfd len => .ok (tcpdRecv t frontAddr sockfd len)
  | .CONNECT sockfd addr => .ok (tcpdConnect t frontAddr sockfd addr sys.rand)
  | .SEND sockfd len buf => tcpdSend t frontAddr sockfd len buf sys.malloc

/-- One event. The guards are those of `re_register_fd`. -/
def step (t : Tcpd) : Event → Except Halt (Tcpd × List Out)
  | .front addr r sys =>
    if t.inBufferPackages < MAX_BUFFER_PACKAGES then t.serve addr r sys else .error .notReady
  | .data socketFD m remote =>
    if t.bindedSockets.any (·.socketFD = socketFD) then .ok (recvData t socketFD m remote)
    else .error .notReady
  | .ack socketFD a now =>
    match t.connectedSockets.lookup socketFD with
    | none => .error .notReady
    | some c => .ok (recvAck t socketFD c a now)
  | .timer e => recvTimer t e
  | .ackBack => .ok (handleAckBack t)
  | .recvBack => handleRecvBack t
  | .sendBack clock => handleSendAllBack t clock
  | .rehash acked connected =>
    .ok ({ t with ackedSockets := t.ackedSockets.reorder acked,
                  connectedSockets := t.connectedSockets.reorder connected }, [])

/-- The daemon. -/
def machine : Machine Tcpd Event Out Halt := ⟨step⟩

/-- A run of the daemon from its start. -/
def Run (es : List Event) (t : Tcpd) (os : List Out) : Prop :=
  machine.exec globalInit es = .ok (t, os)

/-- A run goes on with one more event. -/
lemma Run.snoc {es : List Event} {e : Event} {t t' : Tcpd} {os os' : List Out} (h : Run es t os)
    (hstep : t.step e = .ok (t', os')) : Run (es ++ [e]) t' (os ++ os') :=
  machine.exec_snoc.mpr ⟨t, os, os', h, hstep, rfl⟩

end Tcpd

/-! ## What one event does -/

/-- The events that do not stop the daemon, with the state and the datagrams each leads to. -/
inductive TcpdStep (t : Tcpd) : Event → Tcpd → List Out → Prop
  | socket {addr : SockaddrIn} {sys : Sys} :
      TcpdStep t (.front addr .SOCKET sys) t [.code addr sys.socket]
  | bind {addr a : SockaddrIn} {fd : Int32} {sys : Sys} :
      TcpdStep t (.front addr (.BIND fd a) sys)
        { t with bindedSockets := t.bindedSockets ++ [⟨fd, false, default⟩] } [.code addr sys.bind]
  | accept {addr : SockaddrIn} {fd : Int32} {sys : Sys} :
      TcpdStep t (.front addr (.ACCEPT fd) sys) (tcpdAccept t addr fd).1 (tcpdAccept t addr fd).2
  /-- a `RECV` of nothing, on a session that is not accepted, or on one that is busy -/
  | recvRefused {addr : SockaddrIn} {fd : Int32} {len : UInt64} {sys : Sys} {ret : Int32}
      (hskip : t.ackedSockets.lookup fd.toUInt32 = none ∨ len = 0 ∨
        ∃ a, t.ackedSockets.lookup fd.toUInt32 = some a ∧ a.receivingLength ≠ 0) :
      TcpdStep t (.front addr (.RECV fd len) sys) t [.code addr ret]
  | recv {addr : SockaddrIn} {fd : Int32} {len : UInt64} {sys : Sys} {a : AckedSock}
      (hlen : len ≠ 0) (ha : t.ackedSockets.lookup fd.toUInt32 = some a)
      (hidle : a.receivingLength = 0) :
      TcpdStep t (.front addr (.RECV fd len) sys)
        { t with
          ackedSockets := t.ackedSockets.insert fd.toUInt32
            { a with receivingLength := len, receivingAddr := addr } } []
  | connect {addr a : SockaddrIn} {fd : Int32} {sys : Sys} :
      TcpdStep t (.front addr (.CONNECT fd a) sys)
        { t with connectedSockets := t.connectedSockets.insert fd (.create fd sys.rand a) }
        [.code addr 0]
  | send {addr : SockaddrIn} {fd : Int32} {len : UInt64} {buf : Buffer BUF_LEN} {sys : Sys}
      {c : ConnectedSock} (hroom : t.inBufferPackages < MAX_BUFFER_PACKAGES)
      (hlen : len.toNat ≤ BUF_LEN) (hc : t.connectedSockets.lookup fd = some c) :
      TcpdStep t (.front addr (.SEND fd len buf) sys)
        { t with connectedSockets :=
                   t.connectedSockets.insert fd (c.enqueue (c.makePackage buf len sys.malloc)),
                 inBufferPackages := t.inBufferPackages + 1 }
        [.code addr len.toUInt32.toInt32]
  /-- a garbled frame -/
  | frameGarbled {fd : Int32} {m : TrollMessageStruct} {remote : SockaddrIn}
      (hbound : t.bindedSockets.any (·.socketFD = fd)) (hbad : ¬ m.Valid) :
      TcpdStep t (.data fd m remote) t []
  /-- an intact frame of an accepted session -/
  | frameAccepted {fd : Int32} {m : TrollMessageStruct} {remote : SockaddrIn} {a : AckedSock}
      (hbound : t.bindedSockets.any (·.socketFD = fd)) (hvalid : m.Valid)
      (ha : t.ackedSockets.lookup m.session = some a) :
      TcpdStep t (.data fd m remote)
        { t with ackedSockets := t.ackedSockets.insert m.session (a.place m) }
        [.ack fd (makeAck m remote)]
  /-- an intact frame of another session -/
  | frameWaiting {fd : Int32} {m : TrollMessageStruct} {remote : SockaddrIn}
      (hbound : t.bindedSockets.any (·.socketFD = fd)) (hvalid : m.Valid)
      (hnone : t.ackedSockets.lookup m.session = none) :
      TcpdStep t (.data fd m remote)
        { t with waitingAckSockets := placeWaiting fd m t.waitingAckSockets }
        [.ack fd (makeAck m remote)]
  /-- a garbled ack -/
  | ackGarbled {fd : Int32} {a : TrollAckStruct} {now : Timeval} {c : ConnectedSock}
      (hc : t.connectedSockets.lookup fd = some c) (hbad : ¬ a.Valid) :
      TcpdStep t (.ack fd a now) { t with estimator := t.estimator.acked now } []
  /-- an intact ack of a package in the window -/
  | ack {fd : Int32} {a : TrollAckStruct} {now : Timeval} {c : ConnectedSock} (hvalid : a.Valid)
      (hc : t.connectedSockets.lookup fd = some c)
      (hfound : c.packages.any (·.hasKey a.session a.seqNum)) :
      TcpdStep t (.ack fd a now)
        { t with estimator := t.estimator.acked now,
                 connectedSockets := t.connectedSockets.insert fd (c.drop a),
                 inBufferPackages := t.inBufferPackages - 1 }
        [.timer (cancelTimerRequest a.session a.seqNum)]
  /-- an intact ack of another package -/
  | ackOther {fd : Int32} {a : TrollAckStruct} {now : Timeval} {c : ConnectedSock}
      (hvalid : a.Valid) (hc : t.connectedSockets.lookup fd = some c)
      (hfound : c.packages.any (·.hasKey a.session a.seqNum) = false) :
      TcpdStep t (.ack fd a now) { t with estimator := t.estimator.acked now }
        [.timer (cancelTimerRequest a.session a.seqNum)]
  | timer {e : TimerExpiredStruct} {fd : Int32} {c : ConnectedSock}
      (hc : t.connectedSockets.lookup fd = some c) (hs : c.session = e.session.toUInt32) :
      TcpdStep t (.timer e)
        { t with
          connectedSockets := t.connectedSockets.insert fd
            (c.expire e.session.toUInt32 e.seqNum.toUInt32) } []
  | ackBack : TcpdStep t .ackBack (handleAckBack t).1 (handleAckBack t).2
  | recvBack {table : HashTable UInt32 AckedSock} {os : List Out}
      (hpass : t.ackedSockets.pass AckedSock.recvVisit () = .ok ((), table, os)) :
      TcpdStep t .recvBack { t with ackedSockets := table } os
  | sendBack {clock : ℕ → Timeval} {s : Estimator × ℕ} {table : HashTable Int32 ConnectedSock}
      {os : List Out}
      (hpass : t.connectedSockets.pass (ConnectedSock.sendVisit clock) (t.estimator, 0)
        = .ok (s, table, os)) :
      TcpdStep t (.sendBack clock) { t with connectedSockets := table, estimator := s.1 } os
  | rehash {acked : List UInt32} {connected : List Int32} :
      TcpdStep t (.rehash acked connected)
        { t with ackedSockets := t.ackedSockets.reorder acked,
                 connectedSockets := t.connectedSockets.reorder connected } []

/-- A request of a front process. -/
lemma tcpdStep_serve {t t' : Tcpd} {addr : SockaddrIn} {r : Request} {sys : Sys} {os : List Out}
    (hroom : t.inBufferPackages < MAX_BUFFER_PACKAGES) (h : t.serve addr r sys = .ok (t', os)) :
    TcpdStep t (.front addr r sys) t' os := by
  cases r with
  | SOCKET =>
    simp only [Tcpd.serve, tcpdSocket] at h
    split at h <;> cases h
    exact .socket
  | BIND fd a =>
    simp only [Tcpd.serve, tcpdBind] at h
    split at h <;> cases h
    exact .bind
  | ACCEPT fd =>
    cases h
    exact .accept
  | RECV fd len =>
    simp only [Tcpd.serve, tcpdRecv] at h
    split at h
    · rename_i hlen
      cases h
      exact .recvRefused (Or.inr (Or.inl hlen))
    · rename_i hlen
      split at h
      · rename_i hnone
        cases h
        exact .recvRefused (Or.inl hnone)
      · rename_i a ha
        split at h
        · rename_i hbusy
          cases h
          exact .recvRefused (Or.inr (Or.inr ⟨a, ha, hbusy⟩))
        · rename_i hidle
          cases h
          exact .recv hlen ha (not_not.mp hidle)
  | CONNECT fd a =>
    cases h
    exact .connect
  | SEND fd len buf =>
    simp only [Tcpd.serve, tcpdSend] at h
    split at h
    · cases h
    · rename_i hlen
      split at h
      · cases h
      · rename_i c hc
        cases h
        exact .send hroom (not_lt.mp hlen) hc

/-- **One event**, taken apart once for all that is said of it. -/
theorem tcpd_step {t t' : Tcpd} {e : Event} {os : List Out} (h : t.step e = .ok (t', os)) :
    TcpdStep t e t' os := by
  cases e with
  | front addr r sys =>
    simp only [Tcpd.step] at h
    split at h
    · exact tcpdStep_serve ‹_› h
    · cases h
  | data fd m remote =>
    simp only [Tcpd.step] at h
    split at h
    · rename_i hbound
      by_cases hvalid : m.Valid
      · rw [recvData_of_valid hvalid] at h
        cases ha : t.ackedSockets.lookup m.session with
        | some a =>
          rw [ha] at h
          cases h
          exact .frameAccepted hbound hvalid ha
        | none =>
          rw [ha] at h
          cases h
          exact .frameWaiting hbound hvalid ha
      · rw [recvData_of_not_valid hvalid] at h
        cases h
        exact .frameGarbled hbound hvalid
    · cases h
  | ack fd a now =>
    simp only [Tcpd.step] at h
    split at h
    · cases h
    · rename_i c hc
      by_cases hvalid : a.Valid
      · have hgood : ¬ a.checksum ≠ a.checkSum := not_not.mpr hvalid
        simp only [recvAck, if_neg hgood] at h
        split at h
        · rename_i hfound
          cases h
          exact .ack hvalid hc hfound
        · rename_i hfound
          cases h
          exact .ackOther hvalid hc (by simpa using hfound)
      · rw [recvAck_of_not_valid hvalid] at h
        cases h
        exact .ackGarbled hc hvalid
  | timer e =>
    simp only [Tcpd.step, recvTimer] at h
    split at h
    · cases h
    · rename_i fd c hfind
      cases h
      exact .timer (HashTable.lookup_eq_some.mpr (List.mem_of_find?_eq_some hfind))
        (by simpa using List.find?_some hfind)
  | ackBack =>
    have heq : handleAckBack t = (t', os) := Except.ok.inj h
    obtain rfl : (handleAckBack t).1 = t' := by rw [heq]
    obtain rfl : (handleAckBack t).2 = os := by rw [heq]
    exact .ackBack
  | recvBack =>
    simp only [Tcpd.step, handleRecvBack] at h
    split at h
    · cases h
    · cases h
      exact .recvBack ‹_›
  | sendBack clock =>
    simp only [Tcpd.step, handleSendAllBack] at h
    split at h
    · cases h
    · cases h
      exact .sendBack ‹_›
  | rehash acked connected =>
    cases h
    exact .rehash

end NetworkProgramming
