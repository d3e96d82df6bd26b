import NetworkProgramming.Final.HandOver
import NetworkProgramming.Final.Receiver
import NetworkProgramming.Final.Samples
import NetworkProgramming.Final.Window
import NetworkProgramming.Lib.Program

/-!
# `main`: the loop around `select`

A turn of the main loop registers the sockets that may be read, waits in `select`, reads what
`select` has marked, in a fixed order, and calls `handle_back_imformation`. `Turn.events` are the
events of the machine `Tcpd.step` that a turn is made of, in their order, and the loop does just
what the machine does on the events of its turns (`mainLoop_refines`), so that whatever holds of all
runs of the machine holds of the daemon. The loop reads only sockets that are registered and
marked, and it never waits in `select` while one of its passes still has something to do
(`mainLoop_settled`).
-/

namespace NetworkProgramming

open Program

/-! ## One turn -/

/-- `sock_fd`, as `re_register_fd` leaves it: whether the socket of the front processes is in it,
and the other sockets. (The socket of the timer process always is.) -/
structure SockFd where
  msg : Bool
  fds : List Int32

/-- What `select` marks, and what is read from the sockets it has marked. -/
structure Ready where
  /-- the request of a front process -/
  front : Option (SockaddrIn × Request × Sys)
  /-- the sockets with a datagram -/
  marked : Int32 → Bool
  /-- what is read for the `i`-th bound socket, and the troll it comes from -/
  frame : ℕ → TrollMessageStruct × SockaddrIn
  /-- what is read for a connected socket, and when -/
  ack : Int32 → TrollAckStruct × Timeval
  /-- an expiry from the timer process -/
  expiry : Option TimerExpiredStruct

/-- Orders of iteration for the two hash tables. -/
structure Orders where
  acked : List UInt32
  connected : List Int32

/-- One turn of the main loop. -/
structure Turn where
  /-- `none` when `select` gives up after its thousand seconds, or fails -/
  select : Option Ready
  /-- the clock the send pass reads -/
  clock : ℕ → Timeval
  /-- the iterators after the request of a front process has been served -/
  served : Orders
  /-- the iterators after `handle_ack_back` -/
  handedOver : Orders

/-- `FD_ISSET` after `select`: a socket that has been registered and is marked. -/
def SockFd.isSet (sockFd : SockFd) (r : Ready) (fd : Int32) : Bool :=
  sockFd.fds.contains fd && r.marked fd

namespace Tcpd

/-- `re_register_fd`. -/
def reRegisterFd (t : Tcpd) : SockFd :=
  { msg := t.inBufferPackages < MAX_BUFFER_PACKAGES
    fds := t.bindedSockets.map (·.socketFD) ++ t.connectedSockets.values.map (·.socketFD) }

/-- A call that does not stop the daemon. -/
def call (f : Tcpd → Tcpd × List Out) : Program Tcpd Out Halt := fun t => .ok (f t)

/-- The tables have grown, and their iterators meet the rows in other orders. -/
def regrown (o : Orders) : Program Tcpd Out Halt := call fun t =>
  ({ t with ackedSockets := t.ackedSockets.reorder o.acked,
            connectedSockets := t.connectedSockets.reorder o.connected }, [])

/-- The test for a front process in `main`, with `process_tcpd_message`. -/
def takeRequest (sockFd : SockFd) (r : Ready) : Program Tcpd Out Halt :=
  match r.front with
  | some (addr, request, sys) =>
    if sockFd.msg then fun t => t.serve addr request sys else skip
  | none => skip

/-- `get_data_from_sockets`. -/
def getDataFromSockets (sockFd : SockFd) (r : Ready) : Program Tcpd Out Halt :=
  .reading fun t => .forEach
    (fun b => if sockFd.isSet r b.1.socketFD
      then call fun t => recvData t b.1.socketFD (r.frame b.2).1 (r.frame b.2).2 else skip)
    t.bindedSockets.zipIdx

/-- The loop over the connected sockets in `main`. -/
def lookForAcks (sockFd : SockFd) (r : Ready) : Program Tcpd Out Halt :=
  .reading fun t => .forEach
    (fun fd => .reading fun t =>
      match t.connectedSockets.lookup fd with
      | none => skip
      | some c => if sockFd.isSet r c.socketFD
          then call fun t => recvAck t fd c (r.ack fd).1 (r.ack fd).2 else skip)
    t.connectedSockets.keys

/-- The test for an expiry in `main`. -/
def lookForTimers (r : Ready) : Program Tcpd Out Halt :=
  match r.expiry with
  | some e => fun t => recvTimer t e
  | none => skip

/-- `handle_back_imformation`. -/
def handleBackImformation (x : Turn) : Program Tcpd Out Halt :=
  (call handleAckBack).andThen <| (regrown x.handedOver).andThen <|
    andThen handleRecvBack fun t => handleSendAllBack t x.clock

/-- What `main` does with the sockets `select` has marked. -/
def readSockets (sockFd : SockFd) (x : Turn) (r : Ready) : Program Tcpd Out Halt :=
  (takeRequest sockFd r).andThen <| (regrown x.served).andThen <|
    (getDataFromSockets sockFd r).andThen <| (lookForAcks sockFd r).andThen (lookForTimers r)

/-- The body of the main loop. -/
def turn (x : Turn) : Program Tcpd Out Halt :=
  .reading fun t =>
    let sockFd := t.reRegisterFd
    andThen (match x.select with
      | some r => readSockets sockFd x r
      | none => skip) (handleBackImformation x)

/-- The daemon, turn by turn. -/
def mainLoop : Machine Tcpd Turn Out Halt := ⟨fun t x => turn x t⟩

end Tcpd

/-! ## The events of a turn -/

/-- A turn that begins in `t` reads the socket: it is bound or connected, and `select` has marked
it. -/
def Tcpd.ReadsFrom (t : Tcpd) (r : Ready) (fd : Int32) : Prop :=
  ((∃ b ∈ t.bindedSockets, b.socketFD = fd) ∨ ∃ c ∈ t.connectedSockets.values, c.socketFD = fd) ∧
    r.marked fd = true

instance (t : Tcpd) (r : Ready) (fd : Int32) : Decidable (t.ReadsFrom r fd) :=
  inferInstanceAs (Decidable (_ ∧ _))

namespace Ready

/-- The request of a front process, while there is room for another package. -/
def frontEvents (r : Ready) (t : Tcpd) : List Event :=
  match r.front with
  | some (addr, request, sys) =>
    if t.inBufferPackages < MAX_BUFFER_PACKAGES then [.front addr request sys] else []
  | none => []

/-- The frames that are read from the sockets bound in `u`, in a turn that has begun in `t`. -/
def frameEvents (r : Ready) (t u : Tcpd) : List Event :=
  u.bindedSockets.zipIdx.flatMap fun b =>
    if t.ReadsFrom r b.1.socketFD then [.data b.1.socketFD (r.frame b.2).1 (r.frame b.2).2] else []

/-- The acks that are read from the sockets connected in `u`. -/
def ackEvents (r : Ready) (t u : Tcpd) : List Event :=
  u.connectedSockets.keys.flatMap fun fd =>
    match u.connectedSockets.lookup fd with
    | some c => if t.ReadsFrom r c.socketFD then [.ack fd (r.ack fd).1 (r.ack fd).2] else []
    | none => []

/-- The expiry. -/
def timerEvents (r : Ready) : List Event :=
  match r.expiry with
  | some e => [.timer e]
  | none => []

end Ready

namespace Turn

/-- What is read from the sockets that are marked. -/
def readEvents (x : Turn) (r : Ready) (t : Tcpd) : List Event :=
  let front := r.frontEvents t ++ [.rehash x.served.acked x.served.connected]
  let u := Tcpd.machine.play t front
  front ++ (r.frameEvents t u ++ (r.ackEvents t u ++ r.timerEvents))

/-- The calls of `handle_back_imformation`. -/
def passEvents (x : Turn) : List Event :=
  [.ackBack, .rehash x.handedOver.acked x.handedOver.connected, .recvBack, .sendBack x.clock]

/-- The events of a turn that begins in `t`. -/
def events (x : Turn) (t : Tcpd) : List Event :=
  (match x.select with
    | some r => x.readEvents r t
    | none => []) ++ x.passEvents

end Turn

/-! ## A turn is made of its events -/

namespace Tcpd

/-- The daemon has stopped, and not because a socket was not ready. -/
def Stopped (x : Halt) : Prop := x ≠ .notReady

variable {x : Turn} {r : Ready} {sockFd : SockFd} {bs : List BindedSock}

lemma stopped_serve {t : Tcpd} {addr : SockaddrIn} {request : Request} {sys : Sys} {h : Halt}
    (hstop : t.serve addr request sys = .error h) : Stopped h := by
  cases request with
  | SOCKET =>
    simp only [serve, tcpdSocket] at hstop
    split at hstop <;> cases hstop
    exact Halt.noConfusion
  | BIND fd a =>
    simp only [serve, tcpdBind] at hstop
    split at hstop <;> cases hstop
    exact Halt.noConfusion
  | ACCEPT fd => cases hstop
  | RECV fd len => cases hstop
  | CONNECT fd a => cases hstop
  | SEND fd len buf =>
    simp only [serve, tcpdSend] at hstop
    split at hstop
    · cases hstop
      exact Halt.noConfusion
    · split at hstop <;> cases hstop
      exact Halt.noConfusion

lemma stopped_recvTimer {t : Tcpd} {e : TimerExpiredStruct} {h : Halt}
    (hstop : recvTimer t e = .error h) : Stopped h := by
  unfold recvTimer at hstop
  split at hstop <;> cases hstop
  exact Halt.noConfusion

lemma stopped_recvBack {a : AckedSock} {h : Halt} (hstop : a.recvBack = .error h) : Stopped h := by
  unfold AckedSock.recvBack at hstop
  split at hstop
  · cases hstop
  split at hstop
  · cases hstop
    exact Halt.noConfusion
  split at hstop
  · rename_i y hrun
    cases hstop
    -- the loop has failed in one of its copies
    obtain ⟨b, -, hfail⟩ := AckedSock.fillLoop.visits_of_run_error hrun
    simp only [AckedSock.fillLoop, AckedSock.fillBody] at hfail
    split at hfail
    · split at hfail
      · cases hfail
      · split at hfail
        · cases hfail
        · split at hfail <;> cases hfail
          exact Halt.noConfusion
    · cases hfail
  · split at hstop <;> cases hstop

lemma stopped_handleRecvBack {t : Tcpd} {h : Halt} (hstop : handleRecvBack t = .error h) :
    Stopped h := by
  unfold handleRecvBack at hstop
  split at hstop
  · rename_i y hpass
    cases hstop
    obtain ⟨_, s, a, -, hvisit⟩ := HashTable.pass_error hpass
    simp only [AckedSock.recvVisit] at hvisit
    cases hback : a.recvBack with
    | error y =>
      rw [hback] at hvisit
      cases hvisit
      exact stopped_recvBack hback
    | ok r =>
      rw [hback] at hvisit
      cases hvisit
  · cases hstop

/-- A call that is an event of the machine. -/
lemma performs_call {f : Tcpd → Tcpd × List Out} {e : Event} {P Q : Tcpd → Prop}
    (hcall : ∀ t, P t → t.step e = .ok (f t)) (hends : ∀ t, P t → Q (f t).1) :
    machine.Performs P (fun _ => [e]) (call f) Q Stopped := by
  refine Machine.performs_step (fun t ht => (hcall t ht).symm) (fun t t' os ht hstep => ?_)
    fun t y ht hstep => ?_
  · have hf : f t = (t', os) := Except.ok.inj ((hcall t ht).symm.trans hstep)
    have hend := hends t ht
    rwa [hf] at hend
  · have hnot := (hcall t ht).symm.trans hstep
    cases hnot

lemma performs_regrown (o : Orders) (P : Tcpd → Prop) :
    machine.Performs P (fun _ => [.rehash o.acked o.connected]) (regrown o) (fun _ => True)
      Stopped :=
  performs_call (fun _ _ => rfl) fun _ _ => trivial

lemma performs_takeRequest (r : Ready) (t : Tcpd) :
    machine.Performs (· = t) r.frontEvents (takeRequest t.reRegisterFd r) (fun _ => True)
      Stopped := by
  unfold takeRequest
  split
  · rename_i addr request sys hfront
    split
    · rename_i hmsg
      have hroom : t.inBufferPackages < MAX_BUFFER_PACKAGES := of_decide_eq_true hmsg
      refine (Machine.performs_step (e := .front addr request sys) ?_ (fun _ _ _ _ _ => trivial)
        ?_).congr ?_
      · rintro u rfl
        rw [show machine.step u _ = u.step _ from rfl, step, if_pos hroom]
      · rintro u y rfl hstep
        rw [show machine.step u _ = u.step _ from rfl, step, if_pos hroom] at hstep
        exact stopped_serve hstep
      · rintro u rfl
        rw [Ready.frontEvents, hfront]
        exact (if_pos hroom).symm
    · rename_i hmsg
      refine (Machine.performs_skip.weaken (fun _ => id) fun _ _ => trivial).congr ?_
      rintro u rfl
      rw [Ready.frontEvents, hfront]
      exact (if_neg fun hroom => hmsg (decide_eq_true hroom)).symm
  · rename_i hfront
    refine (Machine.performs_skip.weaken (fun _ => id) fun _ _ => trivial).congr ?_
    rintro u rfl
    rw [Ready.frontEvents, hfront]

/-- A socket is read when it is registered and marked. -/
lemma isSet_iff (t : Tcpd) (r : Ready) (fd : Int32) :
    t.reRegisterFd.isSet r fd = true ↔ t.ReadsFrom r fd := by
  rw [SockFd.isSet, Bool.and_eq_true, List.contains_iff_mem, Tcpd.ReadsFrom]
  refine and_congr_left fun _ => ?_
  simp only [reRegisterFd, List.mem_append, List.mem_map]

lemma recvData_same (t : Tcpd) (fd : Int32) (m : TrollMessageStruct) (remote : SockaddrIn) :
    (recvData t fd m remote).1.bindedSockets = t.bindedSockets ∧
      (recvData t fd m remote).1.connectedSockets = t.connectedSockets := by
  unfold recvData
  split
  · exact ⟨rfl, rfl⟩
  · dsimp only
    split <;> exact ⟨rfl, rfl⟩

/-- The frames, in a turn that has begun in `t` and has come to `u`. -/
lemma performs_getDataFromSockets (r : Ready) (t u : Tcpd) :
    machine.Performs (· = u) (fun _ => r.frameEvents t u) (getDataFromSockets t.reRegisterFd r)
      (fun v => v.connectedSockets = u.connectedSockets) Stopped := by
  refine .reading fun v hv => ?_
  subst hv
  -- no frame changes the list of bound sockets
  refine (Machine.Performs.forEach (P := fun w => w.bindedSockets = v.bindedSockets ∧
      w.connectedSockets = v.connectedSockets) fun b hb => ?_).weaken
    (fun w hw => hw ▸ ⟨rfl, rfl⟩) fun _ hw => hw.2
  by_cases hset : t.ReadsFrom r b.1.socketFD
  · rw [if_pos ((isSet_iff t r _).mpr hset), if_pos hset]
    refine performs_call (fun w hw => ?_) fun w hw => ?_
    · have hbound : w.bindedSockets.any (·.socketFD = b.1.socketFD) = true := by
        rw [hw.1]
        exact List.any_eq_true.mpr ⟨b.1, (List.mem_zipIdx' hb).2 ▸ List.getElem_mem _, by simp⟩
      rw [step, if_pos hbound]
    · exact (recvData_same w _ _ _).imp (·.trans hw.1) (·.trans hw.2)
  · rw [if_neg (mt (isSet_iff t r _).mp hset), if_neg hset]
    exact Machine.performs_skip

/-- An ack leaves every connection on its socket. -/
lemma socketFD_recvAck {t : Tcpd} {fd : Int32} {c : ConnectedSock}
    (hc : t.connectedSockets.lookup fd = some c) (a : TrollAckStruct) (now : Timeval) (g : Int32) :
    ((recvAck t fd c a now).1.connectedSockets.lookup g).map (·.socketFD)
      = (t.connectedSockets.lookup g).map (·.socketFD) := by
  obtain ⟨t', os, hrecv⟩ : ∃ t' os, recvAck t fd c a now = (t', os) := ⟨_, _, rfl⟩
  have hstep : t.step (.ack fd a now) = .ok (t', os) := by simp only [step, hc, hrecv]
  rw [hrecv]
  show (t'.conn g).map _ = (t.conn g).map _
  have hconn := conn_step hstep g
  generalize t.conn g = x at hconn
  generalize t'.conn g = x' at hconn
  cases hconn with
  | ack _ => rfl
  | other _ _ _ _ => rfl

lemma performs_lookForAcks (r : Ready) (t u : Tcpd) :
    machine.Performs (fun v => v.connectedSockets = u.connectedSockets)
      (fun _ => r.ackEvents t u) (lookForAcks t.reRegisterFd r) (fun _ => True) Stopped := by
  refine .reading fun v hv => ?_
  rw [hv]
  -- no ack changes which connection is on which socket
  refine (Machine.Performs.forEach (P := fun w => ∀ g,
      (w.connectedSockets.lookup g).map (·.socketFD)
        = (u.connectedSockets.lookup g).map (·.socketFD)) fun fd _ => ?_).weaken
    (fun w hw g => by rw [hw, hv]) fun _ _ => trivial
  refine .reading fun w hw => ?_
  have hsame := hw fd
  cases hc : w.connectedSockets.lookup fd with
  | none =>
    rw [hc] at hsame
    rw [Option.map_eq_none_iff.mp hsame.symm]
    exact Machine.performs_skip.weaken (fun _ h => h ▸ hw) fun _ => id
  | some c =>
    rw [hc] at hsame
    obtain ⟨d, hd, hfd⟩ := Option.map_eq_some_iff.mp hsame.symm
    simp only [hd, hfd]
    by_cases hset : t.ReadsFrom r c.socketFD
    · rw [if_pos ((isSet_iff t r _).mpr hset), if_pos hset]
      refine performs_call ?_ ?_
      · rintro w' rfl
        rw [step, hc]
      · rintro w' rfl g
        rw [socketFD_recvAck hc, hw]
    · rw [if_neg (mt (isSet_iff t r _).mp hset), if_neg hset]
      exact Machine.performs_skip.weaken (fun _ h => h ▸ hw) fun _ => id

lemma performs_lookForTimers (r : Ready) :
    machine.Performs (fun _ => True) (fun _ => r.timerEvents) (lookForTimers r) (fun _ => True)
      Stopped := by
  unfold lookForTimers Ready.timerEvents
  split
  · exact Machine.performs_step (fun _ _ => rfl) (fun _ _ _ _ _ => trivial)
      fun _ _ _ hstop => stopped_recvTimer hstop
  · exact Machine.performs_skip

lemma performs_readSockets (x : Turn) (r : Ready) (t : Tcpd) :
    machine.Performs (· = t) (x.readEvents r) (readSockets t.reRegisterFd x r) (fun _ => True)
      Stopped := by
  have hrest : machine.Performs (fun _ => True)
      (fun u => r.frameEvents t u ++ (r.ackEvents t u ++ r.timerEvents))
      ((getDataFromSockets t.reRegisterFd r).andThen
        ((lookForAcks t.reRegisterFd r).andThen (lookForTimers r))) (fun _ => True) Stopped := by
    refine .reading fun u _ => ((performs_getDataFromSockets r t u).andThen
      ((performs_lookForAcks r t u).andThen (performs_lookForTimers r))).congr ?_
    rintro v rfl
    rfl
  rw [readSockets, ← andThen_assoc]
  refine (((performs_takeRequest r t).andThen (performs_regrown x.served _)).andThen
    hrest).congr ?_
  rintro u rfl
  rfl

lemma performs_handleBackImformation (x : Turn) :
    machine.Performs (fun _ => True) (fun _ => x.passEvents) (handleBackImformation x)
      (fun _ => True) Stopped := by
  have hackBack : machine.Performs (fun _ => True) (fun _ => [.ackBack]) (call handleAckBack)
      (fun _ => True) Stopped := performs_call (fun _ _ => rfl) fun _ _ => trivial
  have hrecvBack : machine.Performs (fun _ => True) (fun _ => [.recvBack]) handleRecvBack
      (fun _ => True) Stopped :=
    Machine.performs_step (fun _ _ => rfl) (fun _ _ _ _ _ => trivial)
      fun _ _ _ hstop => stopped_handleRecvBack hstop
  have hsendBack : machine.Performs (fun _ => True) (fun _ => [.sendBack x.clock])
      (fun t => handleSendAllBack t x.clock) (fun _ => True) Stopped := by
    refine Machine.performs_step (fun _ _ => rfl) (fun _ _ _ _ _ => trivial) fun t y _ hstop => ?_
    obtain ⟨t', os, hstep, -⟩ := exists_step_sendBack t x.clock
    rw [show machine.step t _ = t.step _ from rfl, hstep] at hstop
    cases hstop
  exact hackBack.andThen ((performs_regrown x.handedOver _).andThen (hrecvBack.andThen hsendBack))

/-- One turn is made of its events. -/
theorem performs_turn (x : Turn) :
    machine.Performs (fun _ => True) x.events (turn x) (fun _ => True) Stopped := by
  refine .reading fun t _ => ?_
  refine (Machine.Performs.andThen (R := fun _ => True) (f := fun t =>
    match x.select with
    | some r => x.readEvents r t
    | none => []) ?_ (performs_handleBackImformation x)).congr fun _ _ => rfl
  split
  · exact performs_readSockets x _ t
  · exact Machine.performs_skip.weaken (fun _ => id) fun _ _ => trivial

/-- **The main loop does what the machine does.** Every run of the loop is the run of the machine
on the events of its turns, one behind the other and in their order, with the same datagrams; it
goes on or stops where the machine does, and it never stops because a socket was not ready. -/
theorem mainLoop_refines (xs : List Turn) :
    mainLoop.exec globalInit xs
        = machine.exec globalInit (machine.eventsOf Turn.events globalInit xs) ∧
      mainLoop.exec globalInit xs ≠ .error .notReady := by
  have hruns := Machine.Performs.exec (N := mainLoop) performs_turn xs
  exact ⟨hruns.same globalInit trivial, fun hstop => hruns.stops _ _ trivial hstop rfl⟩

/-- A turn in which only the front process at the default address has something for the daemon. -/
def requestTurn (request : Request) : Turn :=
  { select := some ⟨some (default, request, calmSys), fun _ => false,
      fun _ => (.ofBytes 0 0 [], default), fun _ => default, none⟩
    clock := fun _ => default
    served := ⟨[], []⟩
    handedOver := ⟨[], []⟩ }

/-- A connection is made, and a package is sent. -/
def sendTurns : List Turn :=
  [requestTurn (.CONNECT 4 default), requestTurn (.SEND 4 0 (.zero BUF_LEN))]

/-- A turn in which a frame is read from socket 3 and an ack from socket 4. Socket 9 is marked as
well, and nobody has bound or connected it. -/
def readTurn : Turn :=
  { select := some ⟨none, fun fd => fd = 3 ∨ fd = 4 ∨ fd = 9, fun _ => (packageFour 5, default),
      fun _ => (.sealed ⟨default, 0, 7, 0⟩, default), none⟩
    clock := fun _ => default
    served := ⟨[], []⟩
    handedOver := ⟨[], []⟩ }

/-- The package is sent, a socket is bound, and both sockets are read. -/
def readTurns : List Turn := sendTurns ++ [requestTurn (.BIND 3 default), readTurn]

/-- The events of the first three turns. -/
def requestEvents : List Event :=
  [connectFour, sendFour, .front default (.BIND 3 default) calmSys].flatMap fun e =>
    [e, .rehash [] [], .ackBack, .rehash [] [], .recvBack, passNow]

/-- In the last turn the frame is queued in a session of its own, and the ack empties the window. -/
theorem mainLoop_refines_readTurns : ∃ t os, mainLoop.exec globalInit readTurns = .ok (t, os) ∧
    machine.eventsOf Turn.events globalInit readTurns = requestEvents
      ++ [.rehash [] [], .data 3 (packageFour 5) default, ackSeven 0, .ackBack, .rehash [] [],
        .recvBack, passNow] ∧
    t.inBufferPackages = 0 ∧ (t.sess 7).map (fun a => a.packages.map (·.seqNum)) = some [5] := by
  have hevents : machine.eventsOf Turn.events globalInit readTurns
      = (requestEvents ++ [.rehash [] []]) ++ .data 3 (packageFour 5) default ::
        [ackSeven 0, .ackBack, .rehash [] [], .recvBack, passNow] := rfl
  obtain ⟨os, hbefore⟩ : ∃ os, machine.exec globalInit (requestEvents ++ [.rehash [] []])
      = .ok (machine.play globalInit (requestEvents ++ [.rehash [] []]), os) :=
    machine.exec_play _ _ (by decide +kernel)
  have hbound : (machine.play globalInit (requestEvents ++ [.rehash [] []])).bindedSockets.any
      (·.socketFD = 3) := rfl
  have hdata := exec_data hbefore hbound (valid_packageFour 5) default
  obtain ⟨os', hafter⟩ := machine.exec_append_play hdata
    [ackSeven 0, .ackBack, .rehash [] [], .recvBack, passNow] (by decide +kernel)
  rw [← List.append_cons, ← hevents] at hafter
  exact ⟨_, os', (mainLoop_refines readTurns).1.trans hafter, hevents, by decide +kernel,
    by decide +kernel⟩

end Tcpd

/-! ## What a turn leaves to do -/

/-- A pass leaves no session behind that waits on a socket in `ACCEPT`. -/
lemma find?_handOver (acked : HashTable UInt32 AckedSock) (waiting : List AckedSock)
    (bs : List BindedSock) :
    (∀ a ∈ (handOver acked waiting bs).2.2.1, a ∈ waiting) ∧
      ∀ b ∈ (handOver acked waiting bs).1, b.accepting →
        ∀ a ∈ (handOver acked waiting bs).2.2.1, a.socketFD ≠ b.socketFD := by
  induction bs generalizing acked waiting with
  | nil => simp [handOver]
  | cons b bs ih =>
    rw [handOver]
    split
    · rename_i hsearch
      obtain ⟨hsub, hnone⟩ := ih acked waiting
      refine ⟨hsub, fun b' hb' hacc a ha => ?_⟩
      rcases List.mem_cons.mp hb' with rfl | hb'
      · -- nothing has waited on this socket when the pass came to it
        rw [if_pos hacc, List.find?_eq_none] at hsearch
        simpa using hsearch a (hsub a ha)
      · exact hnone b' hb' hacc a ha
    · rename_i a' hsearch
      obtain ⟨hsub, hnone⟩ := ih (acked.insert a'.session a')
        (waiting.eraseP (·.socketFD = b.socketFD))
      refine ⟨fun a ha => List.mem_of_mem_eraseP (hsub a ha), fun b' hb' hacc a ha => ?_⟩
      rcases List.mem_cons.mp hb' with rfl | hb'
      · cases hacc
      · exact hnone b' hb' hacc a ha

/-- A pass has nothing to do while no session waits on a socket in `ACCEPT`. -/
lemma handOver_still (acked : HashTable UInt32 AckedSock) {waiting : List AckedSock}
    {bs : List BindedSock}
    (h : ∀ b ∈ bs, b.accepting → ∀ a ∈ waiting, a.socketFD ≠ b.socketFD) :
    handOver acked waiting bs = (bs, acked, waiting, []) := by
  induction bs with
  | nil => rfl
  | cons b bs ih =>
    have hsearch : (if b.accepting then waiting.find? (·.socketFD = b.socketFD) else none)
        = none := by
      split
      · rename_i hacc
        exact List.find?_eq_none.mpr fun a ha => by
          simpa using h b List.mem_cons_self hacc a ha
      · rfl
    rw [handOver, hsearch, ih fun b' hb' => h b' (List.mem_cons_of_mem b hb')]

namespace AckedSock

/-- The loop keeps the length that is asked for. -/
lemma receivingLength_of_run {a b : AckedSock} (h : fillLoop.run a = .ok b) :
    b.receivingLength = a.receivingLength ∧ b.fillBody = .leave := by
  refine fillLoop.run_induction (I := fun b => b.receivingLength = a.receivingLength)
    (fun u v hu hround => ?_) rfl h
  obtain ⟨hroom, now, l, -, -, ⟨-, hround⟩ | ⟨hfit, hround⟩⟩ := fillBody_again hround
  · obtain ⟨-, -, -, hv⟩ := consume_eq hround
    rw [hv]
    exact hu
  · obtain ⟨-, -, now', -, -, -, hv⟩ := split_eq hroom hfit hround
    rw [hv]
    exact hu

/-- Another pass over what a pass leaves does nothing. -/
lemma recvBack_still {a a' : AckedSock} {os : List Out} (h : a.recvBack = .ok (a', os)) :
    a'.recvBack = .ok (a', []) ∧ (a'.receivingLength = 0 ∨ a'.fillBody = .leave) := by
  by_cases hzero : a'.receivingLength = 0
  · exact ⟨by rw [recvBack, if_pos hzero], Or.inl hzero⟩
  unfold recvBack at h
  split at h
  · rename_i hnone
    cases h
    exact absurd hnone hzero
  split at h
  · cases h
  rename_i hsmall
  split at h
  · cases h
  rename_i b hrun
  obtain ⟨hlength, hleave⟩ := receivingLength_of_run hrun
  split at h
  · cases h
    exact absurd rfl hzero
  · rename_i hfull
    cases h
    refine ⟨?_, Or.inr hleave⟩
    rw [recvBack, if_neg hzero, if_neg (hlength ▸ hsmall), fillLoop.run_of_leave hleave]
    exact if_neg hfull

/-- A pending request whose pass leaves at once waits for a package that has not come. -/
lemma not_received_of_leave {P : TrollMessageStruct → Prop} {a : AckedSock} (hq : a.QueueOk P)
    (hopen : a.Open) (hpending : a.receivingLength ≠ 0) (hleave : a.fillBody = .leave) :
    ¬ a.Received a.base := by
  have hroom : a.recvBufferSize < a.receivingLength :=
    hopen.resolve_right fun hidle => hpending hidle.1
  have hhead := (fillBody_leave hleave).resolve_left (UInt64.not_le.mpr hroom)
  rintro (hlt | ⟨m, hm, hbase⟩)
  · exact absurd hlt (UInt32.lt_irrefl _)
  · -- the head of the queue has the smallest number, and that is not below `Base`
    cases hl : a.packages with
    | nil => simp [hl] at hm
    | cons now l =>
      have hne := hhead now (by simp [hl])
      have hsorted := hq.sorted
      rw [hl] at hm hsorted
      rcases List.mem_cons.mp hm with rfl | hm
      · exact hne hbase
      · have hlt := (List.pairwise_cons.mp hsorted).1 m hm
        have hle := hq.ahead now (by simp [hl])
        rw [hbase] at hlt
        exact absurd (UInt32.lt_of_le_of_lt hle hlt) (UInt32.lt_irrefl _)

end AckedSock

namespace Tcpd

/-- Nothing is left to do: no session waits on a socket in `ACCEPT`, no session with a pending
request has received the package that comes next, and every pending package is too far ahead of
one in the window, or has a number that no window admits. -/
structure Settled (t : Tcpd) : Prop where
  accepts : ∀ b ∈ t.bindedSockets, b.accepting →
    ∀ a ∈ t.waitingAckSockets, a.socketFD ≠ b.socketFD
  receives : ∀ s a, t.ackedSockets.lookup s = some a → a.receivingLength ≠ 0 →
    ¬ a.Received a.base
  sends : ∀ fd c, t.conn fd = some c → ∀ m ∈ c.pendingPackages, seqLimit ≤ m.seqNum.toNat ∨
    ∃ p ∈ c.packages, p.seqNum.toNat + MAX_BUFFER_PACKAGES ≤ m.seqNum.toNat

/-- What `handle_back_imformation` is made of, and what it leaves. -/
structure BackDone (x : Turn) (t₀ t : Tcpd) : Prop where
  bound : t.bindedSockets
    = (handOver t₀.ackedSockets t₀.waitingAckSockets t₀.bindedSockets).1
  waiting : t.waitingAckSockets
    = (handOver t₀.ackedSockets t₀.waitingAckSockets t₀.bindedSockets).2.2.1
  acked : ∃ u u' os, handleRecvBack u = .ok (u', os) ∧ t.ackedSockets = u'.ackedSockets
  conns : ∃ u : Tcpd, ∀ fd, t.conn fd = (u.conn fd).map ConnectedSock.afterPass

lemma backDone_of_back {x : Turn} {t₀ t : Tcpd} {os : List Out}
    (h : handleBackImformation x t₀ = .ok (t, os)) : BackDone x t₀ t := by
  obtain ⟨t₁, os₁, o₁, hack, h, -⟩ := andThen_ok.mp h
  obtain ⟨t₂, os₂, o₂, hregrown, h, -⟩ := andThen_ok.mp h
  obtain ⟨t₃, os₃, os₄, hrecv, hsend, -⟩ := andThen_ok.mp h
  cases hregrown
  have ht₁ : (handleAckBack t₀).1 = t₁ := by rw [Except.ok.inj hack]
  rw [handleAckBack_eq] at ht₁
  obtain ⟨-, hrecv'⟩ := handleRecvBack_ok hrecv
  obtain ⟨s, hpass, hsend'⟩ := handleSendAllBack_ok hsend
  refine ⟨?_, ?_, ⟨_, t₃, os₃, hrecv, ?_⟩, ⟨t₃, conn_of_pass hpass⟩⟩
  · rw [hsend', hrecv', ← ht₁]
  · rw [hsend', hrecv', ← ht₁]
  · rw [hsend']

/-- The last turn has ended with `handle_back_imformation`; before the first one it would have
done nothing. -/
lemma exists_backDone {xs : List Turn} {t : Tcpd} {os : List Out}
    (h : mainLoop.exec globalInit xs = .ok (t, os)) : ∃ x t₀, BackDone x t₀ t := by
  rcases List.eq_nil_or_concat xs with rfl | ⟨xs, x, rfl⟩
  · cases h
    have hback : handleBackImformation ⟨none, default, ⟨[], []⟩, ⟨[], []⟩⟩ globalInit
        = .ok (globalInit, []) := rfl
    exact ⟨_, globalInit, backDone_of_back hback⟩
  · rw [List.concat_eq_append] at h
    obtain ⟨u, o, o', -, hturn, -⟩ := mainLoop.exec_snoc.mp h
    obtain ⟨t₀, o₁, o₂, -, hback, -⟩ := andThen_ok.mp hturn
    exact ⟨x, t₀, backDone_of_back hback⟩

variable {x : Turn} {t₀ t : Tcpd}

/-- A pass leaves nothing behind that another pass could do. -/
lemma recvBack_of_pass {os : List Out} (h : handleRecvBack t₀ = .ok (t, os)) {s : UInt32}
    {a : AckedSock} (ha : t.ackedSockets.lookup s = some a) :
    a.recvBack = .ok (a, []) ∧ (a.receivingLength = 0 ∨ a.fillBody = .leave) := by
  obtain ⟨xs, hby, -, hrows, -⟩ := HashTable.pass_trace (handleRecvBack_ok h).1
  have hrow := HashTable.lookup_eq_some.mp ha
  rw [hrows] at hrow
  obtain ⟨v, hv, heq⟩ := List.mem_map.mp hrow
  obtain ⟨-, rfl⟩ := Prod.mk.inj heq
  exact AckedSock.recvBack_still (recvVisit_ok (hby v hv))

lemma BackDone.recvBack_still (h : BackDone x t₀ t) {s : UInt32} {a : AckedSock}
    (ha : t.ackedSockets.lookup s = some a) :
    a.recvBack = .ok (a, []) ∧ (a.receivingLength = 0 ∨ a.fillBody = .leave) := by
  obtain ⟨u, u', os, hrecv, htable⟩ := h.acked
  rw [htable] at ha
  exact recvBack_of_pass hrecv ha

lemma BackDone.sendable (h : BackDone x t₀ t) {fd : Int32} {c : ConnectedSock}
    (hc : t.conn fd = some c) : c.sendable = [] := by
  obtain ⟨u, hconn⟩ := h.conns
  rw [hconn] at hc
  obtain ⟨d, -, rfl⟩ := Option.map_eq_some_iff.mp hc
  exact d.sendable_afterPass

lemma BackDone.accepts (h : BackDone x t₀ t) : ∀ b ∈ t.bindedSockets, b.accepting →
    ∀ a ∈ t.waitingAckSockets, a.socketFD ≠ b.socketFD := by
  rw [h.bound, h.waiting]
  exact (find?_handOver _ _ _).2

/-- **No turn leaves anything to do.** Whenever the main loop waits in `select`, whatever has
happened before, nothing is left to hand over, to reassemble or to send. Were `select` to return
with nothing marked, the three passes would send nothing and change nothing, except that `MinSeq`
is computed once more. -/
theorem mainLoop_settled (xs : List Turn) (t : Tcpd) (os : List Out)
    (h : mainLoop.exec globalInit xs = .ok (t, os)) :
    t.Settled ∧ handleAckBack t = (t, []) ∧ handleRecvBack t = .ok (t, []) ∧
      ∀ clock, ∃ t', handleSendAllBack t clock = .ok (t', []) ∧
        t' = { t with connectedSockets := t'.connectedSockets } ∧
        ∀ fd, t'.conn fd = (t.conn fd).map fun c =>
          { c with minSeq := ConnectedSock.minSeqOf c.packages } := by
  obtain ⟨x, t₀, hdone⟩ := exists_backDone h
  have hrun : Run (machine.eventsOf Turn.events globalInit xs) t os :=
    ((Machine.Performs.exec (N := mainLoop) performs_turn xs).same _ trivial).symm.trans h
  have hok := sessionsOk_of_run hrun
  refine ⟨⟨hdone.accepts, fun s a ha hpending => ?_, fun fd c hc m hm => ?_⟩, ?_, ?_,
    fun clock => ?_⟩
  · have hsess := sess_of_lookup ha
    have hq := queueOk_of_run (P := fun _ => True) hrun (fun _ _ _ _ _ _ => trivial) a hsess
    exact AckedSock.not_received_of_leave hq (hok.isOpen s a hsess) hpending
      ((hdone.recvBack_still ha).2.resolve_left hpending)
  · by_contra hnone
    push Not at hnone
    have hsend : m ∈ c.sendable := List.mem_filter.mpr ⟨hm, ConnectedSock.admits_iff.mpr hnone⟩
    rw [hdone.sendable hc] at hsend
    cases hsend
  · rw [handleAckBack_eq, handOver_still _ hdone.accepts]
  · have hpass : t.ackedSockets.pass AckedSock.recvVisit () = .ok ((), t.ackedSockets, []) := by
      refine HashTable.pass_still fun s a ha => ?_
      rw [AckedSock.recvVisit, (hdone.recvBack_still (HashTable.lookup_eq_some.mpr ha)).1]
      rfl
    simp only [handleRecvBack, hpass]
  · obtain ⟨t', os', hstep, hconn, -⟩ := exists_step_sendBack t clock
    obtain ⟨s, hpass, heq⟩ := handleSendAllBack_ok hstep
    have hsilent : os' = [] := by
      refine List.eq_nil_iff_forall_not_mem.mpr fun o ho => ?_
      obtain ⟨fd, c, m, hc, hm, -⟩ := out_of_sendPass hpass ho
      rw [hdone.sendable hc] at hm
      cases hm
    subst hsilent
    have hestimator : s.1 = t.estimator := by rw [pass_estimator hpass]; rfl
    refine ⟨t', hstep, by rw [heq, hestimator], fun fd => ?_⟩
    rw [hconn]
    refine Option.map_congr fun c hc => ?_
    have hnil := hdone.sendable hc
    have hpending : c.skipped = c.pendingPackages := by
      refine List.filter_eq_self.mpr fun m hm => ?_
      have hout := List.filter_eq_nil_iff.mp hnil m hm
      simpa using hout
    rw [ConnectedSock.afterPass, hnil, hpending, List.append_nil]

/-- The package has left by the end of the turn of its `SEND`. -/
theorem mainLoop_settled_sendFour : ∃ t os, mainLoop.exec globalInit sendTurns = .ok (t, os) ∧
    (t.conn 4).map (·.packages.length) = some 1 ∧
    t.Settled ∧ handleAckBack t = (t, []) ∧ handleRecvBack t = .ok (t, []) ∧
      ∀ clock, ∃ t', handleSendAllBack t clock = .ok (t', []) ∧
        t' = { t with connectedSockets := t'.connectedSockets } ∧
        ∀ fd, t'.conn fd = (t.conn fd).map fun c =>
          { c with minSeq := ConnectedSock.minSeqOf c.packages } := by
  obtain ⟨t, os, h, hsent⟩ : ∃ t os, mainLoop.exec globalInit sendTurns = .ok (t, os) ∧
      (t.conn 4).map (·.packages.length) = some 1 := ⟨_, _, rfl, rfl⟩
  exact ⟨t, os, h, hsent, mainLoop_settled sendTurns t os h⟩

end Tcpd
end NetworkProgramming
