import NetworkProgramming.Final.Global
import NetworkProgramming.Lib.Loop

/-!
# `tcpd.c`: the receiving side

`recv_data` queues the packages of a session by sequence number, `handle_ack_back` hands a
waiting session to an `ACCEPT`, and `handle_recv_back` reassembles the queue into the answers
to `RECV`.
-/

namespace NetworkProgramming

/-! ## `recv_data` -/

/-- The scan and the insertion of `recv_data`: a package goes before the first one with a
larger number; `none` when its number is in the list. -/
def insertPackage (now : TrollMessageStruct) :
    List TrollMessageStruct → Option (List TrollMessageStruct)
  | [] => some [now]
  | m :: l =>
    if m.seqNum = now.seqNum then none
    else if now.seqNum < m.seqNum then some (now :: m :: l)
    else (insertPackage now l).map (m :: ·)

namespace AckedSock

/-- The socket `recv_data` makes for a session it does not know. -/
def create (socketFD : Int32) (session : UInt32) : AckedSock :=
  { socketFD, session, base := 0, receivingLength := 0, receivingAddr := default,
    packages := [], recvBuffer := .zero BUF_LEN, recvBufferSize := 0 }

/-- Queue a package, unless it is outdated or duplicated. -/
def place (a : AckedSock) (now : TrollMessageStruct) : AckedSock :=
  if now.seqNum < a.base then a
  else { a with packages := (insertPackage now a.packages).getD a.packages }

@[simp] lemma session_place (a : AckedSock) (now : TrollMessageStruct) :
    (a.place now).session = a.session := by
  unfold place; split <;> rfl

/-- Placing a package only changes the queue. -/
lemma place_eq (a : AckedSock) (now : TrollMessageStruct) :
    a.place now = { a with packages := (a.place now).packages } := by
  unfold place; split <;> rfl

end AckedSock

/-- Queue a package in the waiting list, where its session gets an entry at the end when it
has none. -/
def placeWaiting (socketFD : Int32) (now : TrollMessageStruct) : List AckedSock → List AckedSock
  | [] => [(AckedSock.create socketFD now.session).place now]
  | a :: l =>
    if a.session = now.session then a.place now :: l else a :: placeWaiting socketFD now l

/-- The ack of a package, addressed to the troll it came from. -/
def makeAck (now : TrollMessageStruct) (remoteTrollAddr : SockaddrIn) : TrollAckStruct :=
  let ack : TrollAckStruct :=
    { header := { now.header with sinFamily := htonsAfInet, sinAddr := remoteTrollAddr.sinAddr },
      checkSum := 0, session := now.session, seqNum := now.seqNum }
  { ack with checkSum := ack.checksum }

/-- `recv_data`, with the structure as `recvfrom` has left it. -/
def recvData (t : Tcpd) (socketFD : Int32) (now : TrollMessageStruct)
    (remoteTrollAddr : SockaddrIn) : Tcpd × List Out :=
  if now.checksum ≠ now.checkSum then (t, [])
  else
    let t' :=
      match t.ackedSockets.lookup now.session with
      | some a => { t with ackedSockets := t.ackedSockets.insert now.session (a.place now) }
      | none => { t with waitingAckSockets := placeWaiting socketFD now t.waitingAckSockets }
    (t', [.ack socketFD (makeAck now remoteTrollAddr)])

/-- An intact frame is placed and acknowledged. -/
lemma recvData_of_valid {now : TrollMessageStruct} (h : now.Valid) (t : Tcpd) (socketFD : Int32)
    (remoteTrollAddr : SockaddrIn) :
    recvData t socketFD now remoteTrollAddr
      = (match t.ackedSockets.lookup now.session with
          | some a => { t with ackedSockets := t.ackedSockets.insert now.session (a.place now) }
          | none => { t with waitingAckSockets := placeWaiting socketFD now t.waitingAckSockets },
        [.ack socketFD (makeAck now remoteTrollAddr)]) :=
  if_neg (not_not.mpr h)

/-- A garbled frame is dropped. -/
lemma recvData_of_not_valid {now : TrollMessageStruct} (h : ¬ now.Valid) (t : Tcpd)
    (socketFD : Int32) (remoteTrollAddr : SockaddrIn) :
    recvData t socketFD now remoteTrollAddr = (t, []) := if_pos h

/-! ## `tcpd_BIND`, `tcpd_ACCEPT` and `handle_ack_back` -/

/-- `tcpd_SOCKET`, with what `socket` has returned. -/
def tcpdSocket (t : Tcpd) (frontAddr : SockaddrIn) (retSock : Int32) :
    Except Halt (Tcpd × List Out) :=
  if retSock < 0 then .error (.exit 2) else .ok (t, [.code frontAddr retSock])

/-- `tcpd_BIND` after its arguments, with what `bind` has returned. -/
def tcpdBind (t : Tcpd) (frontAddr : SockaddrIn) (sockfd retBind : Int32) :
    Except Halt (Tcpd × List Out) :=
  if retBind < 0 then .error (.exit 2)
  else
    .ok ({ t with bindedSockets := t.bindedSockets ++
            [{ socketFD := sockfd, accepting := false, acceptingAddr := default }] },
      [.code frontAddr retBind])

/-- The loop of `tcpd_ACCEPT`; `acceptResult` is what the sockets before have left. -/
def acceptLoop (acceptSocketFD : Int32) (frontAddr : SockaddrIn) (acceptResult : Int32) :
    List BindedSock → List BindedSock × Int32
  | [] => ([], acceptResult)
  | b :: l =>
    if b.socketFD ≠ acceptSocketFD then
      let r := acceptLoop acceptSocketFD frontAddr acceptResult l
      (b :: r.1, r.2)
    else if b.accepting then (b :: l, -2)
    else
      let r := acceptLoop acceptSocketFD frontAddr 0 l
      ({ b with accepting := true, acceptingAddr := frontAddr } :: r.1, r.2)

/-- `tcpd_ACCEPT` after its argument. -/
def tcpdAccept (t : Tcpd) (frontAddr : SockaddrIn) (acceptSocketFD : Int32) : Tcpd × List Out :=
  let r := acceptLoop acceptSocketFD frontAddr (-1) t.bindedSockets
  ({ t with bindedSockets := r.1 }, if r.2 ≠ 0 then [.code frontAddr (-1)] else [])

/-- The loops of `handle_ack_back`: every accepting socket takes the first session that waits
on it. -/
def handOver (acked : HashTable UInt32 AckedSock) (waiting : List AckedSock) :
    List BindedSock → List BindedSock × HashTable UInt32 AckedSock × List AckedSock × List Out
  | [] => ([], acked, waiting, [])
  | b :: l =>
    match if b.accepting then waiting.find? (·.socketFD = b.socketFD) else none with
    | none =>
      let r := handOver acked waiting l
      (b :: r.1, r.2)
    | some a =>
      let r := handOver (acked.insert a.session a)
        (waiting.eraseP (·.socketFD = b.socketFD)) l
      ({ b with accepting := false } :: r.1, r.2.1, r.2.2.1,
        .accepted b.acceptingAddr b.socketFD a.session :: r.2.2.2)

/-- `handle_ack_back`. -/
def handleAckBack (t : Tcpd) : Tcpd × List Out :=
  if t.waitingAckSockets.isEmpty then (t, [])
  else
    let r := handOver t.ackedSockets t.waitingAckSockets t.bindedSockets
    ({ t with bindedSockets := r.1, ackedSockets := r.2.1, waitingAckSockets := r.2.2.1 },
      r.2.2.2)

/-! ## `tcpd_RECV` and `handle_recv_back` -/

/-- `tcpd_RECV` after its arguments. -/
def tcpdRecv (t : Tcpd) (frontAddr : SockaddrIn) (sockfd : Int32) (len : UInt64) :
    Tcpd × List Out :=
  if len = 0 then (t, [.code frontAddr 0])
  else
    match t.ackedSockets.lookup sockfd.toUInt32 with
    | none => (t, [.code frontAddr (-2)])
    | some a =>
      if a.receivingLength ≠ 0 then (t, [.code frontAddr (-3)])
      else
        let a' := { a with receivingLength := len, receivingAddr := frontAddr }
        ({ t with ackedSockets := t.ackedSockets.insert sockfd.toUInt32 a' }, [])

namespace AckedSock

/-- The first branch of the reassembly loop: the head package fits into what is left of the
request, and is taken. -/
def consume (a : AckedSock) (now : TrollMessageStruct) (l : List TrollMessageStruct) :
    Option AckedSock := do
  let bytes ← now.body.read? 0 now.len.toNat
  let recvBuffer ← a.recvBuffer.write? a.recvBufferSize.toNat bytes
  return { a with recvBuffer, recvBufferSize := a.recvBufferSize + now.len, packages := l,
                  base := a.base + 1 }

/-- The other branch: what is left of the request is copied from the head package, and the
rest of its body moves to the front. -/
def split (a : AckedSock) (now : TrollMessageStruct) (l : List TrollMessageStruct) :
    Option AckedSock := do
  let remainSize := a.receivingLength - a.recvBufferSize
  let bytes ← now.body.read? 0 remainSize.toNat
  let recvBuffer ← a.recvBuffer.write? a.recvBufferSize.toNat bytes
  let rest ← now.body.read? remainSize.toNat (now.len - remainSize).toNat
  let body ← now.body.write? 0 rest
  return { a with recvBuffer, packages := { now with body, len := now.len - remainSize } :: l }

/-- The body of the reassembly loop. -/
def fillBody (a : AckedSock) : Round Halt AckedSock :=
  if a.recvBufferSize < a.receivingLength then
    match a.packages with
    | [] => .leave
    | now :: l =>
      if now.seqNum ≠ a.base then .leave
      else
        match if a.recvBufferSize + now.len ≤ a.receivingLength then a.consume now l
          else a.split now l with
        | none => .fail .outOfBounds
        | some a' => .again a'
  else .leave

/-- Every round takes a package or shortens the one at the head. -/
def fillMeasure (a : AckedSock) : ℕ := (a.packages.map fun m => m.len.toNat + 1).sum

/-- When the head package does not fit, what is left of the request is a proper part of it. -/
lemma remainSize_lt {a : AckedSock} {now : TrollMessageStruct}
    (hroom : a.recvBufferSize < a.receivingLength)
    (hfit : ¬ a.recvBufferSize + now.len ≤ a.receivingLength) :
    (a.receivingLength - a.recvBufferSize).toNat
        = a.receivingLength.toNat - a.recvBufferSize.toNat ∧
      (a.receivingLength - a.recvBufferSize).toNat < now.len.toNat ∧
      (now.len - (a.receivingLength - a.recvBufferSize)).toNat
        = now.len.toNat - (a.receivingLength.toNat - a.recvBufferSize.toNat) := by
  rw [UInt64.lt_iff_toNat_lt] at hroom
  rw [UInt64.le_iff_toNat_le, UInt64.toNat_add] at hfit
  have hremain : (a.receivingLength - a.recvBufferSize).toNat
      = a.receivingLength.toNat - a.recvBufferSize.toNat :=
    UInt64.toNat_sub_of_le _ _ (UInt64.le_iff_toNat_le.mpr hroom.le)
  have hsize := now.len.toNat_lt
  have hlt : a.receivingLength.toNat - a.recvBufferSize.toNat < now.len.toNat := by omega
  refine ⟨hremain, hremain ▸ hlt, ?_⟩
  rw [UInt64.toNat_sub_of_le _ _ (UInt64.le_iff_toNat_le.mpr (by omega)), hremain]

/-- A package that is taken leaves the queue. -/
lemma fillMeasure_consume {a a' : AckedSock} {now : TrollMessageStruct}
    {l : List TrollMessageStruct} (hl : a.packages = now :: l) (h : a.consume now l = some a') :
    a'.fillMeasure < a.fillMeasure := by
  simp only [consume, bind, Option.bind_eq_some_iff, pure, Option.some.injEq] at h
  obtain ⟨_, _, _, _, rfl⟩ := h
  simp only [fillMeasure, hl, List.map_cons, List.sum_cons]
  omega

/-- A package that is split gets shorter. -/
lemma fillMeasure_split {a a' : AckedSock} {now : TrollMessageStruct}
    {l : List TrollMessageStruct} (hl : a.packages = now :: l)
    (hroom : a.recvBufferSize < a.receivingLength)
    (hfit : ¬ a.recvBufferSize + now.len ≤ a.receivingLength) (h : a.split now l = some a') :
    a'.fillMeasure < a.fillMeasure := by
  obtain ⟨hremain, hlt, hrest⟩ := remainSize_lt hroom hfit
  rw [UInt64.lt_iff_toNat_lt] at hroom
  simp only [split, bind, Option.bind_eq_some_iff, pure, Option.some.injEq] at h
  obtain ⟨_, _, _, _, _, _, _, _, rfl⟩ := h
  simp only [fillMeasure, hl, List.map_cons, List.sum_cons, hrest]
  omega

/-- The reassembly loop. -/
def fillLoop : Loop Halt AckedSock where
  body := fillBody
  measure := fillMeasure
  decreases := by
    intro a a' h
    unfold fillBody at h
    split at h
    · rename_i hroom
      split at h
      · cases h
      · rename_i now l hl
        split at h
        · cases h
        · split at h
          · cases h
          · rename_i a'' hround
            cases h
            split at hround
            · exact fillMeasure_consume hl hround
            · rename_i hfit
              exact fillMeasure_split hl hroom hfit hround
    · cases h

/-- One iteration of `handle_recv_back`. -/
def recvBack (a : AckedSock) : Except Halt (AckedSock × List Out) :=
  if a.receivingLength = 0 then .ok (a, [])
  else if BUF_LEN < a.receivingLength.toNat then .error (.exit 5)
  else
    match fillLoop.run a with
    | .error x => .error x
    | .ok a =>
      if a.recvBufferSize = a.receivingLength then
        .ok ({ a with recvBufferSize := 0, receivingLength := 0 },
          [.data a.receivingAddr a.session (a.recvBuffer.toList.take a.recvBufferSize.toNat)])
      else .ok (a, [])

/-- `recvBack` as the loop over the table calls it. -/
def recvVisit (_ : Unit) (_session : UInt32) (a : AckedSock) :
    Except Halt (Unit × AckedSock × List Out) :=
  a.recvBack.map ((), ·)

end AckedSock

/-- `handle_recv_back`. -/
def handleRecvBack (t : Tcpd) : Except Halt (Tcpd × List Out) :=
  match t.ackedSockets.pass AckedSock.recvVisit () with
  | .error x => .error x
  | .ok (_, ackedSockets, os) => .ok ({ t with ackedSockets }, os)

end NetworkProgramming
