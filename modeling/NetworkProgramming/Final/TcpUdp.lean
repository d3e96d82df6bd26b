import NetworkProgramming.Final.Answers

/-!
# `tcpudp.c` against `process_tcpd_message`

A call of a front process is one to four datagrams, its name first and then its arguments; the
daemon reads them one by one from the one socket all front processes send to, and answers to
the address the last of them came from. `Daemon` is the daemon with that socket: datagrams
arrive in any order, and `process_tcpd_message` waits until its arguments are there.
-/

namespace NetworkProgramming

/-! ## The calls -/

/-- A call of a front process, with the bytes it hands over. -/
inductive Call
  | SOCKET
  | BIND (sockfd : Int32) (addr : SockaddrIn)
  | ACCEPT (sockfd : Int32)
  | RECV (sockfd : Int32) (len : UInt64)
  | CONNECT (sockfd : Int32) (addr : SockaddrIn)
  | SEND (sockfd : Int32) (buffer : { l : List UInt8 // l.length < 2 ^ 64 })
deriving DecidableEq

/-- A datagram on the socket of the daemon, with the address it comes from. -/
structure Datagram where
  source : SockaddrIn
  bytes : List UInt8
deriving DecidableEq

/-- The bytes of a name, without its terminating zero. -/
def cString (s : List Char) : List UInt8 := s.map fun c => UInt8.ofNat c.toNat

/-- The names of the calls. -/
inductive CallName
  | SOCKET
  | BIND
  | ACCEPT
  | RECV
  | CONNECT
  | SEND
deriving DecidableEq

namespace CallName

/-- The name, without its terminating zero. -/
def bytes : CallName → List UInt8
  | SOCKET => cString ['S', 'O', 'C', 'K', 'E', 'T']
  | BIND => cString ['B', 'I', 'N', 'D']
  | ACCEPT => cString ['A', 'C', 'C', 'E', 'P', 'T']
  | RECV => cString ['R', 'E', 'C', 'V']
  | CONNECT => cString ['C', 'O', 'N', 'N', 'E', 'C', 'T']
  | SEND => cString ['S', 'E', 'N', 'D']

/-- `char tcpd_msg[TCPD_MSG_LEN]`, set to the name. -/
def message (n : CallName) : Buffer TCPD_MSG_LEN :=
  ⟨n.bytes ++ List.replicate (TCPD_MSG_LEN - n.bytes.length) 0, by cases n <;> rfl⟩

end CallName

/-- The memory of an `int`. -/
def intBytes (x : Int32) : List UInt8 := leBytes 4 x.toUInt32.toNat

/-- The memory of a `size_t`. -/
def sizeBytes (x : UInt64) : List UInt8 := leBytes 8 x.toNat

/-- The memory of a `struct sockaddr_in`. -/
def sockaddrBytes (a : SockaddrIn) : List UInt8 :=
  leBytes 2 a.sinFamily.toNat ++ leBytes 2 a.sinPort.toNat ++ leBytes 4 a.sinAddr.toNat
    ++ leBytes 8 a.sinZero.toNat

namespace Call

/-- The name a call sends. -/
def name : Call → CallName
  | SOCKET => .SOCKET
  | BIND _ _ => .BIND
  | ACCEPT _ => .ACCEPT
  | RECV _ _ => .RECV
  | CONNECT _ _ => .CONNECT
  | SEND _ _ => .SEND

/-- The arguments a call sends. -/
def arguments : Call → List (List UInt8)
  | SOCKET => []
  | BIND sockfd addr => [intBytes sockfd, sockaddrBytes addr]
  | ACCEPT sockfd => [intBytes sockfd]
  | RECV sockfd len => [intBytes sockfd, sizeBytes len]
  | CONNECT sockfd addr => [intBytes sockfd, sockaddrBytes addr]
  | SEND sockfd buffer =>
    [intBytes sockfd, sizeBytes (UInt64.ofNat buffer.val.length), buffer.val]

/-- The datagrams of a call. -/
def datagrams (a : SockaddrIn) (c : Call) : List Datagram :=
  (c.name.message.toList :: c.arguments).map (⟨a, ·⟩)

/-- The request a call stands for. -/
def request : Call → Request
  | SOCKET => .SOCKET
  | BIND sockfd addr => .BIND sockfd addr
  | ACCEPT sockfd => .ACCEPT sockfd
  | RECV sockfd len => .RECV sockfd len
  | CONNECT sockfd addr => .CONNECT sockfd addr
  | SEND sockfd buffer =>
    .SEND sockfd (UInt64.ofNat buffer.val.length)
      ((Buffer.zero BUF_LEN).write 0 (buffer.val.take BUF_LEN) (by simp))

end Call

/-! ## Reading a request -/

/-- What `process_tcpd_message` works on: `FrontAddr`, the global `buf` and the datagrams that
wait on the socket. -/
structure Reading where
  frontAddr : SockaddrIn
  buf : Buffer BUF_LEN
  inbox : List Datagram

/-- A computation that reads from the socket; `none` while it waits there. -/
abbrev Reads := StateT Reading Option

namespace Reads

/-- `recvfrom(sock, buf, len, ...)`: what does not fit in `len` bytes is lost. -/
def recvfrom (len : ℕ) (h : len ≤ BUF_LEN) : Reads Unit := fun d =>
  match d.inbox with
  | [] => none
  | x :: inbox =>
    some ((), { frontAddr := x.source, inbox,
                buf := d.buf.write 0 (x.bytes.take len) (by simp; omega) })

/-- `bzero(buf, len)`. -/
def bzero (len : ℕ) (h : len ≤ BUF_LEN) : Reads Unit :=
  fun d => some ((), { d with buf := d.buf.write 0 (List.replicate len 0) (by simp; omega) })

/-- The global `buf`. -/
def getBuf : Reads (Buffer BUF_LEN) := fun d => some (d.buf, d)

/-- One argument of `len` bytes: `bzero`, `recvfrom` and `bcopy`. -/
def argument (len : ℕ) (h : len ≤ BUF_LEN) : Reads (List UInt8) := do
  bzero len h
  recvfrom len h
  return (← getBuf).toList.take len

/-- The `int` in the memory. -/
def intOf (bytes : List UInt8) : Int32 := (UInt32.ofNat (ofLeBytes bytes)).toInt32

/-- The `size_t` in the memory. -/
def sizeOfBytes (bytes : List UInt8) : UInt64 := UInt64.ofNat (ofLeBytes bytes)

/-- The `struct sockaddr_in` in the memory. -/
def sockaddrOf (bytes : List UInt8) : SockaddrIn :=
  { sinFamily := UInt16.ofNat (ofLeBytes (bytes.take 2))
    sinPort := UInt16.ofNat (ofLeBytes ((bytes.drop 2).take 2))
    sinAddr := UInt32.ofNat (ofLeBytes ((bytes.drop 4).take 4))
    sinZero := UInt64.ofNat (ofLeBytes ((bytes.drop 8).take 8)) }

/-- An argument that is an `int`. -/
def intArgument : Reads Int32 := do return intOf (← argument 4 (by decide))

/-- An argument that is a `size_t`. -/
def sizeArgument : Reads UInt64 := do return sizeOfBytes (← argument 8 (by decide))

/-- An argument that is a `struct sockaddr_in`. -/
def sockaddrArgument : Reads SockaddrIn := do return sockaddrOf (← argument 16 (by decide))

/-- The first lines of `tcpd_BIND`. -/
def bindRequest : Reads Request := do return .BIND (← intArgument) (← sockaddrArgument)

/-- The first lines of `tcpd_ACCEPT`. -/
def acceptRequest : Reads Request := do return .ACCEPT (← intArgument)

/-- The first lines of `tcpd_RECV`. -/
def recvRequest : Reads Request := do return .RECV (← intArgument) (← sizeArgument)

/-- The first lines of `tcpd_CONNECT`. -/
def connectRequest : Reads Request := do return .CONNECT (← intArgument) (← sockaddrArgument)

/-- The first lines of `tcpd_SEND`; a request that is too large is not read to its end, and the
daemon exits. -/
def sendRequest : Reads Request := do
  let sockfd ← intArgument
  let len ← sizeArgument
  if h : len.toNat ≤ BUF_LEN then recvfrom len.toNat h
  return .SEND sockfd len (← getBuf)

/-- `recvfrom(sock, tcpd_msg, TCPD_MSG_LEN, ...)`; `stack` is what `tcpd_msg` held before. -/
def recvName (stack : Buffer TCPD_MSG_LEN) : Reads (Buffer TCPD_MSG_LEN) := fun d =>
  match d.inbox with
  | [] => none
  | x :: inbox =>
    some (stack.write 0 (x.bytes.take TCPD_MSG_LEN) (by simp),
      { d with frontAddr := x.source, inbox })

/-- `strcmp(tcpd_msg, name) == 0`. -/
def isName (msg : Buffer TCPD_MSG_LEN) (name : List UInt8) : Bool :=
  msg.toList.take (name.length + 1) = name ++ [0]

/-- The request the name stands for; a name the daemon does not know is none. -/
def requestNamed (msg : Buffer TCPD_MSG_LEN) : Reads (Option Request) :=
  if isName msg CallName.SOCKET.bytes then return some .SOCKET
  else if isName msg CallName.BIND.bytes then some <$> bindRequest
  else if isName msg CallName.ACCEPT.bytes then some <$> acceptRequest
  else if isName msg CallName.RECV.bytes then some <$> recvRequest
  else if isName msg CallName.CONNECT.bytes then some <$> connectRequest
  else if isName msg CallName.SEND.bytes then some <$> sendRequest
  else return none

/-- The reading half of `process_tcpd_message`. -/
def processTcpdMessage (stack : Buffer TCPD_MSG_LEN) : Reads (Option Request) :=
  recvName stack >>= requestNamed

end Reads

/-! ## The daemon on its socket -/

/-- The daemon with its global `buf` and the datagrams that wait on its socket. -/
structure Daemon where
  tcpd : Tcpd
  buf : Buffer BUF_LEN
  inbox : List Datagram

/-- An event of the daemon on its socket. -/
inductive DaemonEvent
  /-- a datagram of a front process arrives -/
  | arrive (d : Datagram)
  /-- `process_tcpd_message`, which ends once its arguments are there -/
  | message (stack : Buffer TCPD_MSG_LEN) (sys : Sys)
  /-- any other call of the main loop -/
  | other (e : Event)

/-- The event is a request of a front process. -/
def Event.isFront : Event → Bool
  | .front _ _ _ => true
  | _ => false

namespace Daemon

/-- Nothing has happened yet. -/
def start : Daemon := ⟨Tcpd.globalInit, .zero BUF_LEN, []⟩

/-- What `process_tcpd_message` reads, and from whom; `FrontAddr` starts with what is on the
stack. -/
def reads (s : Daemon) (stack : Buffer TCPD_MSG_LEN) : Option (Option Request × Reading) :=
  (Reads.processTcpdMessage stack).run ⟨default, s.buf, s.inbox⟩

/-- One event. -/
def step (s : Daemon) : DaemonEvent → Except Halt (Daemon × List Out)
  | .arrive d => .ok ({ s with inbox := s.inbox ++ [d] }, [])
  | .message stack sys =>
    if s.tcpd.inBufferPackages < MAX_BUFFER_PACKAGES then
      match s.reads stack with
      | none => .error .notReady
      | some (none, d) => .ok (⟨s.tcpd, d.buf, d.inbox⟩, [])
      | some (some r, d) =>
        match s.tcpd.serve d.frontAddr r sys with
        | .error x => .error x
        | .ok (tcpd, os) => .ok (⟨tcpd, d.buf, d.inbox⟩, os)
    else .error .notReady
  | .other e =>
    if e.isFront then .error .notReady
    else
      match s.tcpd.step e with
      | .error x => .error x
      | .ok (tcpd, os) => .ok ({ s with tcpd }, os)

/-- The daemon. -/
def machine : Machine Daemon DaemonEvent Out Halt := ⟨step⟩

/-- A run of the daemon from its start. -/
def Run (es : List DaemonEvent) (s : Daemon) (os : List Out) : Prop :=
  machine.exec start es = .ok (s, os)

/-- What `process_tcpd_message` has taken for a request, and for whose. -/
def takenFor (s : Daemon) (e : DaemonEvent) (_ : Daemon) : List (SockaddrIn × Option Request) :=
  match e with
  | .message stack _ => (s.reads stack).toList.map fun r => (r.2.frontAddr, r.1)
  | _ => []

/-- The requests the daemon has served along a run, with the addresses it answers to. -/
def served (es : List DaemonEvent) : List (SockaddrIn × Option Request) :=
  machine.collect takenFor start es

end Daemon

/-! ## The memory of the arguments -/

namespace Reads

lemma intOf_intBytes (x : Int32) : intOf (intBytes x) = x := by
  rw [intOf, intBytes, ofLeBytes_leBytes, Nat.mod_eq_of_lt (by simpa using x.toUInt32.toNat_lt)]
  simp

lemma sizeOfBytes_sizeBytes (x : UInt64) : sizeOfBytes (sizeBytes x) = x := by
  rw [sizeOfBytes, sizeBytes, ofLeBytes_leBytes, Nat.mod_eq_of_lt (by simpa using x.toNat_lt)]
  simp

lemma sockaddrOf_sockaddrBytes (a : SockaddrIn) : sockaddrOf (sockaddrBytes a) = a := by
  have hdrop : ∀ w k x, w ≤ k → (leBytes w x).drop k = [] := fun w k x hle =>
    List.drop_eq_nil_of_le (by simpa using hle)
  simp [sockaddrOf, sockaddrBytes, List.drop_append, ofLeBytes_leBytes, hdrop 2 4 _ (by decide),
    hdrop 2 8 _ (by decide), hdrop 2 6 _ (by decide), List.take_of_length_le]

/-! ## Reading, step by step -/

/-- What `argument` makes of a datagram: too long a one is cut, too short a one padded. -/
def padTo (len : ℕ) (bytes : List UInt8) : List UInt8 :=
  bytes.take len ++ List.replicate (len - bytes.length) 0

lemma padTo_of_length {len : ℕ} {bytes : List UInt8} (h : bytes.length = len) :
    padTo len bytes = bytes := by
  subst h
  simp [padTo]

lemma run_argument (len : ℕ) (h : len ≤ BUF_LEN) (front : SockaddrIn) (buf : Buffer BUF_LEN)
    (x : Datagram) (inbox : List Datagram) :
    ∃ buf', (argument len h).run ⟨front, buf, x :: inbox⟩
      = some (padTo len x.bytes, ⟨x.source, buf', inbox⟩) := by
  refine ⟨_, Option.some_inj.mpr (Prod.ext ?_ rfl)⟩
  show List.take len (_ : Buffer BUF_LEN).toList = padTo len x.bytes
  simp only [Buffer.write, List.Vector.toList_mk, List.take_zero, List.nil_append, Nat.zero_add,
    padTo]
  -- behind what has arrived lie the zeros of `bzero`
  have hzeros : len - min len x.bytes.length = len - x.bytes.length := by omega
  simp [List.take_append, List.drop_append, hzeros]

variable (front a : SockaddrIn) (buf : Buffer BUF_LEN) (inbox : List Datagram)

lemma run_intArgument (x : Int32) :
    ∃ buf', intArgument.run ⟨front, buf, ⟨a, intBytes x⟩ :: inbox⟩
      = some (x, ⟨a, buf', inbox⟩) := by
  obtain ⟨buf', hrun⟩ := run_argument 4 (by decide) front buf ⟨a, intBytes x⟩ inbox
  rw [padTo_of_length (by simp [intBytes])] at hrun
  refine ⟨buf', ?_⟩
  rw [intArgument, StateT.run_bind, hrun]
  show some (intOf (intBytes x), _) = _
  rw [intOf_intBytes]

lemma run_sizeArgument (x : UInt64) :
    ∃ buf', sizeArgument.run ⟨front, buf, ⟨a, sizeBytes x⟩ :: inbox⟩
      = some (x, ⟨a, buf', inbox⟩) := by
  obtain ⟨buf', hrun⟩ := run_argument 8 (by decide) front buf ⟨a, sizeBytes x⟩ inbox
  rw [padTo_of_length (by simp [sizeBytes])] at hrun
  refine ⟨buf', ?_⟩
  rw [sizeArgument, StateT.run_bind, hrun]
  show some (sizeOfBytes (sizeBytes x), _) = _
  rw [sizeOfBytes_sizeBytes]

lemma run_sockaddrArgument (x : SockaddrIn) :
    ∃ buf', sockaddrArgument.run ⟨front, buf, ⟨a, sockaddrBytes x⟩ :: inbox⟩
      = some (x, ⟨a, buf', inbox⟩) := by
  obtain ⟨buf', hrun⟩ :=
    run_argument 16 (by decide) front buf ⟨a, sockaddrBytes x⟩ inbox
  rw [padTo_of_length (by simp [sockaddrBytes])] at hrun
  refine ⟨buf', ?_⟩
  rw [sockaddrArgument, StateT.run_bind, hrun]
  show some (sockaddrOf (sockaddrBytes x), _) = _
  rw [sockaddrOf_sockaddrBytes]

/-- The name of a call fills the block it is read into. -/
lemma run_recvName (stack msg : Buffer TCPD_MSG_LEN) :
    (recvName stack).run ⟨front, buf, ⟨a, msg.toList⟩ :: inbox⟩
      = some (msg, ⟨a, buf, inbox⟩) := by
  have hdrop : stack.toList.drop msg.toList.length = [] := by
    apply List.drop_eq_nil_of_le
    simp
  have htake : msg.toList.take TCPD_MSG_LEN = msg.toList := List.take_of_length_le (by simp)
  refine Option.some_inj.mpr (Prod.ext (Subtype.ext ?_) rfl)
  show stack.toList.take 0 ++ msg.toList.take TCPD_MSG_LEN
    ++ stack.toList.drop (0 + (msg.toList.take TCPD_MSG_LEN).length) = msg.toList
  rw [htake, Nat.zero_add, hdrop]
  simp

/-- The name of a call selects its arguments. -/
lemma requestNamed_message (n : CallName) :
    requestNamed n.message = match n with
      | .SOCKET => pure (some .SOCKET)
      | .BIND => some <$> bindRequest
      | .ACCEPT => some <$> acceptRequest
      | .RECV => some <$> recvRequest
      | .CONNECT => some <$> connectRequest
      | .SEND => some <$> sendRequest := by
  cases n with
  | SOCKET => exact if_pos (by decide)
  | BIND =>
    unfold requestNamed
    rw [if_neg (by decide), if_pos (by decide)]
  | ACCEPT =>
    unfold requestNamed
    rw [if_neg (by decide), if_neg (by decide), if_pos (by decide)]
  | RECV =>
    unfold requestNamed
    rw [if_neg (by decide), if_neg (by decide), if_neg (by decide), if_pos (by decide)]
  | CONNECT =>
    unfold requestNamed
    rw [if_neg (by decide), if_neg (by decide), if_neg (by decide), if_neg (by decide),
      if_pos (by decide)]
  | SEND =>
    unfold requestNamed
    rw [if_neg (by decide), if_neg (by decide), if_neg (by decide), if_neg (by decide),
      if_neg (by decide), if_pos (by decide)]

end Reads

/-! ## Whole requests -/

namespace Request

/-- The requests are served alike: a `SEND` only looks at the bytes it is to send, and at none
when they are too many. -/
def Alike : Request → Request → Prop
  | .SEND sockfd len buf, .SEND sockfd' len' buf' =>
    sockfd = sockfd' ∧ len = len' ∧
      (len.toNat ≤ BUF_LEN → buf.toList.take len.toNat = buf'.toList.take len.toNat)
  | r, r' => r = r'

/-- The request fits in the buffer of the daemon. -/
def Fits : Request → Prop
  | .SEND _ len _ => len.toNat ≤ BUF_LEN
  | _ => True

end Request

lemma makePackage_congr {c : ConnectedSock} {buf buf' : Buffer BUF_LEN} {len : UInt64}
    (h : buf.toList.take len.toNat = buf'.toList.take len.toNat) (fresh : TrollMessageStruct) :
    c.makePackage buf len fresh = c.makePackage buf' len fresh := by
  simp only [ConnectedSock.makePackage, h]

lemma serve_alike {r r' : Request} (h : r.Alike r') (t : Tcpd) (a : SockaddrIn) (sys : Sys) :
    t.serve a r sys = t.serve a r' sys := by
  unfold Request.Alike at h
  split at h
  · obtain ⟨rfl, rfl, hbytes⟩ := h
    rename_i sockfd len buf buf'
    by_cases hlen : len.toNat ≤ BUF_LEN
    · simp only [Tcpd.serve, tcpdSend, makePackage_congr (hbytes hlen)]
    · simp only [Tcpd.serve, tcpdSend, if_pos (not_le.mp hlen)]
  · rw [h]

lemma fits_of_serve {t t' : Tcpd} {a : SockaddrIn} {r : Request} {sys : Sys} {os : List Out}
    (h : t.serve a r sys = .ok (t', os)) : r.Fits := by
  cases r with
  | SEND sockfd len buf =>
    simp only [Tcpd.serve, tcpdSend] at h
    split at h
    · cases h
    · rename_i hlen
      exact not_lt.mp hlen
  | _ => trivial

namespace Reads

variable (front a : SockaddrIn) (buf : Buffer BUF_LEN) (rest : List Datagram)

lemma run_sendRequest (fd : Int32) (buffer : { l : List UInt8 // l.length < 2 ^ 64 }) :
    ∃ r buf' left, sendRequest.run
        ⟨front, buf, (Call.SEND fd buffer).arguments.map (⟨a, ·⟩) ++ rest⟩
        = some (r, ⟨a, buf', left⟩) ∧
      r.Alike (Call.request (.SEND fd buffer)) ∧ (r.Fits → left = rest) := by
  obtain ⟨buf₁, hfd⟩ := run_intArgument front a buf
    (⟨a, sizeBytes (UInt64.ofNat buffer.val.length)⟩ :: ⟨a, buffer.val⟩ :: rest) fd
  obtain ⟨buf₂, hlen⟩ := run_sizeArgument a a buf₁ (⟨a, buffer.val⟩ :: rest)
    (UInt64.ofNat buffer.val.length)
  have hsize : (UInt64.ofNat buffer.val.length).toNat = buffer.val.length := by
    rw [UInt64.toNat_ofNat', Nat.mod_eq_of_lt buffer.property]
  show ∃ r buf' left, sendRequest.run ⟨front, buf, ⟨a, intBytes fd⟩
    :: ⟨a, sizeBytes (UInt64.ofNat buffer.val.length)⟩ :: ⟨a, buffer.val⟩ :: rest⟩ = _ ∧ _
  simp only [sendRequest, StateT.run_bind, hfd, hlen, Option.bind_eq_bind, Option.bind_some]
  by_cases hfits : (UInt64.ofNat buffer.val.length).toNat ≤ BUF_LEN
  · rw [dif_pos hfits]
    refine ⟨_, _, _, rfl, ⟨rfl, rfl, fun _ => ?_⟩, fun _ => rfl⟩
    have hcut : buffer.val.take BUF_LEN = buffer.val := List.take_of_length_le (hsize ▸ hfits)
    have hall : buffer.val.take (UInt64.ofNat buffer.val.length).toNat = buffer.val :=
      List.take_of_length_le hsize.ge
    -- both buffers start with the bytes that have been sent
    have hfront : ∀ (b : Buffer BUF_LEN) (src : List UInt8) (h : 0 + src.length ≤ BUF_LEN),
        src = buffer.val →
          (b.write 0 src h).toList.take (UInt64.ofNat buffer.val.length).toNat = buffer.val := by
      intro b src h hsrc
      rw [Buffer.take_write h (by rw [hsrc, hsize, Nat.zero_add]), List.take_zero, hsrc,
        List.nil_append]
    exact (hfront _ _ (by rw [hall]; omega) hall).trans (hfront _ _ (by simp) hcut).symm
  · rw [dif_neg hfits]
    exact ⟨_, _, _, rfl, ⟨rfl, rfl, fun hle => absurd hle hfits⟩, fun hle => absurd hle hfits⟩

/-- Whatever lies behind it, a whole request is read as it was meant, from the process that has
sent it. -/
theorem run_processTcpdMessage (stack : Buffer TCPD_MSG_LEN) (c : Call) :
    ∃ r buf' left, (processTcpdMessage stack).run ⟨front, buf, c.datagrams a ++ rest⟩
        = some (some r, ⟨a, buf', left⟩) ∧
      r.Alike c.request ∧ (r.Fits → left = rest) := by
  have hname := run_recvName front a buf (c.arguments.map (⟨a, ·⟩) ++ rest) stack c.name.message
  have hinbox : c.datagrams a ++ rest
      = ⟨a, c.name.message.toList⟩ :: (c.arguments.map (⟨a, ·⟩) ++ rest) := rfl
  rw [hinbox, processTcpdMessage, StateT.run_bind, hname, Option.bind_eq_bind, Option.bind_some,
    requestNamed_message]
  cases c with
  | SOCKET => exact ⟨_, _, _, rfl, rfl, fun _ => rfl⟩
  | BIND fd addr =>
    obtain ⟨buf₁, hfd⟩ := run_intArgument a a buf (⟨a, sockaddrBytes addr⟩ :: rest) fd
    obtain ⟨buf₂, haddr⟩ := run_sockaddrArgument a a buf₁ rest addr
    refine ⟨.BIND fd addr, buf₂, rest, ?_, rfl, fun _ => rfl⟩
    simp [Call.name, Call.arguments, bindRequest, StateT.run_bind, hfd, haddr]
  | ACCEPT fd =>
    obtain ⟨buf₁, hfd⟩ := run_intArgument a a buf rest fd
    refine ⟨.ACCEPT fd, buf₁, rest, ?_, rfl, fun _ => rfl⟩
    simp [Call.name, Call.arguments, acceptRequest, hfd]
  | RECV fd len =>
    obtain ⟨buf₁, hfd⟩ := run_intArgument a a buf (⟨a, sizeBytes len⟩ :: rest) fd
    obtain ⟨buf₂, hlen⟩ := run_sizeArgument a a buf₁ rest len
    refine ⟨.RECV fd len, buf₂, rest, ?_, rfl, fun _ => rfl⟩
    simp [Call.name, Call.arguments, recvRequest, StateT.run_bind, hfd, hlen]
  | CONNECT fd addr =>
    obtain ⟨buf₁, hfd⟩ := run_intArgument a a buf (⟨a, sockaddrBytes addr⟩ :: rest) fd
    obtain ⟨buf₂, haddr⟩ := run_sockaddrArgument a a buf₁ rest addr
    refine ⟨.CONNECT fd addr, buf₂, rest, ?_, rfl, fun _ => rfl⟩
    simp [Call.name, Call.arguments, connectRequest, StateT.run_bind, hfd, haddr]
  | SEND fd buffer =>
    obtain ⟨r, buf', left, hrun, halike, hfits⟩ := run_sendRequest a a buf rest fd buffer
    refine ⟨r, buf', left, ?_, halike, hfits⟩
    simp [Call.name, StateT.run_map, hrun]

end Reads

/-! ## What has not arrived does not matter -/

namespace Reads

/-- A computation that ends does not look at what arrives later. -/
def Local {α : Type} (f : Reads α) : Prop :=
  ∀ (d d' : Reading) (x : α) (later : List Datagram), f.run d = some (x, d') →
    f.run { d with inbox := d.inbox ++ later } = some (x, { d' with inbox := d'.inbox ++ later })

lemma local_pure {α : Type} (x : α) : Local (pure x : Reads α) := by
  intro d d' y later h
  cases h
  rfl

lemma Local.bind {α β : Type} {f : Reads α} {g : α → Reads β} (hf : Local f)
    (hg : ∀ x, Local (g x)) : Local (f >>= g) := by
  intro d d' y later h
  rw [StateT.run_bind] at h ⊢
  obtain ⟨⟨x, u⟩, hx, hy⟩ := Option.bind_eq_some_iff.mp h
  rw [hf d u x later hx]
  exact hg x u d' y later hy

lemma Local.map {α β : Type} {f : Reads α} (hf : Local f) (g : α → β) : Local (g <$> f) := by
  rw [map_eq_pure_bind]
  exact hf.bind fun x => local_pure (g x)

lemma local_recvfrom {len : ℕ} (h : len ≤ BUF_LEN) : Local (recvfrom len h) := by
  rintro ⟨front, buf, inbox⟩ d' x later hrun
  cases inbox with
  | nil => cases hrun
  | cons y inbox => cases hrun; rfl

lemma local_getBuf : Local getBuf := by
  intro d d' x later h
  cases h
  rfl

lemma local_argument {len : ℕ} (h : len ≤ BUF_LEN) : Local (argument len h) := by
  have hbzero : Local (bzero len h) := by
    intro d d' x later hrun
    cases hrun
    rfl
  exact hbzero.bind fun _ => (local_recvfrom h).bind fun _ => local_getBuf.bind fun _ =>
    local_pure _

lemma local_intArgument : Local intArgument :=
  (local_argument _).bind fun _ => local_pure _

lemma local_sizeArgument : Local sizeArgument :=
  (local_argument _).bind fun _ => local_pure _

lemma local_sockaddrArgument : Local sockaddrArgument :=
  (local_argument _).bind fun _ => local_pure _

lemma local_sendRequest : Local sendRequest := by
  refine local_intArgument.bind fun sockfd => local_sizeArgument.bind fun len => ?_
  by_cases h : len.toNat ≤ BUF_LEN
  · simp only [dif_pos h]
    exact (local_recvfrom h).bind fun _ => local_getBuf.bind fun _ => local_pure _
  · simp only [dif_neg h]
    exact (local_pure _).bind fun _ => local_getBuf.bind fun _ => local_pure _

lemma local_requestNamed (msg : Buffer TCPD_MSG_LEN) : Local (requestNamed msg) := by
  unfold requestNamed
  split
  · exact local_pure _
  split
  · exact (local_intArgument.bind fun _ => local_sockaddrArgument.bind fun _ => local_pure _).map _
  split
  · exact (local_intArgument.bind fun _ => local_pure _).map _
  split
  · exact (local_intArgument.bind fun _ => local_sizeArgument.bind fun _ => local_pure _).map _
  split
  · exact (local_intArgument.bind fun _ => local_sockaddrArgument.bind fun _ => local_pure _).map _
  split
  · exact local_sendRequest.map _
  · exact local_pure _

theorem local_processTcpdMessage (stack : Buffer TCPD_MSG_LEN) :
    Local (processTcpdMessage stack) := by
  have hname : Local (recvName stack) := by
    rintro ⟨front, buf, inbox⟩ d' x later hrun
    cases inbox with
    | nil => cases hrun
    | cons y inbox => cases hrun; rfl
  exact hname.bind local_requestNamed

end Reads

/-! ## Runs on whole requests -/

/-- The datagrams that arrive. -/
def arrivals (es : List DaemonEvent) : List Datagram :=
  es.filterMap fun e =>
    match e with
    | .arrive d => some d
    | _ => none

/-- The datagrams of a list of calls, one call after the other. -/
def datagramsOf (calls : List (SockaddrIn × Call)) : List Datagram :=
  calls.flatMap fun c => c.2.datagrams c.1

/-- What the daemon has taken for a request is the request of this call, and is answered to the
process that has made it. -/
def Answers (x : SockaddrIn × Option Request) (c : SockaddrIn × Call) : Prop :=
  x.1 = c.1 ∧ ∃ r, x.2 = some r ∧ r.Alike c.2.request

lemma arrivals_append (es es' : List DaemonEvent) :
    arrivals (es ++ es') = arrivals es ++ arrivals es' := List.filterMap_append

lemma datagramsOf_append (calls calls' : List (SockaddrIn × Call)) :
    datagramsOf (calls ++ calls') = datagramsOf calls ++ datagramsOf calls' :=
  List.flatMap_append

/-- The events of a run on the socket with the calls whole: every pass over the daemon's socket
that serves a request is the next call, whose request has come in one piece, and all that happens
besides stays where it is. -/
inductive InOnePiece : List (SockaddrIn × Call) → List DaemonEvent → List Event → Prop
  | nil : InOnePiece [] [] []
  | arrive {order es es'} (d : Datagram) (h : InOnePiece order es es') :
      InOnePiece order (es ++ [.arrive d]) es'
  | message {order es es'} (stack : Buffer TCPD_MSG_LEN) (sys : Sys) (c : SockaddrIn × Call)
      (h : InOnePiece order es es') :
      InOnePiece (order ++ [c]) (es ++ [.message stack sys])
        (es' ++ [.front c.1 c.2.request sys])
  | other {order es es'} (e : Event) (h : InOnePiece order es es') :
      InOnePiece order (es ++ [.other e]) (es' ++ [e])

/-- The daemon on its socket has done as the daemon does when `order` are the calls that have
reached it whole: it is in the same state, has sent the same datagrams, has taken for requests
just these calls, and has answered none but the processes that have made them. -/
structure AsIfWhole (order : List (SockaddrIn × Call)) (es : List DaemonEvent) (s : Daemon)
    (os : List Out) : Prop where
  run : ∃ es', Tcpd.Run es' s.tcpd os ∧ InOnePiece order es es' ∧
    frontRequests es' = order.map fun c => (c.1, c.2.request)
  served : List.Forall₂ Answers (Daemon.served es) order
  answered : ∀ o ∈ os, o.AnswersOne (order.map fun c => (c.1, c.2.request))

/-- **One call.** When the next datagrams are those of a whole call, `process_tcpd_message`
serves that call. -/
lemma reads_of_prefix {s : Daemon} {stack : Buffer TCPD_MSG_LEN} {x : Option Request} {d : Reading}
    (h : s.reads stack = some (x, d)) {later rest : List Datagram} {c : SockaddrIn × Call}
    (hinbox : s.inbox ++ later = c.2.datagrams c.1 ++ rest) :
    ∃ r, x = some r ∧ d.frontAddr = c.1 ∧ r.Alike c.2.request ∧
      (r.Fits → s.inbox = c.2.datagrams c.1 ++ d.inbox) := by
  have hlater := Reads.local_processTcpdMessage stack _ _ _ later h
  obtain ⟨r, buf, left, hrun, halike, hfits⟩ :=
    Reads.run_processTcpdMessage default c.1 s.buf rest stack c.2
  rw [show (⟨default, s.buf, s.inbox ++ later⟩ : Reading)
    = ⟨default, s.buf, c.2.datagrams c.1 ++ rest⟩ by rw [hinbox]] at hlater
  rw [hrun] at hlater
  obtain ⟨hx, hd⟩ := Prod.mk.inj (Option.some_inj.mp hlater)
  refine ⟨r, hx.symm, ?_, halike, fun hr => ?_⟩
  · exact (congrArg Reading.frontAddr hd).symm
  · have hleft : left = d.inbox ++ later := congrArg Reading.inbox hd
    rw [← hfits hr, hleft, ← List.append_assoc] at hinbox
    exact List.append_cancel_right hinbox

/-- One more event. -/
lemma served_snoc {es : List DaemonEvent} {e : DaemonEvent} {s s' : Daemon} {os os' : List Out}
    (h : Daemon.Run es s os) (hstep : s.step e = .ok (s', os')) :
    Daemon.served (es ++ [e]) = Daemon.served es ++ s.takenFor e s' :=
  Daemon.machine.collect_snoc _ h hstep

/-- The next call, as far as it has arrived. -/
lemma exists_next {done inbox : List Datagram} {calls : List (SockaddrIn × Call)} {k : ℕ}
    (h : done ++ inbox <+: datagramsOf calls) (hdone : done = datagramsOf (calls.take k))
    (hinbox : inbox ≠ []) :
    ∃ (hk : k < calls.length) (later rest : List Datagram),
      inbox ++ later = calls[k].2.datagrams calls[k].1 ++ rest := by
  obtain ⟨later, hlater⟩ := h
  have hsplit : datagramsOf calls = done ++ datagramsOf (calls.drop k) := by
    rw [hdone, ← datagramsOf_append, List.take_append_drop]
  rw [hsplit, List.append_assoc] at hlater
  have hrest := List.append_cancel_left hlater
  by_cases hk : k < calls.length
  · rw [List.drop_eq_getElem_cons hk] at hrest
    exact ⟨hk, later, datagramsOf (calls.drop (k + 1)), hrest⟩
  · rw [List.drop_eq_nil_of_le (not_lt.mp hk)] at hrest
    exact absurd (List.append_eq_nil_iff.mp hrest).1 hinbox

/-- The first `k` calls have been served whole, and the rest of what has arrived waits. -/
structure ServedWhole (calls : List (SockaddrIn × Call)) (k : ℕ) (es : List DaemonEvent)
    (es' : List Event) (s : Daemon) (os : List Out) : Prop where
  inbox : arrivals es = datagramsOf (calls.take k) ++ s.inbox
  run : Tcpd.Run es' s.tcpd os
  events : InOnePiece (calls.take k) es es'
  fronts : frontRequests es' = (calls.take k).map fun c => (c.1, c.2.request)
  served : List.Forall₂ Answers (Daemon.served es) (calls.take k)

section Whole

variable {calls : List (SockaddrIn × Call)} {k : ℕ} {es : List DaemonEvent} {es' : List Event}
  {u s : Daemon} {os os' : List Out}

/-- A call is served. -/
lemma ServedWhole.message (h : ServedWhole calls k es es' u os) (hrun : Daemon.Run es u os)
    (hwhole : arrivals es <+: datagramsOf calls) {stack : Buffer TCPD_MSG_LEN} {sys : Sys}
    (hstep : u.step (.message stack sys) = .ok (s, os')) :
    ∃ k' es'', ServedWhole calls k' (es ++ [.message stack sys]) es'' s (os ++ os') := by
  have hserved := served_snoc hrun hstep
  simp only [Daemon.step] at hstep
  split at hstep
  · rename_i hroom
    cases hreads : u.reads stack with
    | none =>
      rw [hreads] at hstep
      cases hstep
    | some xd =>
      obtain ⟨x, d⟩ := xd
      have hinbox : u.inbox ≠ [] := by
        intro hnil
        rw [Daemon.reads, hnil] at hreads
        cases hreads
      -- what is in the inbox begins with the datagrams of call `k`
      obtain ⟨hk, later, rest, hnext⟩ := exists_next (h.inbox ▸ hwhole) rfl hinbox
      obtain ⟨r, rfl, hfrom, halike, hfits⟩ := reads_of_prefix hreads hnext
      rw [hreads] at hstep
      dsimp only at hstep
      split at hstep
      · cases hstep
      · rename_i tcpd os₁ hserve
        cases hstep
        have htake : calls.take (k + 1) = calls.take k ++ [calls[k]] := by
          rw [List.take_add_one, List.getElem?_eq_getElem hk]
          rfl
        have htcpd : u.tcpd.step (.front calls[k].1 calls[k].2.request sys) = .ok (tcpd, os') := by
          rw [Tcpd.step, if_pos hroom, ← hfrom, ← serve_alike halike]
          exact hserve
        refine ⟨k + 1, es' ++ [.front calls[k].1 calls[k].2.request sys], ?_, h.run.snoc htcpd,
          ?_, ?_, ?_⟩
        · have hrest := hfits (fits_of_serve hserve)
          rw [arrivals_append, htake, datagramsOf_append, h.inbox, hrest]
          simp [arrivals, datagramsOf]
        · exact htake ▸ h.events.message stack sys calls[k]
        · rw [frontRequests_append, h.fronts, htake, List.map_append]
          rfl
        · rw [hserved, htake, Daemon.takenFor, hreads]
          exact List.rel_append h.served (.cons ⟨hfrom, r, rfl, halike⟩ .nil)
  · cases hstep

/-- One event. -/
lemma ServedWhole.step (h : ServedWhole calls k es es' u os) (hrun : Daemon.Run es u os)
    {e : DaemonEvent} (hwhole : arrivals (es ++ [e]) <+: datagramsOf calls)
    (hstep : u.step e = .ok (s, os')) :
    ∃ k' es'', ServedWhole calls k' (es ++ [e]) es'' s (os ++ os') := by
  have hserved := served_snoc hrun hstep
  rw [arrivals_append] at hwhole
  cases e with
  | arrive d =>
    cases hstep
    refine ⟨k, es', ?_, by simpa using h.run, h.events.arrive d, h.fronts, ?_⟩
    · rw [arrivals_append, h.inbox, List.append_assoc]
      rfl
    · rw [hserved]
      simpa [Daemon.takenFor] using h.served
  | message stack sys =>
    exact h.message hrun ((List.prefix_append _ _).trans hwhole) hstep
  | other x =>
    simp only [Daemon.step] at hstep
    split at hstep
    · cases hstep
    · rename_i hfront
      split at hstep <;> cases hstep
      rename_i htcpd
      refine ⟨k, es' ++ [x], ?_, h.run.snoc htcpd, h.events.other x, ?_, ?_⟩
      · rw [arrivals_append, h.inbox]
        simp [arrivals]
      · have hnone : frontRequests [x] = [] := by
          cases x with
          | front addr r sys => exact absurd rfl hfront
          | _ => rfl
        rw [frontRequests_append, h.fronts, hnone, List.append_nil]
      · rw [hserved]
        simpa [Daemon.takenFor] using h.served

/-- **Requests that arrive whole are served whole.** When the datagrams of every call arrive
without a datagram of another call among them, the daemon does as if the calls had reached it
whole, one after the other, as far as they have arrived. -/
theorem whole_requests (calls : List (SockaddrIn × Call)) (es : List DaemonEvent) (s : Daemon)
    (os : List Out) (h : Daemon.Run es s os) (hwhole : arrivals es <+: datagramsOf calls) :
    ∃ k, arrivals es = datagramsOf (calls.take k) ++ s.inbox ∧
      AsIfWhole (calls.take k) es s os := by
  obtain ⟨k, es', hserved⟩ : ∃ k es', ServedWhole calls k es es' s os := by
    refine Daemon.machine.exec_induction (motive := fun es s os =>
      arrivals es <+: datagramsOf calls → ∃ k es', ServedWhole calls k es es' s os) ?_ ?_ h hwhole
    · intro _
      exact ⟨0, [], rfl, rfl, .nil, rfl, .nil⟩
    · intro es u o e s o' hrun ih hstep hwhole
      have hbefore : arrivals es <+: datagramsOf calls := by
        rw [arrivals_append] at hwhole
        exact (List.prefix_append _ _).trans hwhole
      obtain ⟨k, es', hserved⟩ := ih hbefore
      exact hserved.step hrun hwhole hstep
  exact ⟨k, hserved.inbox, ⟨es', hserved.run, hserved.events, hserved.fronts⟩,
    hserved.served,
    hserved.fronts ▸ answered_of_run hserved.run⟩

end Whole

/-! ## Two processes at once -/

/-- Each process's own datagrams arrive in the order it has sent them. -/
def KeepsOrder (calls : List (SockaddrIn × Call)) (ds : List Datagram) : Prop :=
  ∀ a, ds.filter (·.source = a) <+: datagramsOf (calls.filter (·.1 = a))

/-- Each process's own calls come in the order it has made them. -/
def SameOrder (order calls : List (SockaddrIn × Call)) : Prop :=
  ∀ a, order.filter (·.1 = a) <+: calls.filter (·.1 = a)

/-- A front process. -/
def frontA : SockaddrIn := default

/-- Another front process. -/
def frontB : SockaddrIn := { frontA with sinPort := 1 }

/-- `SOCKET` of one process arrives between the name of a `RECV` of the other and its
arguments. -/
def mixedRun : List DaemonEvent :=
  [.arrive ⟨frontA, CallName.RECV.message.toList⟩, .arrive ⟨frontB, CallName.SOCKET.message.toList⟩,
    .arrive ⟨frontA, intBytes 7⟩, .arrive ⟨frontA, sizeBytes 5⟩, .message (.zero _) calmSys]

/-- `tcpd_RECV` takes the next two datagrams for its arguments, whatever they are and whoever has
sent them. -/
lemma Reads.run_recvRequest (front : SockaddrIn) (buf : Buffer BUF_LEN) (x y : Datagram)
    (inbox : List Datagram) :
    ∃ buf', recvRequest.run ⟨front, buf, x :: y :: inbox⟩
      = some (.RECV (intOf (padTo 4 x.bytes)) (sizeOfBytes (padTo 8 y.bytes)),
        ⟨y.source, buf', inbox⟩) := by
  obtain ⟨buf₁, hx⟩ := run_argument 4 (by decide) front buf x (y :: inbox)
  obtain ⟨buf₂, hy⟩ := run_argument 8 (by decide) x.source buf₁ y inbox
  refine ⟨buf₂, ?_⟩
  simp [recvRequest, intArgument, sizeArgument, StateT.run_bind, hx, hy]

/-- The daemon when the datagrams of `mixedRun` have arrived. -/
def mixedDaemon : Daemon :=
  ⟨Tcpd.globalInit, .zero BUF_LEN, [⟨frontA, CallName.RECV.message.toList⟩,
    ⟨frontB, CallName.SOCKET.message.toList⟩, ⟨frontA, intBytes 7⟩, ⟨frontA, sizeBytes 5⟩]⟩

lemma reads_mixedDaemon (stack : Buffer TCPD_MSG_LEN) : ∃ buf,
    mixedDaemon.reads stack
      = some (some (.RECV 1262702419 7), ⟨frontA, buf, [⟨frontA, sizeBytes 5⟩]⟩) := by
  have hname := Reads.run_recvName default frontA (.zero BUF_LEN)
    [⟨frontB, CallName.SOCKET.message.toList⟩, ⟨frontA, intBytes 7⟩, ⟨frontA, sizeBytes 5⟩]
    stack CallName.RECV.message
  obtain ⟨buf, hrecv⟩ := Reads.run_recvRequest frontA (.zero BUF_LEN)
    ⟨frontB, CallName.SOCKET.message.toList⟩ ⟨frontA, intBytes 7⟩ [⟨frontA, sizeBytes 5⟩]
  have hfd : Reads.intOf (Reads.padTo 4 CallName.SOCKET.message.toList) = 1262702419 := by decide
  have hlen : Reads.sizeOfBytes (Reads.padTo 8 (intBytes 7)) = 7 := by decide
  refine ⟨buf, ?_⟩
  rw [Daemon.reads, Reads.processTcpdMessage, StateT.run_bind, mixedDaemon, hname,
    Option.bind_eq_bind, Option.bind_some, Reads.requestNamed_message, StateT.run_map, hrecv, hfd,
    hlen]
  rfl

/-- The daemon serves a `RECV` on the session whose number is the name `SOCKET`. -/
lemma run_mixedRun : ∃ s os, Daemon.Run mixedRun s os ∧
    Daemon.served mixedRun = [(frontA, some (.RECV 1262702419 7))] := by
  obtain ⟨buf, hreads⟩ := reads_mixedDaemon (.zero _)
  have harrived : Daemon.Run (mixedRun.take 4) mixedDaemon [] := rfl
  have hserve : Tcpd.globalInit.serve frontA (.RECV 1262702419 7) calmSys
      = .ok (Tcpd.globalInit, [.code frontA (-2)]) := rfl
  have hstep : mixedDaemon.step (.message (.zero _) calmSys)
      = .ok (⟨Tcpd.globalInit, buf, [⟨frontA, sizeBytes 5⟩]⟩, [.code frontA (-2)]) := by
    have htcpd : mixedDaemon.tcpd = Tcpd.globalInit := rfl
    have hroom : Tcpd.globalInit.inBufferPackages < MAX_BUFFER_PACKAGES := by decide
    simp only [Daemon.step, htcpd, if_pos hroom, hreads, hserve]
  have hrun : Daemon.Run (mixedRun.take 4 ++ [.message (.zero _) calmSys]) _ _ :=
    Daemon.machine.exec_snoc.mpr ⟨_, _, _, harrived, hstep, rfl⟩
  have hserved := served_snoc harrived hstep
  rw [Daemon.takenFor, hreads] at hserved
  exact ⟨_, _, hrun, hserved⟩

/-- The calls of the two processes are not isolated. -/
theorem not_always_isolated :
    ¬ ∀ (calls : List (SockaddrIn × Call)) (es : List DaemonEvent) (s : Daemon) (os : List Out),
      Daemon.Run es s os → KeepsOrder calls (arrivals es) →
        ∃ order, SameOrder order calls ∧ AsIfWhole order es s os := by
  intro hall
  obtain ⟨s, os, hrun, hserved⟩ := run_mixedRun
  have hkeeps : KeepsOrder [(frontA, .RECV 7 5), (frontB, .SOCKET)] (arrivals mixedRun) := by
    intro a
    by_cases ha : a = frontA
    · subst ha
      decide
    · by_cases hb : a = frontB
      · subst hb
        decide
      · simp [arrivals, mixedRun, Ne.symm ha, Ne.symm hb]
  obtain ⟨order, hsame, hwhole⟩ := hall _ _ s os hrun hkeeps
  have hanswers := hwhole.served
  rw [hserved] at hanswers
  cases hanswers with
  | @cons _ c _ rest hfirst hrest =>
    cases hrest
    obtain ⟨hfrom, r, hr, halike⟩ := hfirst
    cases hr
    obtain ⟨a, call⟩ := c
    dsimp only at hfrom halike
    subst hfrom
    have hprefix := hsame frontA
    cases call with
    | RECV fd len' =>
      have hfd : (1262702419 : Int32) = fd := by
        cases halike
        rfl
      subst hfd
      simp [frontA, frontB] at hprefix
    | _ => cases halike

/-- The same two calls, each in one piece. -/
def wholeCalls : List (SockaddrIn × Call) := [(frontA, .RECV 7 5), (frontB, .SOCKET)]

/-- They arrive and are served. -/
def wholeRun : List DaemonEvent :=
  (datagramsOf wholeCalls).map .arrive
    ++ [.message (.zero _) calmSys] ++ [.message (.zero _) calmSys]

lemma run_wholeRun : ∃ s, Daemon.Run wholeRun s [.code frontA (-2), .code frontB 3] := by
  have harrived : Daemon.Run ((datagramsOf wholeCalls).map .arrive)
    ⟨Tcpd.globalInit, .zero BUF_LEN, datagramsOf wholeCalls⟩ [] := rfl
  obtain ⟨r₁, buf₁, left₁, hread₁, halike₁, hfits₁⟩ := Reads.run_processTcpdMessage default frontA
    (.zero BUF_LEN) (Call.SOCKET.datagrams frontB) (.zero _) (.RECV 7 5)
  obtain rfl : r₁ = .RECV 7 5 := by
    cases r₁ <;> cases halike₁
    rfl
  obtain rfl := hfits₁ trivial
  obtain ⟨r₂, buf₂, left₂, hread₂, halike₂, hfits₂⟩ :=
    Reads.run_processTcpdMessage default frontB buf₁ [] (.zero _) .SOCKET
  obtain rfl : r₂ = .SOCKET := by
    cases r₂ <;> cases halike₂
    rfl
  have hroom : Tcpd.globalInit.inBufferPackages < MAX_BUFFER_PACKAGES := by decide
  have hstep₁ : Daemon.step ⟨Tcpd.globalInit, .zero BUF_LEN, datagramsOf wholeCalls⟩
      (.message (.zero _) calmSys)
        = .ok (⟨Tcpd.globalInit, buf₁, Call.SOCKET.datagrams frontB⟩, [.code frontA (-2)]) := by
    have hserve : Tcpd.globalInit.serve frontA (.RECV 7 5) calmSys
        = .ok (Tcpd.globalInit, [.code frontA (-2)]) := rfl
    simp only [Daemon.step, if_pos hroom]
    rw [show Daemon.reads ⟨Tcpd.globalInit, .zero BUF_LEN, datagramsOf wholeCalls⟩ (.zero _) = _
      from hread₁]
    simp only [hserve]
  have hstep₂ : Daemon.step ⟨Tcpd.globalInit, buf₁, Call.SOCKET.datagrams frontB⟩
      (.message (.zero _) calmSys)
        = .ok (⟨Tcpd.globalInit, buf₂, left₂⟩, [.code frontB 3]) := by
    have hserve : Tcpd.globalInit.serve frontB .SOCKET calmSys
        = .ok (Tcpd.globalInit, [.code frontB 3]) := rfl
    simp only [Daemon.step, if_pos hroom]
    rw [show Daemon.reads ⟨Tcpd.globalInit, buf₁, Call.SOCKET.datagrams frontB⟩ (.zero _) = _
      from hread₂]
    simp only [hserve]
  have hfirst : Daemon.Run ((datagramsOf wholeCalls).map .arrive ++ [.message (.zero _) calmSys])
      _ _ := Daemon.machine.exec_snoc.mpr ⟨_, _, _, harrived, hstep₁, rfl⟩
  exact ⟨_, Daemon.machine.exec_snoc.mpr ⟨_, _, _, hfirst, hstep₂, rfl⟩⟩

/-- Both calls are served as they were made. -/
theorem whole_requests_wholeRun : ∃ s k,
    Daemon.Run wholeRun s [.code frontA (-2), .code frontB 3] ∧
      arrivals wholeRun = datagramsOf (wholeCalls.take k) ++ s.inbox ∧
        AsIfWhole (wholeCalls.take k) wholeRun s [.code frontA (-2), .code frontB 3] := by
  obtain ⟨s, hrun⟩ := run_wholeRun
  obtain ⟨k, hinbox, hwhole⟩ := whole_requests wholeCalls wholeRun s _ hrun (by decide)
  exact ⟨s, k, hrun, hinbox, hwhole⟩

end NetworkProgramming
