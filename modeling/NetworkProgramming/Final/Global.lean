import NetworkProgramming.Final.Timer
import NetworkProgramming.Lib.HashTable

/-!
# `Global.h`: the state of `tcpd`

One daemon serves both ends of a connection: the tables of bound, waiting and accepted
sockets belong to its receiving side, the table of connected sockets, the count of buffered
packages and the round-trip estimator to its sending side.
-/

namespace NetworkProgramming

/-- `struct binded_sock`. -/
structure BindedSock where
  socketFD : Int32
  accepting : Bool
  acceptingAddr : SockaddrIn

/-- `struct acked_sock`. -/
structure AckedSock where
  socketFD : Int32
  session : UInt32
  base : UInt32
  receivingLength : UInt64
  receivingAddr : SockaddrIn
  packages : List TrollMessageStruct
  recvBuffer : Buffer BUF_LEN
  recvBufferSize : UInt64

/-- `struct connected_sock`. -/
structure ConnectedSock where
  socketFD : Int32
  session : UInt32
  base : UInt32
  minSeq : UInt32
  serverAddr : SockaddrIn
  packages : List TrollMessageStruct
  pendingPackages : List TrollMessageStruct

/-- The globals of the round-trip estimator, in exact arithmetic. -/
structure Estimator where
  sendTime : Timeval := ⟨0, 0⟩
  ackTime : Timeval := ⟨0, 0⟩
  elapsedSeconds : ℚ := 0
  estimatedRTT : ℚ := 0
  estimatedRTTprev : ℚ := 1 / 100
  estimatedDEV : ℚ := 0
  estimatedDEVprev : ℚ := 1 / 100
  estimatedRTO : ℚ := 0

/-- The globals of the daemon. -/
structure Tcpd where
  bindedSockets : List BindedSock
  ackedSockets : HashTable UInt32 AckedSock
  waitingAckSockets : List AckedSock
  connectedSockets : HashTable Int32 ConnectedSock
  inBufferPackages : ℤ
  estimator : Estimator

/-- `global_init`: the tables are empty. -/
def Tcpd.globalInit : Tcpd :=
  { bindedSockets := [], ackedSockets := .empty, waitingAckSockets := [],
    connectedSockets := .empty, inBufferPackages := 0, estimator := {} }

/-- Why the daemon does not go on. -/
inductive Halt
  /-- `exit`, with its status -/
  | exit (status : ℕ)
  /-- a copy leaves the buffer it reads or writes: what follows is not defined -/
  | outOfBounds
  /-- `select` has not marked the socket of the event -/
  | notReady
deriving DecidableEq

/-- A datagram the daemon sends. The socket or session an answer belongs to is not part of
the datagram. -/
inductive Out
  /-- a frame, through a connected socket to the troll -/
  | frame (socketFD : Int32) (m : TrollMessageStruct)
  /-- an ack, through a bound socket to the troll -/
  | ack (socketFD : Int32) (a : TrollAckStruct)
  /-- a request to the timer process -/
  | timer (r : TimerRequestStruct)
  /-- an `int` returned to a front process -/
  | code (addr : SockaddrIn) (ret : Int32)
  /-- the session that answers an `ACCEPT` on `socketFD` -/
  | accepted (addr : SockaddrIn) (socketFD : Int32) (session : UInt32)
  /-- the bytes that answer a `RECV` on `session` -/
  | data (addr : SockaddrIn) (session : UInt32) (bytes : List UInt8)
deriving DecidableEq

end NetworkProgramming
