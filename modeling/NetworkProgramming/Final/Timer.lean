import NetworkProgramming.Final.Header
import NetworkProgramming.Lib.DeltaList

/-!
# `timer.c`: the timer process

One process keeps the retransmission timers of a daemon in a delta list: a node stores the
time that is left after its predecessor has expired (`RemainSeconds`, here in exact
arithmetic). A round of the main loop updates the list with the time that has passed, serves
at most one request, and sends the callbacks of the nodes that have no time left.
-/

namespace NetworkProgramming

/-- `TimerRequestStart`. -/
def TimerRequestStart : UInt8 := 1

/-- `TimerRequestCancel`. -/
def TimerRequestCancel : UInt8 := 2

/-- `struct TimerRequestStruct`. -/
structure TimerRequestStruct where
  type : UInt8
  session : Int32
  seqNum : Int32
  seconds : ℚ
deriving DecidableEq

/-- `struct TimerExpiredStruct`. -/
structure TimerExpiredStruct where
  session : Int32
  seqNum : Int32
deriving DecidableEq

/-- `SendTimerRequest`: the request it sends; the arguments become `int`s. -/
def sendTimerRequest (session seqNum : UInt32) (seconds : ℚ) : TimerRequestStruct :=
  { type := TimerRequestStart, session := session.toInt32, seqNum := seqNum.toInt32, seconds }

/-- `CancelTimerRequest`: the request it sends. -/
def cancelTimerRequest (session seqNum : UInt32) : TimerRequestStruct :=
  { type := TimerRequestCancel, session := session.toInt32, seqNum := seqNum.toInt32, seconds := 0 }

/-- `struct TimerNodeStruct`. -/
structure TimerNodeStruct where
  session : Int32
  seqNum : Int32
  remainSeconds : ℚ
  requestAddr : SockaddrIn
deriving DecidableEq

/-- The node and the request carry the same `(Session, SeqNum)`. -/
def TimerNodeStruct.sameKey (n : TimerNodeStruct) (r : TimerRequestStruct) : Bool :=
  n.session = r.session ∧ n.seqNum = r.seqNum

/-- The second loop of `InsertRequest`: the new node passes every node that has no more time
left than itself, and the node behind it is corrected. -/
def insertNode (nowNode : TimerNodeStruct) : List TimerNodeStruct → List TimerNodeStruct
  | [] => [nowNode]
  | n :: l =>
    if nowNode.remainSeconds < n.remainSeconds then
      nowNode :: { n with remainSeconds := n.remainSeconds - nowNode.remainSeconds } :: l
    else
      n :: insertNode { nowNode with remainSeconds := nowNode.remainSeconds - n.remainSeconds } l

/-- `InsertRequest`: a request whose key is in the list already is refused. -/
def insertRequest (timerList : List TimerNodeStruct) (nowRequest : TimerRequestStruct)
    (requestAddr : SockaddrIn) : List TimerNodeStruct :=
  if timerList.any (·.sameKey nowRequest) then timerList
  else
    insertNode
      { session := nowRequest.session, seqNum := nowRequest.seqNum,
        remainSeconds := nowRequest.seconds, requestAddr } timerList

/-- The node after a deleted one takes over its time. -/
def giveTime (seconds : ℚ) : List TimerNodeStruct → List TimerNodeStruct
  | [] => []
  | n :: l => { n with remainSeconds := n.remainSeconds + seconds } :: l

/-- `CancelRequest`: the first node with the key of the request is deleted. -/
def cancelRequest (nowRequest : TimerRequestStruct) : List TimerNodeStruct → List TimerNodeStruct
  | [] => []
  | n :: l =>
    if n.sameKey nowRequest then giveTime n.remainSeconds l else n :: cancelRequest nowRequest l

/-- The loop of `UpdateTimerList`, entered with `carry` still to be added to the first node:
a node that has no time left passes its (negative) rest on and is set to `0`. -/
def passOverTime (carry : ℚ) : List TimerNodeStruct → List TimerNodeStruct
  | [] => []
  | n :: l =>
    if 0 < n.remainSeconds + carry then
      { n with remainSeconds := n.remainSeconds + carry } :: l
    else
      { n with remainSeconds := 0 } :: passOverTime (n.remainSeconds + carry) l

/-- A callback: the expired key and the address it is sent to. -/
structure Callback where
  requestAddr : SockaddrIn
  expired : TimerExpiredStruct
deriving DecidableEq

/-- The callback of a node. -/
def TimerNodeStruct.callback (n : TimerNodeStruct) : Callback :=
  { requestAddr := n.requestAddr, expired := { session := n.session, seqNum := n.seqNum } }

/-- `SendCallbacks`: the nodes at the front that have no time left are called back and
deleted. -/
def sendCallbacks : List TimerNodeStruct → List TimerNodeStruct × List Callback
  | [] => ([], [])
  | n :: l =>
    if 0 < n.remainSeconds then (n :: l, [])
    else ((sendCallbacks l).1, n.callback :: (sendCallbacks l).2)

/-- The state of the timer process. -/
structure TimerProcess where
  timerList : List TimerNodeStruct
  lastSystemTime : Timeval

/-- What a round of the main loop reads: the clock and at most one request with the address
it came from. -/
structure TimerInput where
  nowSystemTime : Timeval
  request : Option (TimerRequestStruct × SockaddrIn)

namespace TimerProcess

/-- `ElapsedSeconds` of `UpdateTimerList`. -/
def elapsedSeconds (p : TimerProcess) (nowSystemTime : Timeval) : ℚ :=
  (nowSystemTime.tvSec - p.lastSystemTime.tvSec : ℤ) + nowSystemTime.tvUsec / 1000000
    - p.lastSystemTime.tvUsec / 1000000

/-- `UpdateTimerList`. -/
def updateTimerList (p : TimerProcess) (nowSystemTime : Timeval) : TimerProcess :=
  { timerList := passOverTime (-p.elapsedSeconds nowSystemTime) p.timerList,
    lastSystemTime := nowSystemTime }

/-- The `switch` on the type of a request; other types are ignored. -/
def serve (p : TimerProcess) : Option (TimerRequestStruct × SockaddrIn) → TimerProcess
  | none => p
  | some (r, addr) =>
    if r.type = TimerRequestStart then
      { p with timerList := insertRequest p.timerList r addr }
    else if r.type = TimerRequestCancel then
      { p with timerList := cancelRequest r p.timerList }
    else p

/-- One round of the main loop. -/
def iterate (p : TimerProcess) (i : TimerInput) : TimerProcess × List Callback :=
  let served := (p.updateTimerList i.nowSystemTime).serve i.request
  ({ served with timerList := (sendCallbacks served.timerList).1 },
    (sendCallbacks served.timerList).2)

/-- The callbacks of a sequence of rounds, round by round. -/
def run : TimerProcess → List TimerInput → List (List Callback)
  | _, [] => []
  | p, i :: is => (p.iterate i).2 :: run (p.iterate i).1 is

lemma elapsedSeconds_eq (p : TimerProcess) (t : Timeval) :
    p.elapsedSeconds t = t.seconds - p.lastSystemTime.seconds := by
  simp only [elapsedSeconds, Timeval.seconds]
  push_cast
  ring

end TimerProcess

/-! ## The delta list of the process -/

/-- What a node carries beside its time. -/
def TimerNodeStruct.key (n : TimerNodeStruct) : Int32 × Int32 × SockaddrIn :=
  (n.session, n.seqNum, n.requestAddr)

/-- The nodes as a delta list. -/
def deltas (l : List TimerNodeStruct) : List ((Int32 × Int32 × SockaddrIn) × ℚ) :=
  l.map fun n => (n.key, n.remainSeconds)

@[simp] lemma deltas_nil : deltas [] = [] := rfl

@[simp] lemma deltas_cons (n : TimerNodeStruct) (l : List TimerNodeStruct) :
    deltas (n :: l) = (n.key, n.remainSeconds) :: deltas l := rfl

theorem deltas_insertNode (n : TimerNodeStruct) (l : List TimerNodeStruct) :
    deltas (insertNode n l) = DeltaList.insert n.key n.remainSeconds (deltas l) := by
  induction l generalizing n with
  | nil => rfl
  | cons m l ih =>
    rw [insertNode, deltas_cons, DeltaList.insert]
    split
    · rfl
    · rw [deltas_cons, ih]
      rfl

theorem deltas_cancelRequest (r : TimerRequestStruct) (l : List TimerNodeStruct) :
    deltas (cancelRequest r l)
      = DeltaList.erase (fun k => decide (k.1 = r.session ∧ k.2.1 = r.seqNum)) (deltas l) := by
  induction l with
  | nil => rfl
  | cons n l ih =>
    rw [deltas_cons, DeltaList.erase, cancelRequest]
    have hkey : decide (n.key.1 = r.session ∧ n.key.2.1 = r.seqNum) = n.sameKey r := rfl
    rw [hkey]
    split
    · cases l <;> rfl
    · rw [deltas_cons, ih]

theorem deltas_passOverTime (c : ℚ) (l : List TimerNodeStruct) :
    deltas (passOverTime c l) = DeltaList.carry c (deltas l) := by
  induction l generalizing c with
  | nil => rfl
  | cons n l ih =>
    rw [passOverTime, deltas_cons, DeltaList.carry]
    split
    · rfl
    · rw [deltas_cons, ih]
      rfl

theorem deltas_sendCallbacks (l : List TimerNodeStruct) :
    deltas (sendCallbacks l).1 = (deltas l).dropWhile (fun x => decide (x.2 ≤ 0)) := by
  induction l with
  | nil => rfl
  | cons n l ih =>
    by_cases h : 0 < n.remainSeconds
    · simp [sendCallbacks, h]
    · simp [sendCallbacks, h, ih, not_lt.mp h]

/-- The callback that the key of a delta list stands for. -/
def keyCallback (k : Int32 × Int32 × SockaddrIn) : Callback :=
  { requestAddr := k.2.2, expired := { session := k.1, seqNum := k.2.1 } }

theorem callbacks_sendCallbacks (l : List TimerNodeStruct) :
    (sendCallbacks l).2
      = ((deltas l).takeWhile (fun x => decide (x.2 ≤ 0))).map (fun x => keyCallback x.1) := by
  induction l with
  | nil => rfl
  | cons n l ih =>
    by_cases h : 0 < n.remainSeconds
    · simp [sendCallbacks, h]
    · simp [sendCallbacks, h, ih, not_lt.mp h]
      rfl

end NetworkProgramming
