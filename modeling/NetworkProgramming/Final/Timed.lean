import NetworkProgramming.Final.Connection
import NetworkProgramming.Final.Timer
import NetworkProgramming.Lib.Progress

/-!
# A daemon and its timer process

The two processes talk over two FIFO channels: `tcpd` sends `Start` and `Cancel` requests, the
timer process sends expiries back. Either process may take a step at any time. `timed_step`
says what a step does, and `armed_*` what a round of the timer process does to the keys it keeps.
Left to itself the timer process serves all requests, and in the end every timer expires
(`exists_allExpired`).
-/

namespace NetworkProgramming

/-- The address of `sock_timer_driver`, as the timer process sees it. -/
def timerDriverAddr : SockaddrIn := default

/-- A daemon, its timer process, and what is in flight between them, oldest first. -/
structure Timed where
  tcpd : Tcpd
  requests : List TimerRequestStruct
  timer : TimerProcess
  expiries : List TimerExpiredStruct

/-- A step of one of the two processes. -/
inductive TimedEvent
  /-- an event of `tcpd` other than an expiry -/
  | tcpd (e : Event)
  /-- `tcpd` receives the oldest expiry -/
  | expiry
  /-- a round of the timer process, which receives the oldest request or none -/
  | round (nowSystemTime : Timeval) (receive : Bool)

namespace Timed

/-- Both processes have just started. -/
def start (nowSystemTime : Timeval) : Timed :=
  { tcpd := Tcpd.globalInit, requests := [], timer := ⟨[], nowSystemTime⟩, expiries := [] }

/-- A round of the timer process that receives `request` and leaves `rest` in the channel. -/
def round (s : Timed) (nowSystemTime : Timeval) (request : Option TimerRequestStruct)
    (rest : List TimerRequestStruct) : Timed :=
  let r := s.timer.iterate ⟨nowSystemTime, request.map fun x => (x, timerDriverAddr)⟩
  { s with requests := rest, timer := r.1, expiries := s.expiries ++ r.2.map (·.expired) }

/-- One step. -/
def step (s : Timed) : TimedEvent → Except Halt (Timed × List Out)
  | .tcpd (.timer _) => .error .notReady
  | .tcpd e =>
    match s.tcpd.step e with
    | .error x => .error x
    | .ok (tcpd, os) => .ok ({ s with tcpd, requests := s.requests ++ timersOf os }, os)
  | .expiry =>
    match s.expiries with
    | [] => .error .notReady
    | x :: expiries =>
      match s.tcpd.step (.timer x) with
      | .error y => .error y
      | .ok (tcpd, os) => .ok ({ s with tcpd, expiries }, os)
  | .round nowSystemTime receive =>
    match receive, s.requests with
    | false, requests => .ok (s.round nowSystemTime none requests, [])
    | true, [] => .error .notReady
    | true, r :: rest => .ok (s.round nowSystemTime (some r) rest, [])

/-- The daemon and its timer process. -/
def machine : Machine Timed TimedEvent Out Halt := ⟨step⟩

/-- A run of the two processes. -/
def Run (now : Timeval) (es : List TimedEvent) (s : Timed) (os : List Out) : Prop :=
  machine.exec (start now) es = .ok (s, os)

end Timed

/-- What one step of the two processes does. -/
inductive TimedStep (s : Timed) : TimedEvent → Timed → List Out → Prop
  /-- an event of `tcpd` -/
  | tcpd {e : Event} {t : Tcpd} {os : List Out} (hne : ∀ x, e ≠ .timer x)
      (hstep : s.tcpd.step e = .ok (t, os)) :
      TimedStep s (.tcpd e) { s with tcpd := t, requests := s.requests ++ timersOf os } os
  /-- the reception of an expiry -/
  | expiry {x : TimerExpiredStruct} {expiries : List TimerExpiredStruct} {t : Tcpd}
      {os : List Out} (hx : s.expiries = x :: expiries)
      (hstep : s.tcpd.step (.timer x) = .ok (t, os)) :
      TimedStep s .expiry { s with tcpd := t, expiries := expiries } os
  /-- a round of the timer process -/
  | round {now : Timeval} {receive : Bool} {request : Option TimerRequestStruct}
      {rest : List TimerRequestStruct} (hrequests : s.requests = request.toList ++ rest) :
      TimedStep s (.round now receive) (s.round now request rest) []

/-- **One step of a daemon with its timer process.** -/
theorem timed_step {s s' : Timed} {e : TimedEvent} {os : List Out}
    (h : s.step e = .ok (s', os)) : TimedStep s e s' os := by
  -- every event of the daemon but an expiry goes the same way
  have htcpd : ∀ {e' : Event}, (∀ x, e' ≠ .timer x) →
      (match s.tcpd.step e' with
        | .error x => .error x
        | .ok (tcpd, os) => .ok ({ s with tcpd, requests := s.requests ++ timersOf os }, os))
        = (Except.ok (s', os) : Except Halt (Timed × List Out)) →
      TimedStep s (.tcpd e') s' os := by
    intro e' hne h
    split at h
    · cases h
    · rename_i t os' hstep
      cases h
      exact .tcpd hne hstep
  cases e with
  | tcpd e =>
    cases e with
    | timer x => cases h
    | _ => exact htcpd (by simp) h
  | expiry =>
    simp only [Timed.step] at h
    split at h
    · cases h
    · rename_i x expiries hx
      split at h
      · cases h
      · rename_i t os' hstep
        cases h
        exact .expiry hx hstep
  | round now receive =>
    simp only [Timed.step] at h
    split at h
    · cases h
      exact .round rfl
    · cases h
    · rename_i r rest hrequests
      cases h
      exact .round hrequests

/-- The sending side of the daemon stays in order. -/
lemma Timed.clientOk_step {s s' : Timed} {e : TimedEvent} {os : List Out}
    (hok : s.tcpd.ClientOk) (h : s.step e = .ok (s', os)) : s'.tcpd.ClientOk := by
  cases timed_step h with
  | tcpd _ hstep => exact NetworkProgramming.clientOk_step hok hstep
  | expiry _ hstep => exact NetworkProgramming.clientOk_step hok hstep
  | round _ => exact hok

/-- What the daemon does alone, while the timer process does not move. -/
lemma Timed.exec_tcpd {s : Timed} {es : List Event} {t : Tcpd} {os : List Out}
    (h : Tcpd.machine.exec s.tcpd es = .ok (t, os)) (hne : ∀ x, .timer x ∉ es) :
    Timed.machine.exec s (es.map .tcpd)
      = .ok ({ s with tcpd := t, requests := s.requests ++ timersOf os }, os) := by
  refine Tcpd.machine.exec_induction (motive := fun es t os => (∀ x, .timer x ∉ es) →
    Timed.machine.exec s (es.map .tcpd)
      = .ok ({ s with tcpd := t, requests := s.requests ++ timersOf os }, os))
    (fun _ => ?_) ?_ h hne
  · rw [timersOf_nil, List.append_nil]
    rfl
  · intro es u o e t o' _ ih hstep hne
    have hexec := ih fun x hx => hne x (List.mem_append_left _ hx)
    rw [List.map_append]
    refine Timed.machine.exec_snoc.mpr ⟨_, o, o', hexec, ?_, rfl⟩
    have hstep' : u.step e = .ok (t, o') := hstep
    cases e with
    | timer x => exact absurd (by simp) (hne x)
    | _ => simp only [Timed.machine, Timed.step, hstep', timersOf_append, List.append_assoc]

lemma Timed.run_of_tcpd (now : Timeval) {es : List Event} {t : Tcpd} {os : List Out}
    (h : Tcpd.Run es t os) (hne : ∀ x, .timer x ∉ es) :
    Timed.Run now (es.map .tcpd)
      { Timed.start now with tcpd := t, requests := timersOf os } os :=
  Timed.exec_tcpd h hne

/-! ## The keys of the timer process -/

/-- A timer runs for the key. -/
def Armed (timerList : List TimerNodeStruct) (session seqNum : Int32) : Prop :=
  ∃ n ∈ timerList, n.session = session ∧ n.seqNum = seqNum

/-- The request is a `Start` of the key. -/
def TimerRequestStruct.Starts (r : TimerRequestStruct) (session seqNum : Int32) : Prop :=
  r.type = TimerRequestStart ∧ r.session = session ∧ r.seqNum = seqNum

/-- The request is a `Cancel` of the key. -/
def TimerRequestStruct.Cancels (r : TimerRequestStruct) (session seqNum : Int32) : Prop :=
  r.type = TimerRequestCancel ∧ r.session = session ∧ r.seqNum = seqNum

section Keys

variable {s n : Int32} {l : List TimerNodeStruct} {r : TimerRequestStruct}

@[simp] lemma not_armed_nil : ¬ Armed [] s n := by simp [Armed]

@[simp] lemma armed_cons {node : TimerNodeStruct} :
    Armed (node :: l) s n ↔ (node.session = s ∧ node.seqNum = n) ∨ Armed l s n := by
  simp [Armed]

lemma armed_insertNode (node : TimerNodeStruct) :
    Armed (insertNode node l) s n ↔ (node.session = s ∧ node.seqNum = n) ∨ Armed l s n := by
  induction l generalizing node with
  | nil => simp [insertNode]
  | cons m l ih =>
    rw [insertNode]
    split
    · simp only [armed_cons]
    · simp only [armed_cons, ih]
      exact or_left_comm

lemma armed_insertRequest (addr : SockaddrIn) :
    Armed (insertRequest l r addr) s n ↔ (r.session = s ∧ r.seqNum = n) ∨ Armed l s n := by
  unfold insertRequest
  split
  · rename_i hany
    obtain ⟨m, hm, hkey⟩ := List.any_eq_true.mp hany
    simp only [TimerNodeStruct.sameKey, decide_eq_true_eq] at hkey
    refine ⟨Or.inr, ?_⟩
    rintro (⟨rfl, rfl⟩ | h)
    · exact ⟨m, hm, hkey⟩
    · exact h
  · exact armed_insertNode _

lemma armed_giveTime (seconds : ℚ) : Armed (giveTime seconds l) s n ↔ Armed l s n := by
  cases l with
  | nil => rfl
  | cons m l => simp only [giveTime, armed_cons]

/-- A `Cancel` arms nothing, and touches no other key. -/
lemma armed_cancelRequest :
    (Armed (cancelRequest r l) s n → Armed l s n) ∧
      (¬ (r.session = s ∧ r.seqNum = n) → Armed l s n → Armed (cancelRequest r l) s n) := by
  induction l with
  | nil => simp [cancelRequest]
  | cons m l ih =>
    rw [cancelRequest]
    split
    · rename_i hkey
      simp only [TimerNodeStruct.sameKey, decide_eq_true_eq] at hkey
      rw [armed_giveTime, armed_cons]
      refine ⟨Or.inr, fun hne h => h.resolve_left ?_⟩
      rwa [hkey.1, hkey.2]
    · simp only [armed_cons]
      exact ⟨Or.imp_right ih.1, fun hne => Or.imp_right (ih.2 hne)⟩

lemma armed_passOverTime (carry : ℚ) : Armed (passOverTime carry l) s n ↔ Armed l s n := by
  induction l generalizing carry with
  | nil => rfl
  | cons m l ih =>
    rw [passOverTime]
    split <;> simp only [armed_cons, ih]

/-- A timer that is called back is gone, and every other one stays. -/
lemma armed_sendCallbacks :
    Armed l s n ↔ Armed (sendCallbacks l).1 s n ∨
      ⟨s, n⟩ ∈ (sendCallbacks l).2.map (·.expired) := by
  induction l with
  | nil => simp [sendCallbacks]
  | cons m l ih =>
    rw [sendCallbacks]
    split
    · simp
    · simp only [armed_cons, ih, TimerNodeStruct.callback, List.map_cons, List.mem_cons,
        TimerExpiredStruct.mk.injEq]
      have hkey : (m.session = s ∧ m.seqNum = n) ↔ (s = m.session ∧ n = m.seqNum) :=
        and_congr eq_comm eq_comm
      rw [hkey]
      exact or_left_comm

/-- What a round does to the keys: whatever it serves is armed or called back. -/
lemma armed_round (p : TimerProcess) (now : Timeval) (request : Option TimerRequestStruct) :
    let r := p.iterate ⟨now, request.map fun x => (x, timerDriverAddr)⟩
    (Armed r.1.timerList s n ∨ ⟨s, n⟩ ∈ r.2.map (·.expired) →
        Armed p.timerList s n ∨ ∃ x ∈ request, x.Starts s n) ∧
      ((∃ x ∈ request, x.Starts s n) ∨
          (Armed p.timerList s n ∧ ∀ x ∈ request, ¬ x.Cancels s n) →
        Armed r.1.timerList s n ∨ ⟨s, n⟩ ∈ r.2.map (·.expired)) := by
  intro r
  have hserved : (Armed r.1.timerList s n ∨ ⟨s, n⟩ ∈ r.2.map (·.expired)) ↔
      Armed ((p.updateTimerList now).serve
        (request.map fun x => (x, timerDriverAddr))).timerList s n :=
    armed_sendCallbacks.symm
  have hupdated : Armed (p.updateTimerList now).timerList s n ↔ Armed p.timerList s n :=
    armed_passOverTime _
  rw [hserved, ← hupdated]
  cases request with
  | none => simp [TimerProcess.serve]
  | some x =>
    simp only [Option.map_some, TimerProcess.serve, Option.mem_def, Option.some.injEq,
      exists_eq_left', forall_eq', TimerRequestStruct.Starts, TimerRequestStruct.Cancels]
    split
    · rename_i hstart
      simp only [armed_insertRequest, hstart]
      exact ⟨fun h => h.symm.imp_right fun hkey => ⟨trivial, hkey⟩,
        fun h => h.imp And.right And.left⟩
    · rename_i hstart
      split
      · rename_i hcancel
        have hcases := armed_cancelRequest (s := s) (n := n) (r := x)
          (l := (p.updateTimerList now).timerList)
        simp only [hcancel]
        refine ⟨fun h => Or.inl (hcases.1 h), ?_⟩
        rintro (⟨hboth, -⟩ | ⟨harmed, hother⟩)
        · exact absurd hboth (by decide)
        · exact hcases.2 (fun hkey => hother ⟨trivial, hkey⟩) harmed
      · simp only [hstart]
        refine ⟨Or.inl, ?_⟩
        rintro (⟨hfalse, -⟩ | ⟨harmed, -⟩)
        · exact hfalse.elim
        · exact harmed

end Keys

/-! ## A round that comes late -/

/-- The time after which every timer of a list has expired. -/
def remainTotal (l : List TimerNodeStruct) : ℚ := (l.map fun n => |n.remainSeconds|).sum

lemma remainTotal_nonneg (l : List TimerNodeStruct) : 0 ≤ remainTotal l :=
  List.sum_nonneg (by simp)

/-- When more time has passed than is left in the whole list, no timer is left. -/
lemma sendCallbacks_passOverTime {carry : ℚ} {l : List TimerNodeStruct}
    (hlate : remainTotal l ≤ -carry) : (sendCallbacks (passOverTime carry l)).1 = [] := by
  induction l generalizing carry with
  | nil => rfl
  | cons n l ih =>
    have hsum : remainTotal (n :: l) = |n.remainSeconds| + remainTotal l := by simp [remainTotal]
    have hpos := remainTotal_nonneg l
    have hle := le_abs_self n.remainSeconds
    have hneg := neg_abs_le n.remainSeconds
    rw [passOverTime, if_neg (by linarith), sendCallbacks, if_neg (by norm_num)]
    exact ih (by linarith)

/-- The event is a round of the timer process. -/
def TimedEvent.IsRound (e : TimedEvent) : Prop := ∃ now receive, e = .round now receive

namespace Timed

variable (s : Timed)

/-- A round that comes so late that every timer has expired. -/
lemma exists_late : ∃ now, (s.round now none s.requests).timer.timerList = [] := by
  -- so many whole seconds after the last round
  refine ⟨⟨s.timer.lastSystemTime.tvSec + ⌈remainTotal s.timer.timerList⌉,
    s.timer.lastSystemTime.tvUsec⟩, ?_⟩
  show (sendCallbacks (passOverTime _ _)).1 = []
  refine sendCallbacks_passOverTime ?_
  rw [neg_neg, TimerProcess.elapsedSeconds]
  have hceil := Int.le_ceil (remainTotal s.timer.timerList)
  push_cast
  linarith

/-- The timer process serves all requests while its clock stands still, and then every timer
expires. -/
lemma exists_allExpired : ∃ s', machine.CanReach TimedEvent.IsRound s s' [] ∧ s'.tcpd = s.tcpd ∧
    s'.requests = [] ∧ s'.timer.timerList = [] := by
  have hserve : ∀ u : Timed, (u.tcpd = s.tcpd ∧ machine.CanReach TimedEvent.IsRound s u []) →
      0 < u.requests.length →
      ∃ u' os, machine.CanReach TimedEvent.IsRound u u' os ∧ (u'.tcpd = s.tcpd ∧
        machine.CanReach TimedEvent.IsRound s u' []) ∧ u'.requests.length < u.requests.length := by
    rintro u ⟨htcpd, hreach⟩ hpos
    obtain ⟨r, rest, hrequests⟩ := List.exists_cons_of_length_pos hpos
    have hstep : u.step (.round u.timer.lastSystemTime true)
        = .ok (u.round u.timer.lastSystemTime (some r) rest, []) := by
      simp only [Timed.step, hrequests]
    have hone : machine.CanReach TimedEvent.IsRound u
        (u.round u.timer.lastSystemTime (some r) rest) [] := .single ⟨_, _, rfl⟩ hstep
    refine ⟨_, _, hone, ⟨htcpd, hreach.trans hone⟩, ?_⟩
    show rest.length < u.requests.length
    rw [hrequests]
    exact Nat.lt_succ_self _
  obtain ⟨u, os, -, ⟨htcpd, hreach⟩, hnone⟩ := Machine.exists_canReach_zero
    (fun u : Timed => u.requests.length) hserve ⟨rfl, .refl _ s⟩
  obtain ⟨now, hlate⟩ := u.exists_late
  have hstep : u.step (.round now false) = .ok (u.round now none u.requests, []) := rfl
  exact ⟨_, hreach.trans (.single ⟨now, false, rfl⟩ hstep), htcpd,
    List.length_eq_zero_iff.mp hnone, hlate⟩

end Timed

end NetworkProgramming
