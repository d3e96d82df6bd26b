import NetworkProgramming.Final.Timed
import NetworkProgramming.Final.Window

/-!
# Every package in flight has a timer

A package of the window is lost for good when neither a timer nor a message between the two
processes will bring it back. `Covered` lists the three places its timer can be: requested,
running, or expired and on its way. Each step of the two processes keeps every package of
every window covered, as long as sessions and sockets are not used twice.
-/

namespace NetworkProgramming

/-- The timer of a key is requested, runs, or has expired: a `Start` is in flight that no later
`Cancel` follows, or it is armed and no `Cancel` is in flight, or its expiry is in flight. -/
def Timed.Covered (s : Timed) (session seqNum : UInt32) : Prop :=
  (∃ before r after, s.requests = before ++ r :: after ∧
      r.Starts session.toInt32 seqNum.toInt32 ∧
      ∀ x ∈ after, ¬ x.Cancels session.toInt32 seqNum.toInt32) ∨
    (Armed s.timer.timerList session.toInt32 seqNum.toInt32 ∧
      ∀ x ∈ s.requests, ¬ x.Cancels session.toInt32 seqNum.toInt32) ∨
    ⟨session.toInt32, seqNum.toInt32⟩ ∈ s.expiries

namespace Timed

variable {s : Timed} {session seqNum : UInt32}

/-! ## What keeps a key covered -/

/-- Requests that do not cancel the key leave it covered. -/
lemma Covered.append (h : s.Covered session seqNum) {rs : List TimerRequestStruct}
    (hrs : ∀ x ∈ rs, ¬ x.Cancels session.toInt32 seqNum.toInt32) (t : Tcpd) :
    Covered { s with tcpd := t, requests := s.requests ++ rs } session seqNum := by
  rcases h with ⟨before, r, after, hr, hstart, hafter⟩ | ⟨harmed, hnone⟩ | hexpiry
  · refine Or.inl ⟨before, r, after ++ rs, by simp [hr], hstart, fun x hx => ?_⟩
    rcases List.mem_append.mp hx with hx | hx
    · exact hafter x hx
    · exact hrs x hx
  · refine Or.inr (Or.inl ⟨harmed, fun x hx => ?_⟩)
    rcases List.mem_append.mp hx with hx | hx
    · exact hnone x hx
    · exact hrs x hx
  · exact Or.inr (Or.inr hexpiry)

/-- A `Start` among requests that do not cancel covers its key. -/
lemma covered_of_start {rs : List TimerRequestStruct} {r : TimerRequestStruct} (hr : r ∈ rs)
    (hstart : r.Starts session.toInt32 seqNum.toInt32)
    (hrs : ∀ x ∈ rs, ¬ x.Cancels session.toInt32 seqNum.toInt32) (t : Tcpd) :
    Covered { s with tcpd := t, requests := s.requests ++ rs } session seqNum := by
  obtain ⟨before, after, rfl⟩ := List.append_of_mem hr
  exact Or.inl ⟨s.requests ++ before, r, after, by simp, hstart,
    fun x hx => hrs x (List.mem_append_right _ (List.mem_cons_of_mem _ hx))⟩

/-- The reception of another expiry leaves the key covered. -/
lemma Covered.receive (h : s.Covered session seqNum) {x : TimerExpiredStruct}
    {expiries : List TimerExpiredStruct} (hx : s.expiries = x :: expiries)
    (hne : x ≠ ⟨session.toInt32, seqNum.toInt32⟩) (t : Tcpd) :
    Covered { s with tcpd := t, expiries := expiries } session seqNum := by
  rcases h with hstart | harmed | hexpiry
  · exact Or.inl hstart
  · exact Or.inr (Or.inl harmed)
  · rw [hx] at hexpiry
    exact Or.inr (Or.inr ((List.mem_cons.mp hexpiry).resolve_left hne.symm))

/-- A round of the timer process leaves every key covered: it arms what it receives, and calls
back what it does not keep. -/
lemma Covered.round (h : s.Covered session seqNum) {request : Option TimerRequestStruct}
    {rest : List TimerRequestStruct} (hrequests : s.requests = request.toList ++ rest)
    (now : Timeval) : (s.round now request rest).Covered session seqNum := by
  -- a key the process has at the end of the round is armed or called back
  have hkept : (∀ x ∈ rest, ¬ x.Cancels session.toInt32 seqNum.toInt32) →
      (∃ x ∈ request, x.Starts session.toInt32 seqNum.toInt32) ∨
        (Armed s.timer.timerList session.toInt32 seqNum.toInt32 ∧
          ∀ x ∈ request, ¬ x.Cancels session.toInt32 seqNum.toInt32) →
      (s.round now request rest).Covered session seqNum := by
    intro hrest hserved
    rcases (armed_round s.timer now request).2 hserved with harmed | hcalled
    · exact Or.inr (Or.inl ⟨harmed, hrest⟩)
    · exact Or.inr (Or.inr (List.mem_append_right _ hcalled))
  rcases h with ⟨before, r, after, hr, hstart, hafter⟩ | ⟨harmed, hnone⟩ | hexpiry
  · cases request with
    | none => exact Or.inl ⟨before, r, after, by rw [← hr, hrequests]; rfl, hstart, hafter⟩
    | some x =>
      rw [hr] at hrequests
      cases before with
      | nil =>
        obtain ⟨rfl, rfl⟩ := List.cons.inj hrequests
        exact hkept hafter (Or.inl ⟨r, rfl, hstart⟩)
      | cons y before =>
        obtain ⟨rfl, rfl⟩ := List.cons.inj hrequests
        exact Or.inl ⟨before, r, after, rfl, hstart, hafter⟩
  · rw [hrequests] at hnone
    exact hkept (fun x hx => hnone x (List.mem_append_right _ hx))
      (Or.inr ⟨harmed, fun x hx => hnone x (List.mem_append_left _ (by simpa using hx))⟩)
  · exact Or.inr (Or.inr (List.mem_append_left _ hexpiry))

end Timed

/-! ## The requests of the daemon -/

/-- What a send pass asks of the timer process. -/
lemma timersOf_sentOuts (fd : Int32) (sent : List (TrollMessageStruct × ℚ)) :
    timersOf (sentOuts fd sent)
      = sent.map fun x => sendTimerRequest x.1.session x.1.seqNum x.2 := by
  induction sent with
  | nil => rfl
  | cons x sent ih =>
    have hcons : sentOuts fd (x :: sent)
        = [.frame fd x.1, .timer (sendTimerRequest x.1.session x.1.seqNum x.2)]
          ++ sentOuts fd sent := rfl
    rw [hcons, timersOf_append, ih]
    rfl

lemma mem_timersOf {os : List Out} {r : TimerRequestStruct} : r ∈ timersOf os ↔ .timer r ∈ os := by
  simp only [timersOf, List.mem_filterMap]
  constructor
  · rintro ⟨o, ho, hr⟩
    cases o with
    | timer r' => cases hr; exact ho
    | _ => cases hr
  · exact fun h => ⟨_, h, rfl⟩

/-- A send pass starts timers and cancels none. -/
lemma starts_of_pass {t t' : Tcpd} {clock : ℕ → Timeval} {s : Estimator × ℕ} {os : List Out}
    (h : t.connectedSockets.pass (ConnectedSock.sendVisit clock) (t.estimator, 0)
      = .ok (s, t'.connectedSockets, os)) {r : TimerRequestStruct} (hr : r ∈ timersOf os) :
    ∃ fd c m seconds, t.conn fd = some c ∧ m ∈ c.sendable ∧
      r = sendTimerRequest m.session m.seqNum seconds := by
  obtain ⟨fd, c, m, hc, hm, hframe | ⟨seconds, htimer⟩⟩ :=
    out_of_sendPass h (mem_timersOf.mp hr)
  · cases hframe
  · exact ⟨fd, c, m, seconds, hc, hm, Out.timer.inj htimer⟩

/-- A send pass starts the timer of every package it sends. -/
lemma exists_start_of_pass {t t' : Tcpd} {clock : ℕ → Timeval} {s : Estimator × ℕ}
    {os : List Out}
    (h : t.connectedSockets.pass (ConnectedSock.sendVisit clock) (t.estimator, 0)
      = .ok (s, t'.connectedSockets, os)) {fd : Int32} {c : ConnectedSock}
    (hc : t.conn fd = some c) {m : TrollMessageStruct} (hm : m ∈ c.sendable) :
    ∃ seconds, sendTimerRequest m.session m.seqNum seconds ∈ timersOf os := by
  obtain ⟨x, hby, -, rfl, -, os₁, os₂, rfl, -⟩ := HashTable.pass_lookup h hc
  obtain ⟨-, sent, hfst, houts⟩ := sendBack_visit hby
  rw [← hfst] at hm
  obtain ⟨y, hy, rfl⟩ := List.mem_map.mp hm
  refine ⟨y.2, ?_⟩
  rw [timersOf_append, timersOf_append, houts, timersOf_sentOuts]
  exact List.mem_append_left _ (List.mem_append_right _
    (List.mem_map_of_mem (f := fun x => sendTimerRequest x.1.session x.1.seqNum x.2) hy))

lemma not_cancels_sendTimerRequest (session seqNum : UInt32) (seconds : ℚ) (s n : Int32) :
    ¬ (sendTimerRequest session seqNum seconds).Cancels s n := by
  simp [sendTimerRequest, TimerRequestStruct.Cancels, TimerRequestStart, TimerRequestCancel]

/-- Another key is not cancelled. -/
lemma not_cancels_cancelTimerRequest {session seqNum session' seqNum' : UInt32}
    (h : ¬ (session = session' ∧ seqNum = seqNum')) :
    ¬ (cancelTimerRequest session seqNum).Cancels session'.toInt32 seqNum'.toInt32 := by
  rintro ⟨-, hs, hn⟩
  refine h ⟨?_, ?_⟩
  · rw [← UInt32.toUInt32_toInt32 session, ← UInt32.toUInt32_toInt32 session']
    exact congrArg Int32.toUInt32 hs
  · rw [← UInt32.toUInt32_toInt32 seqNum, ← UInt32.toUInt32_toInt32 seqNum']
    exact congrArg Int32.toUInt32 hn

/-! ## The invariant -/

/-- The event does not mix up connections: a `CONNECT` draws a session that is not in use, and
an intact ack arrives on the socket of its session. -/
def Proper (s : Timed) (e : TimedEvent) : Prop :=
  (∀ addr fd a sys, e = .tcpd (.front addr (.CONNECT fd a) sys) →
      ∀ fd' c, s.tcpd.conn fd' = some c → c.session ≠ sys.rand) ∧
    ∀ fd a now, e = .tcpd (.ack fd a now) → a.Valid →
      ∀ fd' c, s.tcpd.conn fd' = some c → c.session = a.session → fd' = fd

/-- Different connections have different sessions. -/
def Tcpd.DistinctSessions (t : Tcpd) : Prop :=
  ∀ fd c fd' c', t.conn fd = some c → t.conn fd' = some c' → c.session = c'.session → fd = fd'

/-- Connections are told apart by their sessions, and every package in flight is covered. -/
structure CoverageOk (s : Timed) : Prop where
  client : s.tcpd.ClientOk
  distinct : s.tcpd.DistinctSessions
  covered : ∀ fd c, s.tcpd.conn fd = some c → ∀ m ∈ c.packages, s.Covered m.session m.seqNum

/-! ## What a step preserves -/

/-- Sessions stay distinct when every `CONNECT` draws a new one. -/
lemma Tcpd.DistinctSessions.step {t t' : Tcpd} (h : t.DistinctSessions) {e : Event}
    {os : List Out} (hstep : t.step e = .ok (t', os))
    (hnew : ∀ addr fd a sys, e = .front addr (.CONNECT fd a) sys →
      ∀ fd' c, t.conn fd' = some c → c.session ≠ sys.rand) : t'.DistinctSessions := by
  intro fd₁ c₁ fd₂ c₂ hc₁ hc₂ hs
  rcases (conn_step hstep fd₁).session hc₁ with ⟨d₁, hd₁, hs₁⟩ | ⟨addr, a, sys, he, hs₁⟩ <;>
    rcases (conn_step hstep fd₂).session hc₂ with ⟨d₂, hd₂, hs₂⟩ | ⟨addr', a', sys', he', hs₂⟩
  · exact h fd₁ d₁ fd₂ d₂ hd₁ hd₂ (by rw [hs₁, hs₂, hs])
  · exact absurd (by rw [hs₁, hs, hs₂]) (hnew addr' fd₂ a' sys' he' fd₁ d₁ hd₁)
  · exact absurd (by rw [hs₂, ← hs, hs₁]) (hnew addr fd₁ a sys he fd₂ d₂ hd₂)
  · rw [he] at he'
    cases he'
    rfl

/-- Only an intact ack of the key makes the daemon cancel it. -/
lemma not_cancels_of_step {t t' : Tcpd} {e : Event} {os : List Out}
    (h : t.step e = .ok (t', os)) {session seqNum : UInt32}
    (hack : ∀ fd a now, e = .ack fd a now → a.Valid →
      ¬ (a.session = session ∧ a.seqNum = seqNum)) :
    ∀ x ∈ timersOf os, ¬ x.Cancels session.toInt32 seqNum.toInt32 := by
  have hcancel : ∀ fd a now, e = .ack fd a now → a.Valid →
      ∀ x ∈ timersOf [.timer (cancelTimerRequest a.session a.seqNum)],
        ¬ x.Cancels session.toInt32 seqNum.toInt32 := by
    intro fd a now he hvalid x hx
    rw [List.mem_singleton.mp hx]
    exact not_cancels_cancelTimerRequest (hack fd a now he hvalid)
  cases client_step h with
  | connect _ _ hquiet => simp [timersOf_of_quiet hquiet]
  | send _ _ _ _ _ hquiet => simp [timersOf_of_quiet hquiet]
  | ack hvalid _ _ _ _ => exact hcancel _ _ _ rfl hvalid
  | ackOther hvalid _ _ _ _ => exact hcancel _ _ _ rfl hvalid
  | timer _ _ _ _ => simp
  | pass hpass _ =>
    intro x hx
    obtain ⟨_, _, _, _, _, _, rfl⟩ := starts_of_pass hpass hx
    exact not_cancels_sendTimerRequest _ _ _ _ _
  | rehash _ _ => simp
  | other _ _ _ _ _ _ _ hquiet => simp [timersOf_of_quiet hquiet]

/-- With distinct numbers, the package that is removed was the only one with its key. -/
lemma not_hasKey_of_mem_eraseP {l : List TrollMessageStruct} (h : (l.map (·.seqNum)).Nodup)
    {s n : UInt32} {m : TrollMessageStruct} (hm : m ∈ l.eraseP (·.hasKey s n)) :
    ¬ m.hasKey s n := by
  induction l with
  | nil => cases hm
  | cons x l ih =>
    obtain ⟨hx, hl⟩ := List.nodup_cons.mp h
    by_cases hkey : x.hasKey s n
    · rw [List.eraseP_cons_of_pos (p := fun x : TrollMessageStruct => x.hasKey s n) hkey] at hm
      intro hmkey
      simp only [TrollMessageStruct.hasKey, decide_eq_true_eq] at hkey hmkey
      exact hx (List.mem_map.mpr ⟨m, hm, hmkey.2.trans hkey.2.symm⟩)
    · rw [List.eraseP_cons_of_neg (p := fun x : TrollMessageStruct => x.hasKey s n) hkey] at hm
      rcases List.mem_cons.mp hm with rfl | hm
      · exact hkey
      · exact ih hl hm

lemma ConnOk.nodup_packages {fd : Int32} {c : ConnectedSock} (h : ConnOk fd c) :
    (c.packages.map (·.seqNum)).Nodup :=
  ((List.sublist_append_left _ _).map _).nodup h.nodup

/-- A package that stays in the window when a key expires has another key. -/
lemma ConnOk.mem_packages_expire {fd : Int32} {c : ConnectedSock} (h : ConnOk fd c)
    {s n : UInt32} {m : TrollMessageStruct} (hm : m ∈ (c.expire s n).packages) :
    m ∈ c.packages ∧ ¬ m.hasKey s n := by
  unfold ConnectedSock.expire at hm
  split at hm
  · rename_i hnone
    exact ⟨hm, List.find?_eq_none.mp hnone m hm⟩
  · exact ⟨List.mem_of_mem_eraseP hm, not_hasKey_of_mem_eraseP h.nodup_packages hm⟩

/-- An event of the daemon keeps the packages of its windows covered. -/
lemma CoverageOk.tcpd {s : Timed} (h : CoverageOk s) {e : Event} {t : Tcpd} {os : List Out}
    (hproper : Proper s (.tcpd e)) (hne : ∀ x, e ≠ .timer x)
    (hstep : s.tcpd.step e = .ok (t, os)) {fd : Int32} {c' : ConnectedSock}
    (hc' : t.conn fd = some c') {m : TrollMessageStruct} (hm : m ∈ c'.packages) :
    Timed.Covered { s with tcpd := t, requests := s.requests ++ timersOf os }
      m.session m.seqNum := by
  -- a package that was in the window before stays covered unless its key is cancelled
  have hold : ∀ c, s.tcpd.conn fd = some c → m ∈ c.packages →
      (∀ fd' a now, e = .ack fd' a now → a.Valid →
        ¬ (a.session = m.session ∧ a.seqNum = m.seqNum)) →
      Timed.Covered { s with tcpd := t, requests := s.requests ++ timersOf os }
        m.session m.seqNum :=
    fun c hc hmem hack => (h.covered fd c hc m hmem).append (not_cancels_of_step hstep hack) t
  have hconn := conn_step hstep fd
  rw [hc'] at hconn
  generalize hx : s.tcpd.conn fd = x at *
  cases hconn with
  | connect => cases hm
  | send _ => exact hold _ rfl hm (by simp)
  | @ack c a now hvalid =>
    refine hold _ rfl (List.mem_of_mem_eraseP hm) fun fd' a' now' he _ hkey => ?_
    cases he
    refine not_hasKey_of_mem_eraseP (h.client.conns fd c hx).nodup_packages hm ?_
    simp [TrollMessageStruct.hasKey, hkey.1, hkey.2]
  | timer _ => exact absurd rfl (hne _)
  | @pass c clock =>
    rcases List.mem_append.mp hm with hm | hm
    · exact hold _ rfl hm (by simp)
    · cases client_step hstep with
      | pass hpass _ =>
        obtain ⟨seconds, hstart⟩ := exists_start_of_pass hpass hx hm
        exact Timed.covered_of_start hstart ⟨rfl, rfl, rfl⟩
          (not_cancels_of_step hstep (by simp)) t
      | other _ _ _ _ hpass _ _ _ => exact absurd rfl (hpass clock)
  | other _ _ hack _ =>
    refine hold c' rfl hm fun fd' a now he hvalid hkey => ?_
    have hsession := (h.client.conns fd c' hx).session m (List.mem_append_left _ hm)
    obtain rfl := hproper.2 fd' a now (by rw [he]) hvalid fd c' hx (by rw [hkey.1, hsession])
    exact hack a now he hvalid

/-- The reception of an expiry keeps the packages of the windows covered. -/
lemma CoverageOk.expiry {s : Timed} (h : CoverageOk s) {x : TimerExpiredStruct}
    {expiries : List TimerExpiredStruct} (hx : s.expiries = x :: expiries) {t : Tcpd}
    {os : List Out} (hstep : s.tcpd.step (.timer x) = .ok (t, os)) {fd : Int32}
    {c' : ConnectedSock} (hc' : t.conn fd = some c') {m : TrollMessageStruct}
    (hm : m ∈ c'.packages) :
    Timed.Covered { s with tcpd := t, expiries := expiries } m.session m.seqNum := by
  have hne : ¬ m.hasKey x.session.toUInt32 x.seqNum.toUInt32 →
      x ≠ ⟨m.session.toInt32, m.seqNum.toInt32⟩ := by
    rintro hkey rfl
    simp [TrollMessageStruct.hasKey] at hkey
  cases client_step hstep with
  | @timer _ _ fd' c hc hs htable _ =>
    by_cases hfd : fd = fd'
    · subst hfd
      rw [Tcpd.conn, htable, HashTable.lookup_insert_self] at hc'
      cases hc'
      obtain ⟨hmem, hkey⟩ := (h.client.conns fd c hc).mem_packages_expire hm
      exact (h.covered fd c hc m hmem).receive hx (hne hkey) t
    · rw [Tcpd.conn, htable, HashTable.lookup_insert_ne _ _ hfd] at hc'
      have hsession := (h.client.conns fd c' hc').session m (List.mem_append_left _ hm)
      refine (h.covered fd c' hc' m hm).receive hx (hne fun hkey => hfd ?_) t
      simp only [TrollMessageStruct.hasKey, decide_eq_true_eq] at hkey
      exact h.distinct fd c' fd' c hc' hc (by rw [← hsession, hkey.1, hs])
  | other _ _ _ htimer _ _ _ _ => exact absurd rfl (htimer x)

theorem coverageOk_step {s s' : Timed} {e : TimedEvent} {os : List Out} (h : CoverageOk s)
    (hproper : Proper s e) (hstep : s.step e = .ok (s', os)) : CoverageOk s' := by
  have hclient := Timed.clientOk_step h.client hstep
  cases timed_step hstep with
  | tcpd hne htcpd =>
    exact ⟨hclient, h.distinct.step htcpd fun addr fd a sys he =>
      hproper.1 addr fd a sys (by rw [he]), fun fd c hc m hm => h.tcpd hproper hne htcpd hc hm⟩
  | expiry hx htcpd =>
    exact ⟨hclient, h.distinct.step htcpd (by simp), fun fd c hc m hm => h.expiry hx htcpd hc hm⟩
  | round hrequests =>
    exact ⟨hclient, h.distinct, fun fd c hc m hm => (h.covered fd c hc m hm).round hrequests _⟩

lemma coverageOk_start (now : Timeval) : CoverageOk (Timed.start now) where
  client := clientOk_globalInit
  distinct := by simp [Tcpd.DistinctSessions, Timed.start, Tcpd.conn, Tcpd.globalInit]
  covered := by simp [Timed.start, Tcpd.conn, Tcpd.globalInit]

/-- **No package in flight is without a timer.** After any run of a daemon and its timer
process in which no `CONNECT` draws a session in use, and intact acks arrive on the socket of their
session, every package of a connection's window has a `Start` in flight
that no later `Cancel` follows, or an armed timer with no `Cancel` in flight, or an expiry in
flight. -/
theorem packages_covered (now : Timeval) (es : List TimedEvent) (s : Timed) (os : List Out)
    (h : Timed.Run now es s os) (hproper : Timed.machine.Along (Timed.start now) Proper es)
    (fd : Int32) (c : ConnectedSock) (hc : s.tcpd.conn fd = some c) (m : TrollMessageStruct)
    (hm : m ∈ c.packages) : s.Covered m.session m.seqNum :=
  (Timed.machine.exec_along (fun _ _ _ _ hok hQ hstep => coverageOk_step hok hQ hstep) hproper h
    (coverageOk_start now)).covered fd c hc m hm

/-- A test for `Proper`. -/
def Timed.isProper (s : Timed) : TimedEvent → Bool
  | .tcpd (.front _ (.CONNECT _ _) sys) =>
    s.tcpd.connectedSockets.rows.all fun x => x.2.session ≠ sys.rand
  | .tcpd (.ack fd a _) =>
    s.tcpd.connectedSockets.rows.all fun x => x.2.session = a.session → x.1 = fd
  | _ => true

lemma proper_of_isProper {s : Timed} {e : TimedEvent} (h : s.isProper e = true) : Proper s e := by
  constructor
  · rintro addr fd a sys rfl fd' c hc
    have hall := List.all_eq_true.mp h _ (HashTable.lookup_eq_some.mp hc)
    exact of_decide_eq_true hall
  · rintro fd a now rfl - fd' c hc
    have hall := List.all_eq_true.mp h _ (HashTable.lookup_eq_some.mp hc)
    exact of_decide_eq_true hall

/-- Three packages are sent and the second is acknowledged; the timer process serves the four
requests, the timers of the other two expire, and the first expiry is received. -/
def ackedAndExpired : List TimedEvent :=
  [connectFour, sendFour, sendFour, sendFour, passNow, ackSeven 1].map .tcpd
    ++ List.replicate 4 (.round default true) ++ [.round ⟨1000, 0⟩ false, .expiry]

/-- Where they lead. -/
def oneExpired : Timed := Timed.machine.play (Timed.start default) ackedAndExpired

lemma run_ackedAndExpired : ∃ os, Timed.Run default ackedAndExpired oneExpired os :=
  Timed.machine.exec_play _ _ (by decide +kernel)

/-- Package 2 is to be sent again, and package 0 is in flight. -/
lemma conn_oneExpired : ∃ c, oneExpired.tcpd.conn 4 = some c ∧
    c.packages.map (·.seqNum) = [0] ∧ c.pendingPackages.map (·.seqNum) = [2] := by
  have hlists : (oneExpired.tcpd.conn 4).map (fun c => (c.packages.map (·.seqNum),
      c.pendingPackages.map (·.seqNum))) = some ([0], [2]) := by decide +kernel
  obtain ⟨c, hc, hboth⟩ := Option.map_eq_some_iff.mp hlists
  exact ⟨c, hc, Prod.mk.inj hboth⟩

/-- Neither a request nor a timer is left, so that the package that is still in flight is covered
by its expiry. -/
theorem packages_covered_ackedAndExpired : ∃ os c m,
    Timed.Run default ackedAndExpired oneExpired os ∧ oneExpired.tcpd.conn 4 = some c ∧
    m ∈ c.packages ∧ oneExpired.requests = [] ∧ oneExpired.timer.timerList.length = 0 ∧
    oneExpired.Covered m.session m.seqNum := by
  obtain ⟨os, hrun⟩ := run_ackedAndExpired
  obtain ⟨c, hc, hsent, -⟩ := conn_oneExpired
  obtain ⟨m, hm, -⟩ := List.mem_map.mp (hsent ▸ List.mem_singleton_self 0)
  have hproper : Timed.machine.Along (Timed.start default) Proper ackedAndExpired :=
    Timed.machine.along_of_check (q := Timed.isProper) (fun _ _ => proper_of_isProper)
      (by decide +kernel)
  exact ⟨os, c, m, hrun, hc, hm, by decide +kernel, by decide +kernel,
    packages_covered default _ oneExpired os hrun hproper 4 c hc m hm⟩

end NetworkProgramming
