import NetworkProgramming.Final.Coverage

/-!
# The accounts of the sending daemon

Three things have to stay in step: the table of connections, the count `in_buffer_packages`
that decides whether the front processes are heard, and the timers another process keeps.
`Audited` adds to the two processes a history of what has been accepted and what is still to be
acknowledged, `Books` says that the books agree, and `Consistent` that the daemon listens besides
as soon as everything is acknowledged. Two events break this. A `CONNECT` may displace an entry
with packages or timers (`Displaces`): `tcpd_CONNECT` replaces the entry and accounts for neither.
And the last ack may come when its package waits to be sent again (`TooLate`): `recv_ack` looks for
it in the window only, so that a full buffer stays full.
-/

namespace NetworkProgramming

/-! ## The history -/

/-- The package a step hands over to the daemon, with its socket. -/
def Timed.accepts (s : Timed) : TimedEvent → List (Int32 × TrollMessageStruct)
  | .tcpd e => s.tcpd.accepts e
  | _ => []

/-- The event is an intact ack of the package, on the socket of the package. -/
def TimedEvent.acknowledges : TimedEvent → Int32 × TrollMessageStruct → Bool
  | .tcpd (.ack fd a _), x => x.1 = fd ∧ a.Valid ∧ x.2.hasKey a.session a.seqNum
  | _, _ => false

/-- A daemon with its timer process, all packages it has accepted, and those that have not
been acknowledged since. -/
structure Audited where
  sys : Timed
  accepted : List (Int32 × TrollMessageStruct)
  unacked : List (Int32 × TrollMessageStruct)

namespace Audited

/-- Nothing is accepted yet. -/
def start (now : Timeval) : Audited := ⟨Timed.start now, [], []⟩

/-- One step of the two processes, written down. -/
def step (s : Audited) (e : TimedEvent) : Except Halt (Audited × List Out) :=
  match s.sys.step e with
  | .error x => .error x
  | .ok (sys, os) =>
    .ok ({ sys, accepted := s.accepted ++ s.sys.accepts e,
           unacked := s.unacked.filter (!e.acknowledges ·) ++ s.sys.accepts e }, os)

/-- The two processes with their history. -/
def machine : Machine Audited TimedEvent Out Halt := ⟨step⟩

lemma step_ok {s s' : Audited} {e : TimedEvent} {os : List Out} :
    s.step e = .ok (s', os) ↔ ∃ sys, s.sys.step e = .ok (sys, os) ∧
      s' = { sys, accepted := s.accepted ++ s.sys.accepts e,
             unacked := s.unacked.filter (!e.acknowledges ·) ++ s.sys.accepts e } := by
  unfold step
  cases hstep : s.sys.step e with
  | error x => simp
  | ok r =>
    obtain ⟨sys, os'⟩ := r
    constructor
    · intro h
      cases h
      exact ⟨sys, rfl, rfl⟩
    · rintro ⟨sys', hsys, rfl⟩
      cases hsys
      rfl

/-- Every run of the two processes has a history. -/
lemma exists_audited {now : Timeval} {es : List TimedEvent} {s : Timed} {os : List Out}
    (h : Timed.Run now es s os) :
    ∃ a, machine.exec (start now) es = .ok (a, os) ∧ a.sys = s := by
  refine Timed.machine.exec_induction (motive := fun es s os =>
    ∃ a, machine.exec (start now) es = .ok (a, os) ∧ a.sys = s) ⟨start now, rfl, rfl⟩ ?_ h
  rintro es u o e t o' - ⟨a, ha, rfl⟩ hstep
  exact ⟨_, machine.exec_snoc.mpr ⟨a, o, o', ha, step_ok.mpr ⟨t, hstep, rfl⟩, rfl⟩, rfl⟩

end Audited

/-! ## The books -/

/-- A timer of the key is requested, runs, or has an expiry in flight. -/
def Timed.HasTimer (s : Timed) (session seqNum : Int32) : Prop :=
  (∃ r ∈ s.requests, r.Starts session seqNum) ∨ Armed s.timer.timerList session seqNum ∨
    ⟨session, seqNum⟩ ∈ s.expiries

/-- The books agree. -/
structure Books (s : Audited) : Prop where
  /-- a package that is accepted and not acknowledged is held once, by the entry it was sent
  through -/
  held : ∀ x ∈ s.unacked, ∃ c, s.sys.tcpd.conn x.1 = some c ∧ c.held.count x.2 = 1
  /-- an entry holds nothing but what was sent through it -/
  own : ∀ fd c, s.sys.tcpd.conn fd = some c → ∀ m ∈ c.held, (fd, m) ∈ s.accepted
  /-- every package held is counted -/
  count : s.sys.tcpd.inBufferPackages = s.sys.tcpd.heldTotal
  /-- the buffer is not overdrawn -/
  room : s.sys.tcpd.inBufferPackages ≤ MAX_BUFFER_PACKAGES
  /-- the session of a timer is in the table -/
  known : ∀ session seqNum, s.sys.HasTimer session seqNum →
    ∃ fd c, s.sys.tcpd.conn fd = some c ∧ c.session = session.toUInt32

/-- The books agree, and the daemon listens to its front once everything is acknowledged. -/
structure Consistent (s : Audited) : Prop extends Books s where
  listens : s.unacked = [] → s.sys.tcpd.inBufferPackages < MAX_BUFFER_PACKAGES

/-- A `CONNECT` on `fd` that draws `rand` displaces an entry that still holds packages, or
takes the last entry with a session that still has timers. -/
def Displaces (s : Timed) (fd : Int32) (rand : UInt32) : Prop :=
  ∃ c, s.tcpd.conn fd = some c ∧
    (c.held ≠ [] ∨ ((∃ seqNum, s.HasTimer c.session.toInt32 seqNum) ∧ c.session ≠ rand ∧
      ∀ fd' c', fd' ≠ fd → s.tcpd.conn fd' = some c' → c'.session ≠ c.session))

/-- The event is no `CONNECT` that displaces an entry. -/
def KeepsEntries (s : Audited) (e : TimedEvent) : Prop :=
  ∀ addr fd a sys, e = .tcpd (.front addr (.CONNECT fd a) sys) → ¬ Displaces s.sys fd sys.rand

/-- The event is the ack for all that is not acknowledged yet, and comes too late: the buffer is
full, and what it acknowledges has left the window and waits to be sent again. -/
def TooLate (s : Audited) (e : TimedEvent) : Prop :=
  s.unacked ≠ [] ∧ s.sys.tcpd.inBufferPackages = MAX_BUFFER_PACKAGES ∧
    ∀ x ∈ s.unacked, e.acknowledges x ∧
      ∀ c, s.sys.tcpd.conn x.1 = some c → x.2 ∉ c.packages

/-- The event neither displaces an entry nor is an ack that comes too late. -/
def Careful (s : Audited) (e : TimedEvent) : Prop := KeepsEntries s e ∧ ¬ TooLate s e

/-! ## What a step does to the books -/

/-- Where a timer comes from: it was there before, or a send pass has started it. -/
lemma Timed.hasTimer_of_step {s s' : Timed} {e : TimedEvent} {os : List Out}
    (hok : s.tcpd.ClientOk) (h : s.step e = .ok (s', os)) {session seqNum : Int32}
    (ht : s'.HasTimer session seqNum) :
    s.HasTimer session seqNum ∨ (∃ fd c, s.tcpd.conn fd = some c ∧
      c.session = session.toUInt32 ∧ ∃ clock, e = .tcpd (.sendBack clock)) := by
  cases timed_step h with
  | @tcpd e t _ hne hstep =>
    rcases ht with ⟨r, hr, hstart⟩ | ht
    · rcases List.mem_append.mp hr with hr | hr
      · exact Or.inl (Or.inl ⟨r, hr, hstart⟩)
      · have hquiet : ¬ r ∈ timersOf [] := by simp
        have hcancel : ∀ {a : TrollAckStruct},
            r ∈ timersOf [.timer (cancelTimerRequest a.session a.seqNum)] → False := by
          intro a hr
          rw [List.mem_singleton.mp hr] at hstart
          exact absurd hstart.1 (by decide : TimerRequestCancel ≠ TimerRequestStart)
        -- of all that the daemon sends only a pass starts a timer
        cases client_step hstep with
        | connect _ _ hq => rw [timersOf_of_quiet hq] at hr; cases hr
        | send _ _ _ _ _ hq => rw [timersOf_of_quiet hq] at hr; cases hr
        | ack _ _ _ _ _ => exact (hcancel hr).elim
        | ackOther _ _ _ _ _ => exact (hcancel hr).elim
        | timer _ _ _ _ => cases hr
        | pass hpass _ =>
          obtain ⟨fd, c, m, seconds, hc, hm, rfl⟩ := starts_of_pass hpass hr
          have hs := (hok.conns fd c hc).session m
            (List.mem_append_right _ (List.mem_filter.mp hm).1)
          refine Or.inr ⟨fd, c, hc, ?_, _, rfl⟩
          rw [← hs, ← hstart.2.1]
          exact (UInt32.toUInt32_toInt32 m.session).symm
        | rehash _ _ => cases hr
        | other _ _ _ _ _ _ _ hq => rw [timersOf_of_quiet hq] at hr; cases hr
    · exact Or.inl (Or.inr ht)
  | expiry hx _ =>
    left
    rcases ht with hr | harmed | hmem
    · exact Or.inl hr
    · exact Or.inr (Or.inl harmed)
    · exact Or.inr (Or.inr (hx ▸ List.mem_cons_of_mem _ hmem))
  | @round now receive request rest hrequests =>
    left
    have hround := (armed_round (s := session) (n := seqNum) s.timer now request).1
    have hserved : (Armed s.timer.timerList session seqNum ∨
        ∃ x ∈ request, x.Starts session seqNum) → s.HasTimer session seqNum := by
      rintro (harmed | ⟨x, hx, hstart⟩)
      · exact Or.inr (Or.inl harmed)
      · refine Or.inl ⟨x, ?_, hstart⟩
        rw [hrequests]
        exact List.mem_append_left _ (by simpa using hx)
    rcases ht with ⟨r, hr, hstart⟩ | harmed | hmem
    · refine Or.inl ⟨r, ?_, hstart⟩
      rw [hrequests]
      exact List.mem_append_right _ hr
    · exact hserved (hround (Or.inl harmed))
    · rcases List.mem_append.mp hmem with hmem | hmem
      · exact Or.inr (Or.inr hmem)
      · exact hserved (hround (Or.inr hmem))

/-- The buffer is never overdrawn. -/
lemma room_step {t t' : Tcpd} {e : Event} {os : List Out}
    (h : t.step e = .ok (t', os)) (hroom : t.inBufferPackages ≤ MAX_BUFFER_PACKAGES) :
    t'.inBufferPackages ≤ MAX_BUFFER_PACKAGES := by
  rw [MAX_BUFFER_PACKAGES] at hroom ⊢
  cases client_step h with
  | connect _ hcount _ => omega
  | send hlt _ _ _ hcount _ => omega
  | ack _ _ _ _ hcount => omega
  | ackOther _ _ _ _ hcount => omega
  | timer _ _ _ hcount => omega
  | pass _ hcount => omega
  | rehash _ hcount => omega
  | other _ _ _ _ _ _ hcount _ => omega

/-- The step of the daemon inside a step of the two processes, seen by the history. -/
lemma timed_tcpd_step {s s' : Timed} {e : TimedEvent} {os : List Out}
    (h : s.step e = .ok (s', os)) :
    (∃ e' os', s.tcpd.step e' = .ok (s'.tcpd, os') ∧ s.accepts e = s.accepts (.tcpd e') ∧
        (∀ x, e.acknowledges x = (TimedEvent.tcpd e').acknowledges x) ∧
        ∀ addr fd a sys, e' = .front addr (.CONNECT fd a) sys → e = .tcpd e') ∨
      (s'.tcpd = s.tcpd ∧ s.accepts e = []) := by
  cases timed_step h with
  | tcpd _ hstep => exact Or.inl ⟨_, _, hstep, rfl, fun _ => rfl, fun _ _ _ _ _ => rfl⟩
  | expiry _ hstep =>
    exact Or.inl ⟨_, _, hstep, rfl, fun _ => rfl, fun _ _ _ _ he => by cases he⟩
  | round _ => exact Or.inr ⟨rfl, rfl⟩

section Books

variable {s s' : Audited} {e : TimedEvent} {os : List Out}

/-- What is accepted and not acknowledged stays held. -/
lemma Books.held_step (hs : Books s) (hcareful : KeepsEntries s e)
    (hclient : s'.sys.tcpd.ClientOk) (h : s.step e = .ok (s', os)) :
    ∀ x ∈ s'.unacked, ∃ c, s'.sys.tcpd.conn x.1 = some c ∧ c.held.count x.2 = 1 := by
  obtain ⟨sys, hsys, rfl⟩ := Audited.step_ok.mp h
  have hnodup : ∀ fd c, sys.tcpd.conn fd = some c → c.held.Nodup :=
    fun fd c hc => (hclient.conns fd c hc).nodup.of_map
  -- an entry never holds a package twice, so being held is all there is to show
  suffices hmem : ∀ x ∈ s.unacked.filter (!e.acknowledges ·) ++ s.sys.accepts e,
      ∃ c, sys.tcpd.conn x.1 = some c ∧ x.2 ∈ c.held by
    intro x hx
    obtain ⟨c, hc, hm⟩ := hmem x hx
    exact ⟨c, hc, List.count_eq_one_of_mem (hnodup x.1 c hc) hm⟩
  intro x hx
  rcases timed_tcpd_step hsys with ⟨e', os', hstep, haccepts, hacks, hconnect⟩ | ⟨htcpd, haccepts⟩
  · rcases List.mem_append.mp hx with hx | hx
    · obtain ⟨hx, hack⟩ := List.mem_filter.mp hx
      obtain ⟨c, hc, hcount⟩ := hs.held x hx
      have hm : x.2 ∈ c.held := List.count_pos_iff.mp (by omega)
      have hconn := conn_step hstep x.1
      rw [hc] at hconn
      refine hconn.mem_held hm (fun addr a sys he => ?_) ?_
      · have he' := hconnect addr x.1 a sys he
        exact hcareful addr x.1 a sys (he ▸ he') ⟨c, hc, Or.inl (List.ne_nil_of_mem hm)⟩
      · rintro b now rfl hvalid hkey
        rw [hacks] at hack
        simp [TimedEvent.acknowledges, hvalid, hkey] at hack
    · rw [haccepts] at hx
      exact mem_held_of_accepts hstep hx
  · rw [haccepts, List.append_nil] at hx
    obtain ⟨c, hc, hcount⟩ := hs.held x (List.mem_filter.mp hx).1
    exact ⟨c, htcpd ▸ hc, List.count_pos_iff.mp (by omega)⟩

/-- What is held has been sent through its entry. -/
lemma Books.own_step (hs : Books s) (h : s.step e = .ok (s', os)) :
    ∀ fd c, s'.sys.tcpd.conn fd = some c → ∀ m ∈ c.held, (fd, m) ∈ s'.accepted := by
  obtain ⟨sys, hsys, rfl⟩ := Audited.step_ok.mp h
  intro fd c' hc' m hm
  rcases timed_tcpd_step hsys with ⟨e', os', hstep, haccepts, -, -⟩ | ⟨htcpd, -⟩
  · rcases (conn_step hstep fd).held_subset hc' hm with ⟨c, hc, hm⟩ | hnew
    · exact List.mem_append_left _ (hs.own fd c hc m hm)
    · rw [haccepts]
      exact List.mem_append_right _ hnew
  · rw [htcpd] at hc'
    exact List.mem_append_left _ (hs.own fd c' hc' m hm)

/-- The count follows the packages that are held. -/
lemma Books.count_step (hs : Books s) (hcareful : KeepsEntries s e)
    (h : s.step e = .ok (s', os)) : s'.sys.tcpd.inBufferPackages = s'.sys.tcpd.heldTotal := by
  obtain ⟨sys, hsys, rfl⟩ := Audited.step_ok.mp h
  have hcount := hs.count
  rcases timed_tcpd_step hsys with ⟨e', os', hstep, -, -, hconnect⟩ | ⟨htcpd, -⟩
  · have hdrift := (heldTotal_step hstep).2 fun addr fd a sys he c hc => by
      by_contra hheld
      exact hcareful addr fd a sys (he ▸ hconnect addr fd a sys he) ⟨c, hc, Or.inl hheld⟩
    show sys.tcpd.inBufferPackages = (sys.tcpd.heldTotal : ℤ)
    omega
  · rw [htcpd, hcount]

lemma Books.room_step (hs : Books s) (h : s.step e = .ok (s', os)) :
    s'.sys.tcpd.inBufferPackages ≤ MAX_BUFFER_PACKAGES := by
  obtain ⟨sys, hsys, rfl⟩ := Audited.step_ok.mp h
  rcases timed_tcpd_step hsys with ⟨e', os', hstep, -, -, -⟩ | ⟨htcpd, -⟩
  · exact NetworkProgramming.room_step hstep hs.room
  · exact htcpd ▸ hs.room

/-- The session of a timer stays in the table. -/
lemma Books.known_step (hs : Books s) (hok : s.sys.tcpd.ClientOk)
    (hcareful : KeepsEntries s e) (h : s.step e = .ok (s', os)) (session seqNum : Int32)
    (ht : s'.sys.HasTimer session seqNum) :
    ∃ fd c, s'.sys.tcpd.conn fd = some c ∧ c.session = session.toUInt32 := by
  obtain ⟨sys, hsys, rfl⟩ := Audited.step_ok.mp h
  have hold : ∃ fd c, s.sys.tcpd.conn fd = some c ∧ c.session = session.toUInt32 ∧
      (s.sys.HasTimer session seqNum ∨ ∃ clock, e = .tcpd (.sendBack clock)) := by
    rcases Timed.hasTimer_of_step hok hsys ht with hbefore | ⟨fd, c, hc, hsession, hpass⟩
    · obtain ⟨fd, c, hc, hsession⟩ := hs.known session seqNum hbefore
      exact ⟨fd, c, hc, hsession, Or.inl hbefore⟩
    · exact ⟨fd, c, hc, hsession, Or.inr hpass⟩
  obtain ⟨fd, c, hc, hsession, htimer⟩ := hold
  rcases timed_tcpd_step hsys with ⟨e', os', hstep, -, -, hconnect⟩ | ⟨htcpd, -⟩
  · have hconn := conn_step hstep fd
    rw [hc] at hconn
    rcases hconn.exists_session with ⟨c', hc', hs'⟩ | ⟨addr, a, sys', he, c', hc', hs'⟩
    · exact ⟨fd, c', hc', hs'.trans hsession⟩
    · -- a `CONNECT` takes the entry: another one has the session, or the new one has
      have he' := hconnect addr fd a sys' he
      subst he
      rcases htimer with htimer | ⟨clock, hpass⟩
      · by_contra hlost
        push Not at hlost
        refine hcareful addr fd a sys' he' ⟨c, hc, Or.inr ⟨⟨seqNum, ?_⟩, ?_, ?_⟩⟩
        · rwa [hsession, Int32.toInt32_toUInt32]
        · exact fun heq => hlost fd c' hc' (by rw [hs', ← heq, hsession])
        · intro fd' c'' hne hc'' hs''
          have hother := conn_step hstep fd'
          rw [hc''] at hother
          rcases hother.exists_session with ⟨d, hd, hsd⟩ | ⟨_, _, _, heq, -⟩
          · exact hlost fd' d hd (by rw [hsd, hs'', hsession])
          · cases heq
            exact hne rfl
      · rw [hpass] at he'
        cases he'
  · exact ⟨fd, c, htcpd ▸ hc, hsession⟩

/-- **One step keeps the books exactly when it displaces no entry.** -/
theorem books_step (hok : s.sys.tcpd.ClientOk) (hs : Books s)
    (h : s.step e = .ok (s', os)) : Books s' ↔ KeepsEntries s e := by
  have hsys := Audited.step_ok.mp h
  constructor
  · rintro hs' addr fd a sys rfl ⟨c, hc, hdisplaced⟩
    obtain ⟨sys', hstep, rfl⟩ := hsys
    cases timed_step hstep with
    | tcpd _ htcpd =>
      cases client_step htcpd with
      | connect htable hcount _ =>
        rcases hdisplaced with hheld | ⟨⟨seqNum, htimer⟩, hne, honly⟩
        · have htotal := heldTotal_insert hc htable
          have hbefore := hs.count
          have hafter := hs'.count
          rw [ConnectedSock.held_create, List.length_nil] at htotal
          refine hheld (List.length_eq_zero_iff.mp ?_)
          simp only at hafter
          omega
        · have htimer' := hs'.known c.session.toInt32 seqNum (by
            rcases htimer with ⟨r, hr, hstart⟩ | hrest
            · exact Or.inl ⟨r, List.mem_append_left _ hr, hstart⟩
            · exact Or.inr hrest)
          obtain ⟨fd', c', hc', hs'⟩ := htimer'
          rw [UInt32.toUInt32_toInt32] at hs'
          simp only [Tcpd.conn, htable] at hc'
          by_cases hfd : fd' = fd
          · subst hfd
            rw [HashTable.lookup_insert_self] at hc'
            cases hc'
            exact hne hs'.symm
          · rw [HashTable.lookup_insert_ne _ _ hfd] at hc'
            exact honly fd' c' hfd hc' hs'
      | other hconnect _ _ _ _ _ _ _ => exact absurd rfl (hconnect _ _ _ _)
  · intro hcareful
    obtain ⟨sys', hstep, rfl⟩ := hsys
    exact ⟨hs.held_step hcareful (Timed.clientOk_step hok hstep) h, hs.own_step h,
      hs.count_step hcareful h, hs.room_step h, hs.known_step hok hcareful h⟩

/-- While the books agree, an expiry finds its socket. -/
lemma Books.exists_expiry (hs : Books s) {x : TimerExpiredStruct}
    (hx : x ∈ s.sys.expiries) : ∃ r, s.sys.tcpd.step (.timer x) = .ok r := by
  obtain ⟨fd, c, hc, hsession⟩ := hs.known x.session x.seqNum (Or.inr (Or.inr hx))
  have hrow := HashTable.lookup_eq_some.mp
    (show s.sys.tcpd.connectedSockets.lookup fd = some c from hc)
  cases hfind : s.sys.tcpd.connectedSockets.rows.find?
      fun row => row.2.session = x.session.toUInt32 with
  | none => exact absurd hsession (by simpa using List.find?_eq_none.mp hfind _ hrow)
  | some row =>
    simp only [Tcpd.step, recvTimer, hfind]
    exact ⟨_, rfl⟩

/-- While the books agree, the daemon listens to its front as soon as it holds no package. -/
lemma Books.listens_of_empty (hs : Books s) (h : s.sys.tcpd.heldTotal = 0) :
    s.sys.tcpd.inBufferPackages < MAX_BUFFER_PACKAGES := by
  rw [hs.count, h]
  decide

/-- What an intact ack acknowledges. -/
lemma exists_ack_of_acknowledges {x : Int32 × TrollMessageStruct} (h : e.acknowledges x = true) :
    ∃ a now, e = .tcpd (.ack x.1 a now) ∧ a.Valid ∧ x.2.hasKey a.session a.seqNum := by
  unfold TimedEvent.acknowledges at h
  split at h
  · obtain ⟨rfl, hvalid, hkey⟩ := of_decide_eq_true h
    exact ⟨_, _, rfl, hvalid, hkey⟩
  · cases h

/-- The ack of a package of the window makes room; a late one does not. -/
lemma count_of_acknowledges (hok : s.sys.tcpd.ClientOk) (h : s.step e = .ok (s', os))
    {x : Int32 × TrollMessageStruct} (hx : e.acknowledges x = true) {c : ConnectedSock}
    (hc : s.sys.tcpd.conn x.1 = some c) (hheld : x.2 ∈ c.held) :
    s'.sys.tcpd.inBufferPackages
      = s.sys.tcpd.inBufferPackages - if x.2 ∈ c.packages then 1 else 0 := by
  obtain ⟨a, now, rfl, hvalid, hkey⟩ := exists_ack_of_acknowledges hx
  obtain ⟨sys, hsys, rfl⟩ := Audited.step_ok.mp h
  cases timed_step hsys with
  | tcpd _ hstep =>
    cases client_step hstep with
    | ack _ hc' hfound _ hcount =>
      obtain rfl := Option.some.inj (hc'.symm.trans hc)
      -- the package that is found has the number of this one, so it is this one
      obtain ⟨p, hp, hpkey⟩ := List.any_eq_true.mp hfound
      have hseq : p.seqNum = x.2.seqNum := by
        simp only [TrollMessageStruct.hasKey, decide_eq_true_eq] at hkey hpkey
        rw [hpkey.2, hkey.2]
      obtain rfl := List.inj_on_of_nodup_map (hok.conns _ _ hc).nodup (List.mem_append_left _ hp)
        hheld hseq
      rw [if_pos hp]
      exact hcount
    | ackOther _ hc' hfound _ hcount =>
      obtain rfl := Option.some.inj (hc'.symm.trans hc)
      have hnot : x.2 ∉ _ := fun hp => by
        rw [List.any_eq_true.mpr ⟨x.2, hp, hkey⟩] at hfound
        cases hfound
      rw [if_neg hnot, sub_zero]
      exact hcount
    | other _ _ hack _ _ _ _ _ => exact absurd hvalid (hack _ _ _ rfl)

/-- Only what is accepted takes room in the buffer. -/
lemma count_le_of_accepts (h : s.step e = .ok (s', os)) (hnone : s.sys.accepts e = []) :
    s'.sys.tcpd.inBufferPackages ≤ s.sys.tcpd.inBufferPackages := by
  obtain ⟨sys, hsys, rfl⟩ := Audited.step_ok.mp h
  rcases timed_tcpd_step hsys with ⟨e', os', hstep, haccepts, -, -⟩ | ⟨htcpd, -⟩
  · show sys.tcpd.inBufferPackages ≤ _
    rw [haccepts] at hnone
    cases client_step hstep with
    | connect _ hcount _ => omega
    | send _ _ hc _ _ _ => simp [Timed.accepts, Tcpd.accepts, hc] at hnone
    | ack _ _ _ _ hcount => omega
    | ackOther _ _ _ _ hcount => omega
    | timer _ _ _ hcount => omega
    | pass _ hcount => omega
    | rehash _ hcount => omega
    | other _ _ _ _ _ _ hcount _ => omega
  · exact htcpd ▸ le_rfl

/-- **The daemon listens again exactly when the last ack does not come too late.** -/
lemma Consistent.listens_step (hok : s.sys.tcpd.ClientOk) (hs : Consistent s)
    (h : s.step e = .ok (s', os)) :
    (s'.unacked = [] → s'.sys.tcpd.inBufferPackages < MAX_BUFFER_PACKAGES) ↔ ¬ TooLate s e := by
  have hunacked : s'.unacked = s.unacked.filter (!e.acknowledges ·) ++ s.sys.accepts e := by
    obtain ⟨sys, -, rfl⟩ := Audited.step_ok.mp h
    rfl
  -- what is not acknowledged is held, so the ack decides whether there is room
  have hcount : ∀ x ∈ s.unacked, e.acknowledges x = true → ∃ c, s.sys.tcpd.conn x.1 = some c ∧
      s'.sys.tcpd.inBufferPackages
        = s.sys.tcpd.inBufferPackages - if x.2 ∈ c.packages then 1 else 0 := by
    intro x hx hack
    obtain ⟨c, hc, hone⟩ := hs.held x hx
    exact ⟨c, hc, count_of_acknowledges hok h hack hc (List.count_pos_iff.mp (by omega))⟩
  constructor
  · rintro hlistens ⟨hsome, hfull, hlate⟩
    obtain ⟨x, hx⟩ := List.exists_mem_of_ne_nil _ hsome
    obtain ⟨c, hc, hafter⟩ := hcount x hx (hlate x hx).1
    rw [if_neg ((hlate x hx).2 c hc), sub_zero, hfull] at hafter
    have hnone : s'.unacked = [] := by
      obtain ⟨a, now, rfl, -⟩ := exists_ack_of_acknowledges (hlate x hx).1
      rw [hunacked, List.filter_eq_nil_iff.mpr fun y hy => by simp [(hlate y hy).1]]
      rfl
    have hroom := hlistens hnone
    omega
  · intro htimely hnone
    rw [hunacked] at hnone
    obtain ⟨hfilter, haccepts⟩ := List.append_eq_nil_iff.mp hnone
    by_cases hbefore : s.unacked = []
    · exact (count_le_of_accepts h haccepts).trans_lt (hs.listens hbefore)
    · by_contra hfull
      have hroom := hs.room
      have hle := count_le_of_accepts h haccepts
      refine htimely ⟨hbefore, by omega, fun x hx => ?_⟩
      have hack : e.acknowledges x = true := by
        simpa using List.filter_eq_nil_iff.mp hfilter x hx
      obtain ⟨c, hc, hafter⟩ := hcount x hx hack
      refine ⟨hack, fun c' hc' hin => ?_⟩
      obtain rfl := Option.some.inj (hc.symm.trans hc')
      rw [if_pos hin] at hafter
      omega

/-- **One step.** -/
theorem consistent_step (hok : s.sys.tcpd.ClientOk) (hs : Consistent s)
    (h : s.step e = .ok (s', os)) : Consistent s' ↔ Careful s e := by
  have hbooks := books_step hok hs.toBooks h
  have hlistens := hs.listens_step hok h
  exact ⟨fun hs' => ⟨hbooks.mp hs'.toBooks, hlistens.mp hs'.listens⟩,
    fun hcareful => ⟨hbooks.mpr hcareful.1, hlistens.mpr hcareful.2⟩⟩

end Books

lemma books_start (now : Timeval) : Books (Audited.start now) where
  held := by simp [Audited.start]
  own := by simp [Audited.start, Timed.start, Tcpd.conn, Tcpd.globalInit]
  count := rfl
  room := show (0 : ℤ) ≤ 64 by decide
  known := by simp [Timed.HasTimer, Audited.start, Timed.start]

lemma consistent_start (now : Timeval) : Consistent (Audited.start now) :=
  ⟨books_start now, fun _ => show (0 : ℤ) < 64 by decide⟩

lemma Audited.clientOk_step {s s' : Audited} {e : TimedEvent} {os : List Out}
    (hok : s.sys.tcpd.ClientOk) (h : s.step e = .ok (s', os)) : s'.sys.tcpd.ClientOk := by
  obtain ⟨sys, hsys, rfl⟩ := Audited.step_ok.mp h
  exact Timed.clientOk_step hok hsys

/-- While no `CONNECT` displaces an entry, the books agree, whenever the acks come. -/
lemma books_of_keepsEntries {now : Timeval} {es : List TimedEvent} {a : Audited} {os : List Out}
    (h : Audited.machine.exec (Audited.start now) es = .ok (a, os))
    (hkeeps : Audited.machine.Along (Audited.start now) KeepsEntries es) : Books a :=
  (Audited.machine.exec_along (I := fun s => s.sys.tcpd.ClientOk ∧ Books s)
    (fun _ _ _ _ hs hkeeps hstep => ⟨Audited.clientOk_step hs.1 hstep,
      (books_step hs.1 hs.2 hstep).mpr hkeeps⟩) hkeeps h ⟨clientOk_globalInit, books_start now⟩).2

/-- **The accounts of the daemon.** Along a run of a daemon and its timer process every state is
consistent if and only if no `CONNECT` of the run displaces an entry that holds packages or has
timers, and the last ack does not come too late when the buffer is full. As long as no `CONNECT`
displaces an entry, no expiry in flight makes the daemon exit, and the daemon listens to its front
whenever it holds no package. -/
theorem consistent_iff_careful (now : Timeval) (es : List TimedEvent) (a : Audited)
    (os : List Out) (h : Audited.machine.exec (Audited.start now) es = .ok (a, os)) :
    (Audited.machine.Throughout (Audited.start now) Consistent es ↔
        Audited.machine.Along (Audited.start now) Careful es) ∧
      (Audited.machine.Along (Audited.start now) KeepsEntries es →
        (∀ x ∈ a.sys.expiries, ∃ r, a.sys.tcpd.step (.timer x) = .ok r) ∧
          (a.sys.tcpd.heldTotal = 0 → a.sys.tcpd.inBufferPackages < MAX_BUFFER_PACKAGES)) := by
  refine ⟨?_, fun hkeeps => ?_⟩
  · exact Audited.machine.throughout_iff_along (J := fun s => s.sys.tcpd.ClientOk)
      (fun _ _ _ _ hok hstep => Audited.clientOk_step hok hstep)
      (fun _ _ _ _ hok hs hstep => consistent_step hok hs hstep) h clientOk_globalInit
      (consistent_start now)
  · have hlast := books_of_keepsEntries h hkeeps
    exact ⟨fun x hx => hlast.exists_expiry hx, hlast.listens_of_empty⟩

/-! ## Three runs -/

/-- A package is sent, and its socket is connected anew. -/
def reconnect : List Event := [connectFour, sendFour, connectFour]

/-- After the second `CONNECT` nothing is held, and one package is counted. -/
lemma exists_run_reconnect :
    ∃ t os, Tcpd.Run reconnect t os ∧ t.inBufferPackages = 1 ∧ t.heldTotal = 0 := by
  obtain ⟨t, os, hrun, hshows⟩ : LeadsTo [connectFour, sendFour] [] [0] 1 :=
    leadsTo_connectFour.send (by decide) (by decide)
  obtain ⟨c, hc, -, -, hsent, hpending⟩ := hshows.conn
  have hcount : t.inBufferPackages = 1 := hshows.count
  have hlen : c.held.length = 1 := by
    rw [ConnectedSock.held, List.length_append]
    simpa using congrArg₂ (fun l l' : List ℕ => l.length + l'.length) hsent hpending
  obtain ⟨u, o, hstep, htable, hcount'⟩ : ∃ u o, t.step connectFour = .ok (u, o) ∧
      u.connectedSockets = t.connectedSockets.insert 4 (.create 4 calmSys.rand default) ∧
      u.inBufferPackages = t.inBufferPackages :=
    ⟨_, _, step_connect (by rw [hcount]; decide) default default 4 calmSys, rfl, rfl⟩
  have htotal := heldTotal_insert hc htable
  have hle := (clientOk_of_run hrun).count
  rw [ConnectedSock.held_create, List.length_nil] at htotal
  exact ⟨u, _, hrun.snoc hstep, by omega, by omega⟩

/-- A full buffer of packages is sent and expires before the first ack arrives. -/
def lateAcks : List TimedEvent :=
  .tcpd connectFour :: (List.replicate 64 (.tcpd sendFour)
    ++ .tcpd passNow :: List.replicate 64 (.round default true)
    ++ .round ⟨1000, 0⟩ false :: List.replicate 64 .expiry
    ++ (List.range 64).map fun n => .tcpd (ackSeven (.ofNat n)))

/-- In the end everything is acknowledged, and the buffer is as full as before. -/
lemma exists_run_lateAcks : ∃ a os,
    Audited.machine.exec (Audited.start default) lateAcks = .ok (a, os) ∧
      Audited.machine.Along (Audited.start default) KeepsEntries lateAcks ∧ a.unacked = [] ∧
      a.sys.tcpd.inBufferPackages = MAX_BUFFER_PACKAGES := by
  have hshows : ((Audited.machine.exec (Audited.start default) lateAcks).toOption.map
      fun r => (r.1.unacked.isEmpty, r.1.sys.tcpd.inBufferPackages)) = some (true, 64) := by
    decide +kernel
  -- the one `CONNECT` is the first event
  have hkeeps : Audited.machine.Along (Audited.start default) KeepsEntries lateAcks := by
    refine Audited.machine.along_cons ?_ fun u o _ => Audited.machine.along_of_forall ?_
    · rintro addr fd a sys - ⟨c, hc, -⟩
      simp [Audited.start, Timed.start, Tcpd.conn, Tcpd.globalInit] at hc
    · rintro e he v addr fd a sys rfl
      simp only [List.mem_append, List.mem_cons, List.mem_replicate, List.mem_map] at he
      rcases he with ((⟨-, he⟩ | he | ⟨-, he⟩) | he | ⟨-, he⟩) | ⟨n, -, he⟩ <;> cases he
  cases hexec : Audited.machine.exec (Audited.start default) lateAcks with
  | error x =>
    rw [hexec] at hshows
    cases hshows
  | ok r =>
    rw [hexec] at hshows
    obtain ⟨hnone, hfull⟩ := Prod.mk.inj (Option.some.inj hshows)
    exact ⟨r.1, r.2, rfl, hkeeps, List.isEmpty_iff.mp hnone, hfull⟩

/-- The books do not agree after every run. And where no `CONNECT` displaces an entry, all may be
acknowledged while the daemon does not listen. -/
theorem not_always_consistent :
    (¬ ∀ (now : Timeval) (es : List TimedEvent) (a : Audited) (os : List Out),
        Audited.machine.exec (Audited.start now) es = .ok (a, os) → Consistent a) ∧
      ¬ ∀ (now : Timeval) (es : List TimedEvent) (a : Audited) (os : List Out),
        Audited.machine.exec (Audited.start now) es = .ok (a, os) →
        Audited.machine.Along (Audited.start now) KeepsEntries es →
        a.unacked = [] → a.sys.tcpd.inBufferPackages < MAX_BUFFER_PACKAGES := by
  constructor
  · intro hall
    obtain ⟨t, os, hrun, hcount, htotal⟩ := exists_run_reconnect
    have htimed := Timed.run_of_tcpd default hrun (by simp [reconnect, connectFour, sendFour])
    obtain ⟨a, ha, hsys⟩ := Audited.exists_audited htimed
    have hconsistent := (hall default _ a os ha).count
    rw [hsys] at hconsistent
    simp only [hcount, htotal] at hconsistent
    exact absurd hconsistent (by decide)
  · intro hall
    obtain ⟨a, os, hexec, hkeeps, hnone, hfull⟩ := exists_run_lateAcks
    exact absurd (hall default lateAcks a os hexec hkeeps hnone) (not_lt.mpr hfull.ge)

/-- A test for `Careful`: a `CONNECT` comes on a socket without a connection, and otherwise the
buffer is not full. -/
def Audited.isCareful (s : Audited) : TimedEvent → Bool
  | .tcpd (.front _ (.CONNECT fd _) _) => (s.sys.tcpd.conn fd).isNone
  | _ => s.sys.tcpd.inBufferPackages < MAX_BUFFER_PACKAGES

lemma careful_of_isCareful {s : Audited} {e : TimedEvent} (h : s.isCareful e = true) :
    Careful s e := by
  constructor
  · rintro addr fd a sys rfl ⟨c, hc, -⟩
    have hnone : (s.sys.tcpd.conn fd).isNone = true := h
    rw [hc] at hnone
    cases hnone
  · rintro ⟨hsome, hfull, hlate⟩
    obtain ⟨x, hx⟩ := List.exists_mem_of_ne_nil _ hsome
    obtain ⟨a, now, rfl, -⟩ := exists_ack_of_acknowledges (hlate x hx).1
    have hroom : s.sys.tcpd.inBufferPackages < MAX_BUFFER_PACKAGES := of_decide_eq_true h
    omega

/-- A run of the theorem: of three packages one is acknowledged, one has expired and waits to be
sent again, and one is in flight. -/
theorem consistent_iff_careful_ackedAndExpired :
    ∃ a os, Audited.machine.exec (Audited.start default) ackedAndExpired = .ok (a, os) ∧
      a.accepted.length = 3 ∧ a.unacked.length = 2 ∧ Consistent a := by
  obtain ⟨os, ha⟩ := Audited.machine.exec_play (Audited.start default) ackedAndExpired
    (by decide +kernel)
  have hcareful : Audited.machine.Along (Audited.start default) Careful ackedAndExpired :=
    Audited.machine.along_of_check (q := Audited.isCareful) (fun _ _ => careful_of_isCareful)
      (by decide +kernel)
  exact ⟨_, os, ha, by decide +kernel, by decide +kernel,
    ((consistent_iff_careful default _ _ os ha).1.mpr hcareful).last _ ha⟩

end NetworkProgramming
