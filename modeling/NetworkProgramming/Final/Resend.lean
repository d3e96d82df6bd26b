import NetworkProgramming.Final.Accounting
import NetworkProgramming.Final.HandOver
import NetworkProgramming.Final.Oldest

/-!
# A daemon left to itself sends again

Whatever has been lost, a sending daemon and its timer process need nobody else to send it again.
First the timer process serves all requests, and when it is late enough every timer expires; then
the daemon receives one expiry after the other. It does so in turns of its main loop: the passes of
`handle_back_imformation` follow every expiry, so that the daemon fills its windows again while
other expiries are still on their way. No package in flight is without a timer, so that in the end
every package of every window has been sent anew (`exists_resent`).
-/

namespace NetworkProgramming

/-! ## A pass that cannot fail -/

/-- No request and no package of a session is longer than `BUF_LEN`, so that no copy that a pass
makes leaves its buffer. -/
def Tcpd.Fits (t : Tcpd) : Prop :=
  ∀ s a, t.sess s = some a → a.request ≤ BUF_LEN ∧ ∀ m ∈ a.packages, m.len.toNat ≤ BUF_LEN

/-- It is enough to look at the two tables. -/
lemma Tcpd.fits_of_entries {t : Tcpd}
    (hacked : ∀ x ∈ t.ackedSockets.rows, x.2.request ≤ BUF_LEN ∧
      ∀ m ∈ x.2.packages, m.len.toNat ≤ BUF_LEN)
    (hwaiting : ∀ a ∈ t.waitingAckSockets, a.request ≤ BUF_LEN ∧
      ∀ m ∈ a.packages, m.len.toNat ≤ BUF_LEN) : t.Fits := by
  intro s a ha
  cases hlook : t.ackedSockets.lookup s with
  | some b =>
    rw [sess_of_lookup hlook] at ha
    cases ha
    exact hacked (s, a) (HashTable.lookup_eq_some.mp hlook)
  | none =>
    rw [sess_of_lookup_none hlook] at ha
    exact hwaiting a (List.mem_of_find?_eq_some ha)

/-- The event brings neither a request nor a package that is longer. -/
def Event.Fits : Event → Prop
  | .front _ (.RECV _ len) _ => len.toNat ≤ BUF_LEN
  | .data _ m _ => m.Valid → m.len.toNat ≤ BUF_LEN
  | _ => True

lemma Tcpd.Fits.step {t t' : Tcpd} {e : Event} {os : List Out} (h : t.Fits) (hok : t.SessionsOk)
    (he : e.Fits) (hstep : t.step e = .ok (t', os)) : t'.Fits := by
  intro s a' ha'
  have hsess := sess_step hok hstep s
  rw [ha'] at hsess
  generalize hx : t.sess s = x at hsess
  generalize repliesTo s os = replies at hsess
  generalize hx' : some a' = x' at hsess
  cases hsess with
  | @arrive _ fd m remote hvalid hs =>
    cases hx'
    have hold : (x.getD (.create fd s)).request ≤ BUF_LEN ∧
        ∀ p ∈ (x.getD (.create fd s)).packages, p.len.toNat ≤ BUF_LEN := by
      cases x with
      | none => exact ⟨Nat.zero_le _, by simp [AckedSock.create]⟩
      | some a => exact h s a hx
    refine ⟨?_, fun p hp => ?_⟩
    · rw [AckedSock.place_eq]
      exact hold.1
    · rcases AckedSock.mem_packages_place hp with rfl | hp
      · exact he hvalid
      · exact hold.2 p hp
  | request hacc hs hlen hidle =>
    cases hx'
    exact ⟨he, (h s _ hx).2⟩
  | pass hacc hpass =>
    cases hx'
    refine ⟨?_, fun p hp => (h s _ hx).2 p ?_⟩
    · rcases hpass.outcome with ⟨-, -, -, hlength, -⟩ | ⟨-, -, -, hzero⟩
      · rw [AckedSock.request, hlength]
        exact hpass.small
      · rw [AckedSock.request, hzero]
        exact Nat.zero_le _
    · rw [hpass.packages]
      exact List.mem_append_right _ hp
  | other _ _ _ =>
    subst hx'
    exact h s a' hx

/-- The passes of a turn do not stop the daemon. With `recv`, the pass over the sessions is one of
them. -/
def Tcpd.MayPass (recv : Bool) (t : Tcpd) : Prop := recv = true → t.SessionsOk ∧ t.Fits

/-- What a turn of the main loop ends with; the pass over the sessions only with `recv`. -/
def backEvents (recv : Bool) (clock : ℕ → Timeval) : List Event :=
  .ackBack :: ((if recv then [.recvBack] else []) ++ [.sendBack clock])

section Passes

variable {recv : Bool} {t t' : Tcpd} {e : Event} {os : List Out} {clock : ℕ → Timeval}

lemma mem_backEvents : e ∈ backEvents recv clock ↔
    e = .ackBack ∨ (recv = true ∧ e = .recvBack) ∨ e = .sendBack clock := by
  cases recv <;> simp [backEvents]

lemma Tcpd.MayPass.step (h : t.MayPass recv) (he : e.Fits) (hstep : t.step e = .ok (t', os)) :
    t'.MayPass recv := by
  intro hrecv
  obtain ⟨hok, hfits⟩ := h hrecv
  exact ⟨sessionsOk_step hok hstep, hfits.step hok he hstep⟩

/-- What the passes do to the connections. -/
structure BackPass (t t' : Tcpd) (os : List Out) : Prop where
  conn : ∀ fd, t'.conn fd = (t.conn fd).map .afterPass
  count : t'.inBufferPackages = t.inBufferPackages
  bound : t'.bindedSockets.map (·.socketFD) = t.bindedSockets.map (·.socketFD)
  sent : ∀ fd c, t.conn fd = some c → ∀ m ∈ c.sendable, .frame c.socketFD m ∈ os

/-- The passes over the receiving side leave the connections alone. -/
lemma exists_recvPasses (h : t.MayPass recv) :
    ∃ t' os, Tcpd.machine.exec t (.ackBack :: if recv then [.recvBack] else []) = .ok (t', os) ∧
      t'.MayPass recv ∧ t'.connectedSockets = t.connectedSockets ∧
      t'.inBufferPackages = t.inBufferPackages ∧
      t'.bindedSockets.map (·.socketFD) = t.bindedSockets.map (·.socketFD) := by
  have hfirst : t.step .ackBack = .ok (handleAckBack t) := rfl
  have hmay : (handleAckBack t).1.MayPass recv := h.step (e := .ackBack) trivial hfirst
  rw [handleAckBack_eq] at hfirst hmay
  cases recv with
  | false =>
    exact ⟨_, _, Tcpd.machine.exec_cons_ok.mpr ⟨_, _, [], hfirst, rfl, (List.append_nil _).symm⟩,
      hmay, rfl, rfl, map_socketFD_handOver _ _ _⟩
  | true =>
    obtain ⟨⟨u, os⟩, hrecv⟩ := handleRecvBack_total (t := { t with
        bindedSockets := (handOver t.ackedSockets t.waitingAckSockets t.bindedSockets).1
        ackedSockets := (handOver t.ackedSockets t.waitingAckSockets t.bindedSockets).2.1
        waitingAckSockets := (handOver t.ackedSockets t.waitingAckSockets t.bindedSockets).2.2.1 })
      fun s a hrow => (hmay rfl).2 s a (sess_of_lookup (HashTable.lookup_eq_some.mpr hrow))
    have hsecond : Tcpd.step _ .recvBack = .ok (u, os) := hrecv
    have hu := (handleRecvBack_ok hrecv).2
    refine ⟨u, _, Tcpd.machine.exec_cons_ok.mpr ⟨_, _, os, hfirst, ?_, rfl⟩,
      hmay.step (e := .recvBack) trivial hsecond, ?_, ?_, ?_⟩
    · exact Tcpd.machine.exec_cons_ok.mpr ⟨u, os, [], hsecond, rfl, (List.append_nil os).symm⟩
    · rw [hu]
    · rw [hu]
    · rw [hu]
      exact map_socketFD_handOver _ _ _

/-- The passes of a turn. -/
lemma exists_backPass (h : t.MayPass recv) (clock : ℕ → Timeval) :
    ∃ t' os, Tcpd.machine.exec t (backEvents recv clock) = .ok (t', os) ∧ t'.MayPass recv ∧
      BackPass t t' os := by
  obtain ⟨u, os, hfirst, hmay, htable, hcount, hbound⟩ := exists_recvPasses h
  obtain ⟨t', os', hsend, hconn, hcount'⟩ := exists_step_sendBack u clock
  have hsame : ∀ fd, u.conn fd = t.conn fd := fun fd => by rw [Tcpd.conn, Tcpd.conn, htable]
  refine ⟨t', os ++ os', ?_, hmay.step (e := .sendBack clock) trivial hsend, fun fd => ?_,
    hcount'.trans hcount, ?_, fun fd c hc m hm => ?_⟩
  · rw [backEvents, ← List.cons_append]
    exact Tcpd.machine.exec_snoc.mpr ⟨u, os, os', hfirst, hsend, rfl⟩
  · rw [hconn, hsame]
  · obtain ⟨_, -, heq⟩ := handleSendAllBack_ok hsend
    rw [heq]
    exact hbound
  · exact List.mem_append_right _ ((exists_pass hsend ((hsame fd).trans hc)).2 m hm).1

end Passes

/-! ## The packages come back -/

/-- Every connection holds what it has held, in whichever of its lists. -/
structure Tcpd.Keeps (t t' : Tcpd) : Prop where
  conns : ∀ fd c, t.conn fd = some c → ∃ c', t'.conn fd = some c' ∧ c'.session = c.session ∧
    c'.base = c.base ∧ c'.held.Perm c.held
  count : t'.inBufferPackages = t.inBufferPackages

lemma Tcpd.Keeps.refl (t : Tcpd) : t.Keeps t :=
  ⟨fun _ c hc => ⟨c, hc, rfl, rfl, .refl _⟩, rfl⟩

lemma Tcpd.Keeps.trans {t t' t'' : Tcpd} (h : t.Keeps t') (h' : t'.Keeps t'') : t.Keeps t'' := by
  refine ⟨fun fd c hc => ?_, h'.count.trans h.count⟩
  obtain ⟨c', hc', hs, hb, hheld⟩ := h.conns fd c hc
  obtain ⟨c'', hc'', hs', hb', hheld'⟩ := h'.conns fd c' hc'
  exact ⟨c'', hc'', hs'.trans hs, hb'.trans hb, hheld'.trans hheld⟩

lemma keeps_of_timer {t t' : Tcpd} {x : TimerExpiredStruct} {os : List Out}
    (h : t.step (.timer x) = .ok (t', os)) : t.Keeps t' := by
  refine ⟨fun fd c hc => ?_, ?_⟩
  · have hconn := conn_step h fd
    rw [hc] at hconn
    generalize t'.conn fd = c' at hconn
    cases hconn with
    | timer _ =>
      refine ⟨_, rfl, ?_, ?_, c.held_expire_perm _ _⟩ <;>
        (unfold ConnectedSock.expire; split) <;> rfl
    | other _ _ _ _ => exact ⟨c, rfl, rfl, rfl, .refl _⟩
  · cases client_step h with
    | timer _ _ _ hcount => exact hcount
    | other _ _ _ htimer _ _ _ _ => exact absurd rfl (htimer x)

lemma BackPass.keeps {t t' : Tcpd} {os : List Out} (h : BackPass t t' os) : t.Keeps t' := by
  refine ⟨fun fd c hc => ⟨c.afterPass, ?_, rfl, rfl, c.held_afterPass_perm⟩, h.count⟩
  rw [h.conn, hc]
  rfl

/-- The event is proper, and a `CONNECT` comes on a socket that has no connection. -/
def Timed.Fresh (s : Timed) (e : TimedEvent) : Prop :=
  Proper s e ∧
    ∀ addr fd a sys, e = .tcpd (.front addr (.CONNECT fd a) sys) → s.tcpd.conn fd = none

/-- An event that is neither a `CONNECT` nor an ack is fresh. -/
lemma Timed.fresh_of_ne {e : TimedEvent}
    (hconnect : ∀ addr fd a sys, e ≠ .tcpd (.front addr (.CONNECT fd a) sys))
    (hack : ∀ fd a now, e ≠ .tcpd (.ack fd a now)) (s : Timed) : s.Fresh e :=
  ⟨⟨fun addr fd a sys he => absurd he (hconnect addr fd a sys),
    fun fd a now he => absurd he (hack fd a now)⟩,
    fun addr fd a sys he => absurd he (hconnect addr fd a sys)⟩

lemma Timed.fresh_back {recv : Bool} {clock : ℕ → Timeval} {e : Event}
    (he : e ∈ backEvents recv clock) (s : Timed) : s.Fresh (.tcpd e) := by
  rcases mem_backEvents.mp he with rfl | ⟨-, rfl⟩ | rfl
  · exact fresh_of_ne (by simp) (by simp) s
  · exact fresh_of_ne (by simp) (by simp) s
  · exact fresh_of_ne (by simp) (by simp) s

/-- What the two processes do by themselves: a round of the timer process, or a turn of the main
loop of the daemon, in which it receives nothing or an expiry. -/
inductive TimedTurn (recv : Bool) : List TimedEvent → Prop
  | round (now : Timeval) (receive : Bool) : TimedTurn recv [.round now receive]
  | passes (clock : ℕ → Timeval) : TimedTurn recv ((backEvents recv clock).map .tcpd)
  | expiry (clock : ℕ → Timeval) : TimedTurn recv (.expiry :: (backEvents recv clock).map .tcpd)

lemma TimedTurn.mem {recv : Bool} {es : List TimedEvent} (h : TimedTurn recv es) {e : TimedEvent}
    (he : e ∈ es) : (∃ now receive, e = .round now receive) ∨ e = .expiry ∨
      ∃ clock, ∃ e' ∈ backEvents recv clock, e = .tcpd e' := by
  have hback : ∀ clock, e ∈ (backEvents recv clock).map TimedEvent.tcpd →
      ∃ clock, ∃ e' ∈ backEvents recv clock, e = .tcpd e' := by
    intro clock he
    obtain ⟨e', he', rfl⟩ := List.mem_map.mp he
    exact ⟨clock, e', he', rfl⟩
  cases h with
  | round now receive => exact Or.inl ⟨now, receive, List.mem_singleton.mp he⟩
  | passes clock => exact Or.inr (Or.inr (hback clock he))
  | expiry clock => exact Or.inr ((List.mem_cons.mp he).imp_right (hback clock))

/-- Nothing of it makes a connection or comes from the network. -/
lemma TimedTurn.fresh {recv : Bool} {es : List TimedEvent} (h : TimedTurn recv es)
    {e : TimedEvent} (he : e ∈ es) (s : Timed) : s.Fresh e := by
  rcases h.mem he with ⟨now, receive, rfl⟩ | rfl | ⟨clock, e', he', rfl⟩
  · exact Timed.fresh_of_ne (by simp) (by simp) s
  · exact Timed.fresh_of_ne (by simp) (by simp) s
  · exact Timed.fresh_back he' s

namespace Timed

variable {recv : Bool} {s s' u : Timed} {os : List Out}

/-- Every package in flight has a timer, and every timer a connection. -/
structure Sound (s : Timed) : Prop where
  coverage : CoverageOk s
  audited : ∃ a : Audited, a.sys = s ∧ Books a

lemma sound_start (now : Timeval) : (start now).Sound :=
  ⟨coverageOk_start now, Audited.start now, rfl, books_start now⟩

lemma Sound.step {e : TimedEvent} (h : s.Sound) (hfresh : s.Fresh e)
    (hstep : s.step e = .ok (s', os)) : s'.Sound := by
  obtain ⟨a, rfl, hbooks⟩ := h.audited
  have haudited : a.step e = .ok (_, os) := Audited.step_ok.mpr ⟨s', hstep, rfl⟩
  refine ⟨coverageOk_step h.coverage hfresh.1 hstep, _, rfl,
    (books_step h.coverage.client hbooks haudited).mpr ?_⟩
  rintro addr fd c sys he ⟨d, hd, -⟩
  rw [hfresh.2 addr fd c sys he] at hd
  cases hd

/-- An expiry that is in flight can be received. -/
lemma Sound.exists_expiry (h : s.Sound) {x : TimerExpiredStruct}
    {rest : List TimerExpiredStruct} (hx : s.expiries = x :: rest) :
    ∃ t os, s.tcpd.step (.timer x) = .ok (t, os) ∧
      s.step .expiry = .ok ({ s with tcpd := t, expiries := rest }, os) ∧
      Sound { s with tcpd := t, expiries := rest } := by
  obtain ⟨a, rfl, hbooks⟩ := h.audited
  obtain ⟨⟨t, o⟩, htimer⟩ := hbooks.exists_expiry (x := x) (by simp [hx])
  have hstep : a.sys.step .expiry = .ok ({ a.sys with tcpd := t, expiries := rest }, o) := by
    simp only [Timed.step, hx, htimer]
  exact ⟨t, o, htimer, hstep, h.step (fresh_of_ne (by simp) (by simp) _) hstep⟩

/-- The daemon is about to send everything anew: what is still in a window has been sent since `s`,
or its expiry is on its way. -/
structure Resending (recv : Bool) (s u : Timed) (os : List Out) : Prop where
  sound : u.Sound
  mayPass : u.tcpd.MayPass recv
  keeps : s.tcpd.Keeps u.tcpd
  sent : ∀ fd c, u.tcpd.conn fd = some c → ∀ m ∈ c.packages,
    .frame fd m ∈ os ∨ ⟨m.session.toInt32, m.seqNum.toInt32⟩ ∈ u.expiries

/-- No window admits another package. -/
def Sated (t : Tcpd) : Prop := ∀ fd c, t.conn fd = some c → c.sendable = []

lemma sated_of_backPass {t t' : Tcpd} (h : BackPass t t' os) : Sated t' := by
  intro fd c hc
  obtain ⟨d, -, rfl⟩ := Option.map_eq_some_iff.mp ((h.conn fd).symm.trans hc)
  exact d.sendable_afterPass

/-- The passes of a turn keep it so, and fill the windows. -/
lemma Resending.exists_back (h : Resending recv s u os) (clock : ℕ → Timeval) :
    ∃ v o, machine.exec u ((backEvents recv clock).map .tcpd) = .ok (v, o) ∧
      Resending recv s v (os ++ o) ∧ Sated v.tcpd ∧ v.expiries = u.expiries := by
  obtain ⟨t, o, hexec, hmay, hpass⟩ := exists_backPass h.mayPass clock
  have htimed := exec_tcpd hexec fun x hx => by
    rcases mem_backEvents.mp hx with h | ⟨-, h⟩ | h <;> cases h
  refine ⟨_, o, htimed, ⟨?_, hmay, h.keeps.trans hpass.keeps, fun fd c hc m hm => ?_⟩,
    sated_of_backPass hpass, rfl⟩
  · refine machine.exec_invariant (E := fun e => ∀ u : Timed, u.Fresh e)
      (fun u e v o hu hfresh hstep => Sound.step hu (hfresh u) hstep) (fun e he u => ?_) htimed
      h.sound
    obtain ⟨e', he', rfl⟩ := List.mem_map.mp he
    exact fresh_back he' u
  · obtain ⟨d, hd, rfl⟩ := Option.map_eq_some_iff.mp ((hpass.conn fd).symm.trans hc)
    rcases List.mem_append.mp hm with hm | hm
    · exact (h.sent fd d hd m hm).imp_left (List.mem_append_left _)
    · have hframe := hpass.sent fd d hd m hm
      rw [(h.sound.coverage.client.conns fd d hd).socketFD] at hframe
      exact Or.inl (List.mem_append_right _ hframe)

/-- A package that is still in its window after an expiry was there before, and the expiry is not
its own. -/
lemma Sound.packages_of_expiry (h : s.Sound) {x : TimerExpiredStruct} {t : Tcpd}
    (hstep : s.tcpd.step (.timer x) = .ok (t, os)) {fd : Int32} {c' : ConnectedSock}
    (hc' : t.conn fd = some c') {m : TrollMessageStruct} (hm : m ∈ c'.packages) :
    ∃ c, s.tcpd.conn fd = some c ∧ m ∈ c.packages ∧
      x ≠ ⟨m.session.toInt32, m.seqNum.toInt32⟩ := by
  have hne : ¬ m.hasKey x.session.toUInt32 x.seqNum.toUInt32 →
      x ≠ ⟨m.session.toInt32, m.seqNum.toInt32⟩ := by
    rintro hkey rfl
    simp [TrollMessageStruct.hasKey] at hkey
  cases client_step hstep with
  | @timer _ _ fd' c hc hs htable _ =>
    by_cases hfd : fd = fd'
    · subst hfd
      rw [Tcpd.conn, htable, HashTable.lookup_insert_self] at hc'
      cases hc'
      obtain ⟨hmem, hkey⟩ := (h.coverage.client.conns fd c hc).mem_packages_expire hm
      exact ⟨c, hc, hmem, hne hkey⟩
    · rw [Tcpd.conn, htable, HashTable.lookup_insert_ne _ _ hfd] at hc'
      have hsession := (h.coverage.client.conns fd c' hc').session m (List.mem_append_left _ hm)
      refine ⟨c', hc', hm, hne fun hkey => hfd ?_⟩
      simp only [TrollMessageStruct.hasKey, decide_eq_true_eq] at hkey
      exact h.coverage.distinct fd c' fd' c hc' hc (by rw [← hsession, hkey.1, hs])
  | other _ _ _ htimer _ _ _ _ => exact absurd rfl (htimer x)

/-- A turn in which the daemon receives an expiry keeps it so. -/
lemma Resending.exists_turn (h : Resending recv s u os) (hpos : 0 < u.expiries.length) :
    ∃ v o, machine.turns.CanReach (TimedTurn recv) u v o ∧ Resending recv s v (os ++ o) ∧
      Sated v.tcpd ∧ v.expiries.length < u.expiries.length := by
  obtain ⟨x, rest, hx⟩ := List.exists_cons_of_length_pos hpos
  obtain ⟨t, o, htimer, hstep, hsound⟩ := h.sound.exists_expiry hx
  have hnext : Resending recv s { u with tcpd := t, expiries := rest } (os ++ o) := by
    refine ⟨hsound, h.mayPass.step (e := .timer x) trivial htimer,
      h.keeps.trans (keeps_of_timer htimer), fun fd c hc m hm => ?_⟩
    obtain ⟨d, hd, hmem, hne⟩ := h.sound.packages_of_expiry htimer hc hm
    refine (h.sent fd d hd m hmem).imp (List.mem_append_left _) fun hexpiry => ?_
    rw [hx] at hexpiry
    exact (List.mem_cons.mp hexpiry).resolve_left (Ne.symm hne)
  obtain ⟨v, o', hback, hv, hsated, hexpiries⟩ := hnext.exists_back fun _ => default
  refine ⟨v, o ++ o', .single (.expiry _) (machine.exec_cons_ok.mpr ⟨_, o, o', hstep, hback, rfl⟩),
    by rwa [← List.append_assoc], hsated, ?_⟩
  rw [hexpiries, hx]
  exact Nat.lt_succ_self _

/-- **Everything is sent again.** From every sound state the two processes can go on by themselves
until every package of every window has been sent anew, and no window admits another one. -/
theorem exists_resent (h : s.Sound) (hmay : s.tcpd.MayPass recv) :
    ∃ s' os, machine.turns.CanReach (TimedTurn recv) s s' os ∧ s'.tcpd.MayPass recv ∧
      s.tcpd.Keeps s'.tcpd ∧ Sated s'.tcpd ∧
      ∀ fd c, s'.tcpd.conn fd = some c → ∀ m ∈ c.packages, .frame fd m ∈ os := by
  -- every timer expires, and the daemon has not moved
  obtain ⟨u, hrounds, htcpd, hrequests, htimers⟩ := exists_allExpired s
  have hu : u.Sound := by
    refine hrounds.invariant (fun v e w o hv he hstep => ?_) h
    obtain ⟨now, receive, rfl⟩ := he
    exact Sound.step (e := .round now receive) hv (fresh_of_ne (by simp) (by simp) v) hstep
  have hstart : Resending recv s u [] := by
    refine ⟨hu, htcpd ▸ hmay, htcpd ▸ .refl _, fun fd c hc m hm => Or.inr ?_⟩
    rcases hu.coverage.covered fd c hc m hm with ⟨_, _, _, hr, -⟩ | ⟨harmed, -⟩ | hexpiry
    · simp [hrequests] at hr
    · simp [htimers] at harmed
    · exact hexpiry
  obtain ⟨v, o, hback, hv, hsated, -⟩ := hstart.exists_back fun _ => default
  -- then one expiry after the other is received
  obtain ⟨w, o', hreach, ⟨hw, hsated'⟩, hnone⟩ := machine.turns.exists_canReach_zero_emitting
    (fun v os => Resending recv s v os ∧ Sated v.tcpd)
    (fun v => v.expiries.length)
    (fun v os hv hpos => by
      obtain ⟨w, o, hreach, hw, hsated, hlt⟩ := hv.1.exists_turn hpos
      exact ⟨w, o, hreach, ⟨hw, hsated⟩, hlt⟩) _ _ ⟨hv, hsated⟩
  refine ⟨w, _, (hrounds.turns fun e he => ?_).trans
    ((Machine.CanReach.single (.passes _) hback).trans hreach), hw.mayPass, hw.keeps, hsated',
    fun fd c hc m hm => ?_⟩
  · obtain ⟨now, receive, rfl⟩ := he
    exact .round now receive
  · refine (hw.sent fd c hc m hm).resolve_right fun hexpiry => ?_
    rw [List.length_eq_zero_iff.mp hnone] at hexpiry
    cases hexpiry

end Timed
end NetworkProgramming
