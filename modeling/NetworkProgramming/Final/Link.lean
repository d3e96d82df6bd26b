import NetworkProgramming.Final.Network
import NetworkProgramming.Final.Resend

/-!
# Daemons, timers and the network

The whole of a connection: a sending daemon with its timer process, a receiving daemon, and what
is in flight between them. The network hands over whatever is in flight as often as it likes, and
it may lose any of it for good at any time. A run of the whole is a run of each daemon, linked by
what has gone between them (`exists_linked`); while no socket and no session is used twice, the
timers of the sender are in order (`Reached.sound`).
-/

namespace NetworkProgramming

/-- The event makes no connection on a socket that has one, or with a session that is in use. -/
def Tcpd.ConnectsNew (t : Tcpd) (e : Event) : Prop :=
  ∀ addr fd a sys, e = .front addr (.CONNECT fd a) sys →
    t.conn fd = none ∧ ∀ fd' c, t.conn fd' = some c → c.session ≠ sys.rand

/-- The two daemons, the timer process of the sending one, and what is in flight. -/
structure Link where
  client : Timed
  server : Tcpd
  frames : List TrollMessageStruct
  acks : List TrollAckStruct

/-- An event at one of the ends, or a loss. -/
inductive LinkEvent
  | client (e : TimedEvent)
  | server (e : Event)
  /-- of what is in flight the network keeps only these -/
  | lose (frames : TrollMessageStruct → Bool) (acks : TrollAckStruct → Bool)

namespace Link

/-- Nothing has happened yet. -/
def start (now : Timeval) : Link := ⟨Timed.start now, Tcpd.globalInit, [], []⟩

/-- The two daemons with what may still arrive. -/
def net (l : Link) : Net := ⟨l.client.tcpd, l.server, l.frames, l.acks⟩

/-- What the network lets happen at the sending end. -/
def clientMay (s : UInt32) (l : Link) : TimedEvent → Bool
  | .tcpd e => l.net.clientMay s e
  | _ => true

/-- One event. -/
def step (s : UInt32) (l : Link) : LinkEvent → Except Halt (Link × List Out)
  | .client e =>
    if l.clientMay s e then
      match l.client.step e with
      | .error x => .error x
      | .ok (client, os) => .ok ({ l with client, frames := l.frames ++ framesOf os }, os)
    else .error .notReady
  | .server e =>
    if l.net.serverMay s e then
      match l.server.step e with
      | .error x => .error x
      | .ok (server, os) => .ok ({ l with server, acks := l.acks ++ acksOf os }, os)
    else .error .notReady
  | .lose frames acks =>
    .ok ({ l with frames := l.frames.filter frames, acks := l.acks.filter acks }, [])

/-- The two ends of session `s`. -/
def machine (s : UInt32) : Machine Link LinkEvent Out Halt := ⟨step s⟩

/-- A run of the two ends. -/
def Run (s : UInt32) (now : Timeval) (es : List LinkEvent) (l : Link) (os : List Out) : Prop :=
  (machine s).exec (start now) es = .ok (l, os)

/-- The event is fresh at the sending end. -/
def Fresh (l : Link) (e : LinkEvent) : Prop := ∀ e', e = .client e' → l.client.Fresh e'

end Link

/-- What one event does. -/
inductive LinkStep (s : UInt32) (l : Link) : LinkEvent → Link → List Out → Prop
  | client {e : TimedEvent} {t : Timed} {os : List Out} (hmay : l.clientMay s e)
      (hstep : l.client.step e = .ok (t, os)) :
      LinkStep s l (.client e) { l with client := t, frames := l.frames ++ framesOf os } os
  | server {e : Event} {t : Tcpd} {os : List Out} (hmay : l.net.serverMay s e)
      (hstep : l.server.step e = .ok (t, os)) :
      LinkStep s l (.server e) { l with server := t, acks := l.acks ++ acksOf os } os
  | lose {frames : TrollMessageStruct → Bool} {acks : TrollAckStruct → Bool} :
      LinkStep s l (.lose frames acks)
        { l with frames := l.frames.filter frames, acks := l.acks.filter acks } []

lemma link_step {s : UInt32} {l l' : Link} {e : LinkEvent} {os : List Out}
    (h : l.step s e = .ok (l', os)) : LinkStep s l e l' os := by
  cases e with
  | client e =>
    simp only [Link.step] at h
    split at h
    · rename_i hmay
      split at h <;> cases h
      exact .client hmay ‹_›
    · cases h
  | server e =>
    simp only [Link.step] at h
    split at h
    · rename_i hmay
      split at h <;> cases h
      exact .server hmay ‹_›
    · cases h
  | lose frames acks =>
    cases h
    exact .lose

/-! ## A connection keeps its session to itself -/

section Own

variable {fd : Int32} {s : UInt32} {es : List Event} {t u : Tcpd} {e : Event} {os : List Out}

lemma conn_of_connect {addr a : SockaddrIn} {sys : Sys}
    (h : t.step (.front addr (.CONNECT fd a) sys) = .ok (u, os)) :
    u.conn fd = some (.create fd sys.rand a) := by
  have hconn := conn_step h fd
  generalize t.conn fd = x at hconn
  generalize u.conn fd = x' at hconn
  cases hconn with
  | connect => rfl
  | other hconnect _ _ _ => exact absurd rfl (hconnect addr a sys)

/-- A connection stays, with its session. -/
lemma Tcpd.ConnectsNew.session (hnew : t.ConnectsNew e) (h : t.step e = .ok (u, os))
    {c : ConnectedSock} (hc : t.conn fd = some c) :
    ∃ c', u.conn fd = some c' ∧ c'.session = c.session := by
  have hconn := conn_step h fd
  rw [hc] at hconn
  rcases hconn.exists_session with hsame | ⟨addr, a, sys, he, -⟩
  · exact hsame
  · rw [(hnew addr fd a sys he).1] at hc
    cases hc

/-- Before there is a connection on `fd` or with session `s`, none has been made. -/
lemma ownSession_of_absent (h : Tcpd.Run es t os)
    (hnew : Tcpd.machine.Along Tcpd.globalInit Tcpd.ConnectsNew es) (hnone : t.conn fd = none)
    (hunused : ∀ fd' c, t.conn fd' = some c → c.session ≠ s) :
    Tcpd.machine.Along Tcpd.globalInit (OwnSession fd s) es := by
  refine Tcpd.machine.exec_induction (motive := fun es t _ =>
    Tcpd.machine.Along Tcpd.globalInit Tcpd.ConnectsNew es → t.conn fd = none →
      (∀ fd' c, t.conn fd' = some c → c.session ≠ s) →
      Tcpd.machine.Along Tcpd.globalInit (OwnSession fd s) es)
    (fun _ _ _ => Tcpd.machine.along_nil _ _) ?_ h hnew hnone hunused
  intro es u o e t o' hes ih hstep hnew hnone hunused
  obtain ⟨hbefore, hlast⟩ := (Tcpd.machine.along_snoc hes).mp hnew
  refine (Tcpd.machine.along_snoc hes).mpr ⟨ih hbefore ?_ fun fd' c hc hs => ?_, ?_⟩
  · cases hc : u.conn fd with
    | none => rfl
    | some c =>
      obtain ⟨c', hc', -⟩ := hlast.session hstep hc
      rw [hnone] at hc'
      cases hc'
  · obtain ⟨c', hc', hs'⟩ := hlast.session hstep hc
    exact hunused fd' c' hc' (hs'.trans hs)
  · rintro addr fd' a sys rfl
    have hmade := conn_of_connect hstep
    refine ⟨fun hfd => ?_, fun _ => hunused fd' _ hmade⟩
    rw [hfd, hnone] at hmade
    cases hmade

/-- While no socket and no session is used twice, the session of a connection is its own. -/
lemma ownSession_of_new (h : Tcpd.Run es t os)
    (hnew : Tcpd.machine.Along Tcpd.globalInit Tcpd.ConnectsNew es) {c : ConnectedSock}
    (hc : t.conn fd = some c) (hs : c.session = s) :
    Tcpd.machine.Along Tcpd.globalInit (OwnSession fd s) es := by
  refine Tcpd.machine.exec_induction (motive := fun es t _ =>
    Tcpd.machine.Along Tcpd.globalInit Tcpd.ConnectsNew es →
      ∀ c, t.conn fd = some c → c.session = s →
        Tcpd.machine.Along Tcpd.globalInit (OwnSession fd s) es)
    (fun _ _ _ _ => Tcpd.machine.along_nil _ _) ?_ h hnew c hc hs
  intro es u o e t o' hes ih hstep hnew c' hc' hs'
  obtain ⟨hbefore, hlast⟩ := (Tcpd.machine.along_snoc hes).mp hnew
  cases hu : u.conn fd with
  | some c =>
    obtain ⟨c'', hc'', hsame⟩ := hlast.session hstep hu
    obtain rfl : c' = c'' := Option.some.inj (hc'.symm.trans hc'')
    refine (Tcpd.machine.along_snoc hes).mpr ⟨ih hbefore c hu (hsame.symm.trans hs'), ?_⟩
    rintro addr fd' a sys rfl
    obtain ⟨hnone, hunused⟩ := hlast addr fd' a sys rfl
    refine ⟨fun hfd => ?_, fun _ hrand => ?_⟩
    · rw [hfd, hu] at hnone
      cases hnone
    · exact hunused fd c hu (by rw [hrand, ← hs', hsame])
  | none =>
    -- the connection is made in this step
    rcases (conn_step hstep fd).session hc' with ⟨c, hc, -⟩ | ⟨addr, a, sys, rfl, hrand⟩
    · rw [hu] at hc
      cases hc
    · have hfresh := (hlast addr fd a sys rfl).2
      rw [← hrand, hs'] at hfresh
      refine (Tcpd.machine.along_snoc hes).mpr
        ⟨ownSession_of_absent hes hbefore hu hfresh, ?_⟩
      rintro addr' fd' a' sys' he
      cases he
      exact ⟨fun _ => ⟨hu, hrand.symm.trans hs'⟩, fun hne => absurd rfl hne⟩

end Own

/-! ## Runs of the two ends -/

/-- A fresh event of the daemon uses no socket and no session twice. -/
lemma connectsNew_of_fresh {t : Timed} {e : Event} (h : t.Fresh (.tcpd e)) :
    t.tcpd.ConnectsNew e :=
  fun addr fd a sys he => ⟨h.2 addr fd a sys (by rw [he]), h.1.1 addr fd a sys (by rw [he])⟩

namespace Link

/-- A run of the two ends on which no socket and no session is used twice has led here. -/
def Reached (s : UInt32) (now : Timeval) (l : Link) : Prop :=
  ∃ es os, Run s now es l os ∧ (machine s).Along (start now) Fresh es

variable {s : UInt32} {now : Timeval} {l l' : Link} {e : LinkEvent} {os : List Out}

lemma Reached.step (h : l.Reached s now) (hfresh : l.Fresh e) (hstep : l.step s e = .ok (l', os)) :
    l'.Reached s now := by
  obtain ⟨es, o, hrun, hes⟩ := h
  exact ⟨es ++ [e], o ++ os, (machine s).exec_snoc.mpr ⟨l, o, os, hrun, hstep, rfl⟩,
    ((machine s).along_snoc hrun).mpr ⟨hes, hfresh⟩⟩

lemma Reached.sound (h : l.Reached s now) : l.client.Sound := by
  obtain ⟨es, os, hrun, hfresh⟩ := h
  refine (machine s).exec_along (I := fun l => l.client.Sound) ?_ hfresh hrun
    (Timed.sound_start now)
  intro l e l' os hsound hfresh hstep
  cases link_step hstep with
  | client _ hclient => exact hsound.step (hfresh _ rfl) hclient
  | server _ _ => exact hsound
  | lose => exact hsound

/-- A run of the two ends is a run of each, and what is in flight has been sent. -/
lemma exists_linked {es : List LinkEvent} (h : Run s now es l os)
    (hfresh : (machine s).Along (start now) Fresh es) :
    ∃ es₁ es₂ os₁ os₂, (∀ m ∈ l.frames, m ∈ framesOf os₁) ∧ (∀ a ∈ l.acks, a ∈ acksOf os₂) ∧
      Linked s es₁ l.client.tcpd os₁ es₂ l.server os₂ ∧
      Tcpd.machine.Along Tcpd.globalInit Tcpd.ConnectsNew es₁ := by
  refine (machine s).exec_induction (motive := fun es l _ =>
    (machine s).Along (start now) Fresh es → ∃ es₁ es₂ os₁ os₂,
      (∀ m ∈ l.frames, m ∈ framesOf os₁) ∧ (∀ a ∈ l.acks, a ∈ acksOf os₂) ∧
        Linked s es₁ l.client.tcpd os₁ es₂ l.server os₂ ∧
        Tcpd.machine.Along Tcpd.globalInit Tcpd.ConnectsNew es₁) (fun _ => ?_) ?_ h hfresh
  · exact ⟨[], [], [], [], by simp [start], by simp [start], ⟨rfl, rfl, by simp, by simp⟩,
      Tcpd.machine.along_nil _ _⟩
  · intro es u o e l o' hes ih hstep hall
    obtain ⟨hbefore, hlast⟩ := ((machine s).along_snoc hes).mp hall
    obtain ⟨es₁, es₂, os₁, os₂, hframes, hacks, hlinked, hnew⟩ := ih hbefore
    -- an event of the sending daemon, whatever has made it happen
    have hclient : ∀ {e : Event} {t : Tcpd} {o' : List Out}, u.client.tcpd.step e = .ok (t, o') →
        u.client.tcpd.ConnectsNew e → (∀ fd a now, e = .ack fd a now → u.net.AckMayArrive s a) →
        (∀ m ∈ u.frames ++ framesOf o', m ∈ framesOf (os₁ ++ o')) ∧
          Linked s (es₁ ++ [e]) t (os₁ ++ o') es₂ u.server os₂ ∧
          Tcpd.machine.Along Tcpd.globalInit Tcpd.ConnectsNew (es₁ ++ [e]) := by
      intro e t o' htcpd hconnects hmay
      refine ⟨fun m hm => ?_, ⟨hlinked.client.snoc htcpd, hlinked.server,
        fun fd m remote hm hvalid hs => ?_, fun fd a now ha hvalid hs => ?_⟩,
        (Tcpd.machine.along_snoc hlinked.client).mpr ⟨hnew, hconnects⟩⟩
      · rw [framesOf_append]
        exact (List.mem_append.mp hm).elim (fun hm => List.mem_append_left _ (hframes m hm))
          (List.mem_append_right _)
      · obtain ⟨m₀, hm₀, heq⟩ := hlinked.frames fd m remote hm hvalid hs
        exact ⟨m₀, by simp [hm₀], heq⟩
      · rcases List.mem_append.mp ha with ha | ha
        · exact hlinked.acks fd a now ha hvalid hs
        · obtain rfl := List.mem_singleton.mp ha
          obtain ⟨a₀, ha₀, heq⟩ := hmay fd a now rfl hvalid hs
          exact ⟨a₀, hacks a₀ ha₀, heq⟩
    cases link_step hstep with
    | @client e t _ hmay htimed =>
      have hfresh := hlast e rfl
      cases timed_step htimed with
      | @tcpd e t _ _ htcpd =>
        obtain ⟨hframes', hlinked', hnew'⟩ := hclient htcpd (connectsNew_of_fresh hfresh)
          fun fd a now he => by
            subst he
            exact of_decide_eq_true hmay
        exact ⟨_, es₂, _, os₂, hframes', hacks, hlinked', hnew'⟩
      | expiry _ htcpd =>
        obtain ⟨hframes', hlinked', hnew'⟩ := hclient htcpd
          (fun _ _ _ _ he => by cases he) (fun _ _ _ he => by cases he)
        exact ⟨_, es₂, _, os₂, hframes', hacks, hlinked', hnew'⟩
      | round _ =>
        refine ⟨es₁, es₂, os₁, os₂, fun m hm => hframes m ?_, hacks, hlinked, hnew⟩
        simpa [framesOf] using hm
    | @server e t _ hmay htcpd =>
      refine ⟨es₁, es₂ ++ [e], os₁, os₂ ++ o', hframes, fun a ha => ?_,
        ⟨hlinked.client, hlinked.server.snoc htcpd, fun fd m remote hm hvalid hs => ?_,
          fun fd a now ha hvalid hs => ?_⟩, hnew⟩
      · rw [acksOf_append]
        exact (List.mem_append.mp ha).elim (fun ha => List.mem_append_left _ (hacks a ha))
          (List.mem_append_right _)
      · rcases List.mem_append.mp hm with hm | hm
        · exact hlinked.frames fd m remote hm hvalid hs
        · obtain rfl := List.mem_singleton.mp hm
          have hmay' : u.net.FrameMayArrive s m := of_decide_eq_true hmay
          obtain ⟨m₀, hm₀, heq⟩ := hmay' hvalid hs
          exact ⟨m₀, hframes m₀ hm₀, heq⟩
      · obtain ⟨a₀, ha₀, heq⟩ := hlinked.acks fd a now ha hvalid hs
        exact ⟨a₀, by simp [ha₀], heq⟩
    | lose =>
      exact ⟨es₁, es₂, os₁, os₂, fun m hm => hframes m (List.mem_of_mem_filter hm),
        fun a ha => hacks a (List.mem_of_mem_filter ha), hlinked, hnew⟩

/-- Every package below `Base` is held by the sender or has been received. -/
lemma Reached.held_or_received (h : l.Reached s now) {fd : Int32} {c : ConnectedSock}
    (hc : l.client.tcpd.conn fd = some c) (hs : c.session = s) {k : UInt32} (hk : k < c.base) :
    (∃ m ∈ c.held, m.seqNum = k) ∨ ∃ a, l.server.sess s = some a ∧ a.Received k := by
  obtain ⟨es, os, hrun, hfresh⟩ := h
  obtain ⟨es₁, es₂, os₁, os₂, -, -, hlinked, hnew⟩ := exists_linked hrun hfresh
  exact hlinked.held_or_received (ownSession_of_new hlinked.client hnew hc hs) hc hk

end Link
end NetworkProgramming
