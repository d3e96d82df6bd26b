import NetworkProgramming.Final.Link

/-!
# Nothing is lost for good

Whatever the network has lost, a connection can recover from it without the help of a front
process. The sending daemon and its timers send all packages anew (`Timed.exists_resent`); and when
one frame after the other gets through, and the ack for it, the window moves on with every turn
until nothing is held any more and the receiver has everything. All of it happens in turns of the
main loops: the passes of `handle_back_imformation` follow whatever a daemon receives.
-/

namespace NetworkProgramming

open Machine

/-- A turn that needs no front process: of the timer process or of the sending daemon by itself, of
the sending daemon with an ack, or of the receiving daemon with a frame. -/
inductive LinkTurn (recv : Bool) : List LinkEvent → Prop
  | client {es : List TimedEvent} (h : TimedTurn recv es) : LinkTurn recv (es.map .client)
  | ack (fd : Int32) (a : TrollAckStruct) (now : Timeval) (clock : ℕ → Timeval) :
      LinkTurn recv ((.tcpd (.ack fd a now) :: (backEvents recv clock).map .tcpd).map .client)
  | frame (fd : Int32) (m : TrollMessageStruct) (remote : SockaddrIn) (clock : ℕ → Timeval) :
      LinkTurn recv ((.data fd m remote :: backEvents recv clock).map .server)

namespace Link

variable {recv : Bool} {s : UInt32} {now : Timeval} {l : Link} {fd g : Int32} {os : List Out}
  {m : TrollMessageStruct}

/-! ## What one end does -/

/-- What the sending end does, the whole does. -/
lemma exec_client {es : List TimedEvent} {t : Timed}
    (h : Timed.machine.exec l.client es = .ok (t, os)) (hmay : ∀ e ∈ es, l.clientMay s e) :
    (machine s).exec l (es.map .client)
      = .ok ({ l with client := t, frames := l.frames ++ framesOf os }, os) := by
  refine Timed.machine.exec_induction (motive := fun es t os => (∀ e ∈ es, l.clientMay s e) →
    (machine s).exec l (es.map .client)
      = .ok ({ l with client := t, frames := l.frames ++ framesOf os }, os)) (fun _ => ?_) ?_ h hmay
  · rw [framesOf_nil, List.append_nil]
    rfl
  · intro es u o e t o' _ ih hstep hmay
    rw [List.map_append]
    refine (machine s).exec_snoc.mpr
      ⟨_, o, o', ih fun e he => hmay e (List.mem_append_left _ he), ?_, rfl⟩
    -- which acks may arrive does not depend on the sending end
    have hmay' : Link.clientMay s { l with client := u, frames := l.frames ++ framesOf o } e := by
      have he := hmay e (by simp)
      cases e with
      | tcpd e => cases e <;> exact he
      | _ => rfl
    have hstep' : u.step e = .ok (t, o') := hstep
    simp only [machine, Link.step, hmay', if_true, hstep', framesOf_append, List.append_assoc]

/-- What the receiving end does, the whole does. -/
lemma exec_server {es : List Event} {t : Tcpd}
    (h : Tcpd.machine.exec l.server es = .ok (t, os)) (hmay : ∀ e ∈ es, l.net.serverMay s e) :
    (machine s).exec l (es.map .server)
      = .ok ({ l with server := t, acks := l.acks ++ acksOf os }, os) := by
  refine Tcpd.machine.exec_induction (motive := fun es t os => (∀ e ∈ es, l.net.serverMay s e) →
    (machine s).exec l (es.map .server)
      = .ok ({ l with server := t, acks := l.acks ++ acksOf os }, os)) (fun _ => ?_) ?_ h hmay
  · rw [acksOf_nil, List.append_nil]
    rfl
  · intro es u o e t o' _ ih hstep hmay
    rw [List.map_append]
    refine (machine s).exec_snoc.mpr
      ⟨_, o, o', ih fun e he => hmay e (List.mem_append_left _ he), ?_, rfl⟩
    have hmay' : Net.serverMay s (net { l with server := u, acks := l.acks ++ acksOf o }) e := by
      have he := hmay e (by simp)
      cases e <;> exact he
    have hstep' : u.step e = .ok (t, o') := hstep
    simp only [machine, Link.step, hmay', if_true, hstep', acksOf_append, List.append_assoc]

lemma Reached.exec {l' : Link} {es : List LinkEvent} (h : l.Reached s now)
    (hfresh : (machine s).Along l Fresh es) (hexec : (machine s).exec l es = .ok (l', os)) :
    l'.Reached s now :=
  (machine s).exec_along (fun _ _ _ _ hu he hstep => hu.step he hstep) hfresh hexec h

lemma fresh_back {clock : ℕ → Timeval} {e : LinkEvent}
    (he : e ∈ ((backEvents recv clock).map TimedEvent.tcpd).map LinkEvent.client) (l : Link) :
    l.Fresh e := by
  rintro e' rfl
  obtain ⟨_, hmem, heq⟩ := List.mem_map.mp he
  obtain rfl := LinkEvent.client.inj heq
  obtain ⟨e₀, he₀, rfl⟩ := List.mem_map.mp hmem
  exact Timed.fresh_back he₀ l.client

/-- What the sending end does by itself. -/
lemma Reached.turns (h : l.Reached s now) {t : Timed}
    (hreach : Timed.machine.turns.CanReach (TimedTurn recv) l.client t os) :
    Reached s now { l with client := t, frames := l.frames ++ framesOf os } ∧
      (machine s).turns.CanReach (LinkTurn recv) l
        { l with client := t, frames := l.frames ++ framesOf os } os := by
  obtain ⟨ess, hess, hexec⟩ := hreach
  refine Timed.machine.turns.exec_induction (motive := fun ess t os =>
    (∀ es ∈ ess, TimedTurn recv es) →
      Reached s now { l with client := t, frames := l.frames ++ framesOf os } ∧
        (machine s).turns.CanReach (LinkTurn recv) l
          { l with client := t, frames := l.frames ++ framesOf os } os) (fun _ => ?_) ?_ hexec hess
  · rw [framesOf_nil, List.append_nil]
    exact ⟨h, .refl _ l⟩
  · intro ess u o es t o' _ ih hturn hess
    obtain ⟨hreached, hcan⟩ := ih fun es hes => hess es (List.mem_append_left _ hes)
    have hes : TimedTurn recv es := hess es (by simp)
    have hexec := exec_client (s := s)
      (l := { l with client := u, frames := l.frames ++ framesOf o }) hturn fun e he => by
        rcases hes.mem he with ⟨_, _, rfl⟩ | rfl | ⟨clock, e', he', rfl⟩
        · rfl
        · rfl
        · rcases mem_backEvents.mp he' with rfl | ⟨-, rfl⟩ | rfl <;> rfl
    rw [framesOf_append, ← List.append_assoc]
    refine ⟨hreached.exec ((machine s).along_of_forall fun e he v => ?_) hexec,
      hcan.trans (.single (.client hes) hexec)⟩
    rintro e' rfl
    obtain ⟨_, hmem, heq⟩ := List.mem_map.mp he
    obtain rfl := LinkEvent.client.inj heq
    exact hes.fresh hmem v.client

/-! ## The frames and the acks get through -/

/-- A bound socket of the receiving end. -/
def Bound (l : Link) (g : Int32) : Prop := l.server.bindedSockets.any (·.socketFD = g) = true

/-- A frame in flight gets through in a turn of the receiving daemon, which acknowledges it. -/
lemma Reached.exists_frame (h : l.Reached s now) (hmay : l.server.MayPass recv)
    (hbound : l.Bound g) {m : TrollMessageStruct} (hframe : m ∈ l.frames) (hvalid : m.Valid)
    (hlen : m.len.toNat ≤ BUF_LEN) :
    ∃ t os, (machine s).turns.CanReach (LinkTurn recv) l
        { l with server := t, acks := l.acks ++ acksOf os } os ∧
      Reached s now { l with server := t, acks := l.acks ++ acksOf os } ∧ t.MayPass recv ∧
      Bound { l with server := t, acks := l.acks ++ acksOf os } g ∧
      makeAck m default ∈ l.acks ++ acksOf os := by
  have hdata := step_data hbound hvalid default
  obtain ⟨t, os, hback, hmay', hpass⟩ :=
    exists_backPass (hmay.step (e := .data g m default) (fun _ => hlen) hdata) fun _ => default
  have hturn : Tcpd.machine.exec l.server (.data g m default :: backEvents recv fun _ => default)
      = .ok (t, [.ack g (makeAck m default)] ++ os) :=
    Tcpd.machine.exec_cons_ok.mpr ⟨_, _, os, hdata, hback, rfl⟩
  have hexec := exec_server (s := s) hturn fun e he => by
      rcases List.mem_cons.mp he with rfl | he
      · exact decide_eq_true (Net.frameMayArrive_of_mem (n := l.net) hframe)
      · rcases mem_backEvents.mp he with rfl | ⟨-, rfl⟩ | rfl <;> rfl
  refine ⟨t, _, .single (.frame g m default _) hexec,
    h.exec ((machine s).along_of_forall fun e he v => ?_) hexec, hmay', ?_, ?_⟩
  · rintro e' rfl
    obtain ⟨_, -, heq⟩ := List.mem_map.mp he
    cases heq
  · obtain ⟨b, hb, hfd⟩ := List.any_eq_true.mp hbound
    have hmem : b.socketFD ∈ t.bindedSockets.map (·.socketFD) := by
      rw [hpass.bound, bindedSockets_arrived]
      exact List.mem_map_of_mem hb
    obtain ⟨b', hb', heq⟩ := List.mem_map.mp hmem
    exact List.any_eq_true.mpr ⟨b', hb', heq ▸ hfd⟩
  · rw [acksOf_append]
    exact List.mem_append_right _ (List.mem_append_left _ (List.mem_singleton_self _))

/-- The ack of a package in the window gets through in a turn of the sending daemon. -/
lemma Reached.exists_ack (h : l.Reached s now) (hmay : l.client.tcpd.MayPass recv)
    {c : ConnectedSock} (hc : l.client.tcpd.conn fd = some c) (hs : c.session = s)
    {m : TrollMessageStruct} (hm : m ∈ c.packages) (hack : makeAck m default ∈ l.acks) :
    ∃ t os, (machine s).turns.CanReach (LinkTurn recv) l
        { l with client := t, frames := l.frames ++ framesOf os } os ∧
      Reached s now { l with client := t, frames := l.frames ++ framesOf os } ∧
      t.tcpd.MayPass recv ∧ t.tcpd.conn fd = some (c.drop (makeAck m default)).afterPass ∧
      t.tcpd.inBufferPackages = l.client.tcpd.inBufferPackages - 1 ∧
      ∀ p ∈ (c.drop (makeAck m default)).sendable, .frame fd p ∈ os := by
  have hok := h.sound.coverage.client.conns fd c hc
  have hsession : m.session = s := (hok.session m (List.mem_append_left _ hm)).trans hs
  have hfound : c.packages.any
      (·.hasKey (makeAck m default).session (makeAck m default).seqNum) :=
    List.any_eq_true.mpr ⟨m, hm, by simp [TrollMessageStruct.hasKey, makeAck]⟩
  obtain ⟨u, o, htcpd, htable, hcount⟩ :=
    exists_step_ack (a := makeAck m default) rfl hc hfound default
  obtain ⟨t, os, hback, hmay', hpass⟩ :=
    exists_backPass (hmay.step (e := .ack fd (makeAck m default) default) trivial htcpd)
      fun _ => default
  have hdropped : u.conn fd = some (c.drop (makeAck m default)) := by
    rw [Tcpd.conn, htable, HashTable.lookup_insert_self]
  have hturn : Tcpd.machine.exec l.client.tcpd
      (.ack fd (makeAck m default) default :: backEvents recv fun _ => default)
        = .ok (t, o ++ os) :=
    Tcpd.machine.exec_cons_ok.mpr ⟨u, o, os, htcpd, hback, rfl⟩
  have htimed := Timed.exec_tcpd (s := l.client) hturn fun x hx => by
    rcases List.mem_cons.mp hx with hx | hx
    · cases hx
    · rcases mem_backEvents.mp hx with hx | ⟨-, hx⟩ | hx <;> cases hx
  have hexec := exec_client (s := s) htimed fun e he => by
    obtain ⟨e₀, he₀, rfl⟩ := List.mem_map.mp he
    rcases List.mem_cons.mp he₀ with rfl | he
    · exact decide_eq_true (Net.ackMayArrive_of_mem (n := l.net) hack)
    · rcases mem_backEvents.mp he with rfl | ⟨-, rfl⟩ | rfl <;> rfl
  refine ⟨_, o ++ os, .single (.ack fd (makeAck m default) default _) hexec, h.exec ?_ hexec, hmay',
    ?_, hpass.count.trans hcount, fun p hp => ?_⟩
  · refine (machine s).along_cons ?_ fun v o _ => (machine s).along_of_forall fun e he v =>
      fresh_back he v
    rintro e he
    obtain rfl := LinkEvent.client.inj he
    refine ⟨⟨fun _ _ _ _ heq => ?_, fun fd' a now' heq _ fd'' d hd hs' => ?_⟩,
      fun _ _ _ _ heq => ?_⟩
    · cases heq
    · cases heq
      exact h.sound.coverage.distinct fd'' d fd c hd hc (by rw [hs', hs]; exact hsession)
    · cases heq
  · rw [hpass.conn, hdropped]
    rfl
  · have hframe := hpass.sent fd _ hdropped p hp
    rw [show (c.drop (makeAck m default)).socketFD = fd from hok.socketFD] at hframe
    exact List.mem_append_right _ hframe

/-- On the way: what is in the window has its frame in flight, no other package may join it, and
every package of `held` has been sent or is still to be. -/
structure Recovering (recv : Bool) (fd g : Int32) (s : UInt32) (now : Timeval) (base : UInt32)
    (count : ℤ) (held : List TrollMessageStruct) (l : Link) (os : List Out) : Prop where
  reached : l.Reached s now
  mayClient : l.client.tcpd.MayPass recv
  mayServer : l.server.MayPass recv
  bound : l.Bound g
  conn : ∃ c, l.client.tcpd.conn fd = some c ∧ c.session = s ∧ c.base = base ∧
    c.sendable = [] ∧ (∀ m ∈ c.packages, m ∈ l.frames) ∧
    (∀ m ∈ held, .frame fd m ∈ os ∨ m ∈ c.pendingPackages) ∧
    l.client.tcpd.inBufferPackages = count + c.held.length

/-- How many packages are held. -/
def heldOn (fd : Int32) (l : Link) : ℕ := (l.client.tcpd.conn fd).elim 0 fun c => c.held.length

/-- One package after the other is acknowledged. -/
lemma Recovering.exists_empty {base : UInt32} {count : ℤ} {held : List TrollMessageStruct}
    (hlimit : base.toNat ≤ seqLimit) (h : Recovering recv fd g s now base count held l os) :
    ∃ l' os', (machine s).turns.CanReach (LinkTurn recv) l l' os' ∧
      Recovering recv fd g s now base count held l' (os ++ os') ∧ l'.heldOn fd = 0 := by
  refine (machine s).turns.exists_canReach_zero_emitting
    (Recovering recv fd g s now base count held) (heldOn fd) ?_ l os h
  intro u os hu hpos
  obtain ⟨c, hc, hs, hb, hsated, hframes, hsent, hcount⟩ := hu.conn
  have hok := hu.reached.sound.coverage.client.conns fd c hc
  rw [heldOn, hc, Option.elim_some] at hpos ⊢
  -- no number is too large, so that an empty window would admit another package
  obtain ⟨m, hm⟩ : ∃ m, m ∈ c.packages := by
    refine List.exists_mem_of_ne_nil _ fun hnil => ?_
    rw [ConnectedSock.held, hnil, List.nil_append] at hpos
    obtain ⟨p, hp⟩ := List.exists_mem_of_length_pos hpos
    have hbelow := UInt32.lt_iff_toNat_lt.mp (hok.below p (List.mem_append_right _ hp))
    have hlets := admits_of_le (l := c.packages) (m := p) (by rw [hb] at hbelow; omega)
      (by simp [hnil])
    have hmem : p ∈ c.sendable := List.mem_filter.mpr ⟨hp, hlets⟩
    rw [hsated] at hmem
    cases hmem
  have hheld := List.mem_append_left c.pendingPackages hm
  obtain ⟨t, o, hreach, hreached, hmay, hbound, hack⟩ := hu.reached.exists_frame hu.mayServer
    hu.bound (hframes m hm) (hok.valid m hheld) (hok.small m hheld)
  obtain ⟨t', o', hreach', hreached', hmay', hc', hcount', hsent'⟩ :=
    hreached.exists_ack hu.mayClient hc hs hm hack
  have hlen : (c.drop (makeAck m default)).held.length + 1 = c.held.length :=
    length_held_drop (List.any_eq_true.mpr ⟨m, hm, by simp [TrollMessageStruct.hasKey, makeAck]⟩)
  have hperm := (c.drop (makeAck m default)).held_afterPass_perm
  refine ⟨_, o ++ o', hreach.trans hreach', ⟨hreached', hmay', hmay, hbound, _, hc', hs, hb,
    ConnectedSock.sendable_afterPass _, fun p hp => ?_, fun p hp => ?_, ?_⟩, ?_⟩
  · rcases List.mem_append.mp hp with hp | hp
    · exact List.mem_append_left _ (hframes p (List.mem_of_mem_eraseP hp))
    · exact List.mem_append_right _ (mem_framesOf.mpr ⟨fd, hsent' p hp⟩)
  · rcases hsent p hp with hframe | hpending
    · exact Or.inl (List.mem_append_left _ hframe)
    · -- the pass has sent it, or has left it where it was
      by_cases hlets : ConnectedSock.admits
          (ConnectedSock.minSeqOf (c.drop (makeAck m default)).packages) p
      · refine Or.inl (List.mem_append_right _ (List.mem_append_right _ (hsent' p ?_)))
        exact List.mem_filter.mpr ⟨hpending, hlets⟩
      · exact Or.inr (List.mem_filter.mpr ⟨hpending, by simpa using hlets⟩)
  · have hcount'' : u.client.tcpd.inBufferPackages - 1 = t'.tcpd.inBufferPackages := hcount'.symm
    show t'.tcpd.inBufferPackages = _
    rw [hperm.length_eq, ← hcount'', hcount]
    omega
  · show (t'.tcpd.conn fd).elim 0 _ < _
    rw [hc', Option.elim_some, hperm.length_eq]
    omega

/-- **Recovery.** After any run of the two ends and the network in which no socket and no session
is used twice, whatever of the frames and acks has been lost: the timers and the daemons can go on,
in turns of their main loops and without any front process, so that every package the connection
holds is sent again, its frame and its ack get through, the connection holds nothing, the room its
packages took is free, and everything below `Base` has been received. (`Base` is not beyond
`seqLimit`: from there on the window admits no package.) While no request and no package of a
session is longer than `BUF_LEN`, the passes of a turn may be all three of the main loop; otherwise
the pass over the sessions, which may then stop a daemon, is left out. -/
theorem recovers_of_run (fd g : Int32) (s : UInt32) (now : Timeval) (es : List LinkEvent)
    (l : Link) (os : List Out) (h : Run s now es l os)
    (hfresh : (machine s).Along (start now) Fresh es) (c : ConnectedSock)
    (hc : l.client.tcpd.conn fd = some c) (hs : c.session = s) (hlimit : c.base.toNat ≤ seqLimit)
    (hbound : l.Bound g) (recv : Bool)
    (hrecv : recv = true → l.client.tcpd.Fits ∧ l.server.Fits) :
    ∃ l' os', (machine s).turns.CanReach (LinkTurn recv) l l' os' ∧
      (∀ m ∈ c.held, .frame fd m ∈ os') ∧
      (∃ c', l'.client.tcpd.conn fd = some c' ∧ c'.held = [] ∧ c'.base = c.base) ∧
      l'.client.tcpd.inBufferPackages = l.client.tcpd.inBufferPackages - c.held.length ∧
      ∀ k < c.base, ∃ a, l'.server.sess s = some a ∧ a.Received k := by
  have hreached : l.Reached s now := ⟨es, os, h, hfresh⟩
  obtain ⟨_, _, _, _, -, -, hlinked, -⟩ := exists_linked h hfresh
  have hmayClient : l.client.tcpd.MayPass recv :=
    fun hr => ⟨sessionsOk_of_run hlinked.client, (hrecv hr).1⟩
  have hmayServer : l.server.MayPass recv :=
    fun hr => ⟨sessionsOk_of_run hlinked.server, (hrecv hr).2⟩
  -- everything is sent anew
  obtain ⟨t, o, hturns, hmay, hkeeps, hsated, hsent⟩ :=
    Timed.exists_resent hreached.sound hmayClient
  obtain ⟨hreached', hcan⟩ := hreached.turns hturns
  obtain ⟨d, hd, hds, hdb, hheld⟩ := hkeeps.conns fd c hc
  have hrecovering : Recovering recv fd g s now c.base
      (l.client.tcpd.inBufferPackages - c.held.length) c.held
      { l with client := t, frames := l.frames ++ framesOf o } o := by
    refine ⟨hreached', hmay, hmayServer, hbound, d, hd, hds.trans hs, hdb, hsated fd d hd,
      fun m hm => ?_, fun m hm => ?_, ?_⟩
    · exact List.mem_append_right _ (mem_framesOf.mpr ⟨fd, hsent fd d hd m hm⟩)
    · exact (List.mem_append.mp (hheld.mem_iff.mpr hm)).imp_left (hsent fd d hd m)
    · show t.tcpd.inBufferPackages = _
      rw [hkeeps.count, hheld.length_eq]
      omega
  -- and acknowledged
  obtain ⟨l', o', hcan', hempty, hzero⟩ := hrecovering.exists_empty hlimit
  obtain ⟨c', hc', hs', hb', -, -, hsent', hcount'⟩ := hempty.conn
  rw [heldOn, hc', Option.elim_some] at hzero
  have hnothing : c'.held = [] := List.length_eq_zero_iff.mp hzero
  refine ⟨l', o ++ o', hcan.trans hcan', fun m hm => ?_, ⟨c', hc', hnothing, hb'⟩, ?_,
    fun k hk => ?_⟩
  · refine (hsent' m hm).resolve_right fun hpending => ?_
    have hmem : m ∈ c'.held := List.mem_append_right _ hpending
    rw [hnothing] at hmem
    cases hmem
  · rw [hcount', hzero, Nat.cast_zero, add_zero]
  · refine (hempty.reached.held_or_received hc' hs' (hb' ▸ hk)).resolve_left ?_
    rintro ⟨m, hm, -⟩
    rw [hnothing] at hm
    cases hm

/-- A frame in flight arrives. -/
lemma step_frame (hframe : m ∈ l.frames) (hvalid : m.Valid) (hbound : l.Bound g) :
    (machine s).step l (.server (.data g m default))
      = .ok ({ l with server := l.server.arrived g m, acks := l.acks ++ [makeAck m default] },
          [.ack g (makeAck m default)]) := by
  have hmay : l.net.serverMay s (.data g m default) = true :=
    decide_eq_true (Net.frameMayArrive_of_mem (n := l.net) hframe)
  simp only [machine, Link.step, hmay, if_true, step_data hbound hvalid]
  rfl

/-- All that is in flight is lost. -/
lemma step_loseAll : (machine s).step l (.lose (fun _ => false) fun _ => false)
    = .ok ({ l with frames := [], acks := [] }, []) := by
  simp only [machine, Link.step, List.filter_false]

/-- Three packages are sent, and the other end binds a socket. -/
def sendThree : List LinkEvent :=
  ([connectFour, sendFour, sendFour, sendFour, passNow].map TimedEvent.tcpd).map .client
    ++ [.server (.front default (.BIND 3 default) calmSys)]

/-- Where they lead. -/
def threeSent : Link := (machine 7).play (start default) sendThree

/-- The first frame arrives; then its ack and all frames are lost. -/
def loseThree : List LinkEvent :=
  [.server (.data 3 (packageFour 0) default), .lose (fun _ => false) fun _ => false]

/-- Where that leads. -/
def threeLost : Link :=
  { threeSent with server := threeSent.server.arrived 3 (packageFour 0), frames := [], acks := [] }

/-- A test for `Fresh`. -/
def isFresh (l : Link) : LinkEvent → Bool
  | .client e => l.client.isProper e &&
    match e with
    | .tcpd (.front _ (.CONNECT fd _) _) => (l.client.tcpd.conn fd).isNone
    | _ => true
  | _ => true

lemma fresh_of_isFresh {e : LinkEvent} (h : l.isFresh e = true) : l.Fresh e := by
  rintro e' rfl
  obtain ⟨hproper, hnone⟩ := Bool.and_eq_true_iff.mp h
  refine ⟨proper_of_isProper hproper, ?_⟩
  rintro addr fd a sys rfl
  simpa using hnone

lemma run_loseThree : ∃ os, Run 7 default (sendThree ++ loseThree) threeLost os ∧
    (machine 7).Along (start default) Fresh (sendThree ++ loseThree) := by
  obtain ⟨os, hsent⟩ : ∃ os, Run 7 default sendThree threeSent os :=
    (machine 7).exec_play _ _ (by decide +kernel)
  have hframe : packageFour 0 ∈ threeSent.frames := by
    rw [show threeSent.frames = [packageFour 0, packageFour 1, packageFour 2] from rfl]
    exact List.mem_cons_self
  have hbound : threeSent.server.bindedSockets.any (·.socketFD = 3) = true := rfl
  have harrives := step_frame (s := 7) hframe (valid_packageFour 0) hbound
  have hlose : (machine 7).exec threeSent loseThree
      = .ok (threeLost, [.ack 3 (makeAck (packageFour 0) default)]) :=
    (machine 7).exec_cons_ok.mpr ⟨_, _, [], harrives,
      (machine 7).exec_cons_ok.mpr ⟨_, [], [], step_loseAll, rfl, rfl⟩, rfl⟩
  refine ⟨_, (machine 7).exec_append.mpr ⟨_, os, _, hsent, hlose, rfl⟩, ?_⟩
  refine ((machine 7).along_append hsent).mpr
    ⟨?_, (machine 7).along_of_forall fun e he u e' hc => ?_⟩
  · exact (machine 7).along_of_check (q := isFresh) (fun _ _ => fresh_of_isFresh)
      (by decide +kernel)
  · subst hc
    simp [loseThree] at he

/-- The lost packages get through, in whole turns. -/
theorem recovers_of_run_loseThree : ∃ os c,
    Run 7 default (sendThree ++ loseThree) threeLost os ∧ threeLost.frames = [] ∧
    threeLost.acks = [] ∧ threeLost.client.tcpd.conn 4 = some c ∧
    c.held.map (·.seqNum) = [0, 1, 2] ∧ c.base = 3 ∧ ∃ l' os',
      (machine 7).turns.CanReach (LinkTurn true) threeLost l' os' ∧
      (∀ m ∈ c.held, .frame 4 m ∈ os') ∧
      (∃ c', l'.client.tcpd.conn 4 = some c' ∧ c'.held = [] ∧ c'.base = c.base) ∧
      l'.client.tcpd.inBufferPackages = threeLost.client.tcpd.inBufferPackages - c.held.length ∧
      ∀ k < c.base, ∃ a, l'.server.sess 7 = some a ∧ a.Received k := by
  obtain ⟨os, hrun, hfresh⟩ := run_loseThree
  have hshows : (threeLost.client.tcpd.conn 4).map (fun c => (c.held.map (·.seqNum), c.base,
      c.session)) = some ([0, 1, 2], 3, 7) := by decide +kernel
  obtain ⟨c, hc, hall⟩ := Option.map_eq_some_iff.mp hshows
  obtain ⟨hheld, hboth⟩ := Prod.mk.inj hall
  obtain ⟨hbase, hs⟩ := Prod.mk.inj hboth
  have hfits : threeLost.client.tcpd.Fits ∧ threeLost.server.Fits :=
    ⟨Tcpd.fits_of_entries (by decide +kernel) (by decide +kernel),
      Tcpd.fits_of_entries (by decide +kernel) (by decide +kernel)⟩
  refine ⟨os, c, hrun, rfl, rfl, hc, hheld, hbase, ?_⟩
  refine recovers_of_run 4 3 7 default _ _ os hrun hfresh c hc hs ?_ rfl true fun _ => hfits
  rw [hbase]
  decide

end Link
end NetworkProgramming
