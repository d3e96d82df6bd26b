import NetworkProgramming.Final.SendBack
import NetworkProgramming.Final.Tcpd

/-!
# One connection of the sending daemon

`Tcpd.conn t fd` is the entry of the connection on `fd`. `conn_step` says what a step of the
daemon does to it: it is made anew, a package is queued, acknowledged or timed out, a pass
sends what the window admits, or nothing happens. The packages it holds are those of the
window and the pending ones; only a queued package adds to them, and only an ack takes one
away.
-/

namespace NetworkProgramming

namespace ConnectedSock

/-- The packages of a connection that are not acknowledged. -/
def held (c : ConnectedSock) : List TrollMessageStruct := c.packages ++ c.pendingPackages

@[simp] lemma held_create (fd : Int32) (s : UInt32) (a : SockaddrIn) : (create fd s a).held = [] :=
  rfl

lemma held_enqueue (c : ConnectedSock) (m : TrollMessageStruct) :
    (c.enqueue m).held = c.held ++ [m] := by
  simp [held, enqueue]

lemma held_drop_sublist (c : ConnectedSock) (ack : TrollAckStruct) :
    (c.drop ack).held.Sublist c.held :=
  List.Sublist.append (List.eraseP_sublist) (List.Sublist.refl _)

/-- An expiry moves a package, and loses none. -/
lemma held_expire_perm (c : ConnectedSock) (session seqNum : UInt32) :
    (c.expire session seqNum).held.Perm c.held := by
  unfold expire
  split
  · exact List.Perm.refl _
  · rename_i m hm
    have hfirst : (m :: c.packages.eraseP (·.hasKey session seqNum)).Perm c.packages := by
      obtain ⟨hkey, l₁, l₂, hl, hnot⟩ := List.find?_eq_some_iff_append.mp hm
      have herase : c.packages.eraseP (·.hasKey session seqNum) = l₁ ++ l₂ := by
        rw [hl, List.eraseP_append_right _ fun x hx => by simpa using hnot x hx]
        simp [hkey]
      rw [herase, hl]
      exact List.perm_middle.symm
    calc c.packages.eraseP (·.hasKey session seqNum) ++ (c.pendingPackages ++ [m])
        _ = (c.packages.eraseP (·.hasKey session seqNum) ++ c.pendingPackages) ++ [m] := by simp
        List.Perm _ (m :: (c.packages.eraseP (·.hasKey session seqNum) ++ c.pendingPackages)) :=
          List.perm_append_singleton _ _
        List.Perm _ (c.packages ++ c.pendingPackages) := hfirst.append_right _

/-- The connection after a send pass. -/
def afterPass (c : ConnectedSock) : ConnectedSock :=
  { c with minSeq := minSeqOf c.packages, packages := c.packages ++ c.sendable,
           pendingPackages := c.skipped }

/-- A send pass moves packages, and loses none. -/
lemma held_afterPass_perm (c : ConnectedSock) : c.afterPass.held.Perm c.held := by
  rw [held, afterPass, held, List.append_assoc]
  exact (List.filter_append_perm _ _).append_left _

end ConnectedSock

/-- The entry of the connection on `fd`. -/
def Tcpd.conn (t : Tcpd) (fd : Int32) : Option ConnectedSock := t.connectedSockets.lookup fd

/-- The number of packages the daemon holds. -/
def Tcpd.heldTotal (t : Tcpd) : ℕ := t.connectedSockets.total fun c => c.held.length

/-- The timer requests among the datagrams, in order. -/
def timersOf (os : List Out) : List TimerRequestStruct :=
  os.filterMap fun o =>
    match o with
    | .timer r => some r
    | _ => none

@[simp] lemma timersOf_nil : timersOf [] = [] := rfl

@[simp] lemma timersOf_append (os os' : List Out) :
    timersOf (os ++ os') = timersOf os ++ timersOf os' := List.filterMap_append

/-- The datagram is neither a frame nor a timer request. -/
def Out.Quiet : Out → Prop
  | .frame _ _ => False
  | .timer _ => False
  | _ => True

lemma timersOf_of_quiet {os : List Out} (h : ∀ o ∈ os, o.Quiet) : timersOf os = [] := by
  refine List.filterMap_eq_nil_iff.mpr fun o ho => ?_
  cases o with
  | timer r => exact (h _ ho).elim
  | _ => rfl

/-! ## What a step does to a connection -/

/-- What one step does to the entry of the connection on `fd`. -/
inductive ConnStep (fd : Int32) : Option ConnectedSock → Event → Option ConnectedSock → Prop
  /-- a `CONNECT` -/
  | connect {x : Option ConnectedSock} {addr a : SockaddrIn} {sys : Sys} :
      ConnStep fd x (.front addr (.CONNECT fd a) sys) (some (.create fd sys.rand a))
  /-- a `SEND` -/
  | send {c : ConnectedSock} {addr : SockaddrIn} {len : UInt64} {buf : Buffer BUF_LEN} {sys : Sys}
      (hlen : len.toNat ≤ BUF_LEN) :
      ConnStep fd (some c) (.front addr (.SEND fd len buf) sys)
        (some (c.enqueue (c.makePackage buf len sys.malloc)))
  /-- an intact ack -/
  | ack {c : ConnectedSock} {a : TrollAckStruct} {now : Timeval} (hvalid : a.Valid) :
      ConnStep fd (some c) (.ack fd a now) (some (c.drop a))
  /-- an expiry with the session of the connection -/
  | timer {c : ConnectedSock} {e : TimerExpiredStruct} (hs : c.session = e.session.toUInt32) :
      ConnStep fd (some c) (.timer e)
        (some (c.expire e.session.toUInt32 e.seqNum.toUInt32))
  /-- a send pass -/
  | pass {c : ConnectedSock} {clock : ℕ → Timeval} :
      ConnStep fd (some c) (.sendBack clock) (some c.afterPass)
  /-- nothing of the above -/
  | other {x : Option ConnectedSock} {e : Event}
      (hconnect : ∀ addr a sys, e ≠ .front addr (.CONNECT fd a) sys)
      (hsend : ∀ addr len buf sys, e ≠ .front addr (.SEND fd len buf) sys)
      (hack : ∀ a now, e = .ack fd a now → ¬ a.Valid)
      (hpass : ∀ clock, e = .sendBack clock → x = none) :
      ConnStep fd x e x

/-- What one step does to the sending side of the daemon, and what it sends. -/
inductive ClientStep (t : Tcpd) : Event → Tcpd → List Out → Prop
  /-- a `CONNECT` -/
  | connect {t' : Tcpd} {addr a : SockaddrIn} {fd : Int32} {sys : Sys} {os : List Out}
      (htable : t'.connectedSockets = t.connectedSockets.insert fd (.create fd sys.rand a))
      (hcount : t'.inBufferPackages = t.inBufferPackages) (hquiet : ∀ o ∈ os, o.Quiet) :
      ClientStep t (.front addr (.CONNECT fd a) sys) t' os
  /-- a `SEND` -/
  | send {t' : Tcpd} {addr : SockaddrIn} {fd : Int32} {len : UInt64} {buf : Buffer BUF_LEN}
      {sys : Sys} {os : List Out} {c : ConnectedSock} (hroom : t.inBufferPackages < 64)
      (hlen : len.toNat ≤ BUF_LEN) (hc : t.conn fd = some c)
      (htable : t'.connectedSockets
        = t.connectedSockets.insert fd (c.enqueue (c.makePackage buf len sys.malloc)))
      (hcount : t'.inBufferPackages = t.inBufferPackages + 1) (hquiet : ∀ o ∈ os, o.Quiet) :
      ClientStep t (.front addr (.SEND fd len buf) sys) t' os
  /-- an intact ack of a package in the window -/
  | ack {t' : Tcpd} {fd : Int32} {a : TrollAckStruct} {now : Timeval} {c : ConnectedSock}
      (hvalid : a.Valid) (hc : t.conn fd = some c)
      (hfound : c.packages.any (·.hasKey a.session a.seqNum))
      (htable : t'.connectedSockets = t.connectedSockets.insert fd (c.drop a))
      (hcount : t'.inBufferPackages = t.inBufferPackages - 1) :
      ClientStep t (.ack fd a now) t' [.timer (cancelTimerRequest a.session a.seqNum)]
  /-- an intact ack of another package -/
  | ackOther {t' : Tcpd} {fd : Int32} {a : TrollAckStruct} {now : Timeval} {c : ConnectedSock}
      (hvalid : a.Valid) (hc : t.conn fd = some c)
      (hfound : c.packages.any (·.hasKey a.session a.seqNum) = false)
      (htable : t'.connectedSockets = t.connectedSockets)
      (hcount : t'.inBufferPackages = t.inBufferPackages) :
      ClientStep t (.ack fd a now) t' [.timer (cancelTimerRequest a.session a.seqNum)]
  /-- an expiry -/
  | timer {t' : Tcpd} {e : TimerExpiredStruct} {fd : Int32} {c : ConnectedSock}
      (hc : t.conn fd = some c) (hs : c.session = e.session.toUInt32)
      (htable : t'.connectedSockets
        = t.connectedSockets.insert fd (c.expire e.session.toUInt32 e.seqNum.toUInt32))
      (hcount : t'.inBufferPackages = t.inBufferPackages) :
      ClientStep t (.timer e) t' []
  /-- a send pass -/
  | pass {t' : Tcpd} {clock : ℕ → Timeval} {os : List Out} {s : Estimator × ℕ}
      (hpass : t.connectedSockets.pass (ConnectedSock.sendVisit clock) (t.estimator, 0)
        = .ok (s, t'.connectedSockets, os))
      (hcount : t'.inBufferPackages = t.inBufferPackages) :
      ClientStep t (.sendBack clock) t' os
  /-- the iterators change their order -/
  | rehash {t' : Tcpd} {acked : List UInt32} {connected : List Int32}
      (htable : t'.connectedSockets = t.connectedSockets.reorder connected)
      (hcount : t'.inBufferPackages = t.inBufferPackages) :
      ClientStep t (.rehash acked connected) t' []
  /-- nothing of the above -/
  | other {t' : Tcpd} {e : Event} {os : List Out}
      (hconnect : ∀ addr fd a sys, e ≠ .front addr (.CONNECT fd a) sys)
      (hsend : ∀ addr fd len buf sys, e ≠ .front addr (.SEND fd len buf) sys)
      (hack : ∀ fd a now, e = .ack fd a now → ¬ a.Valid)
      (htimer : ∀ x, e ≠ .timer x) (hpass : ∀ clock, e ≠ .sendBack clock)
      (htable : t'.connectedSockets = t.connectedSockets)
      (hcount : t'.inBufferPackages = t.inBufferPackages) (hquiet : ∀ o ∈ os, o.Quiet) :
      ClientStep t e t' os

/-- A step that leaves the sending side alone. -/
def SameConnections (t t' : Tcpd) : Prop :=
  t'.connectedSockets = t.connectedSockets ∧ t'.inBufferPackages = t.inBufferPackages

lemma SameConnections.conn_eq {t t' : Tcpd} (h : SameConnections t t') (fd : Int32) :
    t'.conn fd = t.conn fd := by
  rw [Tcpd.conn, h.1]
  rfl

lemma SameConnections.heldTotal_eq {t t' : Tcpd} (h : SameConnections t t') :
    t'.heldTotal = t.heldTotal := by
  rw [Tcpd.heldTotal, h.1]
  rfl

lemma quiet_code (addr : SockaddrIn) (ret : Int32) : ∀ o ∈ [Out.code addr ret], o.Quiet := by
  intro o ho
  rw [List.mem_singleton.mp ho]
  exact trivial

lemma handOver_quiet (acked : HashTable UInt32 AckedSock) (waiting : List AckedSock)
    (bs : List BindedSock) : ∀ o ∈ (handOver acked waiting bs).2.2.2, o.Quiet := by
  induction bs generalizing acked waiting with
  | nil => simp [handOver]
  | cons b bs ih =>
    rw [handOver]
    split
    · exact ih _ _
    · intro o ho
      rcases List.mem_cons.mp ho with rfl | ho
      · exact trivial
      · exact ih _ _ o ho

lemma recvBack_quiet {a a' : AckedSock} {os : List Out} (h : a.recvBack = .ok (a', os)) :
    ∀ o ∈ os, o.Quiet := by
  unfold AckedSock.recvBack at h
  split at h
  · cases h
    simp
  · split at h
    · cases h
    · split at h
      · cases h
      · split at h
        · cases h
          intro o ho
          rw [List.mem_singleton.mp ho]
          exact trivial
        · cases h
          simp

/-- **One step of the sending side.** -/
theorem client_step {t t' : Tcpd} {e : Event} {os : List Out} (h : t.step e = .ok (t', os)) :
    ClientStep t e t' os := by
  cases tcpd_step h with
  | connect => exact .connect rfl rfl (quiet_code _ _)
  | send hroom hlen hc =>
    exact .send (by simpa [MAX_BUFFER_PACKAGES] using hroom) hlen hc rfl rfl (quiet_code _ _)
  | ack hvalid hc hfound => exact .ack hvalid hc hfound rfl rfl
  | ackOther hvalid hc hfound => exact .ackOther hvalid hc hfound rfl rfl
  | timer hc hs => exact .timer hc hs rfl rfl
  | sendBack hpass => exact .pass hpass rfl
  | rehash => exact .rehash rfl rfl
  | socket | bind | recvRefused =>
    exact .other (by simp) (by simp) (by simp) (by simp) (by simp) rfl rfl (quiet_code _ _)
  | recv | frameGarbled =>
    exact .other (by simp) (by simp) (by simp) (by simp) (by simp) rfl rfl (by simp)
  | accept =>
    refine .other (by simp) (by simp) (by simp) (by simp) (by simp) rfl rfl ?_
    rw [tcpdAccept]
    split
    · exact quiet_code _ _
    · simp
  | frameAccepted | frameWaiting =>
    refine .other (by simp) (by simp) (by simp) (by simp) (by simp) rfl rfl fun o ho => ?_
    rw [List.mem_singleton.mp ho]
    exact trivial
  | ackGarbled hc hbad =>
    refine .other (by simp) (by simp) (fun _ _ _ he hvalid => ?_) (by simp) (by simp) rfl rfl
      (by simp)
    cases he
    exact hbad hvalid
  | ackBack =>
    rw [handleAckBack]
    split
    · exact .other (by simp) (by simp) (by simp) (by simp) (by simp) rfl rfl (by simp)
    · exact .other (by simp) (by simp) (by simp) (by simp) (by simp) rfl rfl
        (handOver_quiet _ _ _)
  | recvBack hpass =>
    refine .other (by simp) (by simp) (by simp) (by simp) (by simp) rfl rfl fun o ho => ?_
    obtain ⟨x, ⟨s, s', hx⟩, -, -, hox⟩ := HashTable.pass_outs hpass ho
    unfold AckedSock.recvVisit at hx
    cases hr : x.old.recvBack with
    | error e => simp [hr, Except.map] at hx
    | ok r =>
      rw [hr] at hx
      have heq := Except.ok.inj hx
      have hr' : x.old.recvBack = .ok (r.1, r.2) := hr
      exact recvBack_quiet hr' o (by rw [(Prod.mk.inj heq).2]; exact hox)

/-- What a send pass does to the tables: every entry goes through its own pass. -/
lemma conn_of_pass {t t' : Tcpd} {clock : ℕ → Timeval} {s : Estimator × ℕ} {os : List Out}
    (h : t.connectedSockets.pass (ConnectedSock.sendVisit clock) (t.estimator, 0)
      = .ok (s, t'.connectedSockets, os)) (fd : Int32) :
    t'.conn fd = (t.conn fd).map ConnectedSock.afterPass := by
  cases hc : t.conn fd with
  | none => exact HashTable.pass_lookup_none h hc
  | some c =>
    obtain ⟨x, hby, -, rfl, hnew, -⟩ := HashTable.pass_lookup h hc
    rw [Tcpd.conn, hnew, (sendBack_visit hby).1]
    rfl

/-- **One step, one connection.** -/
theorem conn_step {t t' : Tcpd} {e : Event} {os : List Out} (h : t.step e = .ok (t', os))
    (fd : Int32) : ConnStep fd (t.conn fd) e (t'.conn fd) := by
  have hinsert : ∀ {fd' : Int32} {c : ConnectedSock},
      t'.connectedSockets = t.connectedSockets.insert fd' c →
        t'.conn fd = if fd = fd' then some c else t.conn fd := by
    intro fd' c htable
    rw [Tcpd.conn, htable]
    split
    · rename_i hfd
      rw [hfd, HashTable.lookup_insert_self]
    · rename_i hfd
      rw [HashTable.lookup_insert_ne _ _ hfd]
      rfl
  have hstep := client_step h
  cases hstep with
  | connect htable _ _ =>
    rw [hinsert htable]
    split
    · rename_i hfd
      subst hfd
      exact .connect
    · rename_i hfd
      refine .other (fun _ _ _ he => ?_) (by simp) (by simp) (by simp)
      cases he
      exact hfd rfl
  | send _ hlen hc htable _ _ =>
    rw [hinsert htable]
    split
    · rename_i hfd
      subst hfd
      rw [hc]
      exact .send hlen
    · rename_i hfd
      refine .other (by simp) (fun _ _ _ _ he => ?_) (by simp) (by simp)
      cases he
      exact hfd rfl
  | ack hvalid hc _ htable _ =>
    rw [hinsert htable]
    split
    · rename_i hfd
      subst hfd
      rw [hc]
      exact .ack hvalid
    · rename_i hfd
      refine .other (by simp) (by simp) (fun _ _ he => ?_) (by simp)
      cases he
      exact absurd rfl hfd
  | @ackOther _ fd' a now c hvalid hc hfound htable hcount =>
    rw [SameConnections.conn_eq ⟨htable, hcount⟩]
    by_cases hfd : fd = fd'
    · subst hfd
      -- an ack that matches nothing drops nothing: it is an ack like any other
      have hdrop : c.drop a = c := by
        rw [ConnectedSock.drop, List.eraseP_of_forall_not fun m hm hkey => ?_]
        rw [List.any_eq_false] at hfound
        exact hfound m hm hkey
      rw [hc]
      nth_rewrite 2 [← hdrop]
      exact .ack hvalid
    · refine .other (by simp) (by simp) (fun _ _ he => ?_) (by simp)
      cases he
      exact absurd rfl hfd
  | timer hc hs htable _ =>
    rw [hinsert htable]
    split
    · rename_i hfd
      subst hfd
      rw [hc]
      exact .timer hs
    · exact .other (by simp) (by simp) (by simp) (by simp)
  | pass hpass _ =>
    rw [conn_of_pass hpass]
    cases t.conn fd with
    | none => exact .other (by simp) (by simp) (by simp) (by simp)
    | some c => exact .pass
  | rehash htable _ =>
    rw [Tcpd.conn, Tcpd.conn, htable, HashTable.lookup_reorder]
    exact .other (by simp) (by simp) (by simp) (by simp)
  | other hconnect hsend hack _ hpass htable hcount _ =>
    rw [SameConnections.conn_eq ⟨htable, hcount⟩]
    exact .other (fun addr a sys => hconnect addr fd a sys)
      (fun addr len buf sys => hsend addr fd len buf sys) (fun a now he => hack fd a now he)
      (fun clock he => absurd he (hpass clock))

/-! ## Sessions and packages across a step -/

/-- Where the session of a connection comes from. -/
lemma ConnStep.session {fd : Int32} {x x' : Option ConnectedSock} {e : Event}
    (h : ConnStep fd x e x') {c' : ConnectedSock} (hc' : x' = some c') :
    (∃ c, x = some c ∧ c.session = c'.session) ∨
      ∃ addr a sys, e = .front addr (.CONNECT fd a) sys ∧ c'.session = sys.rand := by
  cases h with
  | connect =>
    cases hc'
    exact Or.inr ⟨_, _, _, rfl, rfl⟩
  | send _ => cases hc'; exact Or.inl ⟨_, rfl, rfl⟩
  | ack _ => cases hc'; exact Or.inl ⟨_, rfl, rfl⟩
  | timer _ =>
    cases hc'
    refine Or.inl ⟨_, rfl, ?_⟩
    unfold ConnectedSock.expire
    split <;> rfl
  | pass => cases hc'; exact Or.inl ⟨_, rfl, rfl⟩
  | other _ _ _ _ => exact Or.inl ⟨c', hc', rfl⟩

/-- A connection keeps its session, unless a `CONNECT` takes its place. -/
lemma ConnStep.exists_session {fd : Int32} {c : ConnectedSock} {e : Event}
    {x : Option ConnectedSock} (h : ConnStep fd (some c) e x) :
    (∃ c', x = some c' ∧ c'.session = c.session) ∨
      ∃ addr a sys, e = .front addr (.CONNECT fd a) sys ∧ ∃ c', x = some c' ∧
        c'.session = sys.rand := by
  cases h with
  | connect => exact Or.inr ⟨_, _, _, rfl, _, rfl, rfl⟩
  | send _ => exact Or.inl ⟨_, rfl, rfl⟩
  | ack _ => exact Or.inl ⟨_, rfl, rfl⟩
  | timer _ =>
    refine Or.inl ⟨_, rfl, ?_⟩
    unfold ConnectedSock.expire
    split <;> rfl
  | pass => exact Or.inl ⟨_, rfl, rfl⟩
  | other _ _ _ _ => exact Or.inl ⟨c, rfl, rfl⟩

/-- Packages that are held stay held, unless they are acknowledged or their entry is
displaced. -/
lemma ConnStep.mem_held {fd : Int32} {c : ConnectedSock} {e : Event} {x : Option ConnectedSock}
    (h : ConnStep fd (some c) e x) {m : TrollMessageStruct} (hm : m ∈ c.held)
    (hconnect : ∀ addr a sys, e ≠ .front addr (.CONNECT fd a) sys)
    (hack : ∀ a now, e = .ack fd a now → a.Valid → ¬ m.hasKey a.session a.seqNum) :
    ∃ c', x = some c' ∧ m ∈ c'.held := by
  cases h with
  | connect => exact absurd rfl (hconnect _ _ _)
  | send _ =>
    refine ⟨_, rfl, ?_⟩
    rw [ConnectedSock.held_enqueue]
    exact List.mem_append_left _ hm
  | @ack _ a now hvalid =>
    refine ⟨_, rfl, ?_⟩
    have hkey := hack a now rfl hvalid
    rcases List.mem_append.mp hm with hm | hm
    · exact List.mem_append_left _ ((List.mem_eraseP_of_neg (by simpa using hkey)).mpr hm)
    · exact List.mem_append_right _ hm
  | timer _ => exact ⟨_, rfl, (ConnectedSock.held_expire_perm _ _ _).mem_iff.mpr hm⟩
  | pass => exact ⟨_, rfl, (ConnectedSock.held_afterPass_perm _).mem_iff.mpr hm⟩
  | other _ _ _ _ => exact ⟨c, rfl, hm⟩

/-- The package an event hands over to the daemon, with its socket. -/
def Tcpd.accepts (t : Tcpd) : Event → List (Int32 × TrollMessageStruct)
  | .front _ (.SEND fd len buf) sys =>
    (t.conn fd).toList.map fun c => (fd, c.makePackage buf len sys.malloc)
  | _ => []

/-- An entry holds what it held before and what is sent through it. -/
lemma ConnStep.held_subset {t : Tcpd} {fd : Int32} {e : Event} {x' : Option ConnectedSock}
    (h : ConnStep fd (t.conn fd) e x') {c' : ConnectedSock} (hc' : x' = some c')
    {m : TrollMessageStruct} (hm : m ∈ c'.held) :
    (∃ c, t.conn fd = some c ∧ m ∈ c.held) ∨ (fd, m) ∈ t.accepts e := by
  generalize hx : t.conn fd = x at *
  cases h with
  | connect =>
    cases hc'
    cases hm
  | send _ =>
    cases hc'
    rw [ConnectedSock.held_enqueue] at hm
    rcases List.mem_append.mp hm with hm | hm
    · exact Or.inl ⟨_, rfl, hm⟩
    · right
      rw [List.mem_singleton.mp hm, Tcpd.accepts, hx]
      exact List.mem_singleton_self _
  | ack _ =>
    cases hc'
    exact Or.inl ⟨_, rfl, (ConnectedSock.held_drop_sublist _ _).subset hm⟩
  | timer _ =>
    cases hc'
    exact Or.inl ⟨_, rfl, (ConnectedSock.held_expire_perm _ _ _).mem_iff.mp hm⟩
  | pass =>
    cases hc'
    exact Or.inl ⟨_, rfl, (ConnectedSock.held_afterPass_perm _).mem_iff.mp hm⟩
  | other _ _ _ _ => exact Or.inl ⟨c', hc', hm⟩

/-- The package that is accepted is held. -/
lemma mem_held_of_accepts {t t' : Tcpd} {e : Event} {os : List Out}
    (h : t.step e = .ok (t', os)) {x : Int32 × TrollMessageStruct}
    (hx : x ∈ t.accepts e) : ∃ c, t'.conn x.1 = some c ∧ x.2 ∈ c.held := by
  cases e with
  | front addr r sys =>
    cases r with
    | SEND fd len buf =>
      cases client_step h with
      | send _ _ hc htable _ _ =>
        rw [Tcpd.accepts, hc] at hx
        obtain rfl := List.mem_singleton.mp hx
        refine ⟨_, by rw [Tcpd.conn, htable, HashTable.lookup_insert_self], ?_⟩
        rw [ConnectedSock.held_enqueue]
        exact List.mem_append_right _ (List.mem_singleton_self _)
      | other _ hsend _ _ _ _ _ _ => exact absurd rfl (hsend _ _ _ _ _)
    | _ => cases hx
  | _ => cases hx

/-! ## Steps that succeed -/

lemma step_connect {t : Tcpd} (hroom : t.inBufferPackages < MAX_BUFFER_PACKAGES)
    (addr a : SockaddrIn) (fd : Int32) (sys : Sys) :
    t.step (.front addr (.CONNECT fd a) sys) = .ok (tcpdConnect t addr fd a sys.rand) := by
  simp [Tcpd.step, hroom, Tcpd.serve]

lemma exists_step_send {t : Tcpd} {fd : Int32} {c : ConnectedSock} {len : UInt64}
    (hroom : t.inBufferPackages < MAX_BUFFER_PACKAGES) (hc : t.conn fd = some c)
    (hlen : len.toNat ≤ BUF_LEN) (addr : SockaddrIn) (buf : Buffer BUF_LEN) (sys : Sys) :
    ∃ t' os, t.step (.front addr (.SEND fd len buf) sys) = .ok (t', os) ∧
      t'.connectedSockets
        = t.connectedSockets.insert fd (c.enqueue (c.makePackage buf len sys.malloc)) ∧
      t'.inBufferPackages = t.inBufferPackages + 1 := by
  have hlook : t.connectedSockets.lookup fd = some c := hc
  simp only [Tcpd.step, if_pos hroom, Tcpd.serve, tcpdSend, if_neg (not_lt.mpr hlen), hlook]
  exact ⟨_, _, rfl, rfl, rfl⟩

lemma exists_step_ack {t : Tcpd} {fd : Int32} {c : ConnectedSock} {a : TrollAckStruct}
    (hvalid : a.Valid) (hc : t.conn fd = some c)
    (hfound : c.packages.any (·.hasKey a.session a.seqNum)) (now : Timeval) :
    ∃ t' os, t.step (.ack fd a now) = .ok (t', os) ∧
      t'.connectedSockets = t.connectedSockets.insert fd (c.drop a) ∧
      t'.inBufferPackages = t.inBufferPackages - 1 := by
  have hlook : t.connectedSockets.lookup fd = some c := hc
  have hvalid' : ¬ a.checksum ≠ a.checkSum := not_not.mpr hvalid
  simp only [Tcpd.step, hlook, recvAck, if_neg hvalid', hfound, if_pos]
  exact ⟨_, _, rfl, rfl, rfl⟩

/-- An expiry finds the connection when no other has its session. -/
lemma exists_step_timer {t : Tcpd} {fd : Int32} {c : ConnectedSock} {e : TimerExpiredStruct}
    (hc : t.conn fd = some c) (hs : c.session = e.session.toUInt32)
    (honly : ∀ fd' c', t.conn fd' = some c' → c'.session = c.session → fd' = fd) :
    ∃ t' os, t.step (.timer e) = .ok (t', os) ∧
      t'.connectedSockets
        = t.connectedSockets.insert fd (c.expire e.session.toUInt32 e.seqNum.toUInt32) ∧
      t'.inBufferPackages = t.inBufferPackages := by
  have hrow := HashTable.lookup_eq_some.mp (show t.connectedSockets.lookup fd = some c from hc)
  cases hfind : t.connectedSockets.rows.find? fun row => row.2.session = e.session.toUInt32 with
  | none => exact absurd hs (by simpa using List.find?_eq_none.mp hfind _ hrow)
  | some row =>
    obtain ⟨fd', c'⟩ := row
    have hlook' := HashTable.lookup_eq_some.mpr (List.mem_of_find?_eq_some hfind)
    have hs' : c'.session = e.session.toUInt32 := by simpa using List.find?_some hfind
    obtain rfl := honly fd' c' hlook' (by rw [hs, hs'])
    obtain rfl : c' = c := Option.some.inj (hlook'.symm.trans hc)
    simp only [Tcpd.step, recvTimer, hfind]
    exact ⟨_, _, rfl, rfl, rfl⟩

/-- A send pass always succeeds. -/
lemma exists_step_sendBack (t : Tcpd) (clock : ℕ → Timeval) :
    ∃ t' os, t.step (.sendBack clock) = .ok (t', os) ∧
      (∀ fd, t'.conn fd = (t.conn fd).map ConnectedSock.afterPass) ∧
      t'.inBufferPackages = t.inBufferPackages := by
  obtain ⟨⟨s, table, os⟩, hpass⟩ := HashTable.pass_total
    (f := ConnectedSock.sendVisit clock) (t := t.connectedSockets)
    (fun s k v _ => ⟨_, rfl⟩) (t.estimator, 0)
  have hstep : t.step (.sendBack clock)
      = .ok ({ t with connectedSockets := table, estimator := s.1 }, os) := by
    simp only [Tcpd.step, handleSendAllBack, hpass]
  exact ⟨_, os, hstep, fun fd => conn_of_pass hpass fd, rfl⟩

/-! ## The count of buffered packages -/

lemma length_held_drop {c : ConnectedSock} {a : TrollAckStruct}
    (h : c.packages.any (·.hasKey a.session a.seqNum)) :
    (c.drop a).held.length + 1 = c.held.length := by
  obtain ⟨m, hm, hkey⟩ := List.any_eq_true.mp h
  have hlen : (c.packages.eraseP (·.hasKey a.session a.seqNum)).length = c.packages.length - 1 :=
    List.length_eraseP_of_mem hm hkey
  have hpos := List.length_pos_of_mem hm
  show (c.packages.eraseP _ ++ c.pendingPackages).length + 1 = (c.packages ++ _).length
  rw [List.length_append, List.length_append, hlen]
  omega

lemma heldTotal_insert {t t' : Tcpd} {fd : Int32} {c c' : ConnectedSock}
    (hc : t.conn fd = some c) (htable : t'.connectedSockets = t.connectedSockets.insert fd c') :
    t'.heldTotal + c.held.length = t.heldTotal + c'.held.length := by
  rw [Tcpd.heldTotal, htable]
  exact HashTable.total_insert_of_some hc

lemma heldTotal_insert_new {t t' : Tcpd} {fd : Int32} {c' : ConnectedSock}
    (hc : t.conn fd = none) (htable : t'.connectedSockets = t.connectedSockets.insert fd c') :
    t'.heldTotal = t.heldTotal + c'.held.length := by
  rw [Tcpd.heldTotal, htable]
  exact HashTable.total_insert_of_none hc

lemma heldTotal_pass {t t' : Tcpd} {clock : ℕ → Timeval} {s : Estimator × ℕ} {os : List Out}
    (h : t.connectedSockets.pass (ConnectedSock.sendVisit clock) (t.estimator, 0)
      = .ok (s, t'.connectedSockets, os)) : t'.heldTotal = t.heldTotal := by
  refine HashTable.pass_total_eq (fun x hby => ?_) h
  rw [(sendBack_visit hby).1]
  exact (ConnectedSock.held_afterPass_perm x.old).length_eq

/-- What a step does to the number of packages held and to the count of them. Only a `CONNECT`
on a connected socket lets them drift apart. -/
lemma heldTotal_step {t t' : Tcpd} {e : Event} {os : List Out} (h : t.step e = .ok (t', os)) :
    (t'.heldTotal : ℤ) - t'.inBufferPackages ≤ t.heldTotal - t.inBufferPackages ∧
      ((∀ addr fd a sys, e = .front addr (.CONNECT fd a) sys →
          ∀ c, t.conn fd = some c → c.held = []) →
        (t'.heldTotal : ℤ) - t'.inBufferPackages = t.heldTotal - t.inBufferPackages) := by
  have hstep := client_step h
  cases hstep with
  | @connect _ addr a fd sys _ htable hcount _ =>
    -- the displaced entry takes its packages along, the count stays
    cases hc : t.conn fd with
    | none =>
      have htotal := heldTotal_insert_new hc htable
      rw [ConnectedSock.held_create, List.length_nil] at htotal
      exact ⟨by omega, fun _ => by omega⟩
    | some c =>
      have htotal := heldTotal_insert hc htable
      rw [ConnectedSock.held_create, List.length_nil] at htotal
      refine ⟨by omega, fun hempty => ?_⟩
      rw [hempty addr fd a sys rfl c hc, List.length_nil] at htotal
      omega
  | send _ _ hc htable hcount _ =>
    have htotal := heldTotal_insert hc htable
    rw [ConnectedSock.held_enqueue, List.length_append, List.length_singleton] at htotal
    exact ⟨by omega, fun _ => by omega⟩
  | ack _ hc hfound htable hcount =>
    have htotal := heldTotal_insert hc htable
    have hdrop := length_held_drop hfound
    exact ⟨by omega, fun _ => by omega⟩
  | ackOther _ _ _ htable hcount =>
    have htotal := SameConnections.heldTotal_eq ⟨htable, hcount⟩
    exact ⟨by omega, fun _ => by omega⟩
  | timer hc _ htable hcount =>
    have htotal := heldTotal_insert hc htable
    rw [(ConnectedSock.held_expire_perm _ _ _).length_eq] at htotal
    exact ⟨by omega, fun _ => by omega⟩
  | pass hpass hcount =>
    have htotal := heldTotal_pass hpass
    exact ⟨by omega, fun _ => by omega⟩
  | rehash htable hcount =>
    have htotal : t'.heldTotal = t.heldTotal := by
      rw [Tcpd.heldTotal, htable]
      exact HashTable.total_congr (HashTable.reorder_perm _ _)
    exact ⟨by omega, fun _ => by omega⟩
  | other _ _ _ _ _ htable hcount _ =>
    have htotal := SameConnections.heldTotal_eq ⟨htable, hcount⟩
    exact ⟨by omega, fun _ => by omega⟩

/-! ## The invariant of a connection -/

/-- The numbers from here on never leave the pending packages: `MinSeq` starts at 100000000. -/
def seqLimit : ℕ := 100000000 + MAX_BUFFER_PACKAGES

/-- A connection holds each of its packages once, under a number below `Base`; and `Base`
stays so small that no number comes twice. -/
structure ConnOk (fd : Int32) (c : ConnectedSock) : Prop where
  socketFD : c.socketFD = fd
  session : ∀ m ∈ c.held, m.session = c.session
  valid : ∀ m ∈ c.held, m.Valid
  small : ∀ m ∈ c.held, m.len.toNat ≤ BUF_LEN
  below : ∀ m ∈ c.held, m.seqNum < c.base
  nodup : (c.held.map (·.seqNum)).Nodup
  low : ∀ m ∈ c.packages, m.seqNum.toNat < seqLimit
  high : ∀ n : UInt32, seqLimit ≤ n.toNat → n < c.base → ∃ m ∈ c.pendingPackages, m.seqNum = n
  bound : c.base.toNat ≤ seqLimit + MAX_BUFFER_PACKAGES

namespace ConnOk

variable {fd : Int32} {c : ConnectedSock}

lemma create (s : UInt32) (a : SockaddrIn) : ConnOk fd (.create fd s a) := by
  constructor
  · rfl
  · simp
  · simp
  · simp
  · simp
  · simp
  · simp [ConnectedSock.create]
  · exact fun n _ hn => absurd hn (UInt32.not_lt.mpr UInt32.zero_le)
  · exact Nat.zero_le _

/-- Rearranging what is held keeps the invariant, when the numbers from `seqLimit` on stay
among the pending packages. -/
lemma rearrange (h : ConnOk fd c) {c' : ConnectedSock} (hfd : c'.socketFD = c.socketFD)
    (hsession : c'.session = c.session) (hbase : c'.base = c.base)
    (hsub : c'.held.Subperm c.held) (hlow : ∀ m ∈ c'.packages, m.seqNum.toNat < seqLimit)
    (hhigh : ∀ m ∈ c.pendingPackages, seqLimit ≤ m.seqNum.toNat → m ∈ c'.pendingPackages) :
    ConnOk fd c' where
  socketFD := hfd.trans h.socketFD
  session m hm := by rw [hsession]; exact h.session m (hsub.subset hm)
  valid m hm := h.valid m (hsub.subset hm)
  small m hm := h.small m (hsub.subset hm)
  below m hm := by rw [hbase]; exact h.below m (hsub.subset hm)
  nodup := by
    obtain ⟨l, hperm, hl⟩ := hsub
    exact (hperm.map _).nodup_iff.mp ((hl.map _).nodup h.nodup)
  low := hlow
  high n hn hlt := by
    obtain ⟨m, hm, rfl⟩ := h.high n hn (hbase ▸ hlt)
    exact ⟨m, hhigh m hm hn, rfl⟩
  bound := by rw [hbase]; exact h.bound

lemma drop (h : ConnOk fd c) (a : TrollAckStruct) : ConnOk fd (c.drop a) :=
  h.rearrange rfl rfl rfl (c.held_drop_sublist a).subperm
    (fun m hm => h.low m (List.mem_of_mem_eraseP hm)) (fun _ hm _ => hm)

lemma expire (h : ConnOk fd c) (s n : UInt32) : ConnOk fd (c.expire s n) := by
  have hfields : (c.expire s n).socketFD = c.socketFD ∧ (c.expire s n).session = c.session ∧
      (c.expire s n).base = c.base ∧ (∀ m ∈ (c.expire s n).packages, m ∈ c.packages) ∧
      ∀ m ∈ c.pendingPackages, m ∈ (c.expire s n).pendingPackages := by
    unfold ConnectedSock.expire
    split
    · exact ⟨rfl, rfl, rfl, fun _ hm => hm, fun _ hm => hm⟩
    · exact ⟨rfl, rfl, rfl, fun _ hm => List.mem_of_mem_eraseP hm,
        fun _ hm => List.mem_append_left _ hm⟩
  obtain ⟨hfd, hsession, hbase, hpackages, hpending⟩ := hfields
  exact h.rearrange hfd hsession hbase (c.held_expire_perm s n).subperm
    (fun m hm => h.low m (hpackages m hm)) (fun m hm _ => hpending m hm)

/-- A package the window admits has a number below `seqLimit`. -/
lemma lt_of_admits {l : List TrollMessageStruct} {m : TrollMessageStruct}
    (h : ConnectedSock.admits (ConnectedSock.minSeqOf l) m) :
    m.seqNum.toNat < (ConnectedSock.minSeqOf l).toNat + MAX_BUFFER_PACKAGES ∧
      m.seqNum.toNat < seqLimit := by
  have htop := UInt32.le_iff_toNat_le.mp (ConnectedSock.le_minSeqOf l).1
  have hlt : m.seqNum < ConnectedSock.minSeqOf l + UInt32.ofNat MAX_BUFFER_PACKAGES := by
    simpa [ConnectedSock.admits] using h
  rw [UInt32.lt_iff_toNat_lt, UInt32.toNat_add, UInt32.toNat_ofNat'] at hlt
  simp only [MAX_BUFFER_PACKAGES, seqLimit, UInt32.reduceToNat] at *
  omega

lemma afterPass (h : ConnOk fd c) : ConnOk fd c.afterPass := by
  refine h.rearrange rfl rfl rfl c.held_afterPass_perm.subperm (fun m hm => ?_) (fun m hm hn => ?_)
  · rcases List.mem_append.mp hm with hm | hm
    · exact h.low m hm
    · exact (lt_of_admits (List.mem_filter.mp hm).2).2
  · refine List.mem_filter.mpr ⟨hm, ?_⟩
    by_contra hadmit
    exact absurd (lt_of_admits (by simpa using hadmit)).2 (not_lt.mpr hn)

/-- While the daemon listens to its front there is room for another number. -/
lemma base_lt (h : ConnOk fd c) (hroom : c.held.length < MAX_BUFFER_PACKAGES) :
    c.base.toNat < seqLimit + MAX_BUFFER_PACKAGES := by
  by_contra hge
  -- the numbers from `seqLimit` up to `Base` are all pending, and there are too many of them
  have hsub : (List.range' seqLimit MAX_BUFFER_PACKAGES) ⊆
      c.pendingPackages.map (·.seqNum.toNat) := by
    intro n hn
    obtain ⟨hlo, hhi⟩ := List.mem_range'_1.mp hn
    have hn32 : (UInt32.ofNat n).toNat = n := by
      rw [UInt32.toNat_ofNat', Nat.mod_eq_of_lt]
      have := c.base.toNat_lt
      omega
    obtain ⟨m, hm, hseq⟩ := h.high (UInt32.ofNat n) (by omega)
      (UInt32.lt_iff_toNat_lt.mpr (by omega))
    exact List.mem_map.mpr ⟨m, hm, by rw [hseq, hn32]⟩
  have hnodup : (List.range' seqLimit MAX_BUFFER_PACKAGES).Nodup := List.nodup_range'
  have hlen := (List.subperm_of_subset hnodup hsub).length_le
  rw [List.length_range', List.length_map] at hlen
  rw [ConnectedSock.held, List.length_append] at hroom
  omega

lemma enqueue (h : ConnOk fd c) (hroom : c.held.length < MAX_BUFFER_PACKAGES)
    {buf : Buffer BUF_LEN} {len : UInt64} (hlen : len.toNat ≤ BUF_LEN)
    (fresh : TrollMessageStruct) : ConnOk fd (c.enqueue (c.makePackage buf len fresh)) := by
  have hlt := h.base_lt hroom
  have hbase : (c.base + 1).toNat = c.base.toNat + 1 := by
    rw [UInt32.toNat_add, UInt32.toNat_one, Nat.mod_eq_of_lt]
    simp only [seqLimit, MAX_BUFFER_PACKAGES] at hlt
    omega
  have hbelow : c.base < c.base + 1 := UInt32.lt_iff_toNat_lt.mpr (by omega)
  -- what holds of the packages so far and of the new one
  have hmem : ∀ {p : TrollMessageStruct → Prop}, (∀ m ∈ c.held, p m) →
      p (c.makePackage buf len fresh) →
        ∀ m ∈ (c.enqueue (c.makePackage buf len fresh)).held, p m := by
    intro p hold hnew m hm
    rw [ConnectedSock.held_enqueue] at hm
    rcases List.mem_append.mp hm with hm | hm
    · exact hold m hm
    · rw [List.mem_singleton.mp hm]
      exact hnew
  refine ⟨h.socketFD, hmem h.session rfl, hmem h.valid (TrollMessageStruct.valid_sealed _),
    hmem h.small hlen, hmem (fun m hm => UInt32.lt_trans (h.below m hm) hbelow) hbelow, ?_, h.low,
    fun n hn hnlt => ?_, ?_⟩
  · rw [ConnectedSock.held_enqueue, List.map_append]
    refine h.nodup.append (List.nodup_singleton _) ?_
    simp only [List.map_cons, List.map_nil, List.disjoint_singleton]
    intro hdup
    obtain ⟨m, hm, hseq⟩ := List.mem_map.mp hdup
    exact absurd (h.below m hm) (by rw [hseq]; exact UInt32.lt_irrefl _)
  · rcases Nat.lt_or_ge n.toNat c.base.toNat with hold | hnew
    · obtain ⟨m, hm, hseq⟩ := h.high n hn (UInt32.lt_iff_toNat_lt.mpr hold)
      exact ⟨m, List.mem_append_left _ hm, hseq⟩
    · have hnlt' : n.toNat < (c.base + 1).toNat := UInt32.lt_iff_toNat_lt.mp hnlt
      refine ⟨c.makePackage buf len fresh, List.mem_append_right _ (List.mem_singleton_self _), ?_⟩
      exact UInt32.toNat_inj.mp (show c.base.toNat = n.toNat by omega)
  · show (c.base + 1).toNat ≤ _
    omega

end ConnOk

/-- Every connection of the daemon is in order, and every package held is counted. -/
structure Tcpd.ClientOk (t : Tcpd) : Prop where
  conns : ∀ fd c, t.conn fd = some c → ConnOk fd c
  count : (t.heldTotal : ℤ) ≤ t.inBufferPackages

/-- While the daemon listens to its front, each connection has room. -/
lemma Tcpd.ClientOk.room {t : Tcpd} (h : t.ClientOk) {fd : Int32} {c : ConnectedSock}
    (hc : t.conn fd = some c) (hroom : t.inBufferPackages < 64) :
    c.held.length < MAX_BUFFER_PACKAGES := by
  have hle : c.held.length ≤ t.heldTotal := HashTable.le_total (f := fun c => c.held.length) hc
  have hcount := h.count
  rw [MAX_BUFFER_PACKAGES]
  omega

theorem clientOk_step {t t' : Tcpd} {e : Event} {os : List Out} (hok : t.ClientOk)
    (h : t.step e = .ok (t', os)) : t'.ClientOk := by
  refine ⟨fun fd c hc => ?_, ?_⟩
  · have hstep := conn_step h fd
    have hold := hok.conns fd
    have hclient := client_step h
    rw [hc] at hstep
    generalize hx : t.conn fd = x at *
    cases hstep with
    | connect => exact .create _ _
    | send hlen =>
      cases hclient with
      | send hroom _ _ _ _ _ => exact (hold _ rfl).enqueue (hok.room hx hroom) hlen _
      | other _ hsend _ _ _ _ _ _ => exact absurd rfl (hsend _ _ _ _ _)
    | ack _ => exact (hold _ rfl).drop _
    | timer _ => exact (hold _ rfl).expire _ _
    | pass => exact (hold _ rfl).afterPass
    | other _ _ _ _ => exact hold _ rfl
  · have hdrift := (heldTotal_step h).1
    have hcount := hok.count
    omega

lemma clientOk_globalInit : Tcpd.globalInit.ClientOk where
  conns := by simp [Tcpd.conn, Tcpd.globalInit]
  count := le_rfl

/-- The invariant of the sending side, in every state the daemon reaches. -/
theorem clientOk_of_run {es : List Event} {t : Tcpd} {os : List Out} (h : Tcpd.Run es t os) :
    t.ClientOk :=
  Tcpd.machine.exec_invariant (E := fun _ => True)
    (fun _ _ _ _ hok _ hstep => clientOk_step hok hstep) (fun _ _ => trivial) h
    clientOk_globalInit

end NetworkProgramming
