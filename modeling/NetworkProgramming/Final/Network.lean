import NetworkProgramming.Final.Receiver
import NetworkProgramming.Final.Sender
import NetworkProgramming.Final.Window

/-!
# Two daemons and the network between them

The network keeps every frame and every ack it has ever been given and may hand over any of
them at any time, so it loses, repeats, delays and reorders them at will; it may also hand over
anything whose checksum does not match, and frames and acks of other sessions. A run of the two
daemons is a run of each, linked by what has gone through the network (`linked_of_run`); the
packages consumed at one end are then those created at the other, in order, and what the sender
has forgotten the receiver has.
-/

namespace NetworkProgramming

/-- The two daemons, and all that has been sent so far. -/
structure Net where
  client : Tcpd
  server : Tcpd
  frames : List TrollMessageStruct
  acks : List TrollAckStruct

/-- An event of one of the daemons. -/
inductive NetEvent
  | client (e : Event)
  | server (e : Event)

namespace Net

/-- Nothing has happened yet. -/
def start : Net := ⟨Tcpd.globalInit, Tcpd.globalInit, [], []⟩

/-- The network may hand over this frame, as far as session `s` is concerned: it is garbled,
or of another session, or has been sent. -/
def FrameMayArrive (s : UInt32) (n : Net) (m : TrollMessageStruct) : Prop :=
  m.Valid → m.session = s → ∃ m₀ ∈ n.frames, m = m₀.withHeader m.header

/-- The network may hand over this ack. -/
def AckMayArrive (s : UInt32) (n : Net) (a : TrollAckStruct) : Prop :=
  a.Valid → a.session = s → ∃ a₀ ∈ n.acks, a = a₀.withHeader a.header

instance (s : UInt32) (n : Net) (m : TrollMessageStruct) : Decidable (n.FrameMayArrive s m) :=
  inferInstanceAs (Decidable (_ → _ → _))

instance (s : UInt32) (n : Net) (a : TrollAckStruct) : Decidable (n.AckMayArrive s a) :=
  inferInstanceAs (Decidable (_ → _ → _))

/-- Whatever has been sent may arrive. -/
lemma frameMayArrive_of_mem {s : UInt32} {n : Net} {m : TrollMessageStruct} (h : m ∈ n.frames) :
    n.FrameMayArrive s m := fun _ _ => ⟨m, h, rfl⟩

lemma ackMayArrive_of_mem {s : UInt32} {n : Net} {a : TrollAckStruct} (h : a ∈ n.acks) :
    n.AckMayArrive s a := fun _ _ => ⟨a, h, rfl⟩

/-- What the network lets happen at the client. -/
def clientMay (s : UInt32) (n : Net) : Event → Bool
  | .ack _ a _ => n.AckMayArrive s a
  | _ => true

/-- What the network lets happen at the server. -/
def serverMay (s : UInt32) (n : Net) : Event → Bool
  | .data _ m _ => n.FrameMayArrive s m
  | _ => true

/-- One event. -/
def step (s : UInt32) (n : Net) : NetEvent → Except Halt (Net × List Out)
  | .client e =>
    if n.clientMay s e then
      match n.client.step e with
      | .error x => .error x
      | .ok (client, os) => .ok ({ n with client, frames := n.frames ++ framesOf os }, os)
    else .error .notReady
  | .server e =>
    if n.serverMay s e then
      match n.server.step e with
      | .error x => .error x
      | .ok (server, os) => .ok ({ n with server, acks := n.acks ++ acksOf os }, os)
    else .error .notReady

/-- The two daemons over a network on which session `s` belongs to them. -/
def machine (s : UInt32) : Machine Net NetEvent Out Halt := ⟨step s⟩

/-- A run of the two daemons. -/
def Run (s : UInt32) (es : List NetEvent) (n : Net) (os : List Out) : Prop :=
  (machine s).exec start es = .ok (n, os)

end Net

/-- The events of the client. -/
def clientEvents (es : List NetEvent) : List Event :=
  es.filterMap fun e =>
    match e with
    | .client e => some e
    | _ => none

/-- The events of the server. -/
def serverEvents (es : List NetEvent) : List Event :=
  es.filterMap fun e =>
    match e with
    | .server e => some e
    | _ => none

@[simp] lemma clientEvents_snoc (es : List NetEvent) (e : Event) :
    clientEvents (es ++ [.client e]) = clientEvents es ++ [e] ∧
      clientEvents (es ++ [.server e]) = clientEvents es := by
  simp [clientEvents]

@[simp] lemma serverEvents_snoc (es : List NetEvent) (e : Event) :
    serverEvents (es ++ [.server e]) = serverEvents es ++ [e] ∧
      serverEvents (es ++ [.client e]) = serverEvents es := by
  simp [serverEvents]

/-- What one event does. -/
inductive NetStep (s : UInt32) (n : Net) : NetEvent → Net → List Out → Prop
  | client {e : Event} {t : Tcpd} {os : List Out} (hmay : n.clientMay s e)
      (hstep : n.client.step e = .ok (t, os)) :
      NetStep s n (.client e) { n with client := t, frames := n.frames ++ framesOf os } os
  | server {e : Event} {t : Tcpd} {os : List Out} (hmay : n.serverMay s e)
      (hstep : n.server.step e = .ok (t, os)) :
      NetStep s n (.server e) { n with server := t, acks := n.acks ++ acksOf os } os

lemma net_step {s : UInt32} {n n' : Net} {e : NetEvent} {os : List Out}
    (h : n.step s e = .ok (n', os)) : NetStep s n e n' os := by
  cases e with
  | client e =>
    simp only [Net.step] at h
    split at h
    · rename_i hmay
      split at h <;> cases h
      exact .client hmay ‹_›
    · cases h
  | server e =>
    simp only [Net.step] at h
    split at h
    · rename_i hmay
      split at h <;> cases h
      exact .server hmay ‹_›
    · cases h

/-! ## Runs of the two ends -/

/-- A run of a client and a run of a server, and what has gone between them in session `s`. -/
structure Linked (s : UInt32) (es₁ : List Event) (t₁ : Tcpd) (os₁ : List Out)
    (es₂ : List Event) (t₂ : Tcpd) (os₂ : List Out) : Prop where
  client : Tcpd.Run es₁ t₁ os₁
  server : Tcpd.Run es₂ t₂ os₂
  frames : ∀ fd m remote, .data fd m remote ∈ es₂ → m.Valid → m.session = s →
    ∃ m₀ ∈ framesOf os₁, m = m₀.withHeader m.header
  acks : ∀ fd a now, .ack fd a now ∈ es₁ → a.Valid → a.session = s →
    ∃ a₀ ∈ acksOf os₂, a = a₀.withHeader a.header

/-- A run over the network is a run of each daemon. -/
theorem linked_of_run {s : UInt32} {es : List NetEvent} {n : Net} {os : List Out}
    (h : Net.Run s es n os) : ∃ os₁ os₂, n.frames = framesOf os₁ ∧ n.acks = acksOf os₂ ∧
      Linked s (clientEvents es) n.client os₁ (serverEvents es) n.server os₂ := by
  refine (Net.machine s).exec_induction (motive := fun es n _ => ∃ os₁ os₂,
    n.frames = framesOf os₁ ∧ n.acks = acksOf os₂ ∧
      Linked s (clientEvents es) n.client os₁ (serverEvents es) n.server os₂) ?_ ?_ h
  · exact ⟨[], [], rfl, rfl, rfl, rfl, by simp [serverEvents], by simp [clientEvents]⟩
  · rintro es u o e t o' - ⟨os₁, os₂, hframes, hacks, hlinked⟩ hstep
    cases net_step hstep with
    | @client e t _ hmay htcpd =>
      rw [(clientEvents_snoc es e).1, (serverEvents_snoc es e).2]
      refine ⟨os₁ ++ o', os₂, by simp [hframes], hacks, hlinked.client.snoc htcpd,
        hlinked.server, fun fd m remote hm hvalid hs => ?_, fun fd a now ha hvalid hs => ?_⟩
      · obtain ⟨m₀, hm₀, heq⟩ := hlinked.frames fd m remote hm hvalid hs
        exact ⟨m₀, by simp [hm₀], heq⟩
      · rcases List.mem_append.mp ha with ha | ha
        · exact hlinked.acks fd a now ha hvalid hs
        · obtain rfl := List.mem_singleton.mp ha
          have hmay' : u.AckMayArrive s a := of_decide_eq_true hmay
          exact hacks ▸ hmay' hvalid hs
    | @server e t _ hmay htcpd =>
      rw [(clientEvents_snoc es e).2, (serverEvents_snoc es e).1]
      refine ⟨os₁, os₂ ++ o', hframes, by simp [hacks], hlinked.client,
        hlinked.server.snoc htcpd, fun fd m remote hm hvalid hs => ?_,
        fun fd a now ha hvalid hs => ?_⟩
      · rcases List.mem_append.mp hm with hm | hm
        · exact hlinked.frames fd m remote hm hvalid hs
        · obtain rfl := List.mem_singleton.mp hm
          have hmay' : u.FrameMayArrive s m := of_decide_eq_true hmay
          exact hframes ▸ hmay' hvalid hs
      · obtain ⟨a₀, ha₀, heq⟩ := hlinked.acks fd a now ha hvalid hs
        exact ⟨a₀, by simp [ha₀], heq⟩

/-! ## Delivery -/

/-- A package of the stream that has been created: its number and its data are those of a
package in `created`. -/
def CreatedIn (created : List TrollMessageStruct) (m : TrollMessageStruct) : Prop :=
  m.len.toNat ≤ BUF_LEN ∧
    ∃ h : m.seqNum.toNat < created.length, created[m.seqNum.toNat].data = m.data

namespace Linked

variable {s : UInt32} {fd : Int32} {es₁ es₂ : List Event} {t₁ t₂ : Tcpd} {os₁ os₂ : List Out}

/-- The frames that arrive carry the packages that have been created. -/
lemma framesCarry (h : Linked s es₁ t₁ os₁ es₂ t₂ os₂)
    (hown : Tcpd.machine.Along Tcpd.globalInit (OwnSession fd s) es₁) :
    FramesCarry s (CreatedIn (createdOn fd es₁)) es₂ := by
  have hsender := sender_of_run h.client hown
  intro fd' m remote hm hvalid hs
  obtain ⟨m₀, hm₀, heq⟩ := h.frames fd' m remote hm hvalid hs
  have hs₀ : m₀.session = s := by rw [← hs, heq]; rfl
  obtain ⟨i, hi, rfl⟩ := List.getElem_of_mem (hsender.frames m₀ hm₀ hs₀)
  have hnumber : m.seqNum.toNat = i := by rw [heq]; exact hsender.numbers i hi
  refine ⟨?_, hnumber ▸ hi, ?_⟩
  · rw [heq]
    exact (hsender.packages _ (List.getElem_mem hi)).2.2
  · have hdata : m.data = (createdOn fd es₁)[i].data := by rw [heq]; rfl
    simp only [hnumber, hdata]

/-- No connection ever creates so many packages that their numbers run out. -/
lemma length_created_lt (h : Linked s es₁ t₁ os₁ es₂ t₂ os₂)
    (hown : Tcpd.machine.Along Tcpd.globalInit (OwnSession fd s) es₁) :
    (createdOn fd es₁).length + 1 < 2 ^ 32 := by
  have hsender := sender_of_run h.client hown
  cases hc : t₁.conn fd with
  | none => simp [hsender.absent hc]
  | some c =>
    have hbound := ((clientOk_of_run h.client).conns fd c hc).bound
    rw [(hsender.present c hc).2.1] at hbound
    simp only [seqLimit, MAX_BUFFER_PACKAGES] at hbound
    omega

/-- **What is consumed is what has been created**, package by package. -/
theorem consumed_prefix (h : Linked s es₁ t₁ os₁ es₂ t₂ os₂)
    (hown : Tcpd.machine.Along Tcpd.globalInit (OwnSession fd s) es₁) :
    (consumedOn s es₂).map (fun m => (m.seqNum, m.data))
      <+: (createdOn fd es₁).map fun m => (m.seqNum, m.data) := by
  have hsender := sender_of_run h.client hown
  have hlength := h.length_created_lt hown
  have hconsumed := consumed_of_run (P := CreatedIn (createdOn fd es₁))
    (fun m hm => by obtain ⟨-, hi, -⟩ := hm; omega) h.server (h.framesCarry hown)
  refine List.prefix_iff_getElem.mpr ?_
  have hget : ∀ i (hi : i < (consumedOn s es₂).length), ∃ hi' : i < (createdOn fd es₁).length,
      (createdOn fd es₁)[i].data = (consumedOn s es₂)[i].data := by
    intro i hi
    obtain ⟨-, hi', hdata⟩ := hconsumed.all _ (List.getElem_mem hi)
    have hnumber := hconsumed.numbers i hi
    exact ⟨hnumber ▸ hi', by simpa only [hnumber] using hdata⟩
  refine ⟨?_, fun i hi => ?_⟩
  · by_contra hlong
    simp only [List.length_map, not_le] at hlong
    obtain ⟨hi, -⟩ := hget _ hlong
    exact lt_irrefl _ hi
  · rw [List.length_map] at hi
    obtain ⟨hi', hdata⟩ := hget i hi
    rw [List.getElem_map, List.getElem_map, ← hdata]
    refine Prod.ext (UInt32.toNat_inj.mp ?_) rfl
    rw [hconsumed.numbers i hi, hsender.numbers i hi']

/-- **Nothing is forgotten that has not arrived**: the packages below the sender's `Base` are
held by the sender or have been received. -/
theorem held_or_received (h : Linked s es₁ t₁ os₁ es₂ t₂ os₂)
    (hown : Tcpd.machine.Along Tcpd.globalInit (OwnSession fd s) es₁) {c : ConnectedSock}
    (hc : t₁.conn fd = some c) {k : UInt32} (hk : k < c.base) :
    (∃ m ∈ c.held, m.seqNum = k) ∨ ∃ a, t₂.sess s = some a ∧ a.Received k := by
  have hsender := sender_of_run h.client hown
  have hk' : k.toNat < (createdOn fd es₁).length := by
    rw [← (hsender.present c hc).2.1]
    exact UInt32.lt_iff_toNat_lt.mp hk
  have hseq : (createdOn fd es₁)[k.toNat].seqNum = k :=
    UInt32.toNat_inj.mp (hsender.numbers _ hk')
  rcases hsender.kept _ (List.getElem_mem hk') with
    ⟨c', hc', hheld⟩ | ⟨a, now, hack, hvalid, hs, hn⟩
  · rw [hc] at hc'
    cases hc'
    exact Or.inl ⟨_, hheld, hseq⟩
  · right
    obtain ⟨a₀, ha₀, heq⟩ := h.acks fd a now hack hvalid hs
    obtain ⟨fd', m, remote, hdata, hmvalid, hmade⟩ := acks_of_run h.server a₀ ha₀
    have hms : m.session = s := by rw [← hs, heq, hmade]; rfl
    have hmk : m.seqNum = k := by rw [← hseq, ← hn, heq, hmade]; rfl
    have hlength := h.length_created_lt hown
    rw [← hmk]
    exact received_of_run (P := CreatedIn (createdOn fd es₁))
      (fun m hm => by obtain ⟨-, hi, -⟩ := hm; omega) h.server (h.framesCarry hown) hdata
      hmvalid hms

end Linked

/-- The event keeps session `s` to the one connection on `fd` of the client. -/
def NetOwnSession (fd : Int32) (s : UInt32) (n : Net) (e : NetEvent) : Prop :=
  ∀ e', e = .client e' → OwnSession fd s n.client e'

lemma clientAlong_of_run {s : UInt32} {fd : Int32} {es : List NetEvent} {n : Net} {os : List Out}
    (h : Net.Run s es n os) (hown : (Net.machine s).Along Net.start (NetOwnSession fd s) es) :
    Tcpd.machine.Along Tcpd.globalInit (OwnSession fd s) (clientEvents es) := by
  refine (Net.machine s).exec_induction (motive := fun es _ _ =>
    (Net.machine s).Along Net.start (NetOwnSession fd s) es →
      Tcpd.machine.Along Tcpd.globalInit (OwnSession fd s) (clientEvents es))
    (fun _ => Tcpd.machine.along_nil _ _) ?_ h hown
  intro es u o e t o' hrun ih _ hown
  obtain ⟨hbefore, hlast⟩ := ((Net.machine s).along_snoc hrun).mp hown
  obtain ⟨os₁, _, -, -, hlinked⟩ := linked_of_run hrun
  cases e with
  | client e =>
    rw [(clientEvents_snoc es e).1]
    exact (Tcpd.machine.along_snoc hlinked.client).mpr ⟨ih hbefore, hlast e rfl⟩
  | server e =>
    rw [(clientEvents_snoc es e).2]
    exact ih hbefore

/-- **Reliable delivery, in order and exactly once.** Let the client connect `fd` once, in a
session `s` of its own. After any run of the two daemons over the network, the packages the
server has consumed of session `s` are, with number and data, a prefix of the packages created
on `fd`; and every number below the sender's `Base` is held by the sender in exactly one of its
two lists, or has been received. -/
theorem reliable_delivery (fd : Int32) (s : UInt32) (es : List NetEvent) (n : Net)
    (os : List Out) (h : Net.Run s es n os)
    (hown : (Net.machine s).Along Net.start (NetOwnSession fd s) es) :
    (consumedOn s (serverEvents es)).map (fun m => (m.seqNum, m.data))
        <+: (createdOn fd (clientEvents es)).map (fun m => (m.seqNum, m.data)) ∧
      ∀ c, n.client.conn fd = some c → ∀ k < c.base,
        Xor (∃ m ∈ c.packages, m.seqNum = k) (∃ m ∈ c.pendingPackages, m.seqNum = k) ∨
          ∃ a, n.server.sess s = some a ∧ a.Received k := by
  obtain ⟨os₁, os₂, -, -, hlinked⟩ := linked_of_run h
  have hclient := clientAlong_of_run h hown
  refine ⟨hlinked.consumed_prefix hclient, fun c hc k hk => ?_⟩
  refine (hlinked.held_or_received hclient hc hk).imp_left ?_
  rintro ⟨m, hm, rfl⟩
  have hnodup := ((clientOk_of_run hlinked.client).conns fd c hc).nodup
  rw [ConnectedSock.held, List.map_append] at hnodup
  have hdisjoint := List.disjoint_of_nodup_append hnodup
  have hboth : ¬ ((∃ m' ∈ c.packages, m'.seqNum = m.seqNum) ∧
      ∃ m' ∈ c.pendingPackages, m'.seqNum = m.seqNum) := by
    rintro ⟨⟨p, hp, hpm⟩, q, hq, hqm⟩
    exact hdisjoint (List.mem_map.mpr ⟨p, hp, hpm⟩) (List.mem_map.mpr ⟨q, hq, hqm⟩)
  rcases List.mem_append.mp hm with hm | hm
  · exact Or.inl ⟨⟨m, hm, rfl⟩, fun hq => hboth ⟨⟨m, hm, rfl⟩, hq⟩⟩
  · exact Or.inr ⟨⟨m, hm, rfl⟩, fun hp => hboth ⟨hp, ⟨m, hm, rfl⟩⟩⟩

/-! ## A run -/

/-- `SEND` of two bytes on socket 4. -/
def sendTwo : Event := .front default (.SEND 4 2 (.zero BUF_LEN)) calmSys

/-- The package of the `n`-th such `SEND` after `connectFour`. -/
def packageTwo (n : UInt32) : TrollMessageStruct :=
  { ConnectedSock.create 4 7 default with base := n }.makePackage (.zero BUF_LEN) 2 calmSys.malloc

/-- Three packages are created and sent, and the server binds a socket. -/
def sendTwos : List NetEvent :=
  [connectFour, sendTwo, sendTwo, sendTwo, passNow].map .client
    ++ [.server (.front default (.BIND 3 default) calmSys)]

/-- The last frame overtakes the first, which arrives twice; the one between them is lost. -/
def framesArrive : List NetEvent :=
  [packageTwo 2, packageTwo 0, packageTwo 0].map fun m => .server (.data 3 m default)

/-- The server takes the session over and is asked for two bytes, and the ack of package 0 gets
through. -/
def takeTwo : List NetEvent :=
  [.front default (.ACCEPT 3) calmSys, .ackBack, .front default (.RECV 7 2) calmSys,
    .recvBack].map .server ++ [.client (.ack 4 (makeAck (packageTwo 0) default) default)]

namespace Net

variable {s : UInt32} {n : Net} {fd : Int32} {m : TrollMessageStruct}

/-- Where an intact frame leads. -/
def arrived (n : Net) (fd : Int32) (m : TrollMessageStruct) : Net :=
  { n with server := n.server.arrived fd m, acks := n.acks ++ [makeAck m default] }

lemma step_arrived (hframe : m ∈ n.frames) (hvalid : m.Valid)
    (hbound : n.server.bindedSockets.any (·.socketFD = fd)) :
    (machine s).step n (.server (.data fd m default))
      = .ok (n.arrived fd m, [.ack fd (makeAck m default)]) := by
  have hmay : n.serverMay s (.data fd m default) = true :=
    decide_eq_true (frameMayArrive_of_mem hframe)
  simp only [machine, Net.step, hmay, if_true, step_data hbound hvalid]
  rfl

/-- Any frames that have been sent may arrive, in any order and as often as the network likes. -/
lemma exec_arrived (s : UInt32) (n : Net) (fd : Int32) (ms : List TrollMessageStruct)
    (hframes : ∀ m ∈ ms, m ∈ n.frames ∧ m.Valid)
    (hbound : n.server.bindedSockets.any (·.socketFD = fd)) :
    ∃ os, (machine s).exec n (ms.map fun m => .server (.data fd m default))
      = .ok (ms.foldl (arrived · fd) n, os) := by
  refine (machine s).exec_foldl (arrived · fd) (fun m => .server (.data fd m default))
    (fun n' => n'.frames = n.frames ∧ n'.server.bindedSockets.any (·.socketFD = fd))
    (fun n' m hn => ⟨hn.1, ?_⟩) (fun n' hn m hm => ?_) ⟨rfl, hbound⟩
  · rw [arrived, bindedSockets_arrived]
    exact hn.2
  · obtain ⟨hframe, hvalid⟩ := hframes m hm
    exact ⟨_, step_arrived (hn.1 ▸ hframe) hvalid hn.2⟩

end Net

/-- Where the frames have arrived. -/
def twoArrived : Net :=
  [packageTwo 2, packageTwo 0, packageTwo 0].foldl (Net.arrived · 3)
    ((Net.machine 7).play Net.start sendTwos)

/-- Where the whole run leads. -/
def twoTaken : Net := (Net.machine 7).play twoArrived takeTwo

lemma run_takeTwo : ∃ os, Net.Run 7 (sendTwos ++ framesArrive ++ takeTwo) twoTaken os := by
  obtain ⟨os, hsent⟩ := (Net.machine 7).exec_play Net.start sendTwos (by decide +kernel)
  have hframes : ((Net.machine 7).play Net.start sendTwos).frames
      = [packageTwo 0, packageTwo 1, packageTwo 2] := rfl
  obtain ⟨os', harrived⟩ := Net.exec_arrived 7 ((Net.machine 7).play Net.start sendTwos) 3
    [packageTwo 2, packageTwo 0, packageTwo 0] (fun m hm => by
      rw [hframes]
      refine ⟨by fin_cases hm <;> simp, ?_⟩
      fin_cases hm <;> exact TrollMessageStruct.valid_sealed _) rfl
  obtain ⟨os'', htaken⟩ := (Net.machine 7).exec_play twoArrived takeTwo (by decide +kernel)
  exact ⟨_, (Net.machine 7).exec_append.mpr ⟨_, _, _, (Net.machine 7).exec_append.mpr
    ⟨_, _, _, hsent, harrived, rfl⟩, htaken, rfl⟩⟩

/-- In this run a package is lost, one is repeated and one overtaken, and one is consumed. -/
theorem reliable_delivery_takeTwo :
    ∃ os, Net.Run 7 (sendTwos ++ framesArrive ++ takeTwo) twoTaken os ∧
      (consumedOn 7 (serverEvents (sendTwos ++ framesArrive ++ takeTwo))).length = 1 ∧
      (consumedOn 7 (serverEvents (sendTwos ++ framesArrive ++ takeTwo))).map
          (fun m => (m.seqNum, m.data))
        <+: (createdOn 4 (clientEvents (sendTwos ++ framesArrive ++ takeTwo))).map
          (fun m => (m.seqNum, m.data)) ∧
        ∃ c, twoTaken.client.conn 4 = some c ∧ c.base = 3 ∧ c.packages.map (·.seqNum) = [1, 2] ∧
          ∀ k < c.base, Xor (∃ m ∈ c.packages, m.seqNum = k)
              (∃ m ∈ c.pendingPackages, m.seqNum = k) ∨
            ∃ a, twoTaken.server.sess 7 = some a ∧ a.Received k := by
  obtain ⟨os, hrun⟩ := run_takeTwo
  have hown : (Net.machine 7).Along Net.start (NetOwnSession 4 7)
      (sendTwos ++ framesArrive ++ takeTwo) := by
    refine (Net.machine 7).along_cons ?_ fun u o _ => (Net.machine 7).along_of_forall ?_
    · rintro e he addr fd a sys rfl
      cases he
      exact ⟨fun _ => ⟨rfl, rfl⟩, fun hne => absurd rfl hne⟩
    · rintro e he v e' rfl addr fd a sys rfl
      simp [sendTwo, passNow, framesArrive, takeTwo] at he
  obtain ⟨hconsumed, hkept⟩ := reliable_delivery 4 7 _ _ _ hrun hown
  have hshows : (twoTaken.client.conn 4).map (fun c => (c.base, c.packages.map (·.seqNum)))
      = some (3, [1, 2]) := by decide +kernel
  obtain ⟨c, hc, hall⟩ := Option.map_eq_some_iff.mp hshows
  obtain ⟨hbase, hpackages⟩ := Prod.mk.inj hall
  have htaken : (twoTaken.server.sess 7).map (·.base.toNat) = some 1 := by decide +kernel
  obtain ⟨a, ha, hone⟩ := Option.map_eq_some_iff.mp htaken
  obtain ⟨os₁, os₂, -, -, hlinked⟩ := linked_of_run hrun
  have hlength := (consumed_of_run (P := CreatedIn (createdOn 4 (clientEvents _)))
    (fun m hm => by
      obtain ⟨-, hi, -⟩ := hm
      have hfew := hlinked.length_created_lt (clientAlong_of_run hrun hown)
      omega) hlinked.server (hlinked.framesCarry (clientAlong_of_run hrun hown))).present a ha
  exact ⟨os, hrun, hlength.symm.trans hone, hconsumed, c, hc, hbase, hpackages, hkept c hc⟩

end NetworkProgramming
