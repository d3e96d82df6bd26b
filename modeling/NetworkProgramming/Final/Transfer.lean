import NetworkProgramming.Final.FtpsSide
import NetworkProgramming.Final.Receiver

/-!
# Whole files

`ftpc` with its daemon and `ftps` with its daemon, and the network between the daemons. The
network keeps every frame and every ack it has ever been given and may hand over any of them at
any time, so it loses, repeats, delays and reorders them at will; it may also hand over anything
whose checksum does not match. An expiry may come at any time and for any package, which is more
than a timer process does: what holds of all runs here holds of the programs, and what can be
reached is stated where the timers are (`TimedWorld`). When the sessions that are drawn are
distinct, `ftps` writes just the files that have been sent (`transferred_of_run`).
-/

namespace NetworkProgramming

/-- The two sides. -/
structure World where
  client : FtpcSide
  server : FtpsSide

/-- An event of one of the sides. -/
inductive WorldEvent
  | client (e : FtpcEvent)
  | server (e : FtpsEvent)

namespace World

/-- `ftps` is started on `frontAddr` and is going to bind `bindAddr`. -/
def start (frontAddr bindAddr : SockaddrIn) : World :=
  ⟨FtpcSide.start, FtpsSide.start frontAddr bindAddr⟩

/-- The network may hand over this frame: it is garbled, or has been sent. -/
def FrameMayArrive (w : World) (m : TrollMessageStruct) : Prop :=
  m.Valid → ∃ m₀ ∈ framesOf w.client.outs, m = m₀.withHeader m.header

/-- The network may hand over this ack. -/
def AckMayArrive (w : World) (a : TrollAckStruct) : Prop :=
  a.Valid → ∃ a₀ ∈ acksOf w.server.outs, a = a₀.withHeader a.header

instance (w : World) (m : TrollMessageStruct) : Decidable (w.FrameMayArrive m) :=
  inferInstanceAs (Decidable (_ → _))

instance (w : World) (a : TrollAckStruct) : Decidable (w.AckMayArrive a) :=
  inferInstanceAs (Decidable (_ → _))

/-- What the network lets happen on the side of `ftpc`, whatever the timers do. -/
def clientMay (w : World) : FtpcEvent → Bool
  | .daemon (.ack _ a _) => w.AckMayArrive a
  | _ => true

/-- What the network lets happen on the side of `ftps`. -/
def serverMay (w : World) : FtpsEvent → Bool
  | .daemon (.data _ m _) => w.FrameMayArrive m
  | _ => true

/-- One event. -/
def step (w : World) : WorldEvent → Except Halt (World × List Out)
  | .client e =>
    if w.clientMay e then
      match w.client.step e with
      | .error halt => .error halt
      | .ok (client, os) => .ok ({ w with client }, os)
    else .error .notReady
  | .server e =>
    if w.serverMay e then
      match w.server.step e with
      | .error halt => .error halt
      | .ok (server, os) => .ok ({ w with server }, os)
    else .error .notReady

/-- The two sides over the network. -/
def machine : Machine World WorldEvent Out Halt := ⟨step⟩

/-- A run of the two sides, from the start of `ftps`. -/
def Run (frontAddr bindAddr : SockaddrIn) (es : List WorldEvent) (w : World) (os : List Out) :
    Prop :=
  machine.exec (start frontAddr bindAddr) es = .ok (w, os)

/-! ## What a run keeps -/

/-- What holds on both sides, as long as the sessions are distinct. -/
def Ok (w : World) : Prop :=
  (w.client.transfers.map Prod.fst).Nodup → w.client.Ok ∧ w.server.Ok w.client.transfers

/-- An intact frame that arrives carries a piece of the file of its session. -/
lemma framed {w : World} (hok : w.client.Ok) {e : Event} (hmay : w.serverMay (.daemon e) = true) :
    Framed w.client.transfers e := by
  rintro fd m remote rfl hvalid
  have hsent : w.FrameMayArrive m := of_decide_eq_true hmay
  obtain ⟨m₀, hm₀, heq⟩ := hsent hvalid
  obtain ⟨-, job, hjob, hcarries⟩ := hok.frames m₀ hm₀
  rw [heq]
  exact ⟨job, hjob, hcarries⟩

theorem ok_step {w w' : World} {e : WorldEvent} {os : List Out} (h : w.Ok)
    (hstep : w.step e = .ok (w', os)) : w'.Ok := by
  intro hnodup
  cases e with
  | client e =>
    simp only [World.step] at hstep
    split at hstep
    · split at hstep
      · cases hstep
      · rename_i client os' hclient
        cases hstep
        -- the transfers only grow, so their sessions were distinct before
        obtain ⟨hgrows, -⟩ := FtpcSide.step_grows hclient
        obtain ⟨hc, hs⟩ := h (hnodup.sublist (hgrows.sublist.map _))
        exact ⟨hc.step hclient hnodup, hs.mono fun y hy => hgrows.subset hy⟩
    · cases hstep
  | server e =>
    simp only [World.step] at hstep
    split at hstep
    · rename_i hmay
      split at hstep
      · cases hstep
      · rename_i server os' hserver
        cases hstep
        obtain ⟨hc, hs⟩ := h hnodup
        -- what the network hands over has been sent on the other side
        exact ⟨hc, hs.step hserver hnodup fun e' he' => framed hc (he' ▸ hmay)⟩
    · cases hstep

theorem ok_of_run {frontAddr bindAddr : SockaddrIn} {es : List WorldEvent} {w : World}
    {os : List Out} (h : Run frontAddr bindAddr es w os) : w.Ok :=
  machine.exec_invariant (E := fun _ => True) (fun _ _ _ _ hok _ hstep => ok_step hok hstep)
    (fun _ _ => trivial) h
    fun _ => ⟨FtpcSide.ok_start, FtpsSide.ok_start frontAddr bindAddr⟩

end World

/-- The files `ftps` has are those that have been sent, and the two ends agree on every boundary
between the pieces. -/
structure Transferred (w : World) : Prop where
  /-- a file that is closed is the file of its session, under its name -/
  closed : ∀ file ∈ w.server.files, ∃ job, (file.session, job) ∈ w.client.transfers ∧
    file.fileName = job.fileName ∧ file.written = job.content
  /-- a file that is open has a first part of it -/
  opened : ∀ file ∈ w.server.ftps.opened, ∃ job, (file.session, job) ∈ w.client.transfers ∧
    file.fileName = job.fileName ∧ file.written <+: job.content
  /-- no two files belong to one session -/
  once : ((w.server.files ++ w.server.ftps.opened).map ReceivedFile.session).Nodup
  /-- `SEND` has been given the first pieces -/
  sent : ∀ s job, (s, job) ∈ w.client.transfers → w.client.sentOn s <+: job.pieces
  /-- `RECV` has been asked for the lengths of the first pieces -/
  asked : ∀ s job, (s, job) ∈ w.client.transfers →
    w.server.askedOn s <+: job.pieces.map List.length
  /-- and has got them -/
  received : ∀ s job, (s, job) ∈ w.client.transfers → repliesTo s w.server.outs <+: job.pieces

/-- **File transfer.** After every run of `ftpc`, one after the other, of `ftps` and of their
daemons over a network that loses, repeats, delays, reorders and garbles, in which the sessions
that have been drawn are distinct: a file `ftps` has closed is byte for byte the file that was sent
in its session, under the name that was sent, and the file it has open is a prefix of it; no
session has two files; and what `ftpc` sends in a session, what `ftps` asks for and what it gets
are the first pieces of the one file of the session. -/
theorem transferred_of_run (frontAddr bindAddr : SockaddrIn) (es : List WorldEvent) (w : World)
    (os : List Out) (h : World.Run frontAddr bindAddr es w os)
    (hnodup : (w.client.transfers.map Prod.fst).Nodup) : Transferred w := by
  obtain ⟨hclient, hserver⟩ := World.ok_of_run h hnodup
  refine ⟨fun file hfile => (hserver.kept.closed file hfile).2, fun file hfile => ?_, ?_,
    hclient.sent, fun s job hjob => ?_, fun s job hjob => hserver.received hnodup hjob⟩
  · rcases hserver.opened with hnone | ⟨file', s, job, k, j, hone, hreading, hs, hname, hwritten⟩
    · rw [hnone] at hfile
      cases hfile
    · rw [hone, List.mem_singleton] at hfile
      subst hfile
      exact ⟨job, hs ▸ hreading.transfer, hname, hwritten⟩
  · rcases hserver.opened with hnone | ⟨file, s, job, k, j, hone, hreading, hs, -⟩
    · rw [hnone, List.append_nil]
      exact hserver.kept.once
    · rw [hone, List.map_append, List.map_singleton, hs]
      refine hserver.kept.once.append (List.nodup_singleton _) ?_
      rw [List.disjoint_singleton]
      exact hreading.unclosed
  · by_cases hacc : w.server.tcpd.Accepted s
    · obtain ⟨job', hjob', hasked⟩ := hserver.kept.asked s hacc
      rw [FtpcSide.job_unique hnodup hjob hjob']
      exact hasked
    · rw [hserver.kept.unasked s hacc]
      exact List.nil_prefix

/-! ## A run -/

namespace World

/-- Where an intact frame on `fd` leads. -/
def arrived (w : World) (fd : Int32) (m : TrollMessageStruct) : World :=
  { w with server :=
      w.server.after (w.server.tcpd.arrived fd m) [.ack fd (makeAck m default)] }

variable {frontAddr bindAddr : SockaddrIn} {es : List WorldEvent} {w : World} {os : List Out}

lemma Run.play (h : Run frontAddr bindAddr es w os) {es' : List WorldEvent}
    (hgo : (machine.exec w es').isOk) :
    ∃ os', Run frontAddr bindAddr (es ++ es') (machine.play w es') os' :=
  machine.exec_append_play h _ hgo

/-- Whatever has been sent may arrive, at any time and on any bound socket. -/
lemma Run.arrive (h : Run frontAddr bindAddr es w os)
    (hnodup : (w.client.transfers.map Prod.fst).Nodup) {m : TrollMessageStruct}
    (hsent : m ∈ framesOf w.client.outs) {fd : Int32}
    (hbound : w.server.tcpd.bindedSockets.any (·.socketFD = fd)) :
    ∃ os', Run frontAddr bindAddr (es ++ [.server (.daemon (.data fd m default))])
      (w.arrived fd m) os' := by
  obtain ⟨hvalid, -⟩ := (ok_of_run h hnodup).1.frames m hsent
  have hmay : w.serverMay (.daemon (.data fd m default)) = true :=
    decide_eq_true (show w.FrameMayArrive m from fun _ => ⟨m, hsent, rfl⟩)
  have hstep : w.step (.server (.daemon (.data fd m default)))
      = .ok (w.arrived fd m, [.ack fd (makeAck m default)]) := by
    simp only [World.step, if_pos hmay, FtpsSide.step, Event.isFront, Bool.false_eq_true, if_false,
      step_data hbound hvalid]
    rfl
  exact ⟨_, machine.exec_snoc.mpr ⟨w, os, _, h, hstep, rfl⟩⟩

end World

/-- A file of three bytes. -/
def shortFile : FtpJob :=
  ⟨default, default, [97], [1, 2, 3], by decide, by decide, by decide⟩

/-- `ftpc` sends it in session 7, and `ftps` comes to its first `ACCEPT`. -/
def sendShort : List WorldEvent :=
  .client (.run shortFile)
    :: (List.replicate 5 [.client (.serve calmSys), .client .resume]).flatten
    ++ [.client (.daemon (.sendBack fun _ => default)), .server (.serve calmSys),
      .server .resume, .server (.serve calmSys), .server .resume, .server (.serve calmSys)]

/-- `ftps` takes the session over and asks for the three pieces. -/
def readShort : List WorldEvent :=
  .server (.daemon .ackBack) :: .server .resume
    :: (List.replicate 3 [.server (.serve calmSys), .server (.daemon .recvBack),
      .server .resume]).flatten

/-- The pieces have been sent. -/
def shortSent : World := World.machine.play (World.start default default) sendShort

lemma length_shortSent : (framesOf shortSent.client.outs).length = 3 := by decide +kernel

/-- The frame of one of the pieces. -/
def shortFrame (i : Fin 3) : TrollMessageStruct :=
  (framesOf shortSent.client.outs).get (i.cast length_shortSent.symm)

lemma shortFrame_mem (i : Fin 3) : shortFrame i ∈ framesOf shortSent.client.outs :=
  List.get_mem _ _

/-- The last frame arrives first. -/
def arrivedOne : World := shortSent.arrived 3 (shortFrame 2)

/-- Then the others arrive. -/
def arrivedAll : World := (arrivedOne.arrived 3 (shortFrame 0)).arrived 3 (shortFrame 1)

/-- In this run the file is received whole, though its last piece has overtaken the others. -/
theorem transferred_of_run_shortFile : ∃ es w os, World.Run default default es w os ∧
    w.server.files = [⟨7, [97], [1, 2, 3]⟩] ∧ Transferred w := by
  have hsessions : shortSent.client.transfers.map Prod.fst = [7] := by decide +kernel
  have hnodup : (shortSent.client.transfers.map Prod.fst).Nodup := by
    rw [hsessions]
    exact List.nodup_singleton _
  have hstart : World.Run default default [] (World.start default default) [] := rfl
  have hsend : (World.machine.exec (World.start default default) sendShort).isOk := by
    decide +kernel
  obtain ⟨_, hsent⟩ := hstart.play hsend
  have hbound : shortSent.server.tcpd.bindedSockets.any (·.socketFD = 3) := by decide +kernel
  obtain ⟨_, hone⟩ := hsent.arrive hnodup (shortFrame_mem 2) hbound
  have hbound' : arrivedOne.server.tcpd.bindedSockets.any (·.socketFD = 3) := by decide +kernel
  obtain ⟨_, htwo⟩ := World.Run.arrive hone hnodup (shortFrame_mem 0) hbound'
  have hbound'' : (arrivedOne.arrived 3 (shortFrame 0)).server.tcpd.bindedSockets.any
      (·.socketFD = 3) := by decide +kernel
  obtain ⟨_, hall⟩ := World.Run.arrive htwo hnodup (shortFrame_mem 1) hbound''
  have hread : (World.machine.exec arrivedAll readShort).isOk := by decide +kernel
  obtain ⟨_, hrun⟩ := World.Run.play hall hread
  have hfiles : (World.machine.play arrivedAll readShort).server.files
      = [⟨7, [97], [1, 2, 3]⟩] := by decide +kernel
  have hsame : (World.machine.play arrivedAll readShort).client.transfers.map Prod.fst = [7] := by
    decide +kernel
  refine ⟨_, _, _, hrun, hfiles, transferred_of_run _ _ _ _ _ hrun ?_⟩
  show ((World.machine.play arrivedAll readShort).client.transfers.map Prod.fst).Nodup
  rw [hsame]
  exact List.nodup_singleton _

end NetworkProgramming
