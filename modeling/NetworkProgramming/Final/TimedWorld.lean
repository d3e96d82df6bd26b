import NetworkProgramming.Final.Resend
import NetworkProgramming.Final.Waits

/-!
# Whole files and timers

The two sides of `World`, and next to them the timer process of the daemon that sends: a package is
sent once more only when its timer has run out. Every step is one of the two sides or of the
daemon with its timer process (`timedWorld_step`), so that what is known of either of them holds
here too (`TimedWorld.live_of_run`). `WorldTurn` says what the processes do in one turn of their
loops.
-/

namespace NetworkProgramming

/-- The two sides, the timer process of the daemon of `ftpc`, and what is in flight between these
two, oldest first. -/
structure TimedWorld extends World where
  requests : List TimerRequestStruct
  timer : TimerProcess
  expiries : List TimerExpiredStruct

/-- An event of one of the sides, or of the timer process. -/
inductive TimedWorldEvent
  /-- an event of one of the sides other than an expiry -/
  | side (e : WorldEvent)
  /-- the daemon of `ftpc` receives the oldest expiry -/
  | expiry
  /-- a round of the timer process, which receives the oldest request or none -/
  | round (nowSystemTime : Timeval) (receive : Bool)

/-- A daemon receives an expiry. -/
def WorldEvent.isExpiry : WorldEvent → Bool
  | .client (.daemon (.timer _)) => true
  | .server (.daemon (.timer _)) => true
  | _ => false

lemma WorldEvent.isExpiry_client {e : FtpcEvent} (hne : ∀ y, e ≠ .daemon (.timer y)) :
    isExpiry (.client e) = false := by
  cases e with
  | daemon e =>
    cases e with
    | timer y => exact absurd rfl (hne y)
    | _ => rfl
  | _ => rfl

lemma WorldEvent.isExpiry_server {e : FtpsEvent} (hne : ∀ y, e ≠ .daemon (.timer y)) :
    isExpiry (.server e) = false := by
  cases e with
  | daemon e =>
    cases e with
    | timer y => exact absurd rfl (hne y)
    | _ => rfl
  | _ => rfl

/-- What the daemon of `ftpc` asks of its timer process. The daemon of `ftps` sends no packages. -/
def WorldEvent.requests (os : List Out) : WorldEvent → List TimerRequestStruct
  | .client _ => timersOf os
  | .server _ => []

namespace TimedWorld

/-- `ftps` is started on `frontAddr` and is going to bind `bindAddr`. -/
def start (frontAddr bindAddr : SockaddrIn) (now : Timeval) : TimedWorld :=
  { World.start frontAddr bindAddr with requests := [], timer := ⟨[], now⟩, expiries := [] }

/-- The daemon of `ftpc` and its timer process. -/
def timed (w : TimedWorld) : Timed := ⟨w.client.tcpd, w.requests, w.timer, w.expiries⟩

/-- One event. -/
def step (w : TimedWorld) : TimedWorldEvent → Except Halt (TimedWorld × List Out)
  | .side e =>
    if e.isExpiry then .error .notReady
    else
      match w.toWorld.step e with
      | .error halt => .error halt
      | .ok (world, os) =>
        .ok ({ w with toWorld := world, requests := w.requests ++ e.requests os }, os)
  | .expiry =>
    match w.expiries with
    | [] => .error .notReady
    | x :: expiries =>
      match w.toWorld.step (.client (.daemon (.timer x))) with
      | .error halt => .error halt
      | .ok (world, os) => .ok ({ w with toWorld := world, expiries }, os)
  | .round nowSystemTime receive =>
    match w.timed.step (.round nowSystemTime receive) with
    | .error halt => .error halt
    | .ok (t, os) =>
      .ok ({ w with requests := t.requests, timer := t.timer, expiries := t.expiries }, os)

/-- The two sides over the network, with the timer process. -/
def machine : Machine TimedWorld TimedWorldEvent Out Halt := ⟨step⟩

/-- A run, from the start of `ftps`. -/
def Run (frontAddr bindAddr : SockaddrIn) (now : Timeval) (es : List TimedWorldEvent)
    (w : TimedWorld) (os : List Out) : Prop :=
  machine.exec (start frontAddr bindAddr now) es = .ok (w, os)

end TimedWorld

/-- What one step does. -/
inductive TimedWorldStep (w : TimedWorld) : TimedWorldEvent → TimedWorld → List Out → Prop
  | client {e : FtpcEvent} {x : FtpcSide} {os : List Out} (hne : ∀ y, e ≠ .daemon (.timer y))
      (hmay : w.clientMay e = true) (hstep : w.client.step e = .ok (x, os)) :
      TimedWorldStep w (.side (.client e))
        { w with client := x, requests := w.requests ++ timersOf os } os
  | server {e : FtpsEvent} {x : FtpsSide} {os : List Out} (hmay : w.serverMay e = true)
      (hstep : w.server.step e = .ok (x, os)) :
      TimedWorldStep w (.side (.server e)) { w with server := x } os
  | expiry {y : TimerExpiredStruct} {expiries : List TimerExpiredStruct} {t : Tcpd}
      {os : List Out} (hy : w.expiries = y :: expiries)
      (hstep : w.client.tcpd.step (.timer y) = .ok (t, os)) :
      TimedWorldStep w .expiry { w with client := w.client.after t os, expiries } os
  | round {now : Timeval} {receive : Bool} {request : Option TimerRequestStruct}
      {rest : List TimerRequestStruct} (hstep : w.timed.step (.round now receive)
        = .ok (w.timed.round now request rest, [])) :
      TimedWorldStep w (.round now receive)
        { w with requests := rest, timer := (w.timed.round now request rest).timer,
                 expiries := (w.timed.round now request rest).expiries } []

/-- **One step of the two sides with the timer process.** -/
theorem timedWorld_step {w w' : TimedWorld} {e : TimedWorldEvent} {os : List Out}
    (h : w.step e = .ok (w', os)) : TimedWorldStep w e w' os := by
  cases e with
  | side e =>
    simp only [TimedWorld.step] at h
    split at h
    · cases h
    · rename_i hne
      split at h
      · cases h
      · rename_i world os' hworld
        cases h
        cases e with
        | client e =>
          simp only [World.step] at hworld
          split at hworld
          · rename_i hmay
            split at hworld
            · cases hworld
            · rename_i hside
              cases hworld
              refine .client (fun y he => hne ?_) hmay hside
              rw [he]
              rfl
          · cases hworld
        | server e =>
          simp only [World.step] at hworld
          split at hworld
          · rename_i hmay
            split at hworld
            · cases hworld
            · rename_i hside
              cases hworld
              rw [WorldEvent.requests, List.append_nil]
              exact .server hmay hside
          · cases hworld
  | expiry =>
    simp only [TimedWorld.step] at h
    split at h
    · cases h
    · rename_i y expiries hy
      split at h
      · cases h
      · rename_i world os' hworld
        cases h
        simp only [World.step, World.clientMay, if_true, FtpcSide.step, Event.isFront,
          Bool.false_eq_true, if_false] at hworld
        split at hworld
        · cases hworld
        · rename_i hside
          cases hworld
          split at hside
          · cases hside
          · rename_i htcpd
            cases hside
            exact .expiry hy htcpd
  | round now receive =>
    simp only [TimedWorld.step] at h
    split at h
    · cases h
    · rename_i t os' hround
      cases h
      cases timed_step hround with
      | round hrequests => exact .round hround

/-! ## The sides inside the whole -/

lemma FtpcSide.step_daemon {x : FtpcSide} {e : Event} {t : Tcpd} {os : List Out}
    (hfront : e.isFront = false) (h : x.tcpd.step e = .ok (t, os)) :
    x.step (.daemon e) = .ok (x.after t os, os) := by
  simp only [step, hfront, Bool.false_eq_true, if_false, h]

lemma FtpsSide.step_daemon {x : FtpsSide} {e : Event} {t : Tcpd} {os : List Out}
    (hfront : e.isFront = false) (h : x.tcpd.step e = .ok (t, os)) :
    x.step (.daemon e) = .ok (x.after t os, os) := by
  simp only [step, hfront, Bool.false_eq_true, if_false, h]

namespace World

variable {w : World} {os : List Out}

lemma step_client {e : FtpcEvent} {x : FtpcSide} (hmay : w.clientMay e = true)
    (h : w.client.step e = .ok (x, os)) :
    w.step (.client e) = .ok ({ w with client := x }, os) := by
  simp only [World.step, hmay, if_true, h]

lemma step_server {e : FtpsEvent} {x : FtpsSide} (hmay : w.serverMay e = true)
    (h : w.server.step e = .ok (x, os)) :
    w.step (.server e) = .ok ({ w with server := x }, os) := by
  simp only [World.step, hmay, if_true, h]

end World

/-! ## What a run keeps -/

/-- A daemon to which no socket is bound gets no session, so that a pass finds nothing too long. -/
lemma Tcpd.Fits.step_bare {t t' : Tcpd} {e : Event} {os : List Out} (h : t.Fits) (hbare : t.Bare)
    (hok : t.SessionsOk) (hstep : t.step e = .ok (t', os)) : t'.Fits := by
  have hnone : ∀ s, ¬ t.Accepted s := fun s => by simp [Tcpd.Accepted, hbare.acked s]
  intro s a' ha'
  have hsess := sess_step hok hstep s
  rw [ha'] at hsess
  generalize hx : t.sess s = x at hsess
  generalize repliesTo s os = replies at hsess
  generalize hx' : some a' = x' at hsess
  cases hsess with
  | arrive _ _ => simp [Tcpd.step, hbare.bound] at hstep
  | request hacc _ _ _ => exact absurd hacc (hnone s)
  | pass hacc _ => exact absurd hacc (hnone s)
  | other _ _ _ =>
    subst hx'
    exact h s a' hx

/-- A `CONNECT` begins the transfer of the session it draws. -/
lemma FtpcSide.Ok.begins_connect {x : FtpcSide} (h : x.Ok) {addr a : SockaddrIn} {sock : Int32}
    {calls : List (SockaddrIn × Call)} (hcalls : x.calls = (addr, .CONNECT sock a) :: calls)
    (sys : Sys) : ∃ job, x.begins (.CONNECT sock a) sys = [(sys.rand, job)] := by
  cases h.stage with
  | connectCalled job _ hftpc _ _ => exact ⟨job, by simp [begins, hftpc, Ftpc.job]⟩
  | idle _ hnone _ => simp [hnone] at hcalls
  | socketCalled _ _ hnone _ => simp [hnone] at hcalls
  | socketServed _ _ hnone _ => simp [hnone] at hcalls
  | connectServed _ _ _ hnone _ _ => simp [hnone] at hcalls
  | sendCalled _ _ _ _ _ _ hnone _ _ => simp [hnone] at hcalls
  | sendServed _ _ _ _ hnone _ _ => simp [hnone] at hcalls

namespace TimedWorld

variable {w w' : TimedWorld} {e : TimedWorldEvent} {os : List Out}

/-- A `CONNECT` comes on a socket that has no connection, and an intact ack on the socket of its
session. -/
def Fresh (w : TimedWorld) (e : TimedWorldEvent) : Prop :=
  (∀ e', e = .side e' → w.toWorld.FreshSocket e') ∧
    ∀ fd a now, e = .side (.client (.daemon (.ack fd a now))) → a.Valid →
      ∀ fd' c, w.client.tcpd.conn fd' = some c → c.session = a.session → fd' = fd

/-- An event that is neither a call of `ftpc` nor an ack is fresh. -/
lemma fresh_of_ne (hserve : ∀ sys, e ≠ .side (.client (.serve sys)))
    (hack : ∀ fd a now, e ≠ .side (.client (.daemon (.ack fd a now)))) (w : TimedWorld) :
    w.Fresh e := by
  refine ⟨fun e' he e'' he' sys addr sock a calls heq => ?_, fun fd a now he => ?_⟩
  · rw [he, he', heq] at hserve
    exact absurd rfl (hserve sys)
  · exact absurd he (hack fd a now)

/-- Both sides are as they should be, and so are the timers. -/
structure Live (w : TimedWorld) : Prop where
  world : w.toWorld.Live
  sound : w.timed.Sound
  fits : w.client.tcpd.Fits

/-- The daemon of `ftpc` goes on with its timers in order. -/
lemma Live.client (h : w.Live) {e : FtpcEvent} {x : FtpcSide} (hne : ∀ y, e ≠ .daemon (.timer y))
    (hstep : w.client.step e = .ok (x, os)) (hnodup : (x.transfers.map Prod.fst).Nodup)
    (hfresh : w.Fresh (.side (.client e))) :
    Timed.Sound ⟨x.tcpd, w.requests ++ timersOf os, w.timer, w.expiries⟩ ∧ x.tcpd.Fits := by
  have hok := h.world.clientOk
  -- the same step of the daemon with its timer process
  have hdaemon : ∀ {e' : Event} {t : Tcpd}, (∀ y, e' ≠ .timer y) →
      w.client.tcpd.step e' = .ok (t, os) → w.timed.Fresh (.tcpd e') →
      Timed.Sound ⟨t, w.requests ++ timersOf os, w.timer, w.expiries⟩ ∧ t.Fits := by
    intro e' t hne htcpd hfresh
    have hsame : w.timed.tcpd.step e' = .ok (t, os) := htcpd
    have htimed : w.timed.step (.tcpd e')
        = .ok (⟨t, w.requests ++ timersOf os, w.timer, w.expiries⟩, os) := by
      cases e' with
      | timer y => exact absurd rfl (hne y)
      | _ => simp only [Timed.step, hsame]; rfl
    exact ⟨h.sound.step hfresh htimed, h.fits.step_bare hok.bare hok.sessions htcpd⟩
  cases e with
  | run job =>
    simp only [FtpcSide.step] at hstep
    split at hstep <;> cases hstep
    rw [timersOf_nil, List.append_nil]
    exact ⟨h.sound, h.fits⟩
  | resume =>
    simp only [FtpcSide.step] at hstep
    split at hstep <;> cases hstep
    rw [timersOf_nil, List.append_nil]
    exact ⟨h.sound, h.fits⟩
  | serve sys =>
    simp only [FtpcSide.step] at hstep
    split at hstep
    · cases hstep
    · rename_i addr c calls hcalls
      split at hstep
      · cases hstep
      · rename_i htcpd
        cases hstep
        refine hdaemon (by simp) htcpd ⟨⟨fun addr' fd a sys' he fd' d hd hs => ?_,
          fun _ _ _ he => by cases he⟩, fun addr' fd a sys' he => ?_⟩
        · -- the session that is drawn belongs to no other transfer
          cases c <;> cases he
          obtain ⟨job, hbegins⟩ := hok.begins_connect hcalls sys
          obtain ⟨job', hjob', -⟩ := hok.conns fd' d hd
          have hdistinct : (w.client.transfers.map Prod.fst ++ [sys.rand]).Nodup := by
            simpa only [FtpcSide.after, hbegins, List.map_append, List.map_singleton] using hnodup
          refine List.disjoint_of_nodup_append hdistinct (List.mem_map_of_mem hjob') ?_
          exact List.mem_singleton.mpr hs
        · cases c <;> cases he
          exact hfresh.1 _ rfl _ rfl sys addr fd a calls rfl hcalls
  | daemon e =>
    simp only [FtpcSide.step] at hstep
    split at hstep
    · cases hstep
    · rename_i hfront
      split at hstep
      · cases hstep
      · rename_i htcpd
        cases hstep
        refine hdaemon (fun y he => hne y (congrArg _ he)) htcpd
          ⟨⟨fun addr' fd a sys' he => ?_, fun fd a now he => ?_⟩, fun addr' fd a sys' he => ?_⟩
        · cases he
          exact absurd rfl hfront
        · cases he
          exact hfresh.2 fd a now rfl
        · cases he
          exact absurd rfl hfront

/-- **One event.** -/
theorem Live.step (h : w.Live) (hstep : w.step e = .ok (w', os))
    (hnodup : (w'.client.transfers.map Prod.fst).Nodup)
    (hrand : ∀ s ∈ w'.client.transfers.map Prod.fst, s.toInt32 ≠ -1) (hfresh : w.Fresh e) :
    w'.Live := by
  cases timedWorld_step hstep with
  | client hne hmay hside =>
    obtain ⟨hsound, hfits⟩ := h.client hne hside hnodup hfresh
    exact ⟨h.world.step (World.step_client hmay hside) hnodup hrand (hfresh.1 _ rfl), hsound, hfits⟩
  | server hmay hside =>
    exact ⟨h.world.step (World.step_server hmay hside) hnodup hrand (hfresh.1 _ rfl), h.sound,
      h.fits⟩
  | @expiry y expiries t _ hy htcpd =>
    have hworld : w.toWorld.step (.client (.daemon (.timer y)))
        = .ok ({ w.toWorld with client := w.client.after t os }, os) :=
      World.step_client rfl (FtpcSide.step_daemon rfl htcpd)
    have htimed : w.timed.step .expiry = .ok ({ w.timed with tcpd := t, expiries }, os) := by
      have hy : w.timed.expiries = y :: expiries := hy
      have htcpd : w.timed.tcpd.step (.timer y) = .ok (t, os) := htcpd
      simp only [Timed.step, hy, htcpd]
    have hok := h.world.clientOk
    refine ⟨h.world.step hworld hnodup hrand ?_, h.sound.step ?_ htimed,
      h.fits.step_bare hok.bare hok.sessions htcpd⟩
    · rintro e' he sys addr sock a calls rfl
      cases he
    · exact Timed.fresh_of_ne (by simp) (by simp) w.timed
  | round hround =>
    exact ⟨h.world, h.sound.step (Timed.fresh_of_ne (by simp) (by simp) w.timed) hround, h.fits⟩

lemma live_start (frontAddr bindAddr : SockaddrIn) (now : Timeval) :
    (start frontAddr bindAddr now).Live where
  world := World.live_start frontAddr bindAddr
  sound := Timed.sound_start now
  fits := Tcpd.fits_of_entries (fun _ hx => absurd hx (by simp [start, World.start,
    FtpcSide.start, Tcpd.globalInit, HashTable.empty])) (fun _ ha => absurd ha (by simp [start,
    World.start, FtpcSide.start, Tcpd.globalInit]))

/-- The transfers only grow. -/
lemma transfers_step (hstep : w.step e = .ok (w', os)) :
    w.client.transfers <+: w'.client.transfers := by
  cases timedWorld_step hstep with
  | client _ _ hside => exact (FtpcSide.step_grows hside).1
  | server _ _ => exact List.prefix_rfl
  | expiry _ _ => exact List.prefix_rfl
  | round _ => exact List.prefix_rfl

/-- Along a run in which the sessions are distinct everything stays as it should be. -/
theorem Live.exec (h : w.Live) {es : List TimedWorldEvent}
    (hexec : machine.exec w es = .ok (w', os)) (hfresh : machine.Along w Fresh es)
    (hnodup : (w'.client.transfers.map Prod.fst).Nodup)
    (hrand : ∀ s ∈ w'.client.transfers.map Prod.fst, s.toInt32 ≠ -1) : w'.Live := by
  refine machine.exec_along (I := fun u => (u.client.transfers.map Prod.fst).Nodup →
    (∀ s ∈ u.client.transfers.map Prod.fst, s.toInt32 ≠ -1) → u.Live)
    (fun u e t o hu hfresh hstep hnodup hrand => ?_) hfresh hexec (fun _ _ => h) hnodup hrand
  have hsub := (transfers_step hstep).sublist.map Prod.fst
  exact (hu (hnodup.sublist hsub) fun s hs => hrand s (hsub.subset hs)).step hstep hnodup hrand
    hfresh

theorem live_of_run {frontAddr bindAddr : SockaddrIn} {now : Timeval} {es : List TimedWorldEvent}
    (h : Run frontAddr bindAddr now es w os)
    (hfresh : machine.Along (start frontAddr bindAddr now) Fresh es)
    (hnodup : (w.client.transfers.map Prod.fst).Nodup)
    (hrand : ∀ s ∈ w.client.transfers.map Prod.fst, s.toInt32 ≠ -1) : w.Live :=
  (live_start frontAddr bindAddr now).exec h hfresh hnodup hrand

end TimedWorld

/-! ## The turns of the loops -/

/-- The passes of the daemon of `ftpc`. -/
def clientBack (clock : ℕ → Timeval) : List TimedWorldEvent :=
  (backEvents true clock).map fun e => .side (.client (.daemon e))

/-- The passes of the daemon of `ftps`. -/
def serverBack (clock : ℕ → Timeval) : List TimedWorldEvent :=
  (backEvents true clock).map fun e => .side (.server (.daemon e))

/-- What the daemon of `ftpc` and its timer process do is done in the whole. -/
def TimedWorldEvent.timed : TimedEvent → TimedWorldEvent
  | .tcpd e => .side (.client (.daemon e))
  | .expiry => .expiry
  | .round nowSystemTime receive => .round nowSystemTime receive

/-- A turn of one of the loops: of the timer process, of a daemon with at most one call or datagram
to read, of `ftpc` or of `ftps`. None starts another `ftpc`. -/
inductive WorldTurn : List TimedWorldEvent → Prop
  /-- of the timer process, or of the daemon of `ftpc` with nothing to read but an expiry -/
  | timed {es : List TimedEvent} (h : TimedTurn true es) : WorldTurn (es.map .timed)
  /-- of the daemon of `ftpc` with an ack -/
  | ack (fd : Int32) (a : TrollAckStruct) (now : Timeval) (clock : ℕ → Timeval) :
      WorldTurn (.side (.client (.daemon (.ack fd a now))) :: clientBack clock)
  /-- of the daemon of `ftpc` with a call -/
  | ftpcCall (sys : Sys) (clock : ℕ → Timeval) :
      WorldTurn (.side (.client (.serve sys)) :: clientBack clock)
  /-- `ftpc` reads an answer -/
  | ftpc : WorldTurn [.side (.client .resume)]
  /-- of the daemon of `ftps` with nothing to read -/
  | passes (clock : ℕ → Timeval) : WorldTurn (serverBack clock)
  /-- of the daemon of `ftps` with a frame -/
  | frame (fd : Int32) (m : TrollMessageStruct) (remote : SockaddrIn) (clock : ℕ → Timeval) :
      WorldTurn (.side (.server (.daemon (.data fd m remote))) :: serverBack clock)
  /-- of the daemon of `ftps` with a call -/
  | ftpsCall (sys : Sys) (clock : ℕ → Timeval) :
      WorldTurn (.side (.server (.serve sys)) :: serverBack clock)
  /-- `ftps` reads an answer -/
  | ftps : WorldTurn [.side (.server .resume)]

namespace FtpcSide

@[simp] lemma after_nil (x : FtpcSide) : x.after x.tcpd [] = x := by
  have hnone : x.ftpc.frontAddr.elim [] (answersTo · []) = [] := by
    cases x.ftpc.frontAddr <;> rfl
  rw [after, hnone, List.append_nil, List.append_nil]

lemma after_after (x : FtpcSide) (t u : Tcpd) (os os' : List Out) :
    (x.after t os).after u os' = x.after u (os ++ os') := by
  have hboth : x.ftpc.frontAddr.elim [] (answersTo · (os ++ os'))
      = x.ftpc.frontAddr.elim [] (answersTo · os)
        ++ x.ftpc.frontAddr.elim [] (answersTo · os') := by
    cases x.ftpc.frontAddr with
    | none => rfl
    | some addr => exact List.filterMap_append
  simp only [after, hboth, List.append_assoc]

end FtpcSide

namespace TimedWorld

variable {w w' : TimedWorld} {t : Timed} {os : List Out}

/-- Where the daemon of `ftpc` and its timer process lead. -/
def withTimed (w : TimedWorld) (t : Timed) (os : List Out) : TimedWorld :=
  { client := w.client.after t.tcpd os, server := w.server,
    requests := t.requests, timer := t.timer, expiries := t.expiries }

/-- The network lets it happen. -/
def MayHappen (w : TimedWorld) (e : TimedEvent) : Prop :=
  ∀ e', e = .tcpd e' → e'.isFront = false ∧ w.clientMay (.daemon e') = true

lemma step_timed {e : TimedEvent} (h : w.timed.step e = .ok (t, os)) (hmay : w.MayHappen e) :
    w.step (.timed e) = .ok (w.withTimed t os, os) := by
  cases timed_step h with
  | @tcpd e t _ hne htcpd =>
    obtain ⟨hfront, hmay⟩ := hmay e rfl
    have hside := World.step_client (w := w.toWorld) hmay (FtpcSide.step_daemon hfront htcpd)
    have hkind := WorldEvent.isExpiry_client (e := .daemon e) fun y he => hne y (by cases he; rfl)
    simp only [TimedWorldEvent.timed, TimedWorld.step, hkind, Bool.false_eq_true, if_false, hside]
    rfl
  | expiry hy htcpd =>
    have hside := World.step_client (w := w.toWorld) (e := .daemon (.timer _)) rfl
      (FtpcSide.step_daemon rfl htcpd)
    have hy : w.expiries = _ :: _ := hy
    simp only [TimedWorldEvent.timed, TimedWorld.step, hy, hside]
    rfl
  | round _ =>
    simp only [TimedWorldEvent.timed, TimedWorld.step, h]
    have hsame : w.client.after w.timed.tcpd [] = w.client := w.client.after_nil
    rw [withTimed, Timed.round, hsame]

/-- What the sending end does, the whole does. -/
lemma exec_timed {es : List TimedEvent} (h : Timed.machine.exec w.timed es = .ok (t, os))
    (hmay : ∀ e ∈ es, w.MayHappen e) :
    machine.exec w (es.map .timed) = .ok (w.withTimed t os, os) := by
  refine Timed.machine.exec_induction (motive := fun es t os => (∀ e ∈ es, w.MayHappen e) →
    machine.exec w (es.map .timed) = .ok (w.withTimed t os, os)) (fun _ => ?_) ?_ h hmay
  · have hsame : w.client.after w.timed.tcpd [] = w.client := w.client.after_nil
    rw [withTimed, hsame]
    rfl
  · intro es u o e t o' _ ih hstep hmay
    rw [List.map_append]
    refine machine.exec_snoc.mpr ⟨_, o, o', ih fun e he => hmay e (List.mem_append_left _ he), ?_,
      rfl⟩
    have hnext : (w.withTimed u o).timed.step e = .ok (t, o') := hstep
    have hstep' := step_timed (w := w.withTimed u o) hnext fun e' he' => ?_
    · rw [withTimed, withTimed, FtpcSide.after_after] at hstep'
      exact hstep'
    · -- which acks may arrive does not depend on the sending end
      obtain ⟨hfront, hmay'⟩ := hmay e (by simp) e' he'
      refine ⟨hfront, ?_⟩
      cases e' <;> exact hmay'

/-- Nothing in the passes of the daemon of `ftpc` makes a connection or comes from the network. -/
lemma fresh_back {clock : ℕ → Timeval} {e : Event} (he : e ∈ backEvents true clock)
    (w : TimedWorld) : w.Fresh (.side (.client (.daemon e))) := by
  refine fresh_of_ne (by simp) (fun fd a now hack => ?_) w
  cases hack
  rcases mem_backEvents.mp he with he | ⟨-, he⟩ | he <;> cases he

/-- What the sending end does by itself. -/
lemma Live.turns (h : w.Live)
    (hreach : Timed.machine.turns.CanReach (TimedTurn true) w.timed t os) :
    machine.turns.CanReach WorldTurn w (w.withTimed t os) os ∧ (w.withTimed t os).Live := by
  obtain ⟨ess, hess, hexec⟩ := hreach
  refine Timed.machine.turns.exec_induction (motive := fun ess t os =>
    (∀ es ∈ ess, TimedTurn true es) → machine.turns.CanReach WorldTurn w (w.withTimed t os) os ∧
      (w.withTimed t os).Live) (fun _ => ?_) ?_ hexec hess
  · have hsame : w.client.after w.timed.tcpd [] = w.client := w.client.after_nil
    rw [withTimed, hsame]
    exact ⟨.refl _ w, h⟩
  · intro ess u o es t o' _ ih hturn hess
    obtain ⟨hcan, hlive⟩ := ih fun es hes => hess es (List.mem_append_left _ hes)
    have hes : TimedTurn true es := hess es (by simp)
    have hexec : machine.exec (w.withTimed u o) (es.map .timed)
        = .ok ((w.withTimed u o).withTimed t o', o') := by
      refine exec_timed hturn fun e he e' he' => ?_
      subst he'
      rcases hes.mem he with ⟨_, _, he⟩ | he | ⟨clock, e₀, he₀, he⟩
      · cases he
      · cases he
      · cases he
        rcases mem_backEvents.mp he₀ with rfl | ⟨-, rfl⟩ | rfl <;> exact ⟨rfl, rfl⟩
    have hnext := hlive.exec hexec (machine.along_of_forall fun e he v => ?_) h.world.nodup
      h.world.rand
    · rw [withTimed, withTimed, FtpcSide.after_after] at hexec hnext
      exact ⟨hcan.trans (.single (.timed hes) hexec), hnext⟩
    · obtain ⟨e₀, he₀, rfl⟩ := List.mem_map.mp he
      rcases hes.mem he₀ with ⟨_, _, rfl⟩ | rfl | ⟨clock, e₁, he₁, rfl⟩
      · exact fresh_of_ne (by simp [TimedWorldEvent.timed]) (by simp [TimedWorldEvent.timed]) v
      · exact fresh_of_ne (by simp [TimedWorldEvent.timed]) (by simp [TimedWorldEvent.timed]) v
      · exact fresh_back he₁ v

end TimedWorld

end NetworkProgramming
