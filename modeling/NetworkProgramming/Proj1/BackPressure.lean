import NetworkProgramming.Proj1.AckProgress

/-!
# Back-pressure between `ftpc` and `tcpd`

`SEND` of `wrap_func.c` hands a datagram to `tcpd` and waits on the port `BLOCK_SIG` for a
signal. `tcpd` answers each datagram with "received", or, when its window is full, with "block",
and keeps the datagram in `tmp_save_buf`. Nothing reads this buffer and nobody sends "unblock", so
a `SEND` that is blocked waits for ever. While no datagram is taken with the window full, nothing
is lost and every `SEND` that waits is going to be signalled (`send_answered_of_room`).
-/

namespace NetworkProgramming.Proj1

/-- A word sent to `BLOCK_SIG`. -/
inductive Signal
  | block
  | unblock
  | received
deriving DecidableEq

/-- The variables of a call of `SEND` by the process `pid`. -/
structure Sending where
  pid : ℕ
  buffer : Payload
  left : ℤ
  byte : ℤ
deriving DecidableEq

/-- `tcpd` and the `ftpc` processes of the client. One process at a time is bound to `BLOCK_SIG`,
and it is in `SEND`. -/
structure Pressure where
  client : Client
  /-- what `tmp_save_buf` holds, once something has been stored there -/
  tmpSaveBuf : Option Payload
  /-- the datagrams at `sock_client_local` -/
  clientLocal : List Payload
  /-- the process bound to `BLOCK_SIG` -/
  sending : Option Sending
  /-- the signals at its socket -/
  signals : List Signal
  /-- the variable `blocking` of each process -/
  blocking : ℕ → Bool

/-- What happens on the client's machine. -/
inductive PressureEvent
  /-- the process `pid` calls `SEND`; `byte` lies in the variable of this name -/
  | call (pid : ℕ) (buffer : Payload) (byte : ℤ)
  /-- `select` returns in `SEND` -/
  | signal
  /-- the process `pid` ends -/
  | exit (pid : ℕ)
  /-- `tcpd` finds a datagram at `sock_client_local` -/
  | datagram (head : TrollHeader) (sendTo : SockaddrIn)
  /-- `tcpd` finds an ack at `sock_client_remote` -/
  | ack (headReceived : TrollHeader)

/-- What `tcpd` does with the datagrams of `ftpc`. -/
inductive PressureOut
  | consumed (buffer : Payload)
  | transmitted (buffer : Payload) (head : TrollHeader)

/-- Why an event does not happen. -/
inductive NotEnabled
  /-- nothing has arrived -/
  | notReady
  /-- the process is in `SEND` -/
  | busy
deriving DecidableEq

namespace Pressure

/-- `tcpd` and no process, after `window_init` on memory that holds `w`. -/
def start (w : MyWindow) : Pressure := ⟨.start w, none, [], none, [], fun _ => false⟩

/-- The head of the loop of `SEND`. -/
def sendLoop (p : Pressure) (s : Sending) : Pressure :=
  if p.blocking s.pid then { p with sending := some s }
  else
    { p with
      sending := some { s with byte := s.buffer.bytes.length }
      clientLocal := p.clientLocal ++ [s.buffer] }

/-- A call of `SEND`. Where the port is taken `bind` fails and the process exits. -/
def call (p : Pressure) (pid : ℕ) (buffer : Payload) (byte : ℤ) : Except NotEnabled Pressure :=
  match p.sending with
  | none => .ok (sendLoop { p with signals := [] } ⟨pid, buffer, buffer.bytes.length, byte⟩)
  | some s =>
    if s.pid = pid then .error .busy
    else .ok { p with blocking := Function.update p.blocking pid false }

/-- `SEND` after `select`: the signal is read, and the call returns when nothing is left. -/
def signal (p : Pressure) : Except NotEnabled Pressure :=
  match p.sending, p.signals with
  | some s, word :: words =>
    let p := { p with signals := words }
    let left := match word with
      | .block => s.left
      | _ => s.left - s.byte
    let blocking := match word with
      | .block => Function.update p.blocking s.pid true
      | .unblock => Function.update p.blocking s.pid false
      | .received => p.blocking
    if left = 0 then .ok { p with sending := none, signals := [], blocking := blocking }
    else .ok (sendLoop { p with blocking := blocking } { s with left := left })
  | _, _ => .error .notReady

/-- The process `pid` ends, and its socket is closed. -/
def exit (p : Pressure) (pid : ℕ) : Pressure :=
  let p := { p with blocking := Function.update p.blocking pid false }
  match p.sending with
  | some s => if s.pid = pid then { p with sending := none, signals := [] } else p
  | none => p

/-- A signal to the port, where somebody is bound to it. -/
def post (p : Pressure) (word : Signal) : Pressure :=
  { p with signals := if p.sending.isSome then p.signals ++ [word] else p.signals }

/-- `block_sending_and_save`, with the datagram that is taken. -/
def blockSendingAndSave (p : Pressure) (buffer : Payload) : Pressure :=
  { p.post .block with tmpSaveBuf := some buffer }

/-- `send_recv_to_ftpc`. -/
def sendRecvToFtpc (p : Pressure) : Pressure := p.post .received

/-- One event. -/
def step (p : Pressure) : PressureEvent → Except NotEnabled (Pressure × List PressureOut)
  | .call pid buffer byte =>
    match p.call pid buffer byte with
    | .error x => .error x
    | .ok p => .ok (p, [])
  | .signal =>
    match p.signal with
    | .error x => .error x
    | .ok p => .ok (p, [])
  | .exit pid => .ok (p.exit pid, [])
  | .datagram head sendTo =>
    match p.clientLocal with
    | [] => .error .notReady
    | buffer :: rest =>
      let p := { p with clientLocal := rest }
      match p.client.step (.send head sendTo buffer) with
      | .error .windowFull => .ok (p.blockSendingAndSave buffer, [.consumed buffer])
      | .ok (client, heads) =>
        .ok ({ p.sendRecvToFtpc with client := client },
          .consumed buffer :: heads.map (.transmitted buffer))
  | .ack headReceived =>
    .ok ({ p with client := { p.client with
      windowClient := p.client.windowClient.receiveAck headReceived } }, [])

/-- The client's machine as a machine. -/
def machine : Machine Pressure PressureEvent PressureOut NotEnabled := ⟨step⟩

end Pressure

/-! ## What is to hold -/

/-- The payloads taken from `sock_client_local`. -/
def consumedBy (os : List PressureOut) : List Payload :=
  os.filterMap fun o => match o with
    | .consumed buffer => some buffer
    | .transmitted _ _ => none

/-- The payloads sent to the troll. -/
def transmittedBy (os : List PressureOut) : List Payload :=
  os.filterMap fun o => match o with
    | .consumed _ => none
    | .transmitted buffer _ => some buffer

/-- The event is a step of `tcpd`. -/
def PressureEvent.OfTcpd : PressureEvent → Prop
  | .datagram _ _ => True
  | .ack _ => True
  | _ => False

/-- After the run over `es` a `SEND` waits and no signal is on its way, every packet sent has been
acknowledged, and no step of `tcpd` sends a signal. -/
def Pressure.Deadlocked (p : Pressure) (es : List PressureEvent) (os : List PressureOut) : Prop :=
  p.sending.isSome ∧ p.signals = [] ∧
    (∀ buffer head, .transmitted buffer head ∈ os → ∃ headReceived, .ack headReceived ∈ es ∧
      headReceived.tcpHeader.seq = head.tcpHeader.seq) ∧
    ∀ e p' os', e.OfTcpd → p.step e = .ok (p', os') → p'.signals = []

/-- No payload is lost and no `SEND` waits in vain. -/
def Pressure.Flows (p : Pressure) (es : List PressureEvent) (os : List PressureOut) : Prop :=
  transmittedBy os ++ p.tmpSaveBuf.toList = consumedBy os ∧ ¬ p.Deadlocked es os

/-- A datagram is not taken while the window is full. -/
def PressureEvent.HasRoom (p : Pressure) : PressureEvent → Prop
  | .datagram _ _ => p.client.windowClient.full = false
  | _ => True

/-! ## Runs in which every datagram finds room -/

lemma consumedBy_append (os os' : List PressureOut) :
    consumedBy (os ++ os') = consumedBy os ++ consumedBy os' := List.filterMap_append

lemma transmittedBy_append (os os' : List PressureOut) :
    transmittedBy (os ++ os') = transmittedBy os ++ transmittedBy os' := List.filterMap_append

namespace Pressure

variable {p p' : Pressure}

/-- Nobody is blocked, nothing is kept, and a signal or a datagram that will be answered is on
its way to the process that waits. -/
structure Answered (p : Pressure) : Prop where
  empty : p.tmpSaveBuf = none
  unblocked : ∀ pid, p.blocking pid = false
  received : ∀ word ∈ p.signals, word = .received
  waits : ∀ s, p.sending = some s → s.left = s.byte ∧ (p.signals ≠ [] ∨ p.clientLocal ≠ [])

lemma answered_start (w : MyWindow) : (start w).Answered :=
  ⟨rfl, fun _ => rfl, fun _ h => absurd h List.not_mem_nil, fun _ h => by cases h⟩

lemma Answered.update (h : p.Answered) (pid : ℕ) :
    ({ p with blocking := Function.update p.blocking pid false } : Pressure).Answered := by
  refine ⟨h.empty, fun i => ?_, h.received, h.waits⟩
  by_cases hi : i = pid
  · rw [hi]
    exact Function.update_self _ _ _
  · exact (Function.update_of_ne hi _ _).trans (h.unblocked i)

/-- A process that is not blocked sends its datagram and waits for the answer to it. -/
lemma Answered.sendLoop (h : p.Answered) {s : Sending} (hs : s.left = s.buffer.bytes.length) :
    (p.sendLoop s).Answered := by
  unfold Pressure.sendLoop
  rw [if_neg (by rw [h.unblocked]; decide)]
  refine ⟨h.empty, h.unblocked, h.received, fun s' hs' => ?_⟩
  obtain rfl := Option.some.inj hs'
  exact ⟨hs, Or.inr (by simp)⟩

lemma Answered.call (h : p.Answered) {pid : ℕ} {buffer : Payload} {byte : ℤ}
    (hstep : p.call pid buffer byte = .ok p') : p'.Answered := by
  unfold Pressure.call at hstep
  split at hstep
  · rename_i hnone
    cases hstep
    have hcleared : ({ p with signals := [] } : Pressure).Answered :=
      ⟨h.empty, h.unblocked, fun _ hw => absurd hw List.not_mem_nil,
        fun s hs => absurd (hnone.symm.trans hs) (by simp)⟩
    exact hcleared.sendLoop rfl
  · split at hstep
    · cases hstep
    · cases hstep
      exact h.update pid

/-- The signal is "received", and the call returns. -/
lemma Answered.signal (h : p.Answered) (hstep : p.signal = .ok p') : p'.Answered := by
  unfold Pressure.signal at hstep
  split at hstep
  · rename_i s word words hs hw
    obtain rfl := h.received word (by rw [hw]; exact List.mem_cons_self)
    dsimp only at hstep
    rw [if_pos (by rw [(h.waits s hs).1, sub_self])] at hstep
    cases hstep
    exact ⟨h.empty, h.unblocked, fun _ hw => absurd hw List.not_mem_nil, fun _ h => by cases h⟩
  · cases hstep

lemma Answered.exit (h : p.Answered) (pid : ℕ) : (p.exit pid).Answered := by
  have hupdated := h.update pid
  unfold Pressure.exit
  dsimp only
  split
  · split
    · exact ⟨h.empty, hupdated.unblocked, fun _ hw => absurd hw List.not_mem_nil,
        fun _ h => by cases h⟩
    · exact hupdated
  · exact hupdated

/-- A datagram is taken and answered. -/
lemma Answered.sendRecvToFtpc (h : p.Answered) (rest : List Payload) (client : Client) :
    ({ ({ p with clientLocal := rest } : Pressure).sendRecvToFtpc with
      client := client } : Pressure).Answered := by
  refine ⟨h.empty, h.unblocked, fun word hw => ?_, fun s hs => ⟨(h.waits s hs).1, Or.inl ?_⟩⟩
  · change word ∈ if p.sending.isSome then p.signals ++ [.received] else p.signals at hw
    split at hw
    · rcases List.mem_append.mp hw with hbefore | hnow
      · exact h.received word hbefore
      · exact List.mem_singleton.mp hnow
    · exact h.received word hw
  · change (if p.sending.isSome then p.signals ++ [.received] else p.signals) ≠ []
    change p.sending = some s at hs
    rw [hs, if_pos (by rfl)]
    simp

/-- What `tcpd` does with the first datagram. -/
lemma step_datagram {buffer : Payload} {rest : List Payload}
    (hlocal : p.clientLocal = buffer :: rest) (head : TrollHeader) (sendTo : SockaddrIn) :
    p.step (.datagram head sendTo) =
      if p.client.windowClient.full then
        .ok (({ p with clientLocal := rest } : Pressure).blockSendingAndSave buffer,
          [.consumed buffer])
      else
        .ok ({ ({ p with clientLocal := rest } : Pressure).sendRecvToFtpc with
            client := ⟨p.client.windowClient.savePacket (packet head sendTo p.client.seq buffer),
              (p.client.seq + buffer.bytes.length) % 65535⟩ },
          [.consumed buffer, .transmitted buffer (packet head sendTo p.client.seq buffer)]) := by
  simp only [step, hlocal, Client.step]
  by_cases hfull : p.client.windowClient.full = true
  · simp only [hfull, if_true]
  · simp only [hfull]
    rfl

/-- One event while a datagram finds room. -/
lemma Answered.step (h : p.Answered) {e : PressureEvent} {os : List PressureOut}
    (hroom : e.HasRoom p) (hstep : p.step e = .ok (p', os)) :
    p'.Answered ∧ transmittedBy os = consumedBy os := by
  cases e with
  | call pid buffer byte =>
    simp only [Pressure.step] at hstep
    split at hstep
    · cases hstep
    · rename_i hcall
      cases hstep
      exact ⟨h.call hcall, rfl⟩
  | signal =>
    simp only [Pressure.step] at hstep
    split at hstep
    · cases hstep
    · rename_i hsignal
      cases hstep
      exact ⟨h.signal hsignal, rfl⟩
  | exit pid =>
    cases hstep
    exact ⟨h.exit pid, rfl⟩
  | datagram head sendTo =>
    cases hlocal : p.clientLocal with
    | nil =>
      simp only [Pressure.step, hlocal] at hstep
      cases hstep
    | cons buffer rest =>
      -- the one event the condition is about: with room the packet goes out at once
      have hfull : p.client.windowClient.full = false := hroom
      rw [step_datagram hlocal, hfull, if_neg (by decide)] at hstep
      cases hstep
      exact ⟨h.sendRecvToFtpc rest _, rfl⟩
  | ack headReceived =>
    cases hstep
    exact ⟨⟨h.empty, h.unblocked, h.received, h.waits⟩, rfl⟩

lemma signals_post_ne_nil (h : p.sending.isSome) (word : Signal) : (p.post word).signals ≠ [] := by
  unfold post
  rw [if_pos h]
  simp

/-- A process that waits for the answer to a datagram is signalled when it is taken. -/
lemma Answered.not_deadlocked (h : p.Answered) (es : List PressureEvent)
    (os : List PressureOut) : ¬ p.Deadlocked es os := by
  rintro ⟨hsending, hnone, _, hquiet⟩
  obtain ⟨s, hs⟩ := Option.isSome_iff_exists.mp hsending
  have hlocal := (h.waits s hs).2.resolve_left (fun hne => hne hnone)
  obtain ⟨buffer, rest, hlocal⟩ := List.exists_cons_of_ne_nil hlocal
  have hstep := step_datagram hlocal blankHead default
  split at hstep
  · have hsignals := hquiet (.datagram blankHead default) _ _ trivial hstep
    exact signals_post_ne_nil hsending .block hsignals
  · have hsignals := hquiet (.datagram blankHead default) _ _ trivial hstep
    exact signals_post_ne_nil hsending .received hsignals

end Pressure

/-- **Every `SEND` is answered while there is room.** In every run in which no datagram is taken
with the window full, the payloads sent to the troll, and the one kept in `tmp_save_buf` if there
is one, are those taken from the processes, in order, and no process waits for a signal that does
not come. -/
theorem send_answered_of_room (w : MyWindow) (es : List PressureEvent) (p : Pressure)
    (os : List PressureOut) (hrun : Pressure.machine.exec (.start w) es = .ok (p, os))
    (hroom : Pressure.machine.Along (.start w) (fun p e => e.HasRoom p) es) : p.Flows es os := by
  have hanswered : p.Answered ∧ transmittedBy os = consumedBy os := by
    refine Pressure.machine.exec_induction (motive := fun es p os =>
      Pressure.machine.Along (.start w) (fun p e => e.HasRoom p) es →
        p.Answered ∧ transmittedBy os = consumedBy os)
      (fun _ => ⟨Pressure.answered_start w, rfl⟩) ?_ hrun hroom
    intro es p os e p' os' hes ih hstep hall
    obtain ⟨hbefore, hlast⟩ := (Pressure.machine.along_snoc hes).mp hall
    obtain ⟨hp, hsame⟩ := ih hbefore
    obtain ⟨hp', hsame'⟩ := hp.step hlast hstep
    exact ⟨hp', by rw [transmittedBy_append, consumedBy_append, hsame, hsame']⟩
  obtain ⟨hp, hsame⟩ := hanswered
  refine ⟨?_, hp.not_deadlocked es os⟩
  rw [hp.empty, hsame]
  exact List.append_nil _

/-! ## A process that is blocked -/

namespace Pressure

/-- The state in which no process is in `SEND`. -/
def idle (c : Client) : Pressure := ⟨c, none, [], none, [], fun _ => false⟩

/-- The state in which process 0 is blocked and its byte is in `tmp_save_buf`. -/
def blocked (c : Client) : Pressure :=
  ⟨c, some oneByte, [], some ⟨0, oneByte, 1, 1⟩, [], Function.update (fun _ => false) 0 true⟩

/-- Process 0 calls `SEND` with one byte, `tcpd` takes it, and the process reads the answer. -/
def exchange : List PressureEvent := [.call 0 oneByte 0, .datagram blankHead default, .signal]

/-- The packet that is sent for the byte. -/
def bytePacket (c : Client) : TrollHeader := packet blankHead default c.seq oneByte

/-- Process 0 has sent its byte and waits. -/
def called (c : Client) : Pressure :=
  ⟨c, none, [oneByte], some ⟨0, oneByte, 1, 1⟩, [], fun _ => false⟩

lemma exec_call (c : Client) :
    machine.exec (idle c) [.call 0 oneByte 0] = .ok (called c, []) := rfl

/-- The byte is sent and process 0 is signalled. -/
lemma step_called {c : Client} (hroom : c.windowClient.full = false) :
    machine.step (called c) (.datagram blankHead default) =
      .ok (⟨⟨c.windowClient.savePacket (bytePacket c), (c.seq + 1) % 65535⟩, none, [],
          some ⟨0, oneByte, 1, 1⟩, [.received], fun _ => false⟩,
        [.consumed oneByte, .transmitted oneByte (bytePacket c)]) := by
  have hlocal : (called c).clientLocal = [oneByte] := rfl
  have hfull : ¬ (called c).client.windowClient.full = true := Bool.not_eq_true _ ▸ hroom
  have hstep := step_datagram hlocal blankHead default
  rw [if_neg hfull] at hstep
  exact hstep

/-- With room the call returns. -/
lemma exec_exchange {c : Client} (hroom : c.windowClient.full = false) :
    machine.exec (idle c) exchange =
      .ok (idle ⟨c.windowClient.savePacket (bytePacket c), (c.seq + 1) % 65535⟩,
        [.consumed oneByte, .transmitted oneByte (bytePacket c)]) := by
  have hboth := machine.exec_snoc.mpr ⟨_, _, _, exec_call c, step_called hroom, rfl⟩
  exact machine.exec_snoc.mpr ⟨_, _, [], hboth, rfl, rfl⟩

/-- Without room the process is blocked. -/
lemma exec_exchange_of_full {c : Client} (hfull : c.windowClient.full = true) :
    machine.exec (idle c) exchange = .ok (blocked c, [.consumed oneByte]) := by
  have htaken : machine.step (called c) (.datagram blankHead default) =
      .ok (⟨c, some oneByte, [], some ⟨0, oneByte, 1, 1⟩, [.block], fun _ => false⟩,
        [.consumed oneByte]) := by
    have hlocal : (called c).clientLocal = [oneByte] := rfl
    have hstep := step_datagram hlocal blankHead default
    rw [if_pos (show (called c).client.windowClient.full = true from hfull)] at hstep
    exact hstep
  have hboth := machine.exec_snoc.mpr ⟨_, _, _, exec_call c, htaken, rfl⟩
  exact machine.exec_snoc.mpr ⟨_, _, [], hboth, rfl, rfl⟩

/-- A run of exchanges sends what the client sends. -/
lemma exec_exchanges {w : MyWindow} {n : ℕ} {c : Client} {sent : List TrollHeader}
    (hrun : Client.machine.exec (.start w)
      (List.replicate n (.send blankHead default oneByte)) = .ok (c, sent)) :
    machine.exec (start w) (List.replicate n exchange).flatten =
      .ok (idle c, sent.flatMap fun head => [.consumed oneByte, .transmitted oneByte head]) := by
  induction n generalizing c sent with
  | zero =>
    cases hrun
    rfl
  | succ n ih =>
    rw [List.replicate_succ', Client.machine.exec_snoc] at hrun
    obtain ⟨u, o, o', hbefore, hstep, rfl⟩ := hrun
    rw [List.replicate_succ', List.flatten_append, List.flatten_singleton, machine.exec_append]
    simp only [Client.machine, Client.step] at hstep
    split at hstep
    · cases hstep
    · rename_i hroom
      cases hstep
      refine ⟨_, _, _, ih hbefore, exec_exchange (Bool.eq_false_iff.mpr hroom), ?_⟩
      rw [List.flatMap_append]
      rfl

/-- Acks do not change a full window. -/
lemma exec_acks {w : MyWindow} {es : List Event} {c : Client} {sent : List TrollHeader}
    (hrun : Client.machine.exec (.start w) es = .ok (c, sent)) (hfull : c.windowClient.full = true)
    (heads : List TrollHeader) :
    machine.exec (blocked c) (heads.map .ack) = .ok (blocked c, []) := by
  have h := Client.holds_of_run hrun
  induction heads with
  | nil => rfl
  | cons head heads ih =>
    refine machine.exec_cons_ok.mpr ⟨blocked c, [], [], ?_, ih, rfl⟩
    simp only [machine, step, blocked]
    rw [MyWindow.receiveAck_of_full h.ok h.waits hfull]

/-- A blocked process waits for ever. -/
lemma deadlocked_blocked (c : Client) {es : List PressureEvent} {os : List PressureOut}
    (hacks : ∀ buffer head, .transmitted buffer head ∈ os → .ack head ∈ es) :
    (blocked c).Deadlocked es os := by
  refine ⟨rfl, rfl, fun buffer head hsent => ⟨head, hacks buffer head hsent, rfl⟩, ?_⟩
  intro e p' os' htcpd hstep
  cases e with
  | datagram head sendTo => cases hstep
  | ack head =>
    cases hstep
    rfl
  | call pid buffer byte => cases htcpd
  | signal => cases htcpd
  | exit pid => cases htcpd

/-- A test for `HasRoom`. -/
def hasRoom (p : Pressure) : PressureEvent → Bool
  | .datagram _ _ => !p.client.windowClient.full
  | _ => true

lemma hasRoom_of_check {p : Pressure} {e : PressureEvent} (h : p.hasRoom e = true) :
    e.HasRoom p := by
  cases e with
  | datagram _ _ => exact Bool.eq_false_iff.mpr (by simpa [hasRoom] using h)
  | _ => trivial

/-- Process 0 sends three bytes, two of which are acknowledged. Process 1 calls `SEND`, process 2
finds the port taken, and when process 1 has ended process 0 calls once more. -/
def takeTurns : List PressureEvent :=
  (List.replicate 3 exchange).flatten ++ [.ack (ackOf 2), .ack (ackOf 1), .call 1 oneByte 0,
    .call 2 oneByte 0, .datagram blankHead default, .signal, .exit 1, .call 0 oneByte 0]

/-- Where that leads. -/
def turnsTaken : Pressure := machine.play (start blankWindow) takeTurns

end Pressure

/-- Nothing is lost in this run, and the process that waits in the end is going to be signalled. -/
theorem send_answered_of_room_takeTurns : ∃ os,
    Pressure.machine.exec (.start blankWindow) Pressure.takeTurns = .ok (Pressure.turnsTaken, os) ∧
      (transmittedBy os).length = 4 ∧ Pressure.turnsTaken.sending.isSome ∧
      Pressure.turnsTaken.Flows Pressure.takeTurns os := by
  obtain ⟨os, hrun⟩ : ∃ os, Pressure.machine.exec (.start blankWindow) Pressure.takeTurns
      = .ok (Pressure.turnsTaken, os) := Pressure.machine.exec_play _ _ (by decide +kernel)
  have hfour : ((Pressure.machine.exec (.start blankWindow) Pressure.takeTurns).toOption.map
      fun r => (transmittedBy r.2).length) = some 4 := by decide +kernel
  rw [hrun] at hfour
  refine ⟨os, hrun, Option.some.inj hfour, by decide +kernel,
    send_answered_of_room blankWindow Pressure.takeTurns _ os hrun ?_⟩
  exact Pressure.machine.along_of_check (fun _ _ => Pressure.hasRoom_of_check) (by decide +kernel)

/-- The eleventh `SEND` without an effective ack waits for ever. -/
theorem not_always_answered :
    ¬ ∀ (w : MyWindow) (es : List PressureEvent) (p : Pressure) (os : List PressureOut),
      Pressure.machine.exec (.start w) es = .ok (p, os) → p.Flows es os := by
  intro hall
  obtain ⟨c, sent, hrun, hin, -⟩ := exists_filled (Nat.le_refl WINDOW_SIZE)
  have hfull := (Client.holds_of_run hrun).ok.full_iff.mpr hin
  have hblocked := Pressure.machine.exec_append.mpr
    ⟨_, _, _, Pressure.exec_exchanges hrun, Pressure.exec_exchange_of_full hfull, rfl⟩
  have hacked := Pressure.machine.exec_append.mpr
    ⟨_, _, _, hblocked, Pressure.exec_acks hrun hfull sent, rfl⟩
  refine (hall _ _ _ _ hacked).2 (Pressure.deadlocked_blocked c fun buffer head hsent => ?_)
  -- the ack of every packet that was sent has been received
  apply List.mem_append_right
  refine List.mem_map_of_mem ?_
  rw [List.append_nil] at hsent
  rcases List.mem_append.mp hsent with hbefore | hnow
  · obtain ⟨head', hhead, hmem⟩ := List.mem_flatMap.mp hbefore
    obtain ⟨-, rfl⟩ : _ ∧ head = head' := by simpa using hmem
    exact hhead
  · simp at hnow

end NetworkProgramming.Proj1
