import NetworkProgramming.Lab3.Transfer
import NetworkProgramming.Proj1.Delivery

/-!
# File transfers over the simulated TCP

`ftpc` and `ftps` of `proj1` over both ends of `tcpd`. A datagram of `ftpc` that comes while the
window is full is never sent, and what the network loses is not sent again. So over a network that
keeps the order the files of a series of transfers are saved exactly when neither happens
(`saved_iff_handed`).
-/

namespace NetworkProgramming.Proj1

open Lab3 (Arrival Files Job)

/-- The payloads of the `SEND`s, in their order. -/
def offered (es : List PathEvent) : List (List UInt8) :=
  es.filterMap fun e => match e with
    | .send _ _ buffer => some buffer.bytes
    | _ => none

lemma offered_append (es es' : List PathEvent) : offered (es ++ es') = offered es ++ offered es' :=
  List.filterMap_append

/-- What `ftps` receives, in its order. -/
def handedOf (os : List PathOut) : List (List UInt8) :=
  os.filterMap fun o => match o with
    | .sent _ => none
    | .handed bytes => some bytes

/-- The datagram of a `SEND` finds the window open. -/
def Admitted (l : Path) (e : PathEvent) : Prop :=
  offered [e] = [] ∨ l.client.windowClient.full = false

/-- The packets sent carry what was offered, but for what found the window full. -/
structure Carries (w : MyWindow) (es : List PathEvent) (os : List PathOut) : Prop where
  sublist : ((sentOf os).map (·.body)).Sublist (offered es)
  all_iff : (sentOf os).map (·.body) = offered es ↔ Path.machine.Along (.start w) Admitted es

/-- A datagram is sent when it finds the window open. -/
lemma sentOf_step {l l' : Path} {e : PathEvent} {os : List PathOut}
    (h : l.step e = .ok (l', os)) :
    Admitted l e ∧ (sentOf os).map (·.body) = offered [e] ∨
      ¬ Admitted l e ∧ sentOf os = [] ∧ ∃ bytes, offered [e] = [bytes] := by
  cases e with
  | send head sendTo buffer =>
    cases hfull : l.client.windowClient.full with
    | true =>
      simp only [Path.step, Client.step, hfull, if_true] at h
      cases h
      refine Or.inr ⟨?_, rfl, buffer.bytes, rfl⟩
      rintro (hnone | hroom)
      · cases hnone
      · rw [hfull] at hroom
        cases hroom
    | false =>
      simp only [Path.step, Client.step, hfull, Bool.false_eq_true, if_false] at h
      cases h
      refine Or.inl ⟨Or.inr hfull, ?_⟩
      show [(outgoing head sendTo l.client.seq buffer).body] = [buffer.bytes]
      rw [body_outgoing]
  | packet m ackPacket ret =>
    cases path_step h
    exact Or.inl ⟨Or.inl rfl, rfl⟩
  | ack headReceived =>
    cases path_step h
    exact Or.inl ⟨Or.inl rfl, rfl⟩
  | lose packets acks =>
    cases path_step h
    exact Or.inl ⟨Or.inl rfl, rfl⟩

lemma carries_of_run {w : MyWindow} {es : List PathEvent} {l : Path} {os : List PathOut}
    (h : Path.machine.exec (.start w) es = .ok (l, os)) : Carries w es os := by
  refine Path.machine.exec_induction (motive := fun es _ os => Carries w es os) ?_ ?_ h
  · exact ⟨.slnil, fun _ => Path.machine.along_nil _ _, fun _ => rfl⟩
  · intro es u o e t o' hes ih hstep
    rcases sentOf_step hstep with ⟨hadmitted, hsent⟩ | ⟨hblocked, hsent, bytes, hbytes⟩
    · refine ⟨?_, ?_⟩
      · rw [sentOf_append, List.map_append, hsent, offered_append]
        exact ih.sublist.append_right _
      · rw [sentOf_append, List.map_append, hsent, offered_append, List.append_left_inj,
          ih.all_iff, Path.machine.along_snoc hes, and_iff_left hadmitted]
    · have hsame : sentOf (o ++ o') = sentOf o := by
        rw [sentOf_append, hsent, List.append_nil]
      have hshort := ih.sublist.length_le
      refine ⟨?_, ?_⟩
      · rw [hsame, offered_append]
        exact ih.sublist.trans (List.sublist_append_left _ _)
      · rw [hsame, offered_append, hbytes, Path.machine.along_snoc hes]
        refine ⟨fun heq => ?_, fun hall => absurd hall.2 hblocked⟩
        have hlength := congrArg List.length heq
        rw [List.length_append, List.length_singleton] at hlength
        omega

/-- **A series of transfers in `proj1`.** `ftpc` has offered what the transfers send, as far as its
`SEND`s have returned: after a "block" none does. Over a network that keeps the order and repeats
nothing, the server saves the files that were to be sent, one after the other, exactly when `ftpc`
has offered all of them, no datagram finds the window full, no packet is lost, and there is room
for every file. -/
theorem saved_iff_handed (w : MyWindow) (es : List PathEvent) (l : Path) (os : List PathOut)
    (h : Path.machine.exec (.start w) es = .ok (l, os)) (files : Files) (jobs : List Job)
    (sent : List (List UInt8)) (hsent : Job.sendAll .proj1 jobs = some sent)
    (hoffered : offered es <+: sent)
    (horder : (handedOf os).Sublist ((sentOf os).map (·.body))) (as : List Arrival)
    (has : as.map Arrival.datagram = handedOf os) :
    (∃ t, (Lab3.Ftps.machine .proj1 files).exec .start as = .ok (t, jobs.map Job.saved)) ↔
      offered es = sent ∧ Path.machine.Along (.start w) Admitted es ∧
        handedOf os = (sentOf os).map (·.body) ∧ Lab3.RoomForAll .proj1 files 0 jobs := by
  have hcarries := carries_of_run h
  have hlost : (as.map Arrival.datagram).Sublist sent := by
    rw [has]
    exact (horder.trans hcarries.sublist).trans hoffered.sublist
  rw [Lab3.exec_iff_of_sublist hsent hlost, has, ← hcarries.all_iff, ← and_assoc, ← and_assoc]
  refine and_congr_left fun _ => ⟨fun hall => ?_, ?_⟩
  · have hoff : offered es = sent := hoffered.eq_of_length_le (by
      rw [← hall]
      exact (horder.trans hcarries.sublist).length_le)
    have hhanded := horder.eq_of_length_le (by
      rw [hall, ← hoff]
      exact hcarries.sublist.length_le)
    exact ⟨⟨hoff, (hhanded.symm.trans hall).trans hoff.symm⟩, hhanded⟩
  · rintro ⟨⟨hoff, hsame⟩, hhanded⟩
    exact (hhanded.trans hsame).trans hoff

/-- The datagrams of `ftpc` for a file of one byte. -/
def onePayloads : List Payload :=
  [⟨[1, 0, 0, 0], by decide, by decide⟩, ⟨102 :: List.replicate 24 0, by decide, by decide⟩,
    ⟨[7], by decide, by decide⟩]

/-- Their packets. -/
def onePackets : List Datagram :=
  [outgoing blankHead default 1 onePayloads[0], outgoing blankHead default 5 onePayloads[1],
    outgoing blankHead default 30 onePayloads[2]]

lemma exec_onePayloads : ∃ l, Path.machine.exec (.start blankWindow)
    (onePayloads.map (.send blankHead default)) = .ok (l, onePackets.map .sent) ∧
      l.packets = onePackets := ⟨_, rfl, rfl⟩

/-- Packets in flight reach the server in any order. -/
lemma exec_packets (ms : List Datagram) {l : Path} (h : ∀ m ∈ ms, m ∈ l.packets) :
    ∃ l', Path.machine.exec l (ms.map fun m => .packet m blankHead 0)
      = .ok (l', ms.map fun m => .handed m.body) := by
  induction ms generalizing l with
  | nil => exact ⟨l, rfl⟩
  | cons m ms ih =>
    obtain ⟨l', hl'⟩ := ih (l := { l with acks := l.acks ++ [m.ack blankHead 0] })
      fun m' hm' => h m' (List.mem_cons_of_mem _ hm')
    exact ⟨l', Path.machine.exec_cons_ok.mpr
      ⟨_, _, _, Path.step_packet (h m List.mem_cons_self) _ _, hl', rfl⟩⟩

/-- The file is saved when all of them arrive in their order. -/
theorem saved_iff_handed_oneJob : ∃ t,
    (Lab3.Ftps.machine .proj1 ⟨fun _ => true, 2⟩).exec .start
      (onePayloads.map fun buffer => ⟨buffer.bytes, .zero 4⟩)
      = .ok (t, [Lab3.oneJob.saved]) := by
  obtain ⟨l, hsends, hpackets⟩ := exec_onePayloads
  obtain ⟨l', hhanded⟩ := exec_packets onePackets (l := l) fun m hm => hpackets ▸ hm
  have hrun := Path.machine.exec_append.mpr ⟨l, _, _, hsends, hhanded, rfl⟩
  have hbody : onePackets.map (·.body) = onePayloads.map (·.bytes) := by
    simp [onePackets, onePayloads]
  have hoffered : offered (onePayloads.map (.send blankHead default)
      ++ onePackets.map fun m => .packet m blankHead 0) = onePayloads.map (·.bytes) := rfl
  have hsent : Job.sendAll .proj1 [Lab3.oneJob] = some (onePayloads.map (·.bytes)) :=
    Lab3.sendAll_oneJob .proj1
  have hsame : (sentOf (onePackets.map .sent ++ onePackets.map fun m => .handed m.body)).map
      (·.body) = onePayloads.map (·.bytes) := hbody
  have hreceived : handedOf (onePackets.map .sent ++ onePackets.map fun m => .handed m.body)
      = onePayloads.map (·.bytes) := hbody
  refine (saved_iff_handed blankWindow _ l' _ hrun ⟨fun _ => true, 2⟩ [Lab3.oneJob]
    _ hsent (hoffered ▸ List.prefix_rfl) (by rw [hreceived, hsame]) _ ?_).mpr ⟨hoffered, ?_, ?_, ?_⟩
  · rw [hreceived, List.map_map]
    rfl
  · exact (carries_of_run hrun).all_iff.mp (hsame.trans hoffered.symm)
  · rw [hreceived, hsame]
  · rw [Lab3.roomForAll_cons]
    exact ⟨by decide, fun i job hi => by simp at hi⟩

end NetworkProgramming.Proj1
