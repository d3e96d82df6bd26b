import NetworkProgramming.Final.SendBack
import NetworkProgramming.Final.Tcpd

/-!
# The samples of the round-trip estimator

`SendTime`, `AckTime` and `ElapsedSeconds` are globals: `recv_ack` writes the last two for every
ack, `handle_send_all_back` reads them for every package it transmits. `notesOf` writes down the
transmissions and acks of a run in their order, and the estimator is a function of these notes
alone (`estimator_of_run`).
-/

namespace NetworkProgramming

/-- A package, by the socket of its connection, its session and its number. -/
structure PackageKey where
  socketFD : Int32
  session : UInt32
  seqNum : UInt32
deriving DecidableEq

/-- What concerns the estimator. -/
inductive RttNote
  /-- a package is transmitted, and `sample` is folded into the estimates -/
  | sent (p : PackageKey) (time : Timeval) (sample : ℚ)
  /-- an ack is received -/
  | acked (p : PackageKey) (valid : Bool) (time : Timeval)

namespace Estimator

/-- The sample `handle_send_all_back` folds into the estimates. -/
def sample (e : Estimator) : ℚ := if e.elapsedSeconds ≤ 0 then 1 / 100 else e.elapsedSeconds

lemma sample_pos (e : Estimator) : 0 < e.sample := by
  unfold sample
  split
  · norm_num
  · exact not_le.mp ‹_›

/-- What a note does to the estimator. -/
def note (e : Estimator) : RttNote → Estimator
  | .sent _ time _ => e.sent time
  | .acked _ _ time => e.acked time

/-- Every sample that is noted is the one the estimator has used. -/
def Sampled (e : Estimator) : List RttNote → Prop
  | [] => True
  | .sent _ time x :: l => x = e.sample ∧ Sampled (e.sent time) l
  | .acked _ _ time :: l => Sampled (e.acked time) l

lemma sampled_append (e : Estimator) (l l' : List RttNote) :
    e.Sampled (l ++ l') ↔ e.Sampled l ∧ (l.foldl note e).Sampled l' := by
  induction l generalizing e with
  | nil => simp [Sampled]
  | cons n l ih =>
    cases n with
    | sent p time x => simp [Sampled, ih, note, and_assoc]
    | acked p valid time => simp [Sampled, ih, note]

end Estimator

/-! ## The notes of a run -/

/-- The frames among the datagrams, with the sockets they go through. -/
def transmissionsOf (os : List Out) : List (Int32 × TrollMessageStruct) :=
  os.filterMap fun o =>
    match o with
    | .frame fd m => some (fd, m)
    | _ => none

lemma transmissionsOf_append (os os' : List Out) :
    transmissionsOf (os ++ os') = transmissionsOf os ++ transmissionsOf os' :=
  List.filterMap_append

/-- The notes of the frames a pass transmits, from the estimator and the number of the next one
on. -/
def sendNotes (clock : ℕ → Timeval) :
    Estimator × ℕ → List (Int32 × TrollMessageStruct) → List RttNote
  | _, [] => []
  | s, (fd, m) :: l =>
    .sent ⟨fd, m.session, m.seqNum⟩ (clock s.2) s.1.sample ::
      sendNotes clock (s.1.sent (clock s.2), s.2 + 1) l

/-- The estimator and the number of the next frame, after the frames `l`. -/
def afterFrames (clock : ℕ → Timeval) (s : Estimator × ℕ) (l : List (Int32 × TrollMessageStruct)) :
    Estimator × ℕ :=
  l.foldl (fun s _ => (s.1.sent (clock s.2), s.2 + 1)) s

/-- The notes of one event. -/
def Tcpd.notes (t : Tcpd) (e : Event) (_ : Tcpd) : List RttNote :=
  match e with
  | .ack fd a now => [.acked ⟨fd, a.session, a.seqNum⟩ (decide a.Valid) now]
  | .sendBack clock =>
    match handleSendAllBack t clock with
    | .ok (_, os) => sendNotes clock (t.estimator, 0) (transmissionsOf os)
    | .error _ => []
  | _ => []

/-- The notes of a run. -/
def notesOf (es : List Event) : List RttNote :=
  Tcpd.machine.collect Tcpd.notes Tcpd.globalInit es

/-- The samples that are folded in. -/
def samplesOf (notes : List RttNote) : List ℚ :=
  notes.filterMap fun n =>
    match n with
    | .sent _ _ x => some x
    | .acked _ _ _ => none

/-! ## The estimator is a function of the notes -/

lemma foldl_sendNotes (clock : ℕ → Timeval) (s : Estimator × ℕ)
    (l : List (Int32 × TrollMessageStruct)) :
    (sendNotes clock s l).foldl Estimator.note s.1 = (afterFrames clock s l).1 ∧
      s.1.Sampled (sendNotes clock s l) := by
  induction l generalizing s with
  | nil => exact ⟨rfl, trivial⟩
  | cons x l ih =>
    obtain ⟨hfold, hsampled⟩ := ih (s.1.sent (clock s.2), s.2 + 1)
    exact ⟨hfold, rfl, hsampled⟩

/-- The loop over the pending packages updates the estimator once for each frame. -/
lemma sendPending_estimator (clock : ℕ → Timeval) (fd : Int32) (minSeq : UInt32)
    (s : Estimator × ℕ) (l : List TrollMessageStruct) :
    (ConnectedSock.sendPending clock fd minSeq s l).1
      = afterFrames clock s
          (transmissionsOf (ConnectedSock.sendPending clock fd minSeq s l).2.2.2) := by
  induction l generalizing s with
  | nil => rfl
  | cons m l ih =>
    rw [ConnectedSock.sendPending]
    split
    · exact ih (s.1.sent (clock s.2), s.2 + 1)
    · exact ih s

/-- So does a whole pass. -/
lemma pass_estimator {clock : ℕ → Timeval} {s s' : Estimator × ℕ}
    {table table' : HashTable Int32 ConnectedSock} {os : List Out}
    (h : table.pass (ConnectedSock.sendVisit clock) s = .ok (s', table', os)) :
    s' = afterFrames clock s (transmissionsOf os) := by
  refine HashTable.pass_fold (g := fun s os => afterFrames clock s (transmissionsOf os))
    (fun _ => rfl) (fun s o o' => ?_) (fun s fd c s' c' o hvisit => ?_) h
  · rw [transmissionsOf_append, afterFrames, List.foldl_append]
    rfl
  · cases hvisit
    exact sendPending_estimator clock c.socketFD _ s c.pendingPackages

/-- What a step does to the estimator is in its notes. -/
lemma estimator_step {t t' : Tcpd} {e : Event} {os : List Out} (h : t.step e = .ok (t', os)) :
    t'.estimator = (t.notes e t').foldl Estimator.note t.estimator ∧
      t.estimator.Sampled (t.notes e t') := by
  cases tcpd_step h with
  | sendBack hpass =>
    rename_i clock s table
    have hnotes : t.notes (.sendBack clock) { t with connectedSockets := table, estimator := s.1 }
        = sendNotes clock (t.estimator, 0) (transmissionsOf os) := by
      simp only [Tcpd.step] at h
      simp only [Tcpd.notes, h]
    obtain ⟨hfold, hsampled⟩ := foldl_sendNotes clock (t.estimator, 0) (transmissionsOf os)
    rw [hnotes]
    exact ⟨by rw [hfold, ← pass_estimator hpass], hsampled⟩
  | ackBack =>
    refine ⟨?_, trivial⟩
    unfold handleAckBack
    split <;> rfl
  | _ => exact ⟨rfl, trivial⟩

/-- One more event adds its notes. -/
lemma notesOf_snoc {es : List Event} {e : Event} {t t' : Tcpd} {os os' : List Out}
    (h : Tcpd.Run es t os) (hstep : t.step e = .ok (t', os')) :
    notesOf (es ++ [e]) = notesOf es ++ t.notes e t' :=
  Tcpd.machine.collect_snoc Tcpd.notes h hstep

/-- **The estimator is a function of the notes.** -/
theorem estimator_of_run {es : List Event} {t : Tcpd} {os : List Out} (h : Tcpd.Run es t os) :
    t.estimator = (notesOf es).foldl Estimator.note {} ∧
      Estimator.Sampled {} (notesOf es) := by
  refine Tcpd.machine.exec_induction (motive := fun es t _ =>
    t.estimator = (notesOf es).foldl Estimator.note {} ∧ Estimator.Sampled {} (notesOf es))
    ⟨rfl, trivial⟩ ?_ h
  intro es u o e t o' hrun ih hstep
  obtain ⟨hfold, hsampled⟩ := estimator_step hstep
  rw [notesOf_snoc hrun hstep, List.foldl_append, Estimator.sampled_append, ← ih.1]
  exact ⟨hfold, ih.2, hsampled⟩

end NetworkProgramming
