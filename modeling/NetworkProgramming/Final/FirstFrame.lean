import NetworkProgramming.Final.Receiver
import NetworkProgramming.Final.Schedule

/-!
# The receive queue under arbitrary frames

Frames of a session may arrive in any order, any number of times and with different bodies under
one number. As long as `Base` has not wrapped around, the queue of the session holds the numbers
from `Base` on that have arrived, each with the first frame that carried it (`QueueExact`), and
`Base` counts the packages that are consumed.
-/

namespace NetworkProgramming

/-- The intact frames of session `s`, in the order in which they arrive. -/
def arrivedOn (s : UInt32) (es : List Event) : List TrollMessageStruct :=
  es.filterMap fun e =>
    match e with
    | .data _ m _ => if m.Valid ∧ m.session = s then some m else none
    | _ => none

lemma arrivedOn_snoc (s : UInt32) (es : List Event) (e : Event) :
    arrivedOn s (es ++ [e]) = arrivedOn s es ++ arrivedOn s [e] := List.filterMap_append

lemma arrivedOn_arrive {s : UInt32} {fd : Int32} {m : TrollMessageStruct} {remote : SockaddrIn}
    (hvalid : m.Valid) (hs : m.session = s) : arrivedOn s [.data fd m remote] = [m] := by
  simp [arrivedOn, hvalid, hs]

lemma arrivedOn_other {s : UInt32} {e : Event}
    (h : ∀ fd m remote, e = .data fd m remote → m.Valid → m.session ≠ s) :
    arrivedOn s [e] = [] := by
  cases e with
  | data fd m remote =>
    have hnot : ¬ (m.Valid ∧ m.session = s) := fun hm => h fd m remote rfl hm.1 hm.2
    simp [arrivedOn, hnot]
  | _ => rfl

namespace AckedSock

/-- The queue is what has arrived from `Base` on, and `Base` what has been consumed. -/
structure QueueExact (frames consumed : List TrollMessageStruct) (a : AckedSock) : Prop where
  sorted : SortedBySeq a.packages
  ahead : ∀ m ∈ a.packages, a.base ≤ m.seqNum
  base : a.base = UInt32.ofNat consumed.length
  numbers : consumed.length < 2 ^ 32 →
    ∀ n, n ∈ a.packages.map (·.seqNum) ↔ a.base ≤ n ∧ n ∈ frames.map (·.seqNum)
  first : consumed.length < 2 ^ 32 →
    ∀ m ∈ a.packages, frames.find? (·.seqNum = m.seqNum) = some m

variable {frames consumed taken : List TrollMessageStruct} {a a' : AckedSock}

lemma QueueExact.queueOk (h : a.QueueExact frames consumed) : a.QueueOk fun _ => True :=
  ⟨h.sorted, h.ahead, fun _ _ => trivial⟩

/-- The numbers in the queue are those from `Base` on that have been received. -/
lemma QueueOk.mem_numbers {P : TrollMessageStruct → Prop} (h : a.QueueOk P) (n : UInt32) :
    n ∈ a.packages.map (·.seqNum) ↔ a.base ≤ n ∧ a.Received n := by
  rw [List.mem_map]
  constructor
  · rintro ⟨m, hm, rfl⟩
    exact ⟨h.ahead m hm, Or.inr ⟨m, hm, rfl⟩⟩
  · rintro ⟨hle, hlt | hm⟩
    · exact absurd hlt (UInt32.not_lt.mpr hle)
    · exact hm

lemma queueExact_create (fd : Int32) (s : UInt32) : (create fd s).QueueExact [] [] where
  sorted := .nil
  ahead := by simp [create]
  base := rfl
  numbers := by simp [create]
  first := by simp [create]

/-- A frame is added when its number is missing from `Base` on, and dropped otherwise. -/
lemma QueueExact.place (h : a.QueueExact frames consumed) (m : TrollMessageStruct) :
    (a.place m).QueueExact (frames ++ [m]) consumed := by
  have hbase : (a.place m).base = a.base := by rw [place_eq]
  have hok : (a.place m).QueueOk fun _ => True := h.queueOk.place trivial
  refine ⟨hok.sorted, hok.ahead, hbase.trans h.base, fun hwrap n => ?_, fun hwrap x hx => ?_⟩
  · have hold := h.numbers hwrap n
    rw [h.queueOk.mem_numbers] at hold
    rw [hok.mem_numbers, hbase, received_place h.queueOk, List.map_append, List.mem_append,
      List.map_singleton, List.mem_singleton, and_or_left, and_or_left, hold]
  · rcases place_cases h.queueOk m with ⟨-, heq⟩ | ⟨hnew, -, hmem⟩
    · rw [heq] at hx
      rw [List.find?_append, h.first hwrap x hx]
      rfl
    · rw [List.find?_append]
      rcases (hmem x).mp hx with rfl | hx
      · -- a frame with this number that came before would have been received
        have hnone : frames.find? (·.seqNum = x.seqNum) = none := by
          refine List.find?_eq_none.mpr fun y hy heq => hnew ?_
          have hseq : y.seqNum = x.seqNum := of_decide_eq_true heq
          by_cases hlt : x.seqNum < a.base
          · exact Or.inl hlt
          · have hge := UInt32.not_lt.mp hlt
            have hqueue := (h.numbers hwrap x.seqNum).mpr ⟨hge, hseq ▸ List.mem_map_of_mem hy⟩
            exact ((h.queueOk.mem_numbers _).mp hqueue).2
        rw [hnone]
        simp
      · rw [h.first hwrap x hx]
        rfl

/-- A pass takes the front of the queue and moves `Base` on by as many. -/
lemma QueueExact.passes {replies : List (List UInt8)} (h : a.QueueExact frames consumed)
    (hp : a.Passes taken a' replies) : a'.QueueExact frames (consumed ++ taken) := by
  have hok := h.queueOk.passes hp
  have hbase : a'.base = UInt32.ofNat (consumed ++ taken).length := by
    rw [hp.base, h.base, List.length_append, UInt32.ofNat_add]
  have hmem : ∀ m ∈ a'.packages, m ∈ a.packages := fun m hm => by
    rw [hp.packages]
    exact List.mem_append_right _ hm
  refine ⟨hok.sorted, hok.ahead, hbase, fun hwrap n => ?_, fun hwrap m hm => ?_⟩
  · rw [List.length_append] at hwrap hbase
    have hnumbers := h.numbers (by omega) n
    have hsorted : SortedBySeq taken := (List.pairwise_append.mp (hp.packages ▸ h.sorted)).1
    have hcount : a.base.toNat = consumed.length := by
      rw [h.base, UInt32.toNat_ofNat', Nat.mod_eq_of_lt (by omega)]
    have hcount' : a'.base.toNat = consumed.length + taken.length := by
      rw [hbase, UInt32.toNat_ofNat', Nat.mod_eq_of_lt (by omega)]
    constructor
    · intro hn
      obtain ⟨m, hm, rfl⟩ := List.mem_map.mp hn
      exact ⟨hok.ahead m hm, (hnumbers.mp (List.mem_map_of_mem (hmem m hm))).2⟩
    · rintro ⟨hle, hframe⟩
      rw [UInt32.le_iff_toNat_le] at hle
      have hqueue := hnumbers.mpr ⟨UInt32.le_iff_toNat_le.mpr (by omega), hframe⟩
      rw [hp.packages, List.map_append] at hqueue
      refine (List.mem_append.mp hqueue).resolve_left fun htaken => ?_
      -- the packages that are taken have smaller numbers
      obtain ⟨m, hm, rfl⟩ := List.mem_map.mp htaken
      obtain ⟨i, hi, rfl⟩ := List.getElem_of_mem hm
      have hnumber := hp.consecutive.toNat hsorted i hi
      omega
  · rw [List.length_append] at hwrap
    exact h.first (by omega) m (hmem m hm)

/-- A round of the reassembly loop consumes the head package whole and moves `Base` on by one, or
leaves an unconsumed suffix of it and `Base` where it is. -/
def Shrinks (u v : AckedSock) : Prop :=
  ∃ now l, u.packages = now :: l ∧
    ((v.packages = l ∧ v.base = u.base + 1) ∨
      (∃ rest, v.packages = rest :: l ∧ rest.seqNum = now.seqNum ∧ rest.data <:+ now.data) ∧
        v.base = u.base)

lemma shrinks_of_round {u v : AckedSock} (h : u.fillBody = .again v) : u.Shrinks v := by
  obtain ⟨hroom, now, l, hl, -, hround⟩ := fillBody_again h
  refine ⟨now, l, hl, ?_⟩
  rcases hround with ⟨-, hround⟩ | ⟨hfit, hround⟩
  · obtain ⟨-, -, -, hv⟩ := consume_eq hround
    rw [hv]
    exact Or.inl ⟨rfl, rfl⟩
  · obtain ⟨-, -, rest, hseq, -, hdata, hv⟩ := split_eq hroom hfit hround
    rw [hv]
    exact Or.inr ⟨⟨rest, rfl, hseq, hdata ▸ List.drop_suffix _ _⟩, rfl⟩

end AckedSock

/-! ## Along a run -/

/-- What a step does to the queue of a session that has an entry. -/
structure QueueStep (s : UInt32) (t : Tcpd) (e : Event) (t' : Tcpd) (a a' : AckedSock) :
    Prop where
  sess : t'.sess s = some a'
  base : a'.base = a.base + UInt32.ofNat (Tcpd.takes s t e t').length
  pass : e = .recvBack → a.packages = Tcpd.takes s t e t' ++ a'.packages

/-- `Base` moves on by the packages a pass takes from the front of the queue, and stays where it
is otherwise. -/
lemma queueStep_of_step {s : UInt32} {t t' : Tcpd} {e : Event} {os : List Out} {a : AckedSock}
    (hok : t.SessionsOk) (h : t.step e = .ok (t', os)) (ha : t.sess s = some a) :
    ∃ a', QueueStep s t e t' a a' := by
  have hsess := sess_step hok h s
  generalize hx : t.sess s = x at hsess
  generalize hx' : t'.sess s = x' at hsess
  generalize repliesTo s os = r at hsess
  obtain rfl : x = some a := by rw [← hx, ha]
  cases hsess with
  | arrive hvalid hs =>
    refine ⟨_, hx', ?_, by simp⟩
    rw [takes_of_ne (by simp), AckedSock.place_eq]
    simp
  | request hacc hs hlen hidle =>
    refine ⟨_, hx', ?_, by simp⟩
    rw [takes_of_ne (by simp)]
    simp
  | pass hacc hp =>
    have htakes := takes_of_passes ha hx' hp
    exact ⟨_, hx', by rw [htakes, hp.base], fun _ => by rw [htakes, hp.packages]⟩
  | other hdata hrecv hpass =>
    have htakes := takes_of_eq (s := s) (e := e) (show t'.sess s = t.sess s by rw [hx', ha])
    exact ⟨a, hx', by rw [htakes]; simp, fun _ => by rw [htakes]; rfl⟩

/-- What a session without an entry, or its queue, has to do with the frames and the packages
consumed so far. -/
structure ArrivedOk (frames consumed : List TrollMessageStruct) (x : Option AckedSock) : Prop where
  absent : x = none → frames = [] ∧ consumed = []
  present : ∀ a, x = some a → a.QueueExact frames consumed

/-- One step keeps the account of frames and packages. -/
lemma ArrivedOk.step {s : UInt32} {t t' : Tcpd} {e : Event} {os : List Out}
    {frames consumed : List TrollMessageStruct} (hok : t.SessionsOk)
    (h : t.step e = .ok (t', os)) (hx : ArrivedOk frames consumed (t.sess s)) :
    ArrivedOk (frames ++ arrivedOn s [e]) (consumed ++ Tcpd.takes s t e t') (t'.sess s) := by
  have hsess := sess_step hok h s
  generalize hsx : t.sess s = x at hsess hx
  generalize hsx' : t'.sess s = x' at hsess
  generalize repliesTo s os = r at hsess
  cases hsess with
  | @arrive _ fd m remote hvalid hs =>
    rw [arrivedOn_arrive hvalid hs, takes_of_ne (by simp), List.append_nil]
    refine ⟨by simp, fun a ha => ?_⟩
    cases ha
    cases x with
    | none =>
      obtain ⟨rfl, rfl⟩ := hx.absent rfl
      exact (AckedSock.queueExact_create fd s).place m
    | some a => exact (hx.present a rfl).place m
  | request hacc hs hlen hidle =>
    rw [arrivedOn_other (by simp), takes_of_ne (by simp), List.append_nil, List.append_nil]
    refine ⟨by simp, fun a' ha' => ?_⟩
    cases ha'
    have hq := hx.present _ rfl
    exact ⟨hq.sorted, hq.ahead, hq.base, hq.numbers, hq.first⟩
  | pass hacc hp =>
    rw [arrivedOn_other (by simp), takes_of_passes hsx hsx' hp, List.append_nil]
    refine ⟨by simp, fun a' ha' => ?_⟩
    cases ha'
    exact (hx.present _ rfl).passes hp
  | other hdata hrecv hpass =>
    rw [arrivedOn_other hdata, takes_of_eq (hsx'.trans hsx.symm), List.append_nil, List.append_nil]
    exact hx

/-- What is known of session `s` after the events `es`. -/
structure FirstFrames (s : UInt32) (es : List Event) (t : Tcpd) : Prop where
  arrived : ArrivedOk (arrivedOn s es) (consumedOn s es) (t.sess s)
  step : ∀ a, t.sess s = some a → ∀ e t' os, t.step e = .ok (t', os) → ∃ a', QueueStep s t e t' a a'
  round : ∀ u v : AckedSock, u.fillBody = .again v → u.Shrinks v

/-- **The queue of every session holds what has arrived of it from `Base` on.** -/
theorem firstFrames_of_run (s : UInt32) {es : List Event} {t : Tcpd} {os : List Out}
    (h : Tcpd.Run es t os) : FirstFrames s es t := by
  have hok := sessionsOk_of_run h
  refine ⟨?_, fun a ha e t' os' hstep => queueStep_of_step hok hstep ha,
    fun _ _ => AckedSock.shrinks_of_round⟩
  refine Tcpd.machine.exec_induction
    (motive := fun es t _ => ArrivedOk (arrivedOn s es) (consumedOn s es) (t.sess s)) ?_ ?_ h
  · exact ⟨fun _ => ⟨rfl, rfl⟩, by simp [Tcpd.globalInit, Tcpd.sess, entry]⟩
  · intro es u o e t o' hrun ih hstep
    rw [arrivedOn_snoc, consumedOn, Tcpd.machine.collect_snoc _ hrun hstep, ← consumedOn]
    exact ih.step (sessionsOk_of_run hrun) hstep

/-! ## A run -/

/-- The frames of packages 2 and 0 of session 7, and once more of package 0. -/
def twoZeroZero : List TrollMessageStruct :=
  [.ofBytes 7 2 [7], .ofBytes 7 0 [1, 2, 3], .ofBytes 7 0 [1, 2, 3]]

/-- Package 0 again, and package 1. -/
def zeroOne : List TrollMessageStruct := [.ofBytes 7 0 [1, 2, 3], .ofBytes 7 1 [4, 5]]

/-- A socket is bound. -/
def bindThree : List Event := [.front default (.BIND 3 default) calmSys]

/-- The session is handed out, and three bytes of it are read. -/
def readThree : List Event :=
  [.front default (.ACCEPT 3) calmSys, .ackBack, askFor 3, .recvBack]

/-- The frames arrive before and after the first package is consumed. -/
def outOfOrder : List Event :=
  bindThree ++ twoZeroZero.map (fun m => .data 3 m default) ++ readThree
    ++ zeroOne.map fun m => .data 3 m default

/-- Where the first package has been consumed. -/
def threeRead : Tcpd :=
  Tcpd.machine.play (twoZeroZero.foldl (·.arrived 3) (Tcpd.machine.play Tcpd.globalInit bindThree))
    readThree

/-- Of five frames one is consumed, two are dropped and two wait in their order. -/
theorem firstFrames_of_run_outOfOrder : ∃ t os a, Tcpd.Run outOfOrder t os ∧
    t.sess 7 = some a ∧ a.base = 1 ∧ a.packages.map (·.seqNum) = [1, 2] ∧
    FirstFrames 7 outOfOrder t := by
  obtain ⟨_, hbind⟩ := Tcpd.machine.exec_play Tcpd.globalInit bindThree (by decide +kernel)
  have hvalid : ∀ ms, ms = twoZeroZero ∨ ms = zeroOne → ∀ m ∈ ms, m.Valid := by
    rintro ms (rfl | rfl) <;>
      simp [twoZeroZero, zeroOne, TrollMessageStruct.ofBytes, TrollMessageStruct.valid_sealed]
  obtain ⟨_, hfirst⟩ := exec_frames (Tcpd.machine.play Tcpd.globalInit bindThree) 3 twoZeroZero
    rfl (hvalid _ (Or.inl rfl))
  obtain ⟨_, hread⟩ := Tcpd.machine.exec_play
    (twoZeroZero.foldl (·.arrived 3) (Tcpd.machine.play Tcpd.globalInit bindThree)) readThree
    (by decide +kernel)
  obtain ⟨_, hsecond⟩ := exec_frames threeRead 3 zeroOne (by decide +kernel)
    (hvalid _ (Or.inr rfl))
  have hrun : Tcpd.Run outOfOrder (zeroOne.foldl (·.arrived 3) threeRead) _ :=
    Tcpd.machine.exec_append.mpr ⟨_, _, _, Tcpd.machine.exec_append.mpr ⟨_, _, _,
      Tcpd.machine.exec_append.mpr ⟨_, _, _, hbind, hfirst, rfl⟩, hread, rfl⟩, hsecond, rfl⟩
  have hshows : ((zeroOne.foldl (·.arrived 3) threeRead).sess 7).map
      (fun a => (a.base, a.packages.map (·.seqNum))) = some (1, [1, 2]) := by decide +kernel
  obtain ⟨a, ha, hboth⟩ := Option.map_eq_some_iff.mp hshows
  obtain ⟨hbase, hqueue⟩ := Prod.mk.inj hboth
  exact ⟨_, _, a, hrun, ha, hbase, hqueue, firstFrames_of_run 7 hrun⟩

end NetworkProgramming
