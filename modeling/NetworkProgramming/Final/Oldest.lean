import NetworkProgramming.Final.Sender

/-!
# The oldest unacknowledged package

A send pass lets a pending package into the window when its number is less than
`MAX_BUFFER_PACKAGES` above `MinSeq`, and `MinSeq` starts at 100000000 whatever the window
holds. Below `seqLimit` the oldest package always passes this test. From `seqLimit` on no pending
package does, so a connection that has come so far and has nothing in flight stands still
(`oldest_inFlight_iff`).
-/

namespace NetworkProgramming

/-- The pass puts package `m` of the connection on `fd` in flight: it is in the window, and if
it was not there before, it is sent and its timer requested. -/
def PutInFlight (fd : Int32) (c : ConnectedSock) (m : TrollMessageStruct) (t' : Tcpd)
    (os : List Out) : Prop :=
  ∃ c', t'.conn fd = some c' ∧ m ∈ c'.packages ∧
    (m ∉ c.packages → .frame c.socketFD m ∈ os ∧
      ∃ rto, .timer (sendTimerRequest m.session m.seqNum rto) ∈ os)

/-- A number below `seqLimit` and not above the numbers in the window passes the test. -/
lemma admits_of_le {l : List TrollMessageStruct} {m : TrollMessageStruct}
    (hlow : m.seqNum.toNat < seqLimit) (hold : ∀ x ∈ l, m.seqNum ≤ x.seqNum) :
    ConnectedSock.admits (ConnectedSock.minSeqOf l) m := by
  have htop := UInt32.le_iff_toNat_le.mp (ConnectedSock.le_minSeqOf l).1
  have hlt : m.seqNum.toNat < (ConnectedSock.minSeqOf l).toNat + MAX_BUFFER_PACKAGES := by
    rcases (ConnectedSock.le_minSeqOf l).2.2 with hstart | ⟨x, hx, hmin⟩
    · rw [hstart]
      exact hlow
    · have hle := UInt32.le_iff_toNat_le.mp (hold x hx)
      rw [hmin] at hle
      unfold MAX_BUFFER_PACKAGES
      omega
  have hadd : m.seqNum < ConnectedSock.minSeqOf l + UInt32.ofNat MAX_BUFFER_PACKAGES := by
    rw [UInt32.lt_iff_toNat_lt, UInt32.toNat_add, UInt32.toNat_ofNat']
    simp only [MAX_BUFFER_PACKAGES, UInt32.reduceToNat] at *
    omega
  simpa [ConnectedSock.admits] using hadd

/-- What a pass leaves of a connection, and what it sends of it. -/
lemma exists_pass {t t' : Tcpd} {clock : ℕ → Timeval} {os : List Out}
    (h : t.step (.sendBack clock) = .ok (t', os)) {fd : Int32} {c : ConnectedSock}
    (hc : t.conn fd = some c) :
    t'.conn fd = some c.afterPass ∧ ∀ m ∈ c.sendable, .frame c.socketFD m ∈ os ∧
      ∃ rto, .timer (sendTimerRequest m.session m.seqNum rto) ∈ os := by
  obtain ⟨s, hpass, -⟩ := handleSendAllBack_ok h
  refine ⟨?_, fun m hm => sent_of_pass hpass hc hm⟩
  rw [conn_of_pass hpass, hc]
  rfl

/-- **When the oldest package is in flight.** After a send pass the package with the smallest
number a connection holds is in the window, sent and with its timer requested, if and only if it
has been in the window before or its number is below `seqLimit`. And a connection with nothing
in the window has something there after the pass if and only if it holds a package with a number
below `seqLimit`. -/
theorem oldest_inFlight_iff (t t' : Tcpd) (clock : ℕ → Timeval) (os : List Out)
    (h : t.step (.sendBack clock) = .ok (t', os)) (fd : Int32) (c : ConnectedSock)
    (hc : t.conn fd = some c) :
    (∀ m ∈ c.held, (∀ x ∈ c.held, m.seqNum ≤ x.seqNum) →
      (PutInFlight fd c m t' os ↔ m ∈ c.packages ∨ m.seqNum.toNat < seqLimit)) ∧
    (c.packages = [] →
      ((∃ c', t'.conn fd = some c' ∧ c'.packages ≠ []) ↔
        ∃ m ∈ c.pendingPackages, m.seqNum.toNat < seqLimit)) := by
  obtain ⟨hc', hsent⟩ := exists_pass h hc
  constructor
  · intro m hm hold
    constructor
    · rintro ⟨c', hconn, hflight, _⟩
      rw [hc'] at hconn
      obtain rfl := Option.some.inj hconn
      rcases List.mem_append.mp hflight with hbefore | hnow
      · exact Or.inl hbefore
      · exact Or.inr (ConnOk.lt_of_admits (List.mem_filter.mp hnow).2).2
    · intro hlow
      by_cases hbefore : m ∈ c.packages
      · exact ⟨_, hc', List.mem_append_left _ hbefore, fun hnew => absurd hbefore hnew⟩
      · -- pending, and no number in the window is smaller: the window admits it
        have hpending : m ∈ c.pendingPackages := (List.mem_append.mp hm).resolve_left hbefore
        have hadmit := admits_of_le (hlow.resolve_left hbefore) fun x hx =>
          hold x (List.mem_append_left _ hx)
        have hsendable : m ∈ c.sendable := List.mem_filter.mpr ⟨hpending, hadmit⟩
        exact ⟨_, hc', List.mem_append_right _ hsendable, fun _ => hsent m hsendable⟩
  · intro hempty
    constructor
    · rintro ⟨c', hconn, hsome⟩
      rw [hc'] at hconn
      obtain rfl := Option.some.inj hconn
      obtain ⟨m, hm⟩ := List.exists_mem_of_ne_nil _ hsome
      have hm' : m ∈ c.sendable := by
        have happ : m ∈ c.packages ++ c.sendable := hm
        rwa [hempty, List.nil_append] at happ
      obtain ⟨hpending, hadmit⟩ := List.mem_filter.mp hm'
      exact ⟨m, hpending, (ConnOk.lt_of_admits hadmit).2⟩
    · rintro ⟨m, hpending, hlow⟩
      have hadmit := admits_of_le (l := c.packages) hlow (by simp [hempty])
      refine ⟨_, hc', List.ne_nil_of_mem (a := m) ?_⟩
      exact List.mem_append_right _ (List.mem_filter.mpr ⟨hpending, hadmit⟩)

/-- A connection on socket 4 whose packages up to `n - 1` are acknowledged and whose package `n`
is pending. -/
def waitsFor (n : UInt32) : ConnectedSock :=
  { ConnectedSock.create 4 7 default with
    base := n + 1, pendingPackages := [.ofBytes 7 n []] }

/-- The daemon with that connection. -/
def waitingFor (n : UInt32) : Tcpd :=
  { Tcpd.globalInit with connectedSockets := HashTable.empty.insert 4 (waitsFor n) }

/-- Package 5 is put in flight. -/
theorem oldest_inFlight_iff_five : ∃ t' os,
    (waitingFor 5).step (.sendBack fun _ => ⟨0, 0⟩) = .ok (t', os) ∧
      PutInFlight 4 (waitsFor 5) (.ofBytes 7 5 []) t' os := by
  obtain ⟨t', os, hstep, -⟩ := exists_step_sendBack (waitingFor 5) fun _ => ⟨0, 0⟩
  refine ⟨t', os, hstep, ?_⟩
  have hlook : (waitingFor 5).conn 4 = some (waitsFor 5) := rfl
  have hiff := (oldest_inFlight_iff _ _ _ _ hstep 4 _ hlook).1 (.ofBytes 7 5 [])
    (by simp [waitsFor, ConnectedSock.create, ConnectedSock.held])
    (by simp [waitsFor, ConnectedSock.create, ConnectedSock.held])
  exact hiff.mpr (Or.inr (show (5 : UInt32).toNat < seqLimit by decide))

/-- The oldest package is not always put in flight. -/
theorem not_always_inFlight :
    ¬ ∀ (t t' : Tcpd) (clock : ℕ → Timeval) (os : List Out),
      t.step (.sendBack clock) = .ok (t', os) → ∀ fd c, t.conn fd = some c →
        (c.held.map (·.seqNum)).Nodup → (∀ x ∈ c.held, x.seqNum < c.base) →
        (∀ x ∈ c.held, ∀ y ∈ c.held, x.seqNum.toNat < y.seqNum.toNat + 2 ^ 31) →
          ∀ m ∈ c.held, (∀ x ∈ c.held, m.seqNum ≤ x.seqNum) → PutInFlight fd c m t' os := by
  intro hall
  obtain ⟨t', os, hstep, -⟩ := exists_step_sendBack (waitingFor 100000064) fun _ => ⟨0, 0⟩
  have hlook : (waitingFor 100000064).conn 4 = some (waitsFor 100000064) := rfl
  have hnumber : (TrollMessageStruct.ofBytes 7 100000064 []).seqNum = 100000064 := rfl
  have hheld : (waitsFor 100000064).held = [.ofBytes 7 100000064 []] := rfl
  have hflight := hall _ _ _ _ hstep 4 _ hlook (by simp [hheld])
    (by rw [hheld]; simp only [List.mem_singleton, forall_eq]; rw [hnumber]; decide)
    (by simp [hheld]) (.ofBytes 7 100000064 []) (by simp [hheld])
    (by simp [hheld])
  obtain ⟨c', hconn, hin, -⟩ := hflight
  obtain ⟨hc', -⟩ := exists_pass hstep hlook
  rw [hc'] at hconn
  obtain rfl := Option.some.inj hconn
  have hsendable : TrollMessageStruct.ofBytes 7 100000064 [] ∈ (waitsFor 100000064).sendable :=
    (List.mem_append.mp hin).resolve_left (by simp [waitsFor, ConnectedSock.create])
  have hlow := (ConnOk.lt_of_admits (List.mem_filter.mp hsendable).2).2
  rw [hnumber] at hlow
  exact absurd hlow (by decide)

end NetworkProgramming
