import NetworkProgramming.Final.Queue

/-!
# Where the reassembly loop ends

The loop of `handle_recv_back` takes packages or splits the one at the head, so neither
`RecvBufferSize` nor `Base` grows in every round; what shrinks is the length of the queue and of
its head together (`fillMeasure`). `reassembled_of_room` says where the loop ends: with the
request full or the next package missing, and with exactly the packages between the old `Base`
and the new one taken.
-/

namespace NetworkProgramming
namespace AckedSock

/-- The loop has come from `a` to its end in `b` and has taken `taken` on the way. -/
structure Reassembled (a : AckedSock) (taken : List TrollMessageStruct) (b : AckedSock) :
    Prop where
  visits : fillLoop.Visits a b
  leaves : b.fillBody = .leave
  size : ∀ u, fillLoop.Visits a u → u.recvBufferSize ≤ a.receivingLength
  stop : b.recvBufferSize = a.receivingLength ∨ ∀ m ∈ b.packages, m.seqNum ≠ b.base
  packages : a.packages = taken ++ b.packages
  numbers : taken.map (·.seqNum.toNat) = List.range' a.base.toNat taken.length
  rest : ∀ m ∈ b.packages, a.base.toNat + taken.length ≤ m.seqNum.toNat
  base : b.base = a.base + UInt32.ofNat taken.length

/-- A round does not put more into the buffer than is asked for. -/
lemma fillBody_size {a a' : AckedSock} (h : a.fillBody = .again a') :
    a'.receivingLength = a.receivingLength ∧ a'.recvBufferSize ≤ a'.receivingLength := by
  obtain ⟨hroom, now, l, -, -, hround⟩ := fillBody_again h
  rcases hround with ⟨hfit, hround⟩ | ⟨hfit, hround⟩
  · obtain ⟨-, -, -, ha'⟩ := consume_eq hround
    rw [ha']
    exact ⟨rfl, hfit⟩
  · obtain ⟨-, -, now', -, -, -, ha'⟩ := split_eq hroom hfit hround
    rw [ha']
    exact ⟨rfl, UInt64.le_of_lt hroom⟩

/-- The buffer never holds more than is asked for. -/
lemma size_of_visits {a u : AckedSock} (hroom : a.recvBufferSize < a.receivingLength)
    (h : fillLoop.Visits a u) :
    u.receivingLength = a.receivingLength ∧ u.recvBufferSize ≤ a.receivingLength := by
  induction h with
  | start => exact ⟨rfl, UInt64.le_of_lt hroom⟩
  | round _ hagain ih =>
    obtain ⟨hlength, hsize⟩ := fillBody_size hagain
    rw [hlength, ih.1] at hsize
    exact ⟨hlength.trans ih.1, hsize⟩

/-- When the head of the queue does not have the next number, no package has it. -/
lemma Fills.next_missing {a b : AckedSock} {taken : List TrollMessageStruct}
    (hb : Fills a taken b) (hsorted : SortedBySeq a.packages)
    (hahead : ∀ m ∈ a.packages, a.base ≤ m.seqNum)
    (hhead : ∀ m ∈ b.packages.head?, m.seqNum ≠ b.base) :
    ∀ m ∈ b.packages, m.seqNum ≠ b.base := by
  have hrest : ∀ m ∈ b.packages, a.base.toNat + taken.length ≤ m.seqNum.toNat := fun m hm =>
    hb.consecutive.le_rest (hb.packages ▸ hsorted) (hb.packages ▸ hahead) hm
  have hleft : SortedBySeq b.packages := (List.pairwise_append.mp (hb.packages ▸ hsorted)).2.1
  cases hl : b.packages with
  | nil => simp
  | cons first l =>
    rw [hl] at hrest hleft hhead
    have hfirst := hrest first (by simp)
    have hfirst32 := first.seqNum.toNat_lt
    -- the queue is not empty, so `Base` has not wrapped around
    have hbase : b.base.toNat = a.base.toNat + taken.length := by
      rw [hb.base, toNat_add_ofNat (by omega)]
    intro m hm heq
    rcases List.mem_cons.mp hm with rfl | hm
    · exact hhead m (by simp) heq
    · have hlt := UInt32.lt_iff_toNat_lt.mp ((List.pairwise_cons.mp hleft).1 m hm)
      rw [heq] at hlt
      omega

/-- **The reassembly loop ends, and only where it can go no further.** -/
theorem reassembled_of_room {a : AckedSock} (hlength : a.receivingLength.toNat ≤ BUF_LEN)
    (hroom : a.recvBufferSize < a.receivingLength) (hsorted : SortedBySeq a.packages)
    (hahead : ∀ m ∈ a.packages, a.base ≤ m.seqNum)
    (hbody : ∀ m ∈ a.packages, m.len.toNat ≤ BUF_LEN) :
    ∃ taken b, fillLoop.run a = .ok b ∧ Reassembled a taken b := by
  obtain ⟨b, hrun⟩ := fillLoop_total hlength hbody
  have hroom' := UInt64.lt_iff_toNat_lt.mp hroom
  obtain ⟨taken, hb⟩ := fills_of_run (hroom'.le.trans hlength) hrun
  obtain ⟨hvisits, hleaves⟩ := fillLoop.visits_of_run hrun
  refine ⟨taken, b, hrun, hvisits, hleaves, fun u hu => (size_of_visits hroom hu).2, ?_,
    hb.packages, ?_, fun m hm => ?_, hb.base⟩
  · rcases hb.stop with hfull | hhead
    · left
      rw [hb.length] at hfull
      exact UInt64.le_antisymm (size_of_visits hroom hvisits).2 hfull
    · exact Or.inr (hb.next_missing hsorted hahead hhead)
  · exact hb.consecutive.map_toNat (List.pairwise_append.mp (hb.packages ▸ hsorted)).1
  · exact hb.consecutive.le_rest (hb.packages ▸ hsorted) (hb.packages ▸ hahead) hm

/-- 3 bytes are asked for, and packages 4 and 5 wait with 2 bytes each. -/
def askedForThree : AckedSock :=
  { create 3 7 with
    base := 4
    receivingLength := 3
    packages := [4, 5].map fun seqNum => ⟨default, 0, 7, seqNum, 0, 2, Buffer.zero BUF_LEN⟩ }

theorem reassembled_of_room_askedForThree :
    ∃ taken b, fillLoop.run askedForThree = .ok b ∧ Reassembled askedForThree taken b := by
  refine reassembled_of_room (by decide) (by decide) (by decide) (by decide) ?_
  intro m hm
  obtain ⟨seqNum, -, rfl⟩ := List.mem_map.mp hm
  show 2 ≤ BUF_LEN
  decide

end AckedSock
end NetworkProgramming
