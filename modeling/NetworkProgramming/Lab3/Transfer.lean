import NetworkProgramming.Lab3.Ftps

/-!
# Transfers over a network that loses datagrams

In `lab3` each end has a `tcpd` that hands every datagram on as it is. When what is sent in a series
of transfers comes without a gap, the server saves the files one after the other, until it has no
file descriptor left; it opens two for a file and closes none. When any datagram is lost, it does
not save the same files (`saved_iff_arrived`): a file takes at least as many datagrams as its length
needs, and there are too few of them.
-/

namespace NetworkProgramming.Lab3

open Lab2 (recName fileNameField Crash Received)

/-! ## The daemons of `lab3` -/

/-- The branch of `tcpd` for `sock_local`: `head` goes to the troll with the first 800 bytes of
`buffer_local` in its body. Where `sendto` would read behind `head`, there is no result. -/
def sockLocal (header : Buffer 16) (datagram : List UInt8) : Option (List UInt8) :=
  let bytes := (recv 1000 datagram).length
  let body := (recvInto (Buffer.zero 1000) datagram).toList.take 800
  if bytes ≤ 800 then some ((header.toList ++ body).take (16 + bytes)) else none

/-- The branch for `sock_remote`: what is sent on to `ftps`. The size that is left of a frame
without a whole header is taken for a huge one, and `sendto` fails. -/
def sockRemote (frame : List UInt8) : Option (List UInt8) :=
  let bytes := (recv 1000 frame).length
  let buffer := (recvInto (Buffer.zero 1000) frame).toList
  if 16 ≤ bytes then some ((buffer.drop 16).take (bytes - 16)) else none

lemma recv_of_le {n : ℕ} {datagram : List UInt8} (h : datagram.length ≤ n) :
    recv n datagram = datagram := List.take_of_length_le h

/-- A datagram that fits stands at the start of the buffer. -/
lemma toList_recvInto {n : ℕ} {buf : Buffer n} {datagram : List UInt8} (h : datagram.length ≤ n) :
    (recvInto buf datagram).toList = datagram ++ buf.toList.drop datagram.length := by
  rw [recvInto, Buffer.write, List.Vector.toList_mk, recv_of_le h, List.take_zero, List.nil_append,
    Nat.zero_add]

/-- What goes to the troll is the header with the datagram behind it. -/
lemma sockLocal_eq_some {header : Buffer 16} {datagram frame : List UInt8} :
    sockLocal header datagram = some frame ↔
      datagram.length ≤ 800 ∧ frame = header.toList ++ datagram := by
  have hbytes : (recv 1000 datagram).length ≤ 800 ↔ datagram.length ≤ 800 := by
    rw [recv, List.length_take]
    omega
  unfold sockLocal
  dsimp only
  split
  · rename_i h
    have hshort := hbytes.mp h
    have hframe (rest : List UInt8) :
        (header.toList ++ (datagram ++ rest).take 800).take (16 + datagram.length)
          = header.toList ++ datagram := by
      have hheader := header.toList_length
      rw [List.take_append, List.take_of_length_le (by omega), hheader, Nat.add_sub_cancel_left,
        List.take_take, min_eq_left hshort, List.take_left]
    rw [recv_of_le (by omega), toList_recvInto (by omega), hframe]
    simp [hshort, eq_comm]
  · rename_i h
    simp [mt hbytes.mpr h]

/-- The daemons hand a datagram of `ftpc` on as it is. -/
lemma sockRemote_of_sockLocal {header : Buffer 16} {datagram frame : List UInt8}
    (h : sockLocal header datagram = some frame) : sockRemote frame = some datagram := by
  obtain ⟨hshort, rfl⟩ := sockLocal_eq_some.mp h
  have hlength : (header.toList ++ datagram).length = 16 + datagram.length := by
    rw [List.length_append, header.toList_length]
  unfold sockRemote
  dsimp only
  rw [recv_of_le (by omega), toList_recvInto (by omega), if_pos (by omega), hlength,
    List.append_assoc, List.drop_left' header.toList_length, Nat.add_sub_cancel_left,
    List.take_left]

/-! ## How many datagrams a file takes -/

lemma length_cut_le {n k : ℕ} {as : List Arrival} (h : ∀ a ∈ as, a.datagram.length ≤ k) :
    (cut n as).length ≤ k * as.length := by
  rw [cut, List.length_flatMap]
  have hsum := List.sum_le_card_nsmul (as.map fun a => (recv n a.datagram).length) k fun x hx => by
    obtain ⟨a, ha, rfl⟩ := List.mem_map.mp hx
    rw [recv, List.length_take]
    exact (min_le_right _ _).trans (h a ha)
  rwa [List.length_map, smul_eq_mul, Nat.mul_comm] at hsum

/-- When no datagram is longer than those of `ftpc`, a file takes no fewer of them. -/
lemma Taken.Saves.count {v : Version} {r : Received} {b : Taken} (h : b.Saves v r)
    (hshort : ∀ a ∈ b.all, a.datagram.length ≤ 800) :
    datagramCount (written r.file) ≤ b.all.length := by
  have hnames : b.names ≠ [] := by
    intro hnil
    have hlen := h.named.nameLen
    rw [hnil] at hlen
    exact absurd hlen (by decide)
  have hpos := List.length_pos_iff.mpr hnames
  have hdata : (cut 1000 b.data).length ≤ 800 * b.data.length :=
    length_cut_le fun a ha => hshort a (by simp [Taken.all, ha])
  rw [datagramCount, h.content, Taken.all, List.length_cons, List.length_append]
  omega

lemma count_of_saves {v : Version} {os : List Received} {bs : List Taken}
    (h : List.Forall₂ (fun r b => b.Saves v r) os bs)
    (hshort : ∀ a ∈ bs.flatMap Taken.all, a.datagram.length ≤ 800) :
    (os.map fun r => datagramCount (written r.file)).sum ≤ (bs.flatMap Taken.all).length := by
  induction h with
  | nil => exact Nat.le_refl 0
  | @cons r b os bs hsaves _ ih =>
    rw [List.flatMap_cons] at hshort ⊢
    have hb := hsaves.count fun a ha => hshort a (List.mem_append_left _ ha)
    have hbs := ih fun a ha => hshort a (List.mem_append_right _ ha)
    rw [List.map_cons, List.sum_cons, List.length_append]
    exact Nat.add_le_add hb hbs

/-- When some of what has been sent arrives, in its order, and the server saves all the files, then
all of it has arrived. -/
lemma all_arrived {v : Version} {files : Files} {jobs : List Job} {sent : List (List UInt8)}
    (hsent : Job.sendAll v jobs = some sent) {as : List Arrival}
    (hlost : (as.map Arrival.datagram).Sublist sent) {t : Ftps}
    (h : (Ftps.machine v files).exec .start as = .ok (t, jobs.map Job.saved)) :
    as.map Arrival.datagram = sent := by
  obtain ⟨hcount, hshort⟩ := Job.length_sendAll hsent
  obtain ⟨bs, rest, rfl, hsaves, -⟩ := Ftps.taken_of_run h
  have htaken := count_of_saves hsaves fun a ha =>
    hshort _ (hlost.subset (List.mem_map_of_mem (List.mem_append_left _ ha)))
  refine hlost.eq_of_length_le ?_
  calc sent.length
      = ((jobs.map Job.saved).map fun r => datagramCount (written r.file)).sum := by
        rw [hcount, List.map_map]
        rfl
    _ ≤ (bs.flatMap Taken.all).length := htaken
    _ ≤ ((bs.flatMap Taken.all ++ rest).map Arrival.datagram).length := by
        rw [List.length_map, List.length_append]
        exact Nat.le_add_right _ _

/-! ## A transfer without a gap -/

/-- How many files must be open at a time to save this one: `fwrite` needs the second, and so does
`fclose`. -/
def Version.slots (v : Version) (content : List UInt8) : ℕ :=
  match v with
  | lab3 => if content = [] then 1 else 2
  | proj1 => 2

/-- How many files stay open behind a transfer. -/
def Version.kept (v : Version) : ℕ :=
  match v with
  | lab3 => 2
  | proj1 => 1

/-- The server can save the file, when it has saved others that have left `opened` open. -/
structure Room (v : Version) (files : Files) (opened : ℕ) (job : Job) : Prop where
  name : job.fileName.length ≤ 24
  mayOpen : files.mayOpen (recName job.fileName) = true
  slots : opened + v.slots job.content ≤ files.limit

instance (v : Version) (files : Files) (opened : ℕ) (job : Job) :
    Decidable (Room v files opened job) :=
  decidable_of_iff (job.fileName.length ≤ 24 ∧ files.mayOpen (recName job.fileName) = true ∧
    opened + v.slots job.content ≤ files.limit)
    ⟨fun ⟨h, h', h''⟩ => ⟨h, h', h''⟩, fun h => ⟨h.name, h.mayOpen, h.slots⟩⟩

namespace Ftps

variable {v : Version} {files : Files} {opened : ℕ}

/-- `fopen` works as long as the limit is not reached, whatever has been tried behind it. -/
lemma create_of_mayOpen {name : List UInt8} (h : files.mayOpen (recName name) = true)
    (opened : ℕ) (fileLen : Int32) :
    create files (min opened files.limit) fileLen name = (min (opened + 2) files.limit,
      ⟨fileLen, name, fileLen, opened + 1 < files.limit,
        if opened < files.limit then some [] else none⟩) := by
  by_cases hfirst : opened < files.limit
  · by_cases hsecond : opened + 1 < files.limit
    · have h₀ : min opened files.limit = opened := by omega
      have h₂ : min (opened + 2) files.limit = opened + 2 := by omega
      simp [create, Files.fopen, h, hfirst, hsecond, h₀, h₂]
    · have h₀ : min opened files.limit = opened := by omega
      have h₂ : min (opened + 2) files.limit = opened + 1 := by omega
      simp [create, Files.fopen, h, hfirst, hsecond, h₀, h₂]
  · have h₀ : min opened files.limit = files.limit := by omega
    have h₂ : min (opened + 2) files.limit = files.limit := by omega
    have hsecond : ¬ opened + 1 < files.limit := by omega
    simp [create, Files.fopen, hfirst, hsecond, h₀, h₂]

lemma create_of_not_mayOpen {fileLen : Int32} {name : List UInt8}
    (h : files.mayOpen (recName name) = false) :
    create files opened fileLen name = (opened, ⟨fileLen, name, fileLen, false, none⟩) := by
  simp [create, Files.fopen, h]

lemma step_fileLen {job : Job} {a : Arrival}
    (ha : a.datagram = v.lenField (Int32.ofNat job.content.length)) :
    (machine v files).step ⟨.fileLen, opened⟩ a
      = .ok (⟨.fileName (Int32.ofNat job.content.length) (.zero 25) 0, opened⟩, []) := by
  have hbuf : (recvInto a.buf a.datagram).toList
      = v.lenField (Int32.ofNat job.content.length) := by
    have hlength := v.length_lenField (Int32.ofNat job.content.length)
    rw [toList_recvInto (by rw [ha, hlength]), ha, hlength,
      List.drop_of_length_le (Nat.le_of_eq a.buf.toList_length), List.append_nil]
  show Except.ok (_, _) = _
  rw [v.fileLen_eq hbuf]

/-- A name of 25 bytes leaves no room for a zero. -/
lemma step_fileName {job : Job} {a : Arrival} {fileLen : Int32}
    (ha : a.datagram = fileNameField job.fileName) (hlong : job.fileName.length ≤ 25) :
    (machine v files).step ⟨.fileName fileLen (.zero 25) 0, opened⟩ a
      = if job.fileName.length ≤ 24 then
          proceed v (create files opened fileLen job.fileName).1
            (create files opened fileLen job.fileName).2
        else .error .unterminated := by
  have hlength := Lab2.length_fileNameField hlong
  have hbuf : (recvInto (Buffer.zero 25) a.datagram).toList
      = job.fileName ++ List.replicate (25 - job.fileName.length) 0 := by
    rw [toList_recvInto (by rw [ha, hlength]), ha, hlength,
      List.drop_of_length_le (Nat.le_of_eq (List.Vector.toList_length _)), List.append_nil,
      Lab2.fileNameField_eq hlong]
  have hrecv : (recv 25 a.datagram).length = 25 := by
    rw [ha, recv_of_le (Nat.le_of_eq hlength), hlength]
  have hzero : 0 ∉ job.fileName ++ List.replicate (25 - job.fileName.length) 0 ↔
      ¬ job.fileName.length ≤ 24 := by
    have := job.nul
    simp only [List.mem_append, List.mem_replicate]
    simp [this]
    omega
  have hne : ∀ b ∈ job.fileName, decide (b ≠ 0) = true := fun b hb =>
    decide_eq_true fun h => job.nul (h ▸ hb)
  have hstep (s : Ftps) : (machine v files).step s a = step v files s a := rfl
  simp only [hstep, step, hrecv, hbuf, hzero, List.takeWhile_append_of_pos hne]
  have htake : (List.replicate (25 - job.fileName.length) (0 : UInt8)).takeWhile
      (fun b => decide (b ≠ 0)) = [] := by
    cases 25 - job.fileName.length <;> simp [List.replicate_succ]
  rw [if_neg (by decide), htake, List.append_nil, ite_not]

/-- The length and the name. -/
lemma exec_named {job : Job} {len name : Arrival} {as : List Arrival} {t : Ftps}
    {os : List Received} (hlen : len.datagram = v.lenField (Int32.ofNat job.content.length))
    (hname : name.datagram = fileNameField job.fileName) (hlong : job.fileName.length ≤ 25) :
    (machine v files).exec ⟨.fileLen, opened⟩ (len :: name :: as) = .ok (t, os) ↔
      job.fileName.length ≤ 24 ∧ ∃ u o o',
        proceed v (create files opened (Int32.ofNat job.content.length) job.fileName).1
          (create files opened (Int32.ofNat job.content.length) job.fileName).2 = .ok (u, o) ∧
        (machine v files).exec u as = .ok (t, o') ∧ os = o ++ o' := by
  simp only [Machine.exec_cons_ok, step_fileLen hlen]
  constructor
  · rintro ⟨u, o, o', hfirst, ⟨u', o₁, o₂, hsecond, hrest, rfl⟩, rfl⟩
    cases hfirst
    rw [step_fileName hname hlong] at hsecond
    split at hsecond
    · rename_i hshort
      exact ⟨hshort, u', o₁, o₂, hsecond, hrest, rfl⟩
    · cases hsecond
  · rintro ⟨hshort, u, o, o', hproceed, hrest, rfl⟩
    refine ⟨_, [], o ++ o', rfl, ⟨u, o, o', ?_, hrest, rfl⟩, rfl⟩
    rw [step_fileName hname hlong, if_pos hshort]
    exact hproceed

@[simp] lemma append_nil (x : Saving) : x.append [] = x := by
  obtain ⟨fileLen, fileName, leftLen, fp, file⟩ := x
  cases file <;> simp [Saving.append]

lemma append_append (x : Saving) (l l' : List UInt8) :
    (x.append l).append l' = x.append (l ++ l') := by
  obtain ⟨fileLen, fileName, leftLen, fp, file⟩ := x
  cases file <;> simp [Saving.append, Int32.sub_sub, Int32.ofNat_add]

/-- The pieces of the file. -/
lemma exec_pieces (v : Version) (files : Files) (opened : ℕ) {x : Saving} (hfp : x.fp = true)
    {data : List (List UInt8)} (hne : ∀ d ∈ data, d ≠ []) (hshort : ∀ d ∈ data, d.length ≤ 800)
    (hleft : x.leftLen = Int32.ofNat data.flatten.length) (hsize : data.flatten.length < 2 ^ 31)
    {as : List Arrival} (has : as.map Arrival.datagram = data) :
    ∃ u o o', proceed v opened x = .ok (u, o) ∧
      (machine v files).exec u as = .ok (⟨.fileLen, opened + v.kept - 2⟩, o') ∧
      o ++ o' = [(x.append data.flatten).received] := by
  induction as generalizing x data with
  | nil =>
    subst has
    have hmore : v.more x.leftLen = false := by
      rw [hleft]
      simpa using v.more_ofNat (n := 0) (by norm_num)
    refine ⟨⟨.fileLen, opened + v.kept - 2⟩, [x.received], [], ?_, rfl, ?_⟩
    · cases v <;> simp [proceed, hmore, hfp, Version.kept]
    · simp
  | cons a as ih =>
    subst has
    rw [List.map_cons] at hne hshort hleft hsize
    have hpos := List.length_pos_iff.mpr (hne _ List.mem_cons_self)
    have hrecv := recv_of_le ((hshort _ List.mem_cons_self).trans (by norm_num : 800 ≤ 1000))
    rw [List.flatten_cons, List.length_append] at hleft hsize
    have hmore : v.more x.leftLen = true := by
      rw [hleft, v.more_ofNat hsize]
      exact Nat.ne_of_gt (Nat.add_pos_left hpos _)
    obtain ⟨u, o, o', hproceed, hexec, hos⟩ := ih (x := x.append a.datagram) hfp
      (fun d hd => hne d (List.mem_cons_of_mem _ hd))
      (fun d hd => hshort d (List.mem_cons_of_mem _ hd))
      (by
        show x.leftLen - _ = _
        rw [hleft, ← Int32.ofNat_sub _ _ (Nat.le_add_right _ _), Nat.add_sub_cancel_left])
      (by omega) rfl
    refine ⟨⟨.data x, opened⟩, [], o ++ o', ?_, ?_, ?_⟩
    · simp [proceed, hmore]
    · rw [Machine.exec_cons_ok]
      refine ⟨u, o, o', ?_, hexec, rfl⟩
      show (if x.fp then proceed v opened (x.append (recv 1000 a.datagram)) else _) = _
      rw [if_pos hfp, hrecv, hproceed]
    · rw [List.nil_append, hos, append_append, List.map_cons, List.flatten_cons]

/-- Without the second file only an empty one is saved, and only in `lab3`. -/
lemma exec_unopened {x : Saving} (hfp : x.fp = false) {content : List UInt8}
    {data : List (List UInt8)} (hpieces : Pieces content data)
    (hleft : x.leftLen = Int32.ofNat content.length) (hsize : content.length < 2 ^ 31)
    {as : List Arrival} (has : as.map Arrival.datagram = data) {u t : Ftps}
    {o o' : List Received} (hproceed : proceed v opened x = .ok (u, o))
    (hexec : (machine v files).exec u as = .ok (t, o')) :
    v = .lab3 ∧ content = [] ∧ o ++ o' = [x.received] := by
  have hmore := v.more_ofNat hsize
  rw [← hleft] at hmore
  cases as with
  | nil =>
    have hnil : content = [] := by
      rw [← hpieces.flatten, ← has]
      rfl
    have hdone : ¬ v.more x.leftLen = true := by
      rw [hmore, hnil]
      exact not_not.mpr rfl
    cases hexec
    cases v with
    | lab3 =>
      unfold proceed at hproceed
      rw [if_neg hdone] at hproceed
      cases hproceed
      exact ⟨rfl, hnil, rfl⟩
    | proj1 =>
      unfold proceed at hproceed
      simp [hdone, hfp] at hproceed
  | cons a as =>
    have hpos : content.length ≠ 0 := by
      have ha := List.length_pos_iff.mpr (hpieces.nonempty a.datagram (by rw [← has]; simp))
      rw [← hpieces.flatten, ← has, List.map_cons, List.flatten_cons, List.length_append]
      omega
    unfold proceed at hproceed
    rw [if_pos (hmore.mpr hpos)] at hproceed
    cases hproceed
    obtain ⟨w, o₁, o₂, hstep, -, -⟩ := (machine v files).exec_cons_ok.mp hexec
    change (if x.fp then _ else Except.error Crash.nullFile) = _ at hstep
    rw [hfp] at hstep
    cases hstep

lemma slots_le (v : Version) (content : List UInt8) : v.slots content ≤ 2 := by
  cases v with
  | lab3 =>
    show (if _ then 1 else 2) ≤ 2
    split <;> norm_num
  | proj1 => exact Nat.le_refl 2

section Transfer

variable {job : Job} {len name : Arrival} {as : List Arrival} {data : List (List UInt8)}
  (hlen : len.datagram = v.lenField (Int32.ofNat job.content.length))
  (hname : name.datagram = fileNameField job.fileName) (hlong : job.fileName.length ≤ 25)
  (hpieces : Pieces job.content data) (has : as.map Arrival.datagram = data)

include hlen hname hlong hpieces has

/-- With room for both files. -/
lemma exec_opened (hopen : files.mayOpen (recName job.fileName) = true)
    (hsecond : opened + 1 < files.limit) {t : Ftps} {os : List Received} :
    (machine v files).exec ⟨.fileLen, min opened files.limit⟩ (len :: name :: as) = .ok (t, os) ↔
      job.fileName.length ≤ 24 ∧ t = ⟨.fileLen, min (opened + v.kept) files.limit⟩ ∧
        os = [job.saved] := by
  rw [exec_named hlen hname hlong,
    create_of_mayOpen hopen opened (Int32.ofNat job.content.length)]
  obtain ⟨u, o, o', hproceed, hexec, hos⟩ := exec_pieces v files (min (opened + 2) files.limit)
    (x := ⟨Int32.ofNat job.content.length, job.fileName, Int32.ofNat job.content.length,
      opened + 1 < files.limit, if opened < files.limit then some [] else none⟩)
    (decide_eq_true hsecond) hpieces.nonempty hpieces.short (by rw [hpieces.flatten])
    (by rw [hpieces.flatten]; exact job.size) has
  have hsaved : o ++ o' = [job.saved] := by
    rw [hos, hpieces.flatten]
    simp [Saving.received, Saving.append, Job.saved, (by omega : opened < files.limit)]
  have hleft : min (opened + 2) files.limit + v.kept - 2 = min (opened + v.kept) files.limit := by
    cases v <;> simp only [Version.kept] <;> omega
  rw [hleft] at hexec
  refine and_congr_right fun _ => ⟨?_, ?_⟩
  · rintro ⟨u', o₁, o₂, hproceed', hexec', rfl⟩
    rw [hproceed] at hproceed'
    cases hproceed'
    rw [hexec] at hexec'
    cases hexec'
    exact ⟨rfl, hsaved⟩
  · rintro ⟨rfl, rfl⟩
    exact ⟨u, o, o', hproceed, hexec, hsaved.symm⟩

/-- What a server with `opened` files open, or as many as it can have, makes of a transfer. -/
lemma exec_of_room (hroom : Room v files opened job) :
    (machine v files).exec ⟨.fileLen, min opened files.limit⟩ (len :: name :: as)
      = .ok (⟨.fileLen, min (opened + v.kept) files.limit⟩, [job.saved]) := by
  by_cases hsecond : opened + 1 < files.limit
  · exact (exec_opened hlen hname hlong hpieces has hroom.mayOpen hsecond).mpr
      ⟨hroom.name, rfl, rfl⟩
  · -- an empty file in `lab3`, and the last that can be made
    have hslots := hroom.slots
    obtain ⟨rfl, hnil⟩ : v = .lab3 ∧ job.content = [] := by
      cases v with
      | lab3 =>
        refine ⟨rfl, ?_⟩
        by_contra hne
        simp only [Version.slots, if_neg hne] at hslots
        omega
      | proj1 =>
        change opened + 2 ≤ files.limit at hslots
        omega
    have hfirst : opened < files.limit := by
      simp only [Version.slots, if_pos hnil] at hslots
      omega
    have hdata : data = [] := by
      apply List.eq_nil_of_length_eq_zero
      rw [hpieces.count, hnil]
      rfl
    obtain rfl : as = [] := List.map_eq_nil_iff.mp (has.trans hdata)
    refine (exec_named hlen hname hlong).mpr ⟨hroom.name, _, [job.saved], [], ?_, rfl, rfl⟩
    rw [create_of_mayOpen hroom.mayOpen, hnil]
    simp [proceed, Version.more, Saving.received, Job.saved, hfirst, hnil, Version.kept]

/-- The transfer ends with one file, which is the right one only if there was room for it. -/
lemma room_of_exec {t : Ftps} {os : List Received}
    (h : (machine v files).exec ⟨.fileLen, min opened files.limit⟩ (len :: name :: as)
      = .ok (t, os)) : ∃ r, os = [r] ∧ (r = job.saved → Room v files opened job) := by
  cases hopen : files.mayOpen (recName job.fileName) with
  | false =>
    obtain ⟨-, u, o, o', hproceed, hexec, rfl⟩ := (exec_named hlen hname hlong).mp h
    rw [create_of_not_mayOpen hopen] at hproceed
    obtain ⟨-, -, hos⟩ := exec_unopened rfl hpieces rfl job.size has hproceed hexec
    refine ⟨_, hos, fun hsaved => ?_⟩
    cases congrArg Received.file hsaved
  | true =>
    by_cases hsecond : opened + 1 < files.limit
    · obtain ⟨hshort, -, rfl⟩ :=
        (exec_opened hlen hname hlong hpieces has hopen hsecond).mp h
      have hslots := slots_le v job.content
      exact ⟨_, rfl, fun _ => ⟨hshort, hopen, by omega⟩⟩
    · obtain ⟨hshort, u, o, o', hproceed, hexec, rfl⟩ := (exec_named hlen hname hlong).mp h
      rw [create_of_mayOpen hopen] at hproceed
      obtain ⟨rfl, hnil, hos⟩ := exec_unopened (decide_eq_false hsecond) hpieces rfl job.size has
        hproceed hexec
      refine ⟨_, hos, fun hsaved => ⟨hshort, hopen, ?_⟩⟩
      have hfile := congrArg Received.file hsaved
      simp only [Version.slots, if_pos hnil]
      by_contra hfull
      have hfirst : ¬ opened < files.limit := by omega
      simp [Saving.received, Job.saved, hfirst] at hfile

end Transfer

end Ftps

/-! ## A series of transfers -/

/-- There is room for every file, when `opened` files are open before the first of them. -/
def RoomForAll (v : Version) (files : Files) (opened : ℕ) (jobs : List Job) : Prop :=
  ∀ i job, jobs[i]? = some job → Room v files (opened + v.kept * i) job

lemma roomForAll_cons {v : Version} {files : Files} {opened : ℕ} {job : Job} {jobs : List Job} :
    RoomForAll v files opened (job :: jobs) ↔
      Room v files opened job ∧ RoomForAll v files (opened + v.kept) jobs := by
  have hnext (i : ℕ) : opened + v.kept * (i + 1) = opened + v.kept + v.kept * i := by ring
  constructor
  · intro h
    refine ⟨h 0 job rfl, fun i job' hi => ?_⟩
    rw [← hnext]
    exact h (i + 1) job' hi
  · rintro ⟨hjob, hjobs⟩ i job' hi
    cases i with
    | zero =>
      cases hi
      exact hjob
    | succ i =>
      rw [hnext]
      exact hjobs i job' hi

/-- When everything arrives, the files are saved exactly when there is room for them. -/
lemma exec_jobs {v : Version} {files : Files} {opened : ℕ} {jobs : List Job}
    {sent : List (List UInt8)} (hsent : Job.sendAll v jobs = some sent) {as : List Arrival}
    (has : as.map Arrival.datagram = sent) :
    (∃ t, (Ftps.machine v files).exec ⟨.fileLen, min opened files.limit⟩ as
      = .ok (t, jobs.map Job.saved)) ↔ RoomForAll v files opened jobs := by
  induction jobs generalizing opened sent as with
  | nil =>
    cases hsent
    obtain rfl := List.map_eq_nil_iff.mp has
    exact ⟨fun _ i job hi => by simp at hi, fun _ => ⟨_, rfl⟩⟩
  | cons job jobs ih =>
    obtain ⟨ds, rest, hds, hrest, rfl⟩ := Job.sendAll_cons.mp hsent
    obtain ⟨hlong, data, hpieces, rfl⟩ := Job.send_eq hds
    obtain ⟨as₁, as₂, rfl, has₁, has₂⟩ := List.map_eq_append_iff.mp has
    obtain ⟨len, as₁, rfl, hlen, has₁⟩ := List.map_eq_cons_iff.mp has₁
    obtain ⟨name, as₁, rfl, hname, has₁⟩ := List.map_eq_cons_iff.mp has₁
    rw [roomForAll_cons, ← ih hrest has₂]
    constructor
    · rintro ⟨t, h⟩
      obtain ⟨u, o, o', hfirst, hothers, hos⟩ := (Machine.exec_append _).mp h
      obtain ⟨r, rfl, hroom⟩ := Ftps.room_of_exec hlen hname hlong hpieces has₁ hfirst
      obtain ⟨hr, hrs⟩ := List.cons.inj hos
      have hjob := hroom hr.symm
      rw [Ftps.exec_of_room hlen hname hlong hpieces has₁ hjob] at hfirst
      cases hfirst
      exact ⟨hjob, t, hrs ▸ hothers⟩
    · rintro ⟨hjob, t, h⟩
      exact ⟨t, (Machine.exec_append _).mpr
        ⟨_, _, _, Ftps.exec_of_room hlen hname hlong hpieces has₁ hjob, h, rfl⟩⟩

/-- When some of what has been sent arrives, in its order, the files are saved exactly when all of
it has arrived and there is room for them. -/
lemma exec_iff_of_sublist {v : Version} {files : Files} {jobs : List Job}
    {sent : List (List UInt8)} (hsent : Job.sendAll v jobs = some sent) {as : List Arrival}
    (hlost : (as.map Arrival.datagram).Sublist sent) :
    (∃ t, (Ftps.machine v files).exec .start as = .ok (t, jobs.map Job.saved)) ↔
      as.map Arrival.datagram = sent ∧ RoomForAll v files 0 jobs := by
  have hstart : Ftps.start = ⟨.fileLen, min 0 files.limit⟩ := by
    rw [Nat.zero_min]
    rfl
  constructor
  · rintro ⟨t, h⟩
    have hall := all_arrived hsent hlost h
    rw [hstart] at h
    exact ⟨hall, (exec_jobs hsent hall).mp ⟨t, h⟩⟩
  · rintro ⟨hall, hroom⟩
    rw [hstart]
    exact (exec_jobs hsent hall).mpr hroom

lemma filterMap_sockRemote {header : Buffer 16} {datagrams frames : List (List UInt8)}
    (h : datagrams.mapM (sockLocal header) = some frames) :
    frames.filterMap sockRemote = datagrams := by
  induction datagrams generalizing frames with
  | nil =>
    cases h
    rfl
  | cons d datagrams ih =>
    simp only [List.mapM_cons, Option.bind_eq_bind, Option.bind_eq_some_iff] at h
    obtain ⟨frame, hframe, rest, hrest, heq⟩ := h
    cases heq
    rw [List.filterMap_cons_some (sockRemote_of_sockLocal hframe), ih hrest]

/-- **A series of transfers in `lab3`.** On each of the three ways, from `ftpc` to its `tcpd`, from
there through the troll to the other, and from this to `ftps`, datagrams may be lost, and the
others keep their order. The server saves the files that were sent, one after the other, exactly
when nothing is lost and there is room for every file: a name of at most 24 bytes, under which a
file can be made, and two more descriptors for every file. -/
theorem saved_iff_arrived (files : Files) (header : Buffer 16) (jobs : List Job)
    (sent atClient frames atServer : List (List UInt8)) (as : List Arrival)
    (hsent : Job.sendAll .lab3 jobs = some sent) (hatClient : atClient.Sublist sent)
    (hframes : atClient.mapM (sockLocal header) = some frames)
    (hatServer : atServer.Sublist frames)
    (has : (as.map Arrival.datagram).Sublist (atServer.filterMap sockRemote)) :
    (∃ t, (Ftps.machine .lab3 files).exec .start as = .ok (t, jobs.map Job.saved)) ↔
      as.map Arrival.datagram = sent ∧ RoomForAll .lab3 files 0 jobs := by
  have hback : frames.filterMap sockRemote = atClient := filterMap_sockRemote hframes
  have hthrough : (atServer.filterMap sockRemote).Sublist atClient := by
    rw [← hback]
    exact hatServer.filterMap sockRemote
  exact exec_iff_of_sublist hsent ((has.trans hthrough).trans hatClient)

/-- A file of one byte with the name `f`. -/
def oneJob : Job := ⟨[102], [7], by decide, by decide⟩

lemma sendAll_oneJob (v : Version) :
    Job.sendAll v [oneJob] = some [v.lenField 1, fileNameField [102], [7]] := by
  have hend : sendData v 0 [] = some [] := by
    unfold sendData
    exact if_pos (by cases v <;> rfl)
  have hdata : sendData v 1 [7] = some [[7]] := by
    unfold sendData
    rw [if_neg (by cases v <;> decide), dif_neg (by decide)]
    show (sendData v 0 []).map _ = _
    rw [hend]
    rfl
  have hlen : Lab2.iniFileInfo (fun _ => some [7]) [102] = some 1 := rfl
  have hsend : oneJob.send v = some [v.lenField 1, fileNameField [102], [7]] := by
    simp only [Job.send, ftpc, oneJob, hlen, Option.bind_eq_bind, Option.bind_some, hdata]
    rfl
  simp [Job.sendAll, hsend]

/-- The header of `tcpd`, which nothing reads. -/
def blankHeader : Buffer 16 := .zero 16

/-- The file is not saved when its last frame is lost. -/
theorem saved_iff_arrived_loseLast : ¬ ∃ limit t,
    (Ftps.machine .lab3 ⟨fun _ => true, limit⟩).exec .start
      [⟨Lab2.htonl 1, .zero 4⟩, ⟨fileNameField [102], .zero 4⟩] = .ok (t, [oneJob.saved]) := by
  rintro ⟨limit, t, h⟩
  have hframes : [Lab2.htonl 1, fileNameField [102], [7]].mapM (sockLocal blankHeader)
      = some [blankHeader.toList ++ Lab2.htonl 1, blankHeader.toList ++ fileNameField [102],
        blankHeader.toList ++ [7]] := by decide
  have hremote : ([blankHeader.toList ++ Lab2.htonl 1, blankHeader.toList ++ fileNameField [102]]
      |>.filterMap sockRemote) = [Lab2.htonl 1, fileNameField [102]] := by decide
  have hlost := (saved_iff_arrived ⟨fun _ => true, limit⟩ blankHeader [oneJob] _ _ _
    [blankHeader.toList ++ Lab2.htonl 1, blankHeader.toList ++ fileNameField [102]]
    [⟨Lab2.htonl 1, .zero 4⟩, ⟨fileNameField [102], .zero 4⟩] (sendAll_oneJob .lab3)
    (List.Sublist.refl _) hframes (by simp) (by rw [hremote]; exact List.Sublist.refl _)).mp ⟨t, h⟩
  exact absurd hlost.1 (by decide)

end NetworkProgramming.Lab3
