import NetworkProgramming.Lab3.Ftpc
import NetworkProgramming.Lib.Machine

/-!
# `ftps.c` over datagrams, in `lab3` and in `proj1`

The server reads one datagram after the other in a single process, file after file. It takes
whatever comes for what it waits for, so a file that is saved is made of the datagrams that came in
a row, and has the length that the first of them says (`saved_of_run`).
-/

namespace NetworkProgramming.Lab3

open Lab2 (recName Crash Received)

/-! ## The server -/

/-- The files that the server can make, and how many it can have open at once. -/
structure Files where
  mayOpen : List UInt8 → Bool
  limit : ℕ

/-- Whether `fopen` returns a file, when `opened` files are open. -/
def Files.fopen (files : Files) (opened : ℕ) (name : List UInt8) : Bool :=
  files.mayOpen name && opened < files.limit

/-- The variables of `process_request` behind the name, with the contents of the file it has made.
`fp` is what the second `fopen` has returned. -/
structure Saving where
  fileLen : Int32
  fileName : List UInt8
  leftLen : Int32
  fp : Bool
  file : Option (List UInt8)
deriving DecidableEq

namespace Saving

def received (x : Saving) : Received := ⟨x.fileLen, x.fileName, x.file⟩

/-- The body of the loop over the file. -/
def append (x : Saving) (bytes : List UInt8) : Saving :=
  { x with leftLen := x.leftLen - Int32.ofNat bytes.length, file := x.file.map (· ++ bytes) }

end Saving

/-- The `RECV` in which `process_request` waits. -/
inductive Request
  | fileLen
  | fileName (fileLen : Int32) (fileName : Buffer 25) (recLen : Int32)
  | data (x : Saving)
deriving DecidableEq

/-- The server, and the number of files it has open. -/
structure Ftps where
  request : Request
  opened : ℕ
deriving DecidableEq

/-- A datagram, and what the first four bytes of `buf` hold when it comes. -/
structure Arrival where
  datagram : List UInt8
  buf : Buffer 4

/-- `RECV` into a block of `n` bytes: a datagram that is longer is cut off. -/
def recv (n : ℕ) (datagram : List UInt8) : List UInt8 := datagram.take n

lemma length_recv_le (n : ℕ) (datagram : List UInt8) : (recv n datagram).length ≤ n :=
  List.length_take_le n datagram

/-- `recv` into `buf`, at its start. -/
def recvInto {n : ℕ} (buf : Buffer n) (datagram : List UInt8) : Buffer n :=
  buf.write 0 (recv n datagram) (by rw [Nat.zero_add]; exact length_recv_le n datagram)

namespace Ftps

/-- The server is started. -/
def start : Ftps := ⟨.fileLen, 0⟩

/-- The test of the loop over the file, and what follows it. In `lab3` there is no `fclose`, and in
`proj1` it closes the second of the two files. -/
def proceed (v : Version) (opened : ℕ) (x : Saving) : Except Crash (Ftps × List Received) :=
  if v.more x.leftLen then .ok (⟨.data x, opened⟩, [])
  else match v with
    | .lab3 => .ok (⟨.fileLen, opened⟩, [x.received])
    | .proj1 =>
      if x.fp then .ok (⟨.fileLen, opened - 1⟩, [x.received]) else .error .nullFile

/-- `rec_name` is opened twice, to make the file and to append to it. -/
def create (files : Files) (opened : ℕ) (fileLen : Int32) (fileName : List UInt8) : ℕ × Saving :=
  let made := files.fopen opened (recName fileName)
  let opened := if made then opened + 1 else opened
  let fp := files.fopen opened (recName fileName)
  (if fp then opened + 1 else opened,
    ⟨fileLen, fileName, fileLen, fp, if made then some [] else none⟩)

/-- `process_request`, from one `RECV` to the next. -/
def step (v : Version) (files : Files) (s : Ftps) (a : Arrival) :
    Except Crash (Ftps × List Received) :=
  match s.request with
  | .fileLen =>
    .ok ({ s with request := .fileName (v.fileLen (recvInto a.buf a.datagram)) (.zero 25) 0 }, [])
  | .fileName fileLen fileName recLen =>
    let fileName := recvInto fileName a.datagram
    let recLen := recLen + Int32.ofNat (recv 25 a.datagram).length
    if recLen ≠ 25 then .ok ({ s with request := .fileName fileLen fileName recLen }, [])
    else if 0 ∉ fileName.toList then .error .unterminated
    else
      let (opened, x) := create files s.opened fileLen (fileName.toList.takeWhile (· ≠ 0))
      proceed v opened x
  | .data x =>
    if x.fp then proceed v s.opened (x.append (recv 1000 a.datagram)) else .error .nullFile

/-- The loop of `main`. -/
def machine (v : Version) (files : Files) : Machine Ftps Arrival Received Crash := ⟨step v files⟩

end Ftps

/-! ## What the server saves -/

namespace Ftps

variable {v : Version} {files : Files}

/-- What one datagram does. -/
inductive FtpsStep (v : Version) (files : Files) (s : Ftps) (a : Arrival) :
    Ftps → List Received → Prop
  | fileLen (h : s.request = .fileLen) :
      FtpsStep v files s a
        ⟨.fileName (v.fileLen (recvInto a.buf a.datagram)) (.zero 25) 0, s.opened⟩ []
  | fileName {fileLen recLen : Int32} {fileName : Buffer 25}
      (h : s.request = .fileName fileLen fileName recLen) :
      FtpsStep v files s a
        ⟨.fileName fileLen (recvInto fileName a.datagram)
          (recLen + Int32.ofNat (recv 25 a.datagram).length), s.opened⟩ []
  | create {fileLen recLen : Int32} {fileName : Buffer 25} {opened : ℕ} {x : Saving} {t : Ftps}
      {os : List Received} (h : s.request = .fileName fileLen fileName recLen)
      (hlen : recLen + Int32.ofNat (recv 25 a.datagram).length = 25)
      (hzero : 0 ∈ (recvInto fileName a.datagram).toList)
      (hx : create files s.opened fileLen
        ((recvInto fileName a.datagram).toList.takeWhile (· ≠ 0)) = (opened, x))
      (hproceed : proceed v opened x = .ok (t, os)) : FtpsStep v files s a t os
  | data {x : Saving} {t : Ftps} {os : List Received} (h : s.request = .data x)
      (hfp : x.fp = true)
      (hproceed : proceed v s.opened (x.append (recv 1000 a.datagram)) = .ok (t, os)) :
      FtpsStep v files s a t os

lemma step_cases {s t : Ftps} {a : Arrival} {os : List Received}
    (h : (machine v files).step s a = .ok (t, os)) : FtpsStep v files s a t os := by
  change step v files s a = .ok (t, os) at h
  rw [step] at h
  split at h
  · rename_i hrequest
    cases h
    exact .fileLen hrequest
  · rename_i fileLen fileName recLen hrequest
    dsimp only at h
    split at h
    · cases h
      exact .fileName hrequest
    · rename_i hlen
      split at h
      · cases h
      · rename_i hzero
        exact .create hrequest (not_not.mp hlen) (not_not.mp hzero) rfl h
  · rename_i x hrequest
    split at h
    · rename_i hfp
      exact .data hrequest hfp h
    · cases h

/-- The loop over the file goes on, or it returns what has been saved. -/
lemma proceed_cases {opened : ℕ} {x : Saving} {t : Ftps} {os : List Received}
    (h : proceed v opened x = .ok (t, os)) :
    v.more x.leftLen = true ∧ t.request = .data x ∧ os = [] ∨
      v.more x.leftLen = false ∧ t.request = .fileLen ∧ os = [x.received] := by
  unfold proceed at h
  split at h
  · rename_i hmore
    cases h
    exact Or.inl ⟨hmore, rfl, rfl⟩
  · rename_i hmore
    refine Or.inr ⟨Bool.eq_false_iff.mpr hmore, ?_⟩
    split at h
    · cases h
      exact ⟨rfl, rfl⟩
    · split at h
      · cases h
        exact ⟨rfl, rfl⟩
      · cases h

end Ftps

/-! ### How many bytes -/

/-- The bytes on the disk. -/
def written (file : Option (List UInt8)) : List UInt8 := file.getD []

lemma written_append {x : Saving} {bytes : List UInt8} (h : x.file.isSome) :
    written (x.append bytes).file = written x.file ++ bytes := by
  obtain ⟨l, hl⟩ := Option.isSome_iff_exists.mp h
  simp [written, Saving.append, hl]

/-- A file of `n` bytes is saved for the length `fileLen`. In `lab3` the two agree up to the
overflow of `int`; in `proj1` the last datagram may bring more than is left. -/
def Version.Saves (v : Version) (fileLen : Int32) (n : ℕ) : Prop :=
  match v with
  | lab3 => Int32.ofNat n = fileLen
  | proj1 =>
    if 0 < fileLen.toInt then fileLen.toInt ≤ n ∧ n < fileLen.toInt + 1000 else n = 0

/-- The loop over the file counts what it has written. -/
structure Counts (v : Version) (x : Saving) : Prop where
  made : x.fp = true → x.file.isSome
  left : x.leftLen = x.fileLen - Int32.ofNat (written x.file).length
  exact : v = .proj1 → x.leftLen.toInt = x.fileLen.toInt - (written x.file).length ∧
    (written x.file = [] ∨ 0 < x.fileLen.toInt ∧ -1000 < x.leftLen.toInt)

lemma Version.more_proj1 {leftLen : Int32} : proj1.more leftLen = true ↔ 0 < leftLen.toInt := by
  simp [more, Int32.lt_iff_toInt_lt]

/-- A full buffer does not make `left_len` overflow. -/
lemma toInt_sub_ofNat {a : Int32} {n : ℕ} (ha : 0 < a.toInt) (hn : n ≤ 1000) :
    (a - Int32.ofNat n).toInt = a.toInt - n := by
  have hlt := a.toInt_lt
  rw [Int32.toInt_sub, Int32.toInt_ofNat_of_lt (by omega)]
  exact Int.bmod_eq_of_le (by omega) (by omega)

/-- One more round, when the test has let it in. -/
lemma Counts.append {v : Version} {x : Saving} (h : Counts v x) (hfp : x.fp = true)
    (hmore : v.more x.leftLen = true) {bytes : List UInt8} (hbytes : bytes.length ≤ 1000) :
    Counts v (x.append bytes) where
  made _ := by
    simpa [Saving.append] using h.made hfp
  left := by
    rw [written_append (h.made hfp), List.length_append, Int32.ofNat_add]
    show x.leftLen - _ = x.fileLen - _
    rw [h.left, Int32.sub_sub]
  exact hv := by
    subst hv
    rw [Version.more_proj1] at hmore
    obtain ⟨hexact, -⟩ := h.exact rfl
    have hleft : (x.append bytes).leftLen.toInt = x.leftLen.toInt - bytes.length :=
      toInt_sub_ofNat hmore hbytes
    rw [hleft, written_append (h.made hfp), List.length_append]
    show _ = x.fileLen.toInt - _ ∧ (_ ∨ 0 < x.fileLen.toInt ∧ _)
    omega

/-- What has been counted when the test fails. -/
lemma Counts.saves {v : Version} {x : Saving} (h : Counts v x) (hmore : v.more x.leftLen = false) :
    v.Saves x.fileLen (written x.file).length := by
  cases v with
  | lab3 =>
    have hzero : x.leftLen = 0 := by simpa [Version.more] using hmore
    have hleft := h.left
    rw [hzero] at hleft
    calc Int32.ofNat (written x.file).length
        = 0 + Int32.ofNat (written x.file).length := (Int32.zero_add _).symm
      _ = x.fileLen - Int32.ofNat (written x.file).length
          + Int32.ofNat (written x.file).length := by rw [← hleft]
      _ = x.fileLen := Int32.sub_add_cancel _ _
  | proj1 =>
    have hdone : ¬ 0 < x.leftLen.toInt := by
      rw [← Version.more_proj1, hmore]
      exact Bool.false_ne_true
    obtain ⟨hexact, hcases⟩ := h.exact rfl
    show if _ then _ else _
    split
    · rcases hcases with hnil | ⟨-, hlast⟩
      · rw [hnil] at hexact ⊢
        simp only [List.length_nil] at hexact ⊢
        omega
      · omega
    · rcases hcases with hnil | ⟨hpos, -⟩
      · rw [hnil, List.length_nil]
      · contradiction

lemma counts_create {v : Version} {files : Files} {opened opened' : ℕ} {fileLen : Int32}
    {name : List UInt8} {x : Saving} (h : Ftps.create files opened fileLen name = (opened', x)) :
    x.fileLen = fileLen ∧ x.fileName = name ∧ written x.file = [] ∧ Counts v x := by
  cases h
  have hwritten : written (if files.fopen opened (recName name) then some [] else none) = [] := by
    split <;> rfl
  refine ⟨rfl, rfl, hwritten, ?_, ?_, ?_⟩
  · -- where the first `fopen` fails, so does the second
    intro hfp
    by_contra hnone
    have hfirst : files.fopen opened (recName name) = false := by
      by_contra htrue
      exact hnone (by simp [Bool.not_eq_false _ ▸ htrue])
    simp [hfirst] at hfp
  · show fileLen = fileLen - Int32.ofNat _
    rw [hwritten]
    simp
  · intro _
    show fileLen.toInt = fileLen.toInt - _ ∧ _
    rw [hwritten]
    simp

/-! ### Which datagrams -/

/-- What `RECV` makes of datagrams. -/
def cut (n : ℕ) (as : List Arrival) : List UInt8 := as.flatMap fun a => recv n a.datagram

lemma cut_snoc (n : ℕ) (as : List Arrival) (a : Arrival) :
    cut n (as ++ [a]) = cut n as ++ recv n a.datagram := by
  simp [cut]

/-- `file_name`, in which every datagram is stored at the start. -/
def nameBlock (names : List Arrival) : Buffer 25 :=
  names.foldl (fun buf a => recvInto buf a.datagram) (.zero 25)

lemma nameBlock_snoc (names : List Arrival) (a : Arrival) :
    nameBlock (names ++ [a]) = recvInto (nameBlock names) a.datagram := List.foldl_concat _ _ _ _

/-- The datagrams that one call of `process_request` takes. -/
structure Taken where
  len : Arrival
  names : List Arrival
  data : List Arrival

namespace Taken

def all (b : Taken) : List Arrival := b.len :: (b.names ++ b.data)

/-- The length and the name come out of their datagrams. -/
structure Named (v : Version) (b : Taken) (fileLen : Int32) (fileName : List UInt8) : Prop where
  fileLen : fileLen = v.fileLen (recvInto b.len.buf b.len.datagram)
  nameLen : Int32.ofNat (cut 25 b.names).length = 25
  terminated : 0 ∈ (nameBlock b.names).toList
  fileName : fileName = (nameBlock b.names).toList.takeWhile (· ≠ 0)

/-- The call saves `r`. -/
structure Saves (v : Version) (r : Received) (b : Taken) : Prop where
  named : b.Named v r.fileLen r.fileName
  content : written r.file = cut 1000 b.data
  length : v.Saves r.fileLen (written r.file).length

end Taken

/-- What the call that is under way has taken. -/
inductive Waits (v : Version) : Request → List Arrival → Prop
  | fileLen : Waits v .fileLen []
  | fileName (len : Arrival) (names : List Arrival) :
      Waits v (.fileName (v.fileLen (recvInto len.buf len.datagram)) (nameBlock names)
        (Int32.ofNat (cut 25 names).length)) (len :: names)
  | data {x : Saving} {b : Taken} (hnamed : b.Named v x.fileLen x.fileName)
      (hcontent : written x.file = cut 1000 b.data) (hcounts : Counts v x)
      (hmore : v.more x.leftLen = true) : Waits v (.data x) b.all

namespace Ftps

variable {v : Version} {files : Files}

/-- Behind the test of the loop over the file. -/
lemma waits_proceed {opened : ℕ} {x : Saving} {b : Taken} {t : Ftps} {os : List Received}
    (hnamed : b.Named v x.fileLen x.fileName) (hcontent : written x.file = cut 1000 b.data)
    (hcounts : Counts v x) (h : proceed v opened x = .ok (t, os)) :
    os = [] ∧ Waits v t.request b.all ∨
      t.request = .fileLen ∧ ∃ r, os = [r] ∧ b.Saves v r := by
  rcases proceed_cases h with ⟨hmore, hrequest, rfl⟩ | ⟨hmore, hrequest, rfl⟩
  · rw [hrequest]
    exact Or.inl ⟨rfl, .data hnamed hcontent hcounts hmore⟩
  · exact Or.inr ⟨hrequest, _, rfl, hnamed, hcontent, hcounts.saves hmore⟩

/-- One datagram more. -/
lemma waits_step {s t : Ftps} {a : Arrival} {os : List Received} {taken : List Arrival}
    (hs : Waits v s.request taken) (h : (machine v files).step s a = .ok (t, os)) :
    os = [] ∧ Waits v t.request (taken ++ [a]) ∨
      t.request = .fileLen ∧ ∃ r, ∃ b : Taken, os = [r] ∧ taken ++ [a] = b.all ∧ b.Saves v r := by
  obtain ⟨request, opened⟩ := s
  cases step_cases h with
  | fileLen hrequest =>
    cases hrequest
    cases hs
    exact Or.inl ⟨rfl, .fileName a []⟩
  | fileName hrequest =>
    cases hrequest
    cases hs with
    | fileName len names =>
      rw [← nameBlock_snoc, ← Int32.ofNat_add, ← List.length_append, ← cut_snoc]
      exact Or.inl ⟨rfl, .fileName len (names ++ [a])⟩
  | create hrequest hlen hzero hx hproceed =>
    cases hrequest
    cases hs with
    | fileName len names =>
      rw [← nameBlock_snoc] at hzero hx
      rw [← Int32.ofNat_add, ← List.length_append, ← cut_snoc] at hlen
      obtain ⟨hfileLen, hfileName, hwritten, hcounts⟩ := counts_create (v := v) hx
      have hall : len :: names ++ [a] = (⟨len, names ++ [a], []⟩ : Taken).all := by
        simp [Taken.all]
      rw [hall]
      rcases waits_proceed (b := ⟨len, names ++ [a], []⟩) ⟨hfileLen, hlen, hzero, hfileName⟩
        hwritten hcounts hproceed with hwaits | ⟨hdone, r, hos, hsaves⟩
      · exact Or.inl hwaits
      · exact Or.inr ⟨hdone, r, _, hos, rfl, hsaves⟩
  | data hrequest hfp hproceed =>
    cases hrequest
    cases hs with
    | data hnamed hcontent hcounts hmore =>
      rename_i x b
      have hall : b.all ++ [a] = (⟨b.len, b.names, b.data ++ [a]⟩ : Taken).all := by
        simp [Taken.all]
      have hcontent' : written (x.append (recv 1000 a.datagram)).file
          = cut 1000 (b.data ++ [a]) := by
        rw [written_append (hcounts.made hfp), hcontent, cut_snoc]
      rw [hall]
      rcases waits_proceed (x := x.append (recv 1000 a.datagram))
        (b := ⟨b.len, b.names, b.data ++ [a]⟩)
        ⟨hnamed.fileLen, hnamed.nameLen, hnamed.terminated, hnamed.fileName⟩
        hcontent' (hcounts.append hfp hmore (length_recv_le 1000 a.datagram)) hproceed
        with hwaits | ⟨hdone, r, hos, hsaves⟩
      · exact Or.inl hwaits
      · exact Or.inr ⟨hdone, r, _, hos, rfl, hsaves⟩

/-- The datagrams of a run fall into those of the calls of `process_request` that have returned, and
those of the call that is under way. -/
lemma taken_of_run {as : List Arrival} {t : Ftps} {os : List Received}
    (h : (machine v files).exec start as = .ok (t, os)) :
    ∃ bs rest, as = bs.flatMap Taken.all ++ rest ∧ List.Forall₂ (fun r b => b.Saves v r) os bs ∧
      Waits v t.request rest := by
  refine (machine v files).exec_induction (motive := fun as t os => ∃ bs rest,
    as = bs.flatMap Taken.all ++ rest ∧ List.Forall₂ (fun r b => b.Saves v r) os bs ∧
      Waits v t.request rest) ⟨[], [], rfl, .nil, .fileLen⟩ ?_ h
  rintro as s os a t os' - ⟨bs, rest, rfl, hsaves, hwaits⟩ hstep
  rcases waits_step hwaits hstep with ⟨rfl, hrest⟩ | ⟨hdone, r, b, rfl, hall, hb⟩
  · exact ⟨bs, rest ++ [a], by rw [List.append_assoc], by rwa [List.append_nil], hrest⟩
  · refine ⟨bs ++ [b], [], ?_, List.rel_append hsaves (.cons hb .nil), hdone ▸ .fileLen⟩
    rw [List.append_assoc, hall, List.flatMap_append, List.flatMap_singleton, List.append_nil]

end Ftps

/-- **What the server saves, whatever arrives.** A file that it saves is made of datagrams that have
come in a row: its length out of the first of them, its name out of datagrams of 25 bytes together,
up to the overflow of `int`, and its bytes out of the others. In `lab3` there are as many of them as
the length says; in `proj1` there may be up to 999 more. -/
theorem saved_of_run (v : Version) (files : Files) (as : List Arrival) (t : Ftps)
    (os : List Received) (h : (Ftps.machine v files).exec .start as = .ok (t, os)) :
    ∀ r ∈ os, ∃ b : Taken, b.all <:+: as ∧ b.Saves v r := by
  obtain ⟨bs, rest, rfl, hsaves, -⟩ := Ftps.taken_of_run h
  clear h
  induction hsaves with
  | nil => exact fun r hr => absurd hr List.not_mem_nil
  | @cons r b os bs hb _ ih =>
    intro r' hr'
    rw [List.flatMap_cons, List.append_assoc]
    rcases List.mem_cons.mp hr' with rfl | hr'
    · exact ⟨b, ⟨[], _, rfl⟩, hb⟩
    · obtain ⟨b', hinfix, hb'⟩ := ih r' hr'
      exact ⟨b', hinfix.trans (List.suffix_append _ _).isInfix, hb'⟩

/-- A file of one byte, whose last datagram has two. -/
def surplus : List Arrival :=
  [⟨[1, 0, 0, 0], .zero 4⟩, ⟨102 :: List.replicate 24 0, .zero 4⟩, ⟨[7, 8], .zero 4⟩]

/-- In `proj1` both bytes are saved. -/
theorem saved_of_run_surplus : ∃ b : Taken, b.all <:+: surplus ∧
    b.Saves .proj1 ⟨1, [102], some [7, 8]⟩ := by
  have h : (Ftps.machine .proj1 ⟨fun _ => true, 16⟩).exec .start surplus
      = .ok (⟨.fileLen, 1⟩, [⟨1, [102], some [7, 8]⟩]) := rfl
  exact saved_of_run _ _ _ _ _ h _ (List.mem_singleton_self _)

end NetworkProgramming.Lab3
