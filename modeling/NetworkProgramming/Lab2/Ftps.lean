import NetworkProgramming.Lab2.Ftpc
import NetworkProgramming.Lib.Segments

/-!
# `ftps.c` over TCP

The loops over the length and the name count the bytes of every `read`, and so read exactly their
fields, but each `read` stores to the start of its variable and asks for a whole field. So what the
server makes of a file depends on how TCP has cut the stream (`transferred_iff`).
-/

namespace NetworkProgramming.Lab2

/-! ## The server -/

/-- Where what follows is not defined. -/
inductive Crash
  /-- `strcat` looks for the end of `file_name` behind it -/
  | unterminated
  /-- `fwrite` to a file that is not open -/
  | nullFile
deriving DecidableEq

/-- What `process_request` has decoded, and the contents of the file it has made. -/
structure Received where
  fileLen : Int32
  fileName : List UInt8
  file : Option (List UInt8)
deriving DecidableEq

section Server

variable (ready : ℕ → ℕ)

/-- The loops over the length and the name: every `read` asks for `n` bytes and stores to the
start; `none` when the fuel does not last. -/
def readField (n : ℕ) : ℕ → Source UInt8 → Buffer n → Int32 → Option (Buffer n × Source UInt8)
  | 0, c, buf, recLen => if recLen = Int32.ofNat n then some (buf, c) else none
  | fuel + 1, c, buf, recLen =>
    if recLen = Int32.ofNat n then some (buf, c)
    else
      readField n fuel (c.read ready n).2
        (buf.write 0 (c.read ready n).1 (by rw [Nat.zero_add]; exact c.length_read_le))
        (recLen + Int32.ofNat (c.read ready n).1.length)

/-- The loop over `file_len`. -/
def readFileLen (fuel : ℕ) (c : Source UInt8) : Option (Buffer 4 × Source UInt8) :=
  readField ready 4 fuel c (.zero 4) 0

/-- The loop over `file_name`. -/
def readFileName (fuel : ℕ) (c : Source UInt8) : Option (Buffer 25 × Source UInt8) :=
  readField ready 25 fuel c (.zero 25) 0

/-- The loop over the file. -/
def readData : ℕ → Source UInt8 → Int32 → List UInt8 → Option (List UInt8)
  | 0, _, leftLen, written => if leftLen = 0 then some written else none
  | fuel + 1, c, leftLen, written =>
    if leftLen = 0 then some written
    else
      readData fuel (c.read ready 1000).2
        (leftLen - Int32.ofNat (c.read ready 1000).1.length) (written ++ (c.read ready 1000).1)

/-- `ntohl`, on the memory of `file_len`. -/
def ntohl (fileLen : Buffer 4) : Int32 :=
  (UInt32.ofNat (ofLeBytes fileLen.toList.reverse)).toInt32

/-- `rec_name`, the name behind `recvd_`. -/
def recName (fileName : List UInt8) : List UInt8 :=
  ['r', 'e', 'c', 'v', 'd', '_'].map (fun c => UInt8.ofNat c.toNat) ++ fileName

/-- `process_request`, on a connection that carries `stream`; `fopen` says which files can be
made. -/
def processRequest (fopen : List UInt8 → Bool) (fuel : ℕ) (stream : List UInt8) :
    Option (Except Crash Received) := do
  let (fileLen, c) ← readFileLen ready fuel ⟨stream, 0⟩
  let (fileName, c) ← readFileName ready fuel c
  if 0 ∉ fileName.toList then return .error .unterminated
  let name := fileName.toList.takeWhile (· ≠ 0)
  if fopen (recName name) then
    let written ← readData ready fuel c (ntohl fileLen) []
    return .ok ⟨ntohl fileLen, name, some written⟩
  else if ntohl fileLen = 0 then return .ok ⟨ntohl fileLen, name, none⟩
  else return .error .nullFile

end Server

/-! ## Reading a field -/

variable {ready : ℕ → ℕ}

lemma ofNat_eq_ofNat {k n : ℕ} (hk : k < 2 ^ 32) (hn : n < 2 ^ 32) :
    Int32.ofNat k = Int32.ofNat n ↔ k = n := by
  constructor
  · intro h
    have hmod : k % 2 ^ 32 = n % 2 ^ 32 := by
      simpa using congrArg (fun x => x.toUInt32.toNat) h
    rwa [Nat.mod_eq_of_lt hk, Nat.mod_eq_of_lt hn] at hmod
  · intro h
    rw [h]

/-- `m` reads return `n - k` bytes of a field of `n` bytes, and leave `buf'` in its block. -/
structure FieldRead (ready : ℕ → ℕ) (n k m : ℕ) (c c' : Source UInt8) (buf buf' : Buffer n) :
    Prop where
  sum : k + (c.results ready n m).sum = n
  pos : ∀ r ∈ c.results ready n m, 0 < r
  rest : c' = c.after ready n m
  block : buf'.toList = restarted c.unread buf.toList (c.results ready n m)

lemma FieldRead.zero {n : ℕ} (c : Source UInt8) (buf : Buffer n) :
    FieldRead ready n n 0 c c buf buf :=
  ⟨rfl, fun _ hr => absurd hr List.not_mem_nil, rfl, rfl⟩

/-- One more read before the others. -/
lemma FieldRead.succ_iff {n k m : ℕ} {c c' : Source UInt8} {buf buf' : Buffer n}
    (hpos : 0 < (c.read ready n).1.length) (hfit : 0 + (c.read ready n).1.length ≤ n) :
    FieldRead ready n k (m + 1) c c' buf buf' ↔
      FieldRead ready n (k + (c.read ready n).1.length) m (c.read ready n).2 c'
        (buf.write 0 (c.read ready n).1 hfit) buf' := by
  have hblock : restarted c.unread buf.toList (c.results ready n (m + 1))
      = restarted (c.read ready n).2.unread (buf.write 0 (c.read ready n).1 hfit).toList
        ((c.read ready n).2.results ready n m) := by
    rw [Source.results, restarted, Source.unread_read, ← Source.read_fst, Buffer.write,
      List.Vector.toList_mk, List.take_zero, List.nil_append, Nat.zero_add]
  constructor
  · intro h
    refine ⟨?_, fun r hr => h.pos r (List.mem_cons_of_mem _ hr), h.rest, hblock ▸ h.block⟩
    rw [Nat.add_assoc]
    exact h.sum
  · intro h
    refine ⟨?_, fun r hr => ?_, h.rest, hblock ▸ h.block⟩
    · rw [Source.results, List.sum_cons, ← Nat.add_assoc]
      exact h.sum
    · rcases List.mem_cons.mp hr with rfl | hr
      · exact hpos
      · exact h.pos r hr

/-- When the loop over a field ends, it has read exactly the field. -/
lemma fieldRead_of_readField (hready : ∀ i, 0 < ready i) {n : ℕ} (hn : 0 < n)
    (hsize : n < 2 ^ 32) {fuel k : ℕ} {c c' : Source UInt8} {buf buf' : Buffer n}
    (hk : k + c.unread.length < 2 ^ 32)
    (h : readField ready n fuel c buf (Int32.ofNat k) = some (buf', c')) :
    ∃ m ≤ fuel, FieldRead ready n k m c c' buf buf' := by
  induction fuel generalizing c buf k with
  | zero =>
    rw [readField] at h
    split at h
    · rename_i hdone
      obtain rfl := (ofNat_eq_ofNat (by omega) hsize).mp hdone
      cases h
      exact ⟨0, Nat.le_refl 0, .zero _ _⟩
    · cases h
  | succ fuel ih =>
    rw [readField] at h
    split at h
    · rename_i hdone
      obtain rfl := (ofNat_eq_ofNat (by omega) hsize).mp hdone
      cases h
      exact ⟨0, Nat.zero_le _, .zero _ _⟩
    · rename_i hmore
      have hlen : (c.read ready n).1.length = min (min n (ready c.reads)) c.unread.length :=
        c.length_read
      rw [← Int32.ofNat_add] at h
      obtain ⟨m, hm, hrest⟩ := ih (by rw [Source.unread_read, List.length_drop]; omega) h
      have hpos : 0 < (c.read ready n).1.length := by
        by_contra hzero
        -- behind the end of the stream nothing brings the sum up to `n`
        have hnil : c.unread = [] := by
          have := hready c.reads
          apply List.eq_nil_of_length_eq_zero
          omega
        have hresults : (c.read ready n).2.results ready n m = [] := by
          apply List.eq_nil_iff_forall_not_mem.mpr
          intro r hr
          have hr' := Source.results_of_nil (by rw [Source.unread_read, hnil, List.drop_nil]) m r hr
          exact absurd (hrest.pos r hr) (by omega)
        have hsum := hrest.sum
        rw [hresults, List.sum_nil] at hsum
        exact hmore (by rw [show k = n by omega])
      exact ⟨m + 1, by omega, (FieldRead.succ_iff hpos _).mpr hrest⟩

/-- When the reads return exactly the field, the loop ends. -/
lemma FieldRead.readField {n : ℕ} (hsize : n < 2 ^ 32) {fuel k m : ℕ} {c c' : Source UInt8}
    {buf buf' : Buffer n} (h : FieldRead ready n k m c c' buf buf') (hm : m ≤ fuel) :
    readField ready n fuel c buf (Int32.ofNat k) = some (buf', c') := by
  induction m generalizing fuel c buf k with
  | zero =>
    obtain rfl : k = n := h.sum
    obtain rfl : buf' = buf := Subtype.ext h.block
    obtain rfl := h.rest
    cases fuel <;> exact if_pos rfl
  | succ m ih =>
    obtain ⟨fuel, rfl⟩ := Nat.exists_eq_add_of_le' (Nat.lt_of_lt_of_le (Nat.succ_pos m) hm)
    have hpos := h.pos _ List.mem_cons_self
    have hsum := h.sum
    rw [Source.results, List.sum_cons] at hsum
    have hmore : ¬ Int32.ofNat k = Int32.ofNat n := by
      rw [ofNat_eq_ofNat (by omega) hsize]
      omega
    rw [Lab2.readField, if_neg hmore, ← Int32.ofNat_add]
    exact ih ((FieldRead.succ_iff hpos _).mp h) (by omega)

/-! ## The length -/

/-- Storing the reads of the length at the start leaves it as it is. -/
def LengthKept (len : ℕ) (rs : List ℕ) : Prop :=
  rs = [4] ∨ len = 0 ∨ rs = [3, 1] ∧ len % 256 = 0 ∧ len < 2 ^ 24 ∨
    rs = [2, 1, 1] ∧ len % 65536 = 0 ∧ len < 2 ^ 24

instance (len : ℕ) (rs : List ℕ) : Decidable (LengthKept len rs) :=
  inferInstanceAs (Decidable (_ ∨ _))

lemma ntohl_eq_iff {mem : Buffer 4} {len : Int32} : ntohl mem = len ↔ mem.toList = htonl len := by
  have hlength : mem.toList.reverse.length = 4 := by
    rw [List.length_reverse, List.Vector.toList_length]
  have hback := leBytes_ofLeBytes mem.toList.reverse
  have hlt := ofLeBytes_lt mem.toList.reverse
  rw [hlength] at hback hlt
  unfold ntohl htonl
  constructor
  · rintro rfl
    rw [UInt32.toUInt32_toInt32, UInt32.toNat_ofNat', Nat.mod_eq_of_lt (by omega), hback,
      List.reverse_reverse]
  · intro h
    have hsmall := len.toUInt32.toNat_lt
    rw [h, List.reverse_reverse, ofLeBytes_leBytes, Nat.mod_eq_of_lt (by omega),
      UInt32.ofNat_toNat, Int32.toInt32_toUInt32]

/-- The ways to read four bytes. -/
lemma reads_of_four {rs : List ℕ} (hsum : rs.sum = 4) (hpos : ∀ r ∈ rs, 0 < r) :
    rs ∈ [[4], [3, 1], [2, 2], [1, 3], [2, 1, 1], [1, 2, 1], [1, 1, 2], [1, 1, 1, 1]] := by
  rcases rs with _ | ⟨a, _ | ⟨b, _ | ⟨c, _ | ⟨d, rs⟩⟩⟩⟩
  · simp at hsum
  · simp at hsum
    simp [hsum]
  · simp at hsum hpos
    obtain ⟨ha, hb⟩ := hpos
    have : a < 4 := by omega
    interval_cases a <;> simp <;> omega
  · simp at hsum hpos
    obtain ⟨ha, hb, hc⟩ := hpos
    have : a < 3 := by omega
    interval_cases a <;> simp <;> omega
  · simp at hsum hpos
    obtain ⟨ha, hb, hc, hd, hrest⟩ := hpos
    rcases rs with _ | ⟨e, rs⟩
    · simp at hsum ⊢
      omega
    · have he := hrest e (by simp)
      simp at hsum
      omega

lemma htonl_ofNat {len : ℕ} (hlen : len < 2 ^ 31) :
    htonl (Int32.ofNat len) = [UInt8.ofNat (len / 16777216),
      UInt8.ofNat (len / 65536), UInt8.ofNat (len / 256), UInt8.ofNat len] := by
  have hnat : (Int32.ofNat len).toUInt32.toNat = len := by
    have hmod : (Int32.ofNat len).toUInt32.toNat = len % 2 ^ 32 := by simp
    rw [hmod, Nat.mod_eq_of_lt (by omega)]
  rw [htonl, hnat]
  simp [leBytes, Nat.div_div_eq_div_mul]

lemma ofNat_eq_zero_iff (x : ℕ) : UInt8.ofNat x = 0 ↔ x % 256 = 0 := by
  rw [← UInt8.toNat_inj, UInt8.toNat_ofNat']
  rfl

/-- Four bytes are left as they are in one read, or when zeros stand where others have been. -/
lemma restarted_four_iff {w x y z : UInt8} {rs : List ℕ} (hsum : rs.sum = 4)
    (hpos : ∀ r ∈ rs, 0 < r) (rest : List UInt8) :
    restarted (w :: x :: y :: z :: rest) [0, 0, 0, 0] rs = [w, x, y, z] ↔
      rs = [4] ∨ (w = 0 ∧ x = 0 ∧ y = 0 ∧ z = 0) ∨ rs = [3, 1] ∧ w = 0 ∧ z = 0 ∨
        rs = [2, 1, 1] ∧ w = 0 ∧ y = 0 ∧ z = 0 := by
  have hreads := reads_of_four hsum hpos
  simp only [List.mem_cons, List.not_mem_nil, or_false] at hreads
  rcases hreads with rfl | rfl | rfl | rfl | rfl | rfl | rfl | rfl <;>
    simp only [restarted, List.take_succ_cons, List.take_zero, List.drop_succ_cons, List.drop_zero,
      List.cons_append, List.nil_append, List.cons.injEq] <;>
    grind

lemma restarted_htonl_iff {len : ℕ} (hlen : len < 2 ^ 31) {rs : List ℕ} (hsum : rs.sum = 4)
    (hpos : ∀ r ∈ rs, 0 < r) (rest : List UInt8) :
    restarted (htonl (Int32.ofNat len) ++ rest) [0, 0, 0, 0] rs = htonl (Int32.ofNat len) ↔
      LengthKept len rs := by
  rw [htonl_ofNat hlen]
  refine (restarted_four_iff hsum hpos rest).trans ?_
  simp only [ofNat_eq_zero_iff]
  unfold LengthKept
  have hzero : (len / 16777216 % 256 = 0 ∧ len / 65536 % 256 = 0 ∧ len / 256 % 256 = 0 ∧
      len % 256 = 0) ↔ len = 0 := by omega
  have hone : (len / 16777216 % 256 = 0 ∧ len % 256 = 0) ↔ len % 256 = 0 ∧ len < 2 ^ 24 := by
    omega
  have htwo : (len / 16777216 % 256 = 0 ∧ len / 256 % 256 = 0 ∧ len % 256 = 0) ↔
      len % 65536 = 0 ∧ len < 2 ^ 24 := by omega
  rw [hzero, hone, htwo]

lemma pos_of_mem_sizes (hready : ∀ i, 0 < ready i) {n i m : ℕ} (hn : 0 < n) :
    ∀ r ∈ Source.sizes ready n i m, 0 < r := by
  intro r hr
  obtain ⟨j, -, rfl⟩ := List.mem_map.mp hr
  exact lt_min hn (hready j)

/-- Behind the length field there is enough, so the reads of the field return what has arrived. -/
lemma results_lengthField {len : Int32} {rest : List UInt8} (hrest : 4 ≤ rest.length) {m : ℕ}
    (h : ((⟨htonl len ++ rest, 0⟩ : Source UInt8).results ready 4 m).sum ≤ 4) :
    (⟨htonl len ++ rest, 0⟩ : Source UInt8).results ready 4 m = Source.sizes ready 4 0 m := by
  apply Source.results_eq_sizes
  show _ ≤ (htonl len ++ rest).length
  rw [List.length_append, length_htonl]
  omega

/-- After four bytes the field has been read. -/
lemma after_lengthField {len : Int32} {rest : List UInt8} {m : ℕ}
    (h : ((⟨htonl len ++ rest, 0⟩ : Source UInt8).results ready 4 m).sum = 4) :
    (⟨htonl len ++ rest, 0⟩ : Source UInt8).after ready 4 m = ⟨rest, m⟩ := by
  rw [Source.after_eq, h, List.drop_left' (length_htonl len), Nat.zero_add]

/-- The loop over the length reads its four bytes; the number is right when it is kept. -/
lemma kept_of_readFileLen (hready : ∀ i, 0 < ready i) {len fuel : ℕ} (hlen : len < 2 ^ 31)
    {rest : List UInt8} (hrest : 4 ≤ rest.length) (hsmall : rest.length < 2 ^ 31 + 25)
    {mem : Buffer 4} {c : Source UInt8}
    (h : readFileLen ready fuel ⟨htonl (Int32.ofNat len) ++ rest, 0⟩ = some (mem, c)) :
    ∃ m, (Source.sizes ready 4 0 m).sum = 4 ∧ c = ⟨rest, m⟩ ∧
      (ntohl mem = Int32.ofNat len ↔ LengthKept len (Source.sizes ready 4 0 m)) := by
  have hlength : 0 + (htonl (Int32.ofNat len) ++ rest).length < 2 ^ 32 := by
    rw [List.length_append, length_htonl]
    omega
  obtain ⟨m, -, hread⟩ :=
    fieldRead_of_readField hready (by decide) (by decide) (k := 0) hlength h
  have hsum := hread.sum
  rw [Nat.zero_add] at hsum
  have hsizes := results_lengthField hrest hsum.le
  have hblock := hread.block
  have hafter := hread.rest.trans (after_lengthField hsum)
  rw [hsizes] at hsum hblock
  refine ⟨m, hsum, hafter, ?_⟩
  rw [ntohl_eq_iff, hblock]
  exact restarted_htonl_iff hlen hsum (pos_of_mem_sizes hready (by decide)) rest

lemma readFileLen_of_kept (hready : ∀ i, 0 < ready i) {len fuel m : ℕ} (hlen : len < 2 ^ 31)
    {rest : List UInt8} (hrest : 4 ≤ rest.length)
    (hsum : (Source.sizes ready 4 0 m).sum = 4)
    (hkept : LengthKept len (Source.sizes ready 4 0 m)) (hm : m ≤ fuel) :
    ∃ mem, readFileLen ready fuel ⟨htonl (Int32.ofNat len) ++ rest, 0⟩ = some (mem, ⟨rest, m⟩) ∧
      ntohl mem = Int32.ofNat len := by
  have hsizes : (⟨htonl (Int32.ofNat len) ++ rest, 0⟩ : Source UInt8).results ready 4 m
      = Source.sizes ready 4 0 m :=
    results_lengthField hrest ((Source.sum_results_le _ m).trans hsum.le)
  have hpos := pos_of_mem_sizes hready (by decide : 0 < 4) (i := 0) (m := m)
  have hresults := hsum
  rw [← hsizes] at hresults
  have hread : FieldRead ready 4 0 m ⟨htonl (Int32.ofNat len) ++ rest, 0⟩ ⟨rest, m⟩ (.zero 4)
      ⟨htonl (Int32.ofNat len), length_htonl _⟩ := by
    refine ⟨?_, ?_, ?_, ?_⟩
    · rw [hsizes, hsum]
    · rwa [hsizes]
    · exact (after_lengthField hresults).symm
    · rw [hsizes]
      exact ((restarted_htonl_iff hlen hsum hpos rest).mpr hkept).symm
  exact ⟨_, hread.readField (by decide) hm, ntohl_eq_iff.mpr rfl⟩

/-! ## The name -/

/-- The string at the start of a block is the name exactly when a zero follows it there. -/
lemma takeWhile_eq_iff {block name : List UInt8} (hname : 0 ∉ name) (hzero : 0 ∈ block) :
    block.takeWhile (· ≠ 0) = name ↔ ∃ rest, block = name ++ 0 :: rest := by
  have hne : ∀ b ∈ name, decide (b ≠ 0) = true := fun b hb =>
    decide_eq_true fun h => hname (h ▸ hb)
  constructor
  · rintro rfl
    have hsplit : block.takeWhile (fun b => decide (b ≠ 0))
        ++ block.dropWhile (fun b => decide (b ≠ 0)) = block := List.takeWhile_append_dropWhile
    cases hdrop : block.dropWhile (fun b => decide (b ≠ 0)) with
    | nil =>
      rw [hdrop, List.append_nil] at hsplit
      rw [hsplit] at hname
      exact absurd hzero hname
    | cons b rest =>
      have hb : decide (b ≠ 0) = false := by
        have hhead := List.head?_dropWhile_not (fun b : UInt8 => decide (b ≠ 0)) block
        rw [hdrop] at hhead
        simpa using hhead
      have hb0 : b = 0 := by simpa using hb
      rw [hdrop, hb0] at hsplit
      exact ⟨rest, hsplit.symm⟩
  · rintro ⟨rest, rfl⟩
    rw [List.takeWhile_append_of_pos hne, List.takeWhile_cons_of_neg (by decide), List.append_nil]

lemma getElem?_fileNameField {name : List UInt8} {j : ℕ} (hle : name.length ≤ j) (hj : j < 25) :
    (fileNameField name)[j]? = some 0 := by
  rw [fileNameField_eq (by omega), List.getElem?_append_right hle, List.getElem?_replicate,
    if_pos (by omega)]

/-- With more than one read, what stands first is not the start of the name. -/
lemma reads_of_name {name rest block rest' : List UInt8} (hname : 0 ∉ name) (hne : name ≠ [])
    {rs : List ℕ} (hsum : rs.sum = 25) (hpos : ∀ r ∈ rs, 0 < r) (hlen : name.length ≤ 24)
    (h : restarted (fileNameField name ++ rest) block rs = name ++ 0 :: rest') : rs = [25] := by
  cases rs using List.reverseRecOn with
  | nil => simp at hsum
  | append_singleton rs r =>
    rw [List.sum_append, List.sum_singleton] at hsum
    have hr : 0 < r := hpos r (by simp)
    rcases rs with _ | ⟨s, rs⟩
    · simp at hsum
      simp [hsum]
    · have hs : 0 < s := hpos s (by simp)
      rw [restarted_snoc] at h
      rw [List.sum_cons] at hsum h
      have ho : 0 < s + rs.sum := Nat.add_pos_left hs _
      generalize s + rs.sum = o at hsum h ho
      -- the last read brings the zero at `max o n` of the field among the bytes of the name
      have hpos := List.length_pos_iff.mpr hne
      have hd : max o name.length - o < name.length := by omega
      have hzero : (((fileNameField name ++ rest).drop o).take r ++
          (restarted (fileNameField name ++ rest) block (s :: rs)).drop r)[max o name.length
            - o]? = some 0 := by
        rw [List.getElem?_append_left (by rw [List.length_take, List.length_drop,
            List.length_append, length_fileNameField (by omega)]; omega),
          List.getElem?_take_of_lt (by omega), List.getElem?_drop,
          List.getElem?_append_left (by rw [length_fileNameField (by omega)]; omega),
          getElem?_fileNameField (by omega) (by omega)]
      rw [h, List.getElem?_append_left hd] at hzero
      exact absurd (List.mem_of_getElem? hzero) hname

/-- The loop over the name reads its 25 bytes; the name is right when they come in one read. -/
lemma ready_of_readFileName (hready : ∀ i, 0 < ready i) {name rest : List UInt8}
    (hname : 0 ∉ name) (hne : name ≠ []) (hlen : name.length ≤ 25)
    (hsmall : rest.length < 2 ^ 31) {fuel m : ℕ} {fileName : Buffer 25} {c : Source UInt8}
    (h : readFileName ready fuel ⟨fileNameField name ++ rest, m⟩ = some (fileName, c))
    (hzero : 0 ∈ fileName.toList) (hdecoded : fileName.toList.takeWhile (· ≠ 0) = name) :
    name.length ≤ 24 ∧ 25 ≤ ready m := by
  obtain ⟨rest', hrest'⟩ := (takeWhile_eq_iff hname hzero).mp hdecoded
  have hshort : name.length ≤ 24 := by
    have hlength := congrArg List.length hrest'
    rw [List.Vector.toList_length, List.length_append, List.length_cons] at hlength
    omega
  obtain ⟨k, -, hread⟩ := fieldRead_of_readField hready (by decide) (by decide) (k := 0) (by
    show 0 + (fileNameField name ++ rest).length < 2 ^ 32
    rw [List.length_append, length_fileNameField hlen]
    omega) h
  have hsum := hread.sum
  rw [Nat.zero_add] at hsum
  have hone := reads_of_name hname hne hsum hread.pos hshort (hread.block.symm.trans hrest')
  refine ⟨hshort, ?_⟩
  cases k with
  | zero => cases hone
  | succ k =>
    have hfirst := (List.cons.inj hone).1
    rw [Source.length_read] at hfirst
    show 25 ≤ ready (⟨fileNameField name ++ rest, m⟩ : Source UInt8).reads
    omega

lemma readFileName_of_ready {name rest : List UInt8} (hlen : name.length ≤ 25) {fuel m : ℕ}
    (hm : 25 ≤ ready m) (hfuel : 1 ≤ fuel) :
    readFileName ready fuel ⟨fileNameField name ++ rest, m⟩
      = some (⟨fileNameField name, length_fileNameField hlen⟩, ⟨rest, m + 1⟩) := by
  have hfield := length_fileNameField hlen
  have hresults : (⟨fileNameField name ++ rest, m⟩ : Source UInt8).results ready 25 1 = [25] := by
    rw [Source.results, Source.length_read, List.length_append, hfield]
    show [min (min 25 (ready m)) (25 + rest.length)] = [25]
    rw [min_eq_left hm, min_eq_left (Nat.le_add_right _ _)]
  have hread : FieldRead ready 25 0 1 ⟨fileNameField name ++ rest, m⟩ ⟨rest, m + 1⟩ (.zero 25)
      ⟨fileNameField name, hfield⟩ := by
    refine ⟨?_, ?_, ?_, ?_⟩
    · rw [hresults]
      rfl
    · rw [hresults]
      simp
    · rw [Source.after_eq, hresults, List.sum_singleton, List.drop_left' hfield]
    · rw [hresults]
      show fileNameField name
        = (fileNameField name ++ rest).take 25 ++ (Buffer.zero 25).toList.drop 25
      rw [List.take_left' hfield]
      simp
  exact hread.readField (by decide) hfuel

/-! ## The file -/

/-- The loop over the file ends with all of it. -/
lemma readData_eq (hready : ∀ i, 0 < ready i) {fuel : ℕ} {c : Source UInt8}
    {written : List UInt8} (hsize : c.unread.length < 2 ^ 31) (hfuel : c.unread.length ≤ fuel) :
    readData ready fuel c (Int32.ofNat c.unread.length) written = some (written ++ c.unread) := by
  induction fuel generalizing c written with
  | zero =>
    have hnil : c.unread = [] := List.eq_nil_of_length_eq_zero (Nat.le_zero.mp hfuel)
    rw [readData, hnil, List.append_nil]
    rfl
  | succ fuel ih =>
    rw [readData]
    by_cases hnil : c.unread = []
    · rw [hnil, List.append_nil]
      rfl
    · have hpos := List.length_pos_iff.mpr hnil
      have hlen : (c.read ready 1000).1.length
          = min (min 1000 (ready c.reads)) c.unread.length := c.length_read
      have hread := hready c.reads
      have hrest : (c.read ready 1000).2.unread
          = c.unread.drop (c.read ready 1000).1.length := c.unread_read
      have hshorter : (c.read ready 1000).2.unread.length
          = c.unread.length - (c.read ready 1000).1.length := by
        rw [hrest, List.length_drop]
      rw [if_neg (ofNat_ne_zero hpos hsize), ofNat_sub_length (by omega), ← hrest,
        ih (by omega) (by omega), List.append_assoc]
      rw [c.read_append]

/-! ## When the file arrives -/

/-- The length field arrives so that it is read in one piece, or so that it does not matter, and
the name field in one piece. -/
def ArrivesWell (ready : ℕ → ℕ) (len : ℕ) : Prop :=
  ∃ m, (Source.sizes ready 4 0 m).sum = 4 ∧ LengthKept len (Source.sizes ready 4 0 m) ∧
    25 ≤ ready m

/-- `process_request` ends, with the length and the name the client has encoded, and with the
bytes of the file in the file it has made. -/
def Transferred (ready : ℕ → ℕ) (fopen : List UInt8 → Bool) (stream name content : List UInt8) :
    Prop :=
  ∃ fuel, processRequest ready fopen fuel stream
    = some (.ok ⟨Int32.ofNat content.length, name, some content⟩)

/-- What `process_request` does when it ends well. -/
lemma processRequest_eq_some {fopen : List UInt8 → Bool} {fuel : ℕ} {stream : List UInt8}
    {len : Int32} {name content : List UInt8} :
    processRequest ready fopen fuel stream = some (.ok ⟨len, name, some content⟩) ↔
      ∃ mem c fileName c', readFileLen ready fuel ⟨stream, 0⟩ = some (mem, c) ∧
        readFileName ready fuel c = some (fileName, c') ∧ ntohl mem = len ∧
        0 ∈ fileName.toList ∧ fileName.toList.takeWhile (· ≠ 0) = name ∧
        fopen (recName name) = true ∧ readData ready fuel c' len [] = some content := by
  unfold processRequest
  simp only [Option.bind_eq_bind, Option.bind_eq_some_iff]
  constructor
  · rintro ⟨⟨mem, c⟩, hmem, ⟨fileName, c'⟩, hname, h⟩
    refine ⟨mem, c, fileName, c', hmem, hname, ?_⟩
    dsimp only at h
    split at h
    · cases h
    · rename_i hzero
      split at h
      · rename_i hopen
        obtain ⟨written, hdata, heq⟩ := Option.bind_eq_some_iff.mp h
        cases heq
        exact ⟨rfl, not_not.mp hzero, rfl, hopen, hdata⟩
      · split at h <;> cases h
  · rintro ⟨mem, c, fileName, c', hmem, hname, rfl, hzero, rfl, hopen, hdata⟩
    refine ⟨(mem, c), hmem, (fileName, c'), hname, ?_⟩
    dsimp only
    rw [if_neg (not_not.mpr hzero), if_pos hopen, hdata]
    rfl

/-- **The file is transferred exactly when the length and the name arrive well**, the name leaves
room for a zero, and the server can make the file. -/
theorem transferred_iff {fopen : List UInt8 → Option (List UInt8)} {name content : List UInt8}
    {writes : List (List UInt8)} (hempty : fopen [] = none) (hnul : 0 ∉ name)
    (hcontent : fopen name = some content) (hsize : content.length < 2 ^ 31)
    (hwrites : ftpc fopen name = some writes) (hready : ∀ i, 0 < ready i)
    (fopenServer : List UInt8 → Bool) :
    Transferred ready fopenServer writes.flatten name content ↔
      ArrivesWell ready content.length ∧ name.length ≤ 24 ∧ fopenServer (recName name) = true := by
  obtain ⟨hlen, hstream⟩ := flatten_ftpc hcontent hsize hwrites
  have hne : name ≠ [] := by
    rintro rfl
    rw [hempty] at hcontent
    cases hcontent
  have hrest : (fileNameField name ++ content).length = 25 + content.length := by
    rw [List.length_append, length_fileNameField hlen]
  rw [hstream]
  constructor
  · rintro ⟨fuel, h⟩
    obtain ⟨mem, c, fileName, c', hmem, hfile, hntohl, hzero, hdecoded, hopen, hdata⟩ :=
      processRequest_eq_some.mp h
    obtain ⟨m, hsum, rfl, hkept⟩ :=
      kept_of_readFileLen hready hsize (by omega) (by omega) hmem
    obtain ⟨hshort, hm⟩ :=
      ready_of_readFileName hready hnul hne hlen hsize hfile hzero hdecoded
    exact ⟨⟨m, hsum, hkept.mp hntohl, hm⟩, hshort, hdecoded ▸ hopen⟩
  · rintro ⟨⟨m, hsum, hkept, hm⟩, hshort, hopen⟩
    obtain ⟨mem, hmem, hntohl⟩ := readFileLen_of_kept hready hsize
      (by omega : 4 ≤ (fileNameField name ++ content).length) hsum hkept
      (by omega : m ≤ m + 1 + content.length)
    have hfield := fileNameField_eq hlen
    obtain ⟨k, hk⟩ : ∃ k, 25 - name.length = k + 1 := ⟨24 - name.length, by omega⟩
    rw [hk, List.replicate_succ] at hfield
    refine ⟨m + 1 + content.length, processRequest_eq_some.mpr ⟨mem, _, _, _, hmem,
      readFileName_of_ready hlen hm (by omega), hntohl, ?_, ?_, hopen, ?_⟩⟩
    · show 0 ∈ fileNameField name
      rw [hfield]
      simp
    · show (fileNameField name).takeWhile (· ≠ 0) = name
      exact (takeWhile_eq_iff hnul (by rw [hfield]; simp)).mpr ⟨_, hfield⟩
    · exact readData_eq (c := ⟨content, m + 1⟩) hready hsize (by show content.length ≤ _; omega)

/-- One file, with the name `f`. -/
def oneFile (content fileName : List UInt8) : Option (List UInt8) :=
  if fileName = [102] then some content else none

/-- A small file is sent in one piece. -/
lemma ftpc_oneFile {content : List UInt8} (hne : content ≠ []) (hsmall : content.length ≤ 1000) :
    ftpc (oneFile content) [102]
      = some [htonl (Int32.ofNat content.length), fileNameField [102], content] := by
  have hsize : content.length < 2 ^ 31 := by omega
  have hfile : oneFile content [102] = some content := rfl
  have hend : sendData (Int32.ofNat ([] : List UInt8).length) [] = some [] := by
    unfold sendData
    exact if_pos rfl
  have hdata : sendData (Int32.ofNat content.length) content = some [content] := by
    rw [sendData, if_neg (ofNat_ne_zero (List.length_pos_iff.mpr hne) hsize), dif_neg hne,
      List.take_of_length_le hsmall, ofNat_sub_length le_rfl, List.drop_length,
      List.drop_eq_nil_of_le hsmall, hend, Option.map_some]
  have hlen : iniFileInfo (oneFile content) [102] = some (Int32.ofNat content.length) := by
    have hpos : ¬ Int32.ofNat content.length < 0 := by
      rw [Int32.lt_iff_toInt_lt, Int32.toInt_ofNat_of_lt hsize]
      exact not_lt.mpr (Int.natCast_nonneg _)
    rw [iniFileInfo, hfile]
    exact (if_neg (by decide)).trans (if_neg hpos)
  simp only [ftpc, hlen, hfile, Option.bind_eq_bind, Option.bind_some, hdata]
  rfl

/-- A file of 256 bytes arrives when its length is read as three bytes and one, the name in one
piece and the file in pieces of at most ten bytes. -/
theorem transferred_iff_pieces :
    Transferred (fun i => [3, 1, 25].getD i 10) (fun _ => true)
      [htonl 256, fileNameField [102], List.replicate 256 7].flatten [102]
      (List.replicate 256 7) := by
  -- any file of this length
  generalize hcontent : List.replicate 256 (7 : UInt8) = content
  have hlength : content.length = 256 := by rw [← hcontent, List.length_replicate]
  have hne : content ≠ [] := List.ne_nil_of_length_pos (by omega)
  have hsent := ftpc_oneFile hne (by omega)
  rw [hlength] at hsent
  have hready : ∀ i, 0 < [3, 1, 25].getD i 10 := by
    intro i
    match i with
    | 0 | 1 | 2 | _ + 3 => simp
  have hfile : oneFile content [102] = some content := rfl
  refine (transferred_iff rfl (by decide) hfile (by omega) hsent hready (fun _ => true)).mpr
    ⟨⟨2, rfl, ?_, le_rfl⟩, by decide, rfl⟩
  rw [hlength]
  exact Or.inr (Or.inr (Or.inl ⟨rfl, by decide, by decide⟩))

/-- It does not when every read finds one byte. -/
theorem not_always_transferred :
    ¬ ∀ (fopen : List UInt8 → Option (List UInt8)) (name content : List UInt8)
      (writes : List (List UInt8)) (ready : ℕ → ℕ), fopen [] = none → 0 ∉ name →
      fopen name = some content → content.length < 2 ^ 31 → ftpc fopen name = some writes →
        (∀ i, 0 < ready i) → Transferred ready (fun _ => true) writes.flatten name content := by
  intro h
  obtain ⟨fuel, hright⟩ := h (oneFile [7]) [102] [7] _ (fun _ => 1) rfl (by decide) rfl
    (by decide) (ftpc_oneFile (by decide) (by decide)) (fun _ => Nat.one_pos)
  obtain ⟨mem, c, fileName, c', hmem, -, hntohl, -⟩ := processRequest_eq_some.mp hright
  obtain ⟨m, hsum, -, hkept⟩ := kept_of_readFileLen (fun _ => Nat.one_pos)
    (by decide : 1 < 2 ^ 31) (by decide) (by decide) hmem
  have hsizes : Source.sizes (fun _ => 1) 4 0 m = List.replicate m 1 := by
    simp [Source.sizes, List.map_const']
  rw [hsizes, List.sum_replicate, smul_eq_mul, mul_one] at hsum
  subst hsum
  have hkept' := hkept.mp hntohl
  rw [hsizes] at hkept'
  exact absurd hkept' (by decide)

end NetworkProgramming.Lab2
