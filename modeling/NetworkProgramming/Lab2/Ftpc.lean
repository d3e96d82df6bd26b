import NetworkProgramming.Lib.Bytes

/-!
# `ftpc.c` over TCP

The client sends the length of the file in four bytes, most significant first, the name in a field
of 25 bytes, which a name of 25 bytes fills without a terminating zero, and then the file.
-/

namespace NetworkProgramming.Lab2

/-! ## The client -/

/-- `ini_file_info`: the length, unless it returns -1. `fopen` gives the bytes of the files that
can be opened. -/
def iniFileInfo (fopen : List UInt8 → Option (List UInt8)) (fileName : List UInt8) :
    Option Int32 :=
  match fopen fileName with
  | none => none
  | some content =>
    if 25 < fileName.length then none
    else if Int32.ofNat content.length < 0 then none
    else some (Int32.ofNat content.length)

/-- The memory of `net_order_len`. -/
def htonl (len : Int32) : List UInt8 := (leBytes 4 len.toUInt32.toNat).reverse

/-- The first 25 bytes of `char file_name[100]`, which holds the name and zeros. -/
def fileNameField (fileName : List UInt8) : List UInt8 :=
  (fileName ++ List.replicate (100 - fileName.length) 0).take 25

/-- The loop over the file; when `fread` returns 0 before `left_len` is 0, it does not end. -/
def sendData (leftLen : Int32) (unread : List UInt8) : Option (List (List UInt8)) :=
  if leftLen = 0 then some []
  else if _h : unread = [] then none
  else
    (sendData (leftLen - Int32.ofNat (unread.take 1000).length) (unread.drop 1000)).map
      (unread.take 1000 :: ·)
termination_by unread.length
decreasing_by
  have := List.length_pos_iff.mpr _h
  rw [List.length_drop]
  omega

/-- What `main` writes to the connection. -/
def ftpc (fopen : List UInt8 → Option (List UInt8)) (fileName : List UInt8) :
    Option (List (List UInt8)) := do
  let len ← iniFileInfo fopen fileName
  let content ← fopen fileName
  let data ← sendData len content
  return htonl len :: fileNameField fileName :: data

/-! ## What it sends -/

variable {fopen : List UInt8 → Option (List UInt8)} {fileName content : List UInt8}

/-- The length goes down with the bytes that are left. -/
lemma ofNat_sub_length {l : List UInt8} {k : ℕ} (hk : k ≤ l.length) :
    Int32.ofNat l.length - Int32.ofNat k = Int32.ofNat (l.drop k).length := by
  rw [List.length_drop, Int32.ofNat_sub _ _ hk]

lemma ofNat_ne_zero {k : ℕ} (hpos : 0 < k) (hk : k < 2 ^ 31) : Int32.ofNat k ≠ 0 := by
  intro h
  have hnat := congrArg Int32.toNatClampNeg h
  rw [Int32.toNatClampNeg_ofNat_of_lt hk] at hnat
  exact absurd hnat (Nat.ne_of_gt hpos)

/-- The loop sends the whole file. -/
lemma sendData_eq (hsize : content.length < 2 ^ 31) :
    ∃ data, sendData (Int32.ofNat content.length) content = some data ∧
      data.flatten = content := by
  induction hn : content.length using Nat.strong_induction_on generalizing content with
  | h n ih =>
    subst hn
    by_cases hnil : content = []
    · subst hnil
      refine ⟨[], ?_, rfl⟩
      unfold sendData
      exact if_pos rfl
    · have hpos := List.length_pos_iff.mpr hnil
      obtain ⟨data, hdata, hflatten⟩ := ih (content.drop 1000).length
        (by rw [List.length_drop]; omega) (by rw [List.length_drop]; omega) rfl
      refine ⟨content.take 1000 :: data, ?_, ?_⟩
      · have hdrop : content.drop (content.take 1000).length = content.drop 1000 := by
          rw [List.length_take]
          rcases Nat.le_total 1000 content.length with h | h
          · rw [min_eq_left h]
          · rw [min_eq_right h, List.drop_length, List.drop_eq_nil_of_le h]
        rw [sendData, if_neg (ofNat_ne_zero hpos hsize), dif_neg hnil,
          ofNat_sub_length (by rw [List.length_take]; exact min_le_right _ _), hdrop, hdata]
        rfl
      · rw [List.flatten_cons, hflatten, List.take_append_drop]

/-- An accepted file is sent as its length, its name and its bytes. -/
theorem flatten_ftpc (hcontent : fopen fileName = some content) (hsize : content.length < 2 ^ 31)
    {writes : List (List UInt8)} (h : ftpc fopen fileName = some writes) :
    fileName.length ≤ 25 ∧ writes.flatten
      = htonl (Int32.ofNat content.length) ++ (fileNameField fileName ++ content) := by
  obtain ⟨data, hdata, hflatten⟩ := sendData_eq hsize
  unfold ftpc iniFileInfo at h
  rw [hcontent] at h
  dsimp only at h
  split at h
  · cases h
  · rename_i hlong
    split at h
    · cases h
    · simp only [Option.bind_eq_bind, Option.bind_some, hdata] at h
      cases h
      exact ⟨not_lt.mp hlong, by rw [List.flatten_cons, List.flatten_cons, hflatten]⟩

lemma length_htonl (len : Int32) : (htonl len).length = 4 := by
  rw [htonl, List.length_reverse, length_leBytes]

/-- The name field is the name with zeros behind it. -/
lemma fileNameField_eq (h : fileName.length ≤ 25) :
    fileNameField fileName = fileName ++ List.replicate (25 - fileName.length) 0 := by
  have hmin : min (25 - fileName.length) (100 - fileName.length) = 25 - fileName.length := by
    omega
  rw [fileNameField, List.take_append, List.take_of_length_le h, List.take_replicate, hmin]

lemma length_fileNameField (h : fileName.length ≤ 25) : (fileNameField fileName).length = 25 := by
  rw [fileNameField_eq h, List.length_append, List.length_replicate]
  omega

end NetworkProgramming.Lab2
