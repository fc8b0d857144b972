import DatumConnect.Lib.Lines
import DatumConnect.Logs.Ansi
/-!
# The tail of a log

`tail_file` reads a file backward in chunks.  What it makes of them is the end of what reading the
whole file forward makes.
-/

namespace DatumConnect.Logs

open DatumConnect.Lib.Utf8 DatumConnect.Lib.Lines

def readChunkSize : Nat := 64 * 1024

def maxTailReadBytes : Nat := 8 * 1024 * 1024

/-- An open file: its length when it was opened, and what a seek and `read_exact` of some bytes
there give, where both go well. -/
structure File where
  length : Nat
  read : (start length : Nat) → Option (List UInt8)

/-- A file that nobody changes. -/
def File.holding (content : List UInt8) : File where
  length := content.length
  read start length :=
    if start + length ≤ content.length then some ((content.drop start).take length) else none

/-- What can be read of the file is the content. -/
structure File.Shows (file : File) (content : List UInt8) : Prop where
  length_eq : file.length = content.length
  read_eq : ∀ {start length bytes}, file.read start length = some bytes →
    bytes = (content.drop start).take length

theorem File.holding_shows (content : List UInt8) : (File.holding content).Shows content where
  length_eq := rfl
  read_eq {start length bytes} h := by
    unfold File.holding at h
    simp only at h
    split_ifs at h
    exact (Option.some.inj h).symm

theorem File.holding_read {content : List UInt8} {start length : Nat}
    (h : start + length ≤ content.length) :
    (File.holding content).read start length = some ((content.drop start).take length) :=
  if_pos h

/-- The loop of `tail_file`: where it stops, and the bytes from there on. -/
def readBack (file : File) (n pos newlineCount totalRead : Nat) (buf : List UInt8) :
    Nat × List UInt8 :=
  if 0 < pos ∧ newlineCount ≤ n ∧ totalRead < maxTailReadBytes then
    let chunkLen := min readChunkSize pos
    let chunkStart := pos - chunkLen
    match file.read chunkStart chunkLen with
    | none => (pos, buf)
    | some chunk =>
        readBack file n chunkStart (newlineCount + chunk.count 10) (totalRead + chunkLen)
          (chunk ++ buf)
  else (pos, buf)
termination_by pos
decreasing_by
  have hchunk : 0 < readChunkSize := by decide
  omega

/-- The lines of the bytes from `pos` on: the first may be what is left of one that was cut. -/
def wholeLines (pos : Nat) (buf : List UInt8) : List String :=
  let lines := textLines buf
  if 0 < pos ∧ lines ≠ [] then lines.eraseIdx 0 else lines

def tailFile (file : File) (n : Nat) : List String :=
  let (pos, buf) := readBack file n file.length 0 0 []
  (takeLast n (wholeLines pos buf)).map stripAnsi

/-- The last lines of the whole text. -/
def lastLines (content : List UInt8) (n : Nat) : List String :=
  (takeLast n (textLines content)).map stripAnsi

/-! ## What has been read -/

/-- Where the loop stands: the bytes from here to the end are read and their line feeds counted. -/
structure Behind (content : List UInt8) (pos newlineCount totalRead : Nat) (buf : List UInt8) :
    Prop where
  inside : pos ≤ content.length
  buf_eq : buf = content.drop pos
  count_eq : newlineCount = buf.count 10
  total_eq : totalRead = buf.length

theorem behind_start (content : List UInt8) : Behind content content.length 0 0 [] where
  inside := Nat.le_refl _
  buf_eq := List.drop_length.symm
  count_eq := rfl
  total_eq := rfl

theorem Behind.chunk {content : List UInt8} {pos newlineCount totalRead len : Nat}
    {buf : List UInt8} (h : Behind content pos newlineCount totalRead buf) (hlen : len ≤ pos) :
    let chunk := (content.drop (pos - len)).take len
    Behind content (pos - len) (newlineCount + chunk.count 10) (totalRead + len)
      (chunk ++ buf) where
  inside := (Nat.sub_le pos len).trans h.inside
  buf_eq := by
    have hrest : buf = (content.drop (pos - len)).drop len := by
      rw [List.drop_drop, Nat.sub_add_cancel hlen]
      exact h.buf_eq
    rw [hrest]
    exact List.take_append_drop len _
  count_eq := by
    rw [List.count_append, h.count_eq, Nat.add_comm]
  total_eq := by
    have hinside := h.inside
    rw [List.length_append, List.length_take, List.length_drop, h.total_eq]
    omega

/-- Whatever fails to be read, what has been read is the end of the content. -/
theorem readBack_suffix {file : File} {content : List UInt8} (hfile : file.Shows content) {n : Nat}
    {pos newlineCount totalRead : Nat} {buf : List UInt8}
    (h : Behind content pos newlineCount totalRead buf) {result : Nat × List UInt8}
    (hresult : readBack file n pos newlineCount totalRead buf = result) :
    result.1 ≤ content.length ∧ result.2 = content.drop result.1 := by
  induction pos, newlineCount, totalRead, buf using readBack.induct file n with
  | case1 pos newlineCount totalRead buf hgoes chunkLen chunkStart hread =>
    rw [readBack, if_pos hgoes] at hresult
    simp only at hresult
    rw [hread] at hresult
    rw [← hresult]
    exact ⟨h.inside, h.buf_eq⟩
  | case2 pos newlineCount totalRead buf hgoes chunkLen chunkStart chunk hread ih =>
    rw [readBack, if_pos hgoes] at hresult
    simp only at hresult
    rw [hread] at hresult
    refine ih ?_ hresult
    rw [hfile.read_eq hread]
    exact h.chunk (Nat.min_le_right _ _)
  | case3 pos newlineCount totalRead buf hstops =>
    rw [readBack, if_neg hstops] at hresult
    rw [← hresult]
    exact ⟨h.inside, h.buf_eq⟩

/-- Of a file that nobody changes it reads until it has enough. -/
theorem readBack_enough {content : List UInt8} {n : Nat}
    {pos newlineCount totalRead : Nat} {buf : List UInt8}
    (h : Behind content pos newlineCount totalRead buf) {result : Nat × List UInt8}
    (hresult : readBack (.holding content) n pos newlineCount totalRead buf = result) :
    result.1 = 0 ∨ n < result.2.count 10 ∨ maxTailReadBytes ≤ result.2.length := by
  induction pos, newlineCount, totalRead, buf using readBack.induct (.holding content) n with
  | case1 pos newlineCount totalRead buf hgoes chunkLen chunkStart hread =>
    have hinside := h.inside
    have hlen : chunkLen ≤ pos := Nat.min_le_right _ _
    have hsome : (File.holding content).read chunkStart chunkLen = some _ :=
      File.holding_read (by omega)
    rw [hsome] at hread
    cases hread
  | case2 pos newlineCount totalRead buf hgoes chunkLen chunkStart chunk hread ih =>
    rw [readBack, if_pos hgoes] at hresult
    simp only at hresult
    rw [hread] at hresult
    refine ih ?_ hresult
    rw [(File.holding_shows content).read_eq hread]
    exact h.chunk (Nat.min_le_right _ _)
  | case3 pos newlineCount totalRead buf hstops =>
    rw [readBack, if_neg hstops] at hresult
    rw [← hresult, ← h.count_eq, ← h.total_eq]
    show pos = 0 ∨ n < newlineCount ∨ maxTailReadBytes ≤ totalRead
    omega

/-! ## What is shown of it -/

/-- Enough lines are behind the one that may have been cut: the whole content is within the limit,
or `n + 1` line feeds are. -/
def Within (content : List UInt8) (n : Nat) : Prop :=
  content.length ≤ maxTailReadBytes ∨
    n + 1 ≤ (content.drop (content.length - maxTailReadBytes)).count 10

theorem wholeLines_suffix {content buf : List UInt8} {pos : Nat} (hbuf : buf = content.drop pos) :
    wholeLines pos buf <:+ textLines content := by
  have hsuffix := drop_one_textLines (content.take pos) buf
  rw [hbuf, List.take_append_drop, ← hbuf] at hsuffix
  unfold wholeLines
  simp only
  split_ifs with hcut
  · rwa [List.eraseIdx_zero, ← List.drop_one]
  · by_cases hpos : 0 < pos
    · have hnil : textLines buf = [] := by
        by_contra hne
        exact hcut ⟨hpos, hne⟩
      rw [hnil]
      exact List.nil_suffix
    · obtain rfl : pos = 0 := Nat.eq_zero_of_not_pos hpos
      rw [hbuf, List.drop_zero]

theorem length_wholeLines {pos n : Nat} {buf : List UInt8} (h : n + 1 ≤ buf.count 10) :
    n ≤ (wholeLines pos buf).length := by
  have hlines := h.trans (count_le_length buf)
  unfold wholeLines
  simp only
  split_ifs
  · rw [List.eraseIdx_zero, List.length_tail]
    omega
  · omega

/-- Nothing but the end of what there is to show is ever shown, whatever cannot be read. -/
theorem tailFile_suffix {file : File} {content : List UInt8} (hfile : file.Shows content)
    (n : Nat) : tailFile file n <:+ lastLines content n := by
  have hstart := behind_start content
  rw [← hfile.length_eq] at hstart
  obtain ⟨-, hbuf⟩ := readBack_suffix (n := n) hfile hstart rfl
  unfold tailFile lastLines
  exact (takeLast_suffix (wholeLines_suffix hbuf) n).map stripAnsi

theorem count_of_within {content buf : List UInt8} {n pos : Nat} (h : Within content n)
    (hpos : 0 < pos) (hinside : pos ≤ content.length) (hbuf : buf = content.drop pos)
    (henough : pos = 0 ∨ n < buf.count 10 ∨ maxTailReadBytes ≤ buf.length) :
    n + 1 ≤ buf.count 10 := by
  rcases henough with hzero | hmany | hcap
  · omega
  · exact hmany
  · rw [hbuf, List.length_drop] at hcap
    rcases h with hshort | hmany
    · omega
    · have hfrom : pos ≤ content.length - maxTailReadBytes := by omega
      rw [hbuf]
      exact hmany.trans ((List.drop_sublist_drop_left content hfrom).count_le 10)

theorem tailFile_eq {content : List UInt8} {n : Nat} (h : Within content n) :
    tailFile (.holding content) n = lastLines content n := by
  have hstart := behind_start content
  obtain ⟨hinside, hbuf⟩ := readBack_suffix (n := n) (File.holding_shows content) hstart rfl
  have henough := readBack_enough (n := n) hstart rfl
  unfold tailFile lastLines
  change List.map stripAnsi (takeLast n (wholeLines
    (readBack (.holding content) n content.length 0 0 []).1
    (readBack (.holding content) n content.length 0 0 []).2)) = _
  apply congrArg
  rcases Nat.eq_zero_or_pos (readBack (.holding content) n content.length 0 0 []).1 with hzero | hpos
  · rw [hbuf, hzero, List.drop_zero]
    rfl
  · apply takeLast_eq (wholeLines_suffix hbuf)
    exact length_wholeLines (count_of_within h hpos hinside hbuf henough)

/-- The backward tail is the end of the forward one, and all of it within the limit. -/
theorem backward_is_forward (content : List UInt8) (n : Nat) :
    tailFile (.holding content) n <:+ lastLines content n ∧
      (Within content n → tailFile (.holding content) n = lastLines content n) :=
  ⟨tailFile_suffix (File.holding_shows content) n, tailFile_eq⟩

/-- A long line, and another that ends in the last chunk. -/
def twoChunks : List UInt8 := List.replicate 70000 97 ++ [10, 98]

theorem two_chunks_tail :
    readChunkSize < twoChunks.length ∧ tailFile (.holding twoChunks) 1 <:+ lastLines twoChunks 1 ∧
      tailFile (.holding twoChunks) 1 = lastLines twoChunks 1 := by
  have hlength : twoChunks.length = 70002 := by
    rw [twoChunks, List.length_append, List.length_replicate]
    rfl
  have hwithin : Within twoChunks 1 := by
    refine Or.inl ?_
    rw [hlength]
    decide
  refine ⟨?_, (backward_is_forward twoChunks 1).1, (backward_is_forward twoChunks 1).2 hwithin⟩
  rw [hlength]
  decide

end DatumConnect.Logs
