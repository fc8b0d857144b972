import DatumConnect.Lib.Lossy
import DatumConnect.Plugin.PidFile
import DatumConnect.Plugin.StartTime
/-!
# The bytes of a pid file

`Write` and `Parse` over the bytes of the file. Of a line with a number `Parse` looks at no more than
`%d` does: spaces and a sign may come before the digits and anything after them, and it does not ask
whether the fourth line ends or is the last.
-/

namespace DatumConnect.Plugin.PidBytes

open DatumConnect.Lib DatumConnect.Plugin.Commands

structure Contents where
  goPid : Int
  rustPid : Int
  startTime : Time
  binaryPath : List UInt8
  deriving DecidableEq

/-- The loop of `splitLines`; `current` is the line so far. -/
def linesFrom (current : List UInt8) : List UInt8 → List (List UInt8)
  | [] => if current = [] then [] else [current]
  | b :: rest => if b = 10 then current :: linesFrom [] rest else linesFrom (current ++ [b]) rest

def splitLines (data : List UInt8) : List (List UInt8) := linesFrom [] data

def chars (line : List UInt8) : List Char := Utf8.lossyChars 0 line

def ascii (text : List Char) : List UInt8 := Utf8.bytes (String.ofList text)

def ofLines (goPid rustPid startTime binaryPath : List UInt8) : Option Contents := do
  let goPid ← PidFile.scanInt (chars goPid)
  let rustPid ← PidFile.scanInt (chars rustPid)
  let startTime ← Time.parse (chars startTime)
  some { goPid, rustPid, startTime, binaryPath }

def parse (data : List UInt8) : Option Contents :=
  match splitLines data with
  | goPid :: rustPid :: startTime :: binaryPath :: _ =>
      ofLines goPid rustPid startTime binaryPath
  | _ => none

/-- What `Write` puts into the file. -/
def render (goPid rustPid : Nat) (startTime : Time) (binaryPath : List UInt8) : List UInt8 :=
  ascii (Nat.toDigits 10 goPid) ++ 10 :: (ascii (Nat.toDigits 10 rustPid) ++ 10 ::
    (ascii startTime.format ++ 10 :: (binaryPath ++ [10])))

/-! ## Lines -/

theorem linesFrom_line {current line rest : List UInt8} (h : 10 ∉ line) :
    linesFrom current (line ++ 10 :: rest) = (current ++ line) :: splitLines rest := by
  induction line generalizing current with
  | nil =>
    rw [List.append_nil]
    exact if_pos rfl
  | cons b line ih =>
    rw [List.mem_cons, not_or] at h
    have hb : ¬ b = 10 := fun hb => h.1 hb.symm
    calc
      linesFrom current (b :: (line ++ 10 :: rest)) =
          linesFrom (current ++ [b]) (line ++ 10 :: rest) := if_neg hb
      _ = (current ++ [b] ++ line) :: splitLines rest := ih h.2
      _ = (current ++ b :: line) :: splitLines rest := by
        rw [List.append_assoc, List.singleton_append]

theorem length_linesFrom (current data : List UInt8) :
    (linesFrom current data).length ≤ data.count 10 + 1 := by
  induction data generalizing current with
  | nil =>
    unfold linesFrom
    split_ifs <;> simp
  | cons b rest ih =>
    unfold linesFrom
    split_ifs with hb
    · rw [hb, List.count_cons_self, List.length_cons]
      exact Nat.succ_le_succ (ih [])
    · rw [List.count_cons_of_ne hb]
      exact ih _

/-- The first line is what comes before the first line feed. -/
theorem linesFrom_head {current rest : List UInt8} (h : current ≠ [] ∨ rest ≠ []) :
    ∃ more, linesFrom current rest = (current ++ rest.takeWhile (· ≠ 10)) :: more := by
  induction rest generalizing current with
  | nil =>
    refine ⟨[], ?_⟩
    rw [List.takeWhile_nil, List.append_nil]
    exact if_neg (h.resolve_right fun hne => hne rfl)
  | cons b rest ih =>
    by_cases hb : b = 10
    · refine ⟨splitLines rest, ?_⟩
      rw [List.takeWhile_cons_of_neg (by simpa using hb), List.append_nil]
      exact if_pos hb
    · obtain ⟨more, hmore⟩ := @ih (current ++ [b]) (Or.inl (by simp))
      refine ⟨more, ?_⟩
      rw [List.takeWhile_cons_of_pos (by simpa using hb)]
      calc
        linesFrom current (b :: rest) = linesFrom (current ++ [b]) rest := if_neg hb
        _ = (current ++ [b] ++ rest.takeWhile (· ≠ 10)) :: more := hmore
        _ = (current ++ b :: rest.takeWhile (· ≠ 10)) :: more := by
          rw [List.append_assoc, List.singleton_append]

theorem line_inj {first second rest more : List UInt8} (hfirst : 10 ∉ first) (hsecond : 10 ∉ second)
    (h : first ++ 10 :: rest = second ++ 10 :: more) : first = second ∧ rest = more := by
  have hlines := congrArg (fun data => (splitLines data).head?) h
  unfold splitLines at hlines
  rw [linesFrom_line hfirst, linesFrom_line hsecond] at hlines
  obtain rfl : first = second := Option.some.inj hlines
  exact ⟨rfl, List.tail_eq_of_cons_eq (List.append_cancel_left h)⟩

/-- Three lines that have ended. -/
theorem exists_lines {data : List UInt8} (h : 3 ≤ data.count 10) :
    ∃ first second third rest, 10 ∉ first ∧ 10 ∉ second ∧ 10 ∉ third ∧
      data = first ++ 10 :: (second ++ 10 :: (third ++ 10 :: rest)) := by
  have hline {data : List UInt8} {n : Nat} (h : n + 1 ≤ data.count 10) :
      ∃ line rest, 10 ∉ line ∧ data = line ++ 10 :: rest ∧ n ≤ rest.count 10 := by
    obtain ⟨line, rest, rfl, hline⟩ :=
      List.eq_append_cons_of_mem (List.count_pos_iff.mp (Nat.lt_of_lt_of_le n.succ_pos h))
    rw [List.count_append, List.count_eq_zero.mpr hline, List.count_cons_self] at h
    exact ⟨line, rest, hline, rfl, by omega⟩
  obtain ⟨first, rest, hfirst, rfl, hrest⟩ := hline h
  obtain ⟨second, more, hsecond, rfl, hmore⟩ := hline hrest
  obtain ⟨third, tail, hthird, rfl, -⟩ := hline hmore
  exact ⟨first, second, third, tail, hfirst, hsecond, hthird, rfl⟩

theorem parse_few {data : List UInt8} (h : data.count 10 < 3) : parse data = none := by
  have hlength := length_linesFrom [] data
  unfold parse splitLines
  split
  · rename_i heq
    rw [heq] at hlength
    simp only [List.length_cons] at hlength
    omega
  · rfl

theorem parse_lines {first second third rest : List UInt8} (hfirst : 10 ∉ first)
    (hsecond : 10 ∉ second) (hthird : 10 ∉ third) :
    parse (first ++ 10 :: (second ++ 10 :: (third ++ 10 :: rest))) =
      if rest = [] then none else ofLines first second third (rest.takeWhile (· ≠ 10)) := by
  have hlines : splitLines (first ++ 10 :: (second ++ 10 :: (third ++ 10 :: rest))) =
      first :: second :: third :: splitLines rest := by
    unfold splitLines
    rw [linesFrom_line hfirst, splitLines, linesFrom_line hsecond, splitLines,
      linesFrom_line hthird]
    rfl
  unfold parse
  rw [hlines]
  by_cases hrest : rest = []
  · rw [if_pos hrest, hrest]
    rfl
  · obtain ⟨more, hmore⟩ := @linesFrom_head [] rest (Or.inr hrest)
    rw [if_neg hrest]
    unfold splitLines
    rw [hmore]
    rfl

/-! ## What is written is read -/

theorem chars_ascii (text : List Char) : chars (ascii text) = text := Utf8.lossyChars_bytes text

/-- A character of the numbers and times that are written. -/
def Printed (c : Char) : Prop := c.isDigit = true ∨ c ∈ ['-', 'T', ':', '+', 'Z']

theorem Printed.bounds {c : Char} (h : Printed c) : 43 ≤ c.toNat ∧ c.toNat < 0x80 := by
  rcases h with hdigit | hmem
  · have hbounds := Text.isDigit_bounds hdigit
    omega
  · simp only [List.mem_cons, List.not_mem_nil, or_false] at hmem
    rcases hmem with rfl | rfl | rfl | rfl | rfl <;> decide

theorem toDigits_printed (n : Nat) : ∀ c ∈ Nat.toDigits 10 n, Printed c := fun _ hc =>
  Or.inl (Nat.isDigit_of_mem_toDigits (by decide) (by decide) hc)

theorem feed_not_mem_ascii {text : List Char} (h : ∀ c ∈ text, Printed c) : 10 ∉ ascii text := by
  unfold ascii
  rw [Utf8.bytes_one fun c hc => (h c hc).bounds.2, List.mem_map]
  rintro ⟨c, hc, hfeed⟩
  have hbounds := (h c hc).bounds
  have hten := congrArg UInt8.toNat hfeed
  rw [UInt8.toNat_ofNat'] at hten
  have hsmall : c.toNat = 10 := by
    change c.toNat % 256 = 10 at hten
    omega
  omega

theorem ascii_chars {line : List UInt8} {text : List Char} (hchars : chars line = text)
    (h : ∀ c ∈ text, Printed c) : line = ascii text := by
  unfold chars at hchars
  rw [← hchars] at h ⊢
  exact (Utf8.bytes_lossyChars fun c hc => (h c hc).bounds.2).symm

theorem ofLines_written {goPid rustPid : Nat} (hgo : goPid < 2 ^ 63) (hrust : rustPid < 2 ^ 63)
    (startTime : Time) (binaryPath : List UInt8) :
    ofLines (ascii (Nat.toDigits 10 goPid)) (ascii (Nat.toDigits 10 rustPid)) (ascii startTime.format)
      binaryPath = (Time.parse startTime.format).map fun startTime =>
        { goPid, rustPid, startTime, binaryPath } := by
  unfold ofLines
  rw [chars_ascii, chars_ascii, chars_ascii, PidFile.scanInt_toDigits hgo,
    PidFile.scanInt_toDigits hrust]
  cases Time.parse startTime.format with
  | none => rfl
  | some t => rfl

theorem parse_written {goPid rustPid : Nat} (hgo : goPid < 2 ^ 63) (hrust : rustPid < 2 ^ 63)
    (startTime : Time) {tail : List UInt8} (htail : tail ≠ []) :
    parse (ascii (Nat.toDigits 10 goPid) ++ 10 :: (ascii (Nat.toDigits 10 rustPid) ++ 10 ::
      (ascii startTime.format ++ 10 :: tail))) = (Time.parse startTime.format).map fun startTime =>
        { goPid, rustPid, startTime, binaryPath := tail.takeWhile (· ≠ 10) } := by
  rw [parse_lines (feed_not_mem_ascii (toDigits_printed _)) (feed_not_mem_ascii (toDigits_printed _))
    (feed_not_mem_ascii startTime.format_chars), if_neg htail, ofLines_written hgo hrust]

/-- A file cut short has no fourth line, or the first three are there. -/
theorem parse_prefix {goPid rustPid : Nat} (hgo : goPid < 2 ^ 63) (hrust : rustPid < 2 ^ 63)
    {startTime : Time} {binaryPath data : List UInt8}
    (hcut : data <+: render goPid rustPid startTime binaryPath) {read : Contents}
    (hread : parse data = some read) :
    read.goPid = goPid ∧ read.rustPid = rustPid ∧ Time.parse startTime.format = some read.startTime := by
  have hgoLine := feed_not_mem_ascii (toDigits_printed goPid)
  have hrustLine := feed_not_mem_ascii (toDigits_printed rustPid)
  have htimeLine := feed_not_mem_ascii startTime.format_chars
  let lines := ascii (Nat.toDigits 10 goPid) ++ 10 :: (ascii (Nat.toDigits 10 rustPid) ++ 10 ::
    ascii startTime.format)
  have hrender : render goPid rustPid startTime binaryPath = lines ++ 10 :: (binaryPath ++ [10]) := by
    simp only [render, lines, List.append_assoc, List.cons_append]
  have hcount : lines.count 10 = 2 := by
    simp only [lines, List.count_append, List.count_cons_self, List.count_eq_zero.mpr hgoLine,
      List.count_eq_zero.mpr hrustLine, List.count_eq_zero.mpr htimeLine]
  rw [hrender] at hcut
  rcases List.prefix_or_prefix_of_prefix hcut (List.prefix_append lines _) with hshort | hlong
  · rw [parse_few (Nat.lt_of_le_of_lt (hshort.sublist.count_le 10) (by omega))] at hread
    cases hread
  · obtain ⟨rest, rfl⟩ := hlong
    cases rest with
    | nil =>
      rw [List.append_nil, parse_few (by omega)] at hread
      cases hread
    | cons b tail =>
      obtain rfl : b = 10 := by
        rw [List.prefix_append_right_inj, List.cons_prefix_cons] at hcut
        exact hcut.1
      simp only [lines, List.append_assoc, List.cons_append] at hread
      by_cases htail : tail = []
      · rw [parse_lines hgoLine hrustLine htimeLine, if_pos htail] at hread
        cases hread
      · rw [parse_written hgo hrust startTime htail, Option.map_eq_some_iff] at hread
        obtain ⟨t, ht, rfl⟩ := hread
        exact ⟨rfl, rfl, ht⟩

/-! ## What a number is read from -/

/-- A line that `%d` reads a number from. -/
structure Numeral where
  spaces : List Char
  sign : List Char
  digits : List Char
  rest : List Char

namespace Numeral

def text (n : Numeral) : List Char := n.spaces ++ (n.sign ++ (n.digits ++ n.rest))

def value (n : Numeral) : Int :=
  if n.sign = ['-'] then -Nat.ofDigitChars 10 n.digits 0 else Nat.ofDigitChars 10 n.digits 0

structure Read (n : Numeral) : Prop where
  spaces : ∀ c ∈ n.spaces, Text.isWhitespace c = true
  sign : n.sign = [] ∨ n.sign = ['+'] ∨ n.sign = ['-']
  digits_ne : n.digits ≠ []
  digits : ∀ c ∈ n.digits, c.isDigit = true
  rest : ∀ c ∈ n.rest.head?, c.isDigit = false
  fits : -2 ^ 63 ≤ n.value ∧ n.value < 2 ^ 63

/-- Nothing but the number, as `%d` writes it. -/
structure Exact (n : Numeral) : Prop where
  spaces : n.spaces = []
  sign : n.sign = []
  rest : n.rest = []
  shortest : n.digits = Nat.toDigits 10 (Nat.ofDigitChars 10 n.digits 0)

theorem sign_spec {negative : Bool} {line rest : List Char}
    (h : PidFile.sign line = (negative, rest)) :
    ∃ sign, (sign = [] ∨ sign = ['+'] ∨ sign = ['-']) ∧ line = sign ++ rest ∧
      (negative = true ↔ sign = ['-']) := by
  unfold PidFile.sign at h
  split at h
  · cases h
    exact ⟨['-'], by simp⟩
  · cases h
    exact ⟨['+'], by simp⟩
  · cases h
    exact ⟨[], by simp⟩

theorem exists_of_scanInt {line : List Char} {v : Int} (h : PidFile.scanInt line = some v) :
    ∃ n : Numeral, n.Read ∧ n.text = line ∧ n.value = v := by
  unfold PidFile.scanInt at h
  cases hsign : PidFile.sign (line.dropWhile Text.isWhitespace) with
  | mk negative rest =>
    rw [hsign] at h
    obtain ⟨sign, hsigns, hrest, hnegative⟩ := sign_spec hsign
    simp only at h
    split at h
    · cases h
    · rename_i hdigits
      let n : Numeral := {
        spaces := line.takeWhile Text.isWhitespace
        sign
        digits := rest.takeWhile Char.isDigit
        rest := rest.dropWhile Char.isDigit }
      have hvalue : n.value = if negative then -(Nat.ofDigitChars 10 n.digits 0 : Int)
          else Nat.ofDigitChars 10 n.digits 0 :=
        if_congr hnegative.symm rfl rfl
      rw [← hvalue] at h
      split at h
      · rename_i hfits
        refine ⟨n, ?_, ?_, Option.some.inj h⟩
        · refine ⟨fun c hc => List.mem_takeWhile_imp hc, hsigns, hdigits,
            fun c hc => List.mem_takeWhile_imp hc, fun c hc => ?_, hfits⟩
          have hhead := List.head?_dropWhile_not Char.isDigit rest
          rw [Option.mem_def.mp hc] at hhead
          simpa using hhead
        · calc
            n.text = line.takeWhile Text.isWhitespace ++ (sign ++
                (rest.takeWhile Char.isDigit ++ rest.dropWhile Char.isDigit)) := rfl
            _ = line.takeWhile Text.isWhitespace ++ (sign ++ rest) := by
              rw [List.takeWhile_append_dropWhile]
            _ = line := by rw [← hrest, List.takeWhile_append_dropWhile]
      · cases h

theorem Read.scanInt {n : Numeral} (h : n.Read) : PidFile.scanInt n.text = some n.value := by
  obtain ⟨d, digits, hdigits⟩ := List.exists_cons_of_ne_nil h.digits_ne
  have hd : d.isDigit = true := h.digits d (by rw [hdigits]; exact List.mem_cons_self)
  have hspaces : (n.text.dropWhile Text.isWhitespace) = n.sign ++ (n.digits ++ n.rest) := by
    unfold text
    rw [List.dropWhile_append_of_pos h.spaces]
    have hd' := Text.digit_not_whitespace hd
    rcases h.sign with hsign | hsign | hsign
    · rw [hsign, hdigits, List.nil_append, List.cons_append, List.dropWhile_cons_of_neg]
      rw [hd']
      exact Bool.false_ne_true
    · rw [hsign]
      rfl
    · rw [hsign]
      rfl
  have hsign : PidFile.sign (n.sign ++ (n.digits ++ n.rest)) =
      (decide (n.sign = ['-']), n.digits ++ n.rest) := by
    rcases h.sign with hsign | hsign | hsign
    · rw [hsign, List.nil_append, hdigits, List.cons_append]
      unfold PidFile.sign
      split
      · rename_i heq
        cases heq
        cases hd
      · rename_i heq
        cases heq
        cases hd
      · rfl
    · rw [hsign]
      rfl
    · rw [hsign]
      rfl
  have htake : (n.digits ++ n.rest).takeWhile Char.isDigit = n.digits := by
    rw [List.takeWhile_append_of_pos h.digits]
    cases hrest : n.rest with
    | nil => rw [List.takeWhile_nil, List.append_nil]
    | cons c more =>
      have hc := h.rest c (by rw [hrest]; rfl)
      rw [List.takeWhile_cons_of_neg (by rw [hc]; exact Bool.false_ne_true), List.append_nil]
  unfold PidFile.scanInt
  rw [hspaces, hsign]
  simp only [htake, decide_eq_true_eq]
  rw [if_neg h.digits_ne]
  exact if_pos h.fits

/-- A number that `%d` wrote is read from its digits alone. -/
theorem Read.exact {n : Numeral} (h : n.Read) {k : Nat} (htext : n.text = Nat.toDigits 10 k) :
    n.Exact := by
  have hall : ∀ c ∈ n.text, c.isDigit = true := by
    rw [htext]
    intro c hc
    exact Nat.isDigit_of_mem_toDigits (by decide) (by decide) hc
  simp only [text, List.forall_mem_append] at hall
  obtain ⟨hspaces, hsign, -, hrest⟩ := hall
  have hspaces : n.spaces = [] := by
    rw [List.eq_nil_iff_forall_not_mem]
    intro c hc
    have hspace := h.spaces c hc
    rw [Text.digit_not_whitespace (hspaces c hc)] at hspace
    cases hspace
  have hsign : n.sign = [] := by
    rcases h.sign with heq | heq | heq
    · exact heq
    · exact absurd (hsign '+' (by rw [heq]; exact List.mem_cons_self)) (by decide)
    · exact absurd (hsign '-' (by rw [heq]; exact List.mem_cons_self)) (by decide)
  have hrest : n.rest = [] := by
    cases heq : n.rest with
    | nil => rfl
    | cons c more =>
      have hc := h.rest c (by rw [heq]; rfl)
      rw [hrest c (by rw [heq]; exact List.mem_cons_self)] at hc
      cases hc
  have hdigits : n.digits = Nat.toDigits 10 k := by
    rw [← htext, text, hspaces, hsign, hrest, List.nil_append, List.nil_append, List.append_nil]
  refine ⟨hspaces, hsign, hrest, ?_⟩
  rw [hdigits, Nat.ofDigitChars_ten_toDigits]

theorem Exact.text_eq {n : Numeral} (h : n.Exact) :
    n.text = Nat.toDigits 10 (Nat.ofDigitChars 10 n.digits 0) := by
  rw [text, h.spaces, h.sign, h.rest, List.nil_append, List.nil_append, List.append_nil]
  exact h.shortest

theorem Exact.lt {n : Numeral} (h : n.Exact) (hread : n.Read) :
    Nat.ofDigitChars 10 n.digits 0 < 2 ^ 63 := by
  have hfits := hread.fits.2
  have hvalue : n.value = Nat.ofDigitChars 10 n.digits 0 := by
    apply if_neg
    rw [h.sign]
    exact (List.cons_ne_nil _ _).symm
  omega

end Numeral

/-! ## Files that are read -/

structure File where
  goPid : Numeral
  rustPid : Numeral
  startTime : List Char
  tail : List UInt8

/-- Three lines that have ended, two that a number is read from and one with a time, and more. -/
structure File.Of (file : File) (data : List UInt8) : Prop where
  lines : ∃ first second third, 10 ∉ first ∧ 10 ∉ second ∧ 10 ∉ third ∧
    data = first ++ 10 :: (second ++ 10 :: (third ++ 10 :: file.tail)) ∧
    chars first = file.goPid.text ∧ chars second = file.rustPid.text ∧ chars third = file.startTime
  goPid : file.goPid.Read
  rustPid : file.rustPid.Read
  startTime : ∃ t, Time.parse file.startTime = some t
  tail : file.tail ≠ []

/-- Nothing but the numbers, the time as `Format` writes it, and one more line, which ends. -/
structure File.Exact (file : File) : Prop where
  goPid : file.goPid.Exact
  rustPid : file.rustPid.Exact
  startTime : ∃ t : Time, t.Valid ∧ file.startTime = t.format
  tail : ∃ path, 10 ∉ path ∧ file.tail = path ++ [10]

def Written (data : List UInt8) : Prop :=
  ∃ (goPid rustPid : Nat) (startTime : Time) (binaryPath : List UInt8), goPid < 2 ^ 63 ∧
    rustPid < 2 ^ 63 ∧ startTime.Valid ∧ 10 ∉ binaryPath ∧
    data = render goPid rustPid startTime binaryPath

theorem parse_ne_none_iff {data : List UInt8} :
    parse data ≠ none ↔ ∃ file : File, file.Of data := by
  constructor
  · intro hread
    by_cases hcount : data.count 10 < 3
    · exact absurd (parse_few hcount) hread
    obtain ⟨first, second, third, tail, hfirst, hsecond, hthird, rfl⟩ :=
      exists_lines (Nat.le_of_not_lt hcount)
    rw [parse_lines hfirst hsecond hthird] at hread
    by_cases htail : tail = []
    · exact absurd (if_pos htail) hread
    rw [if_neg htail, ofLines] at hread
    cases hgo : PidFile.scanInt (chars first) with
    | none => exact absurd (by rw [hgo]; rfl) hread
    | some go =>
      cases hrust : PidFile.scanInt (chars second) with
      | none => exact absurd (by rw [hgo, hrust]; rfl) hread
      | some rust =>
        cases htime : Time.parse (chars third) with
        | none => exact absurd (by rw [hgo, hrust, htime]; rfl) hread
        | some t =>
          obtain ⟨goPid, hgoRead, hgoText, -⟩ := Numeral.exists_of_scanInt hgo
          obtain ⟨rustPid, hrustRead, hrustText, -⟩ := Numeral.exists_of_scanInt hrust
          exact ⟨⟨goPid, rustPid, chars third, tail⟩,
            ⟨first, second, third, hfirst, hsecond, hthird, rfl, hgoText.symm, hrustText.symm, rfl⟩,
            hgoRead, hrustRead, ⟨t, htime⟩, htail⟩
  · rintro ⟨file, hof⟩
    obtain ⟨first, second, third, hfirst, hsecond, hthird, rfl, hgo, hrust, htime⟩ := hof.lines
    obtain ⟨t, ht⟩ := hof.startTime
    rw [parse_lines hfirst hsecond hthird, if_neg hof.tail, ofLines, hgo, hrust, htime,
      hof.goPid.scanInt, hof.rustPid.scanInt, ht]
    exact Option.some_ne_none _

theorem written_iff_exact {file : File} {data : List UInt8} (hof : file.Of data) :
    Written data ↔ file.Exact := by
  obtain ⟨first, second, third, hfirst, hsecond, hthird, hdata, hgo, hrust, htime⟩ := hof.lines
  constructor
  · rintro ⟨goPid, rustPid, startTime, binaryPath, -, -, hvalid, hpath, hwritten⟩
    rw [hdata, render] at hwritten
    obtain ⟨hline, hwritten⟩ := line_inj hfirst (feed_not_mem_ascii (toDigits_printed _)) hwritten
    obtain ⟨hline', hwritten⟩ := line_inj hsecond (feed_not_mem_ascii (toDigits_printed _)) hwritten
    obtain ⟨hline'', hwritten⟩ := line_inj hthird (feed_not_mem_ascii startTime.format_chars) hwritten
    rw [hline, chars_ascii] at hgo
    rw [hline', chars_ascii] at hrust
    rw [hline'', chars_ascii] at htime
    exact ⟨hof.goPid.exact hgo.symm, hof.rustPid.exact hrust.symm, ⟨startTime, hvalid, htime.symm⟩,
      binaryPath, hpath, hwritten⟩
  · intro hexact
    obtain ⟨startTime, hvalid, hformat⟩ := hexact.startTime
    obtain ⟨path, hpath, htail⟩ := hexact.tail
    refine ⟨_, _, startTime, path, hexact.goPid.lt hof.goPid, hexact.rustPid.lt hof.rustPid, hvalid,
      hpath, ?_⟩
    rw [hdata, htail, render,
      ascii_chars (hgo.trans hexact.goPid.text_eq) (toDigits_printed _),
      ascii_chars (hrust.trans hexact.rustPid.text_eq) (toDigits_printed _),
      ascii_chars (htime.trans hformat) startTime.format_chars]

theorem unix_wholeMinutes (t : Time) :
    Time.unix { t with offset := Time.wholeMinutes t.offset } = t.unix ↔ t.offset % 60 = 0 := by
  have hunix : Time.unix { t with offset := Time.wholeMinutes t.offset } =
      t.unix + t.offset - Time.wholeMinutes t.offset := by
    unfold Time.unix
    dsimp only
    omega
  have hmod := Int.mul_tdiv_add_tmod t.offset 60
  have hzero : t.offset.tmod 60 = 0 ↔ t.offset % 60 = 0 := by
    rw [← Int.dvd_iff_tmod_eq_zero, ← Int.dvd_iff_emod_eq_zero]
  rw [hunix, ← hzero]
  unfold Time.wholeMinutes
  omega

section

variable (goPid rustPid : Nat) (startTime : Time) (binaryPath : List UInt8)

def Names (read : Contents) : Prop :=
  read.goPid = goPid ∧ read.rustPid = rustPid ∧ read.startTime.unix = startTime.unix

def RoundTrips : Prop :=
  ∃ read, parse (render goPid rustPid startTime binaryPath) = some read ∧
    Names goPid rustPid startTime read ∧ read.binaryPath = binaryPath

def PrefixesSafe : Prop :=
  ∀ data, data <+: render goPid rustPid startTime binaryPath →
    data ≠ render goPid rustPid startTime binaryPath →
    ∀ read, parse data = some read → Names goPid rustPid startTime read

end

theorem roundTrips_iff {goPid rustPid : Nat} (hgo : goPid < 2 ^ 63) (hrust : rustPid < 2 ^ 63)
    {startTime : Time} (hvalid : startTime.Valid) {binaryPath : List UInt8}
    (hpath : 10 ∉ binaryPath) :
    RoundTrips goPid rustPid startTime binaryPath ↔
      (0 ≤ startTime.year ∧ startTime.year < 10000 ∧ startTime.offset.natAbs < 90000) ∧
        startTime.offset % 60 = 0 := by
  have htake : (binaryPath ++ [10]).takeWhile (· ≠ 10) = binaryPath := by
    rw [List.takeWhile_append_of_pos, List.takeWhile_cons_of_neg (by simp), List.append_nil]
    intro b hb
    exact decide_eq_true fun heq => hpath (heq ▸ hb)
  unfold RoundTrips render
  rw [parse_written hgo hrust startTime (by simp), Time.parse_format hvalid, htake]
  constructor
  · rintro ⟨read, hread, ⟨-, -, hunix⟩, -⟩
    split at hread
    · rename_i hrange
      refine ⟨hrange, ?_⟩
      rw [← unix_wholeMinutes, ← hunix, ← Option.some.inj hread]
    · cases hread
  · rintro ⟨hrange, hminutes⟩
    rw [if_pos hrange]
    exact ⟨_, rfl, ⟨rfl, rfl, (unix_wholeMinutes startTime).mpr hminutes⟩, rfl⟩

/-- A file is read as it was written if its time can be, and what is read was written unless there is
more on a line than its number, a time written some other way, or no one last line. -/
theorem reads_written {goPid rustPid : Nat} {startTime : Time} {binaryPath : List UInt8}
    (hgo : goPid < 2 ^ 63) (hrust : rustPid < 2 ^ 63) (hvalid : startTime.Valid)
    (hpath : 10 ∉ binaryPath) (data : List UInt8) :
    (RoundTrips goPid rustPid startTime binaryPath ∧
        PrefixesSafe goPid rustPid startTime binaryPath ↔
      (0 ≤ startTime.year ∧ startTime.year < 10000 ∧ startTime.offset.natAbs < 90000) ∧
        startTime.offset % 60 = 0) ∧
    (parse data = none ∨ Written data ↔ ∀ file : File, file.Of data → file.Exact) := by
  constructor
  · rw [roundTrips_iff hgo hrust hvalid hpath]
    constructor
    · exact And.left
    · intro hreadable
      refine ⟨hreadable, ?_⟩
      intro cut hcut _ read hread
      obtain ⟨hgoRead, hrustRead, htime⟩ := parse_prefix hgo hrust hcut hread
      rw [Time.parse_format hvalid, if_pos hreadable.1] at htime
      refine ⟨hgoRead, hrustRead, ?_⟩
      rw [← Option.some.inj htime]
      exact (unix_wholeMinutes startTime).mpr hreadable.2
  · constructor
    · intro h file hof
      rcases h with hnone | hwritten
      · exact absurd hnone (parse_ne_none_iff.mpr ⟨file, hof⟩)
      · exact (written_iff_exact hof).mp hwritten
    · intro h
      by_cases hnone : parse data = none
      · exact Or.inl hnone
      · obtain ⟨file, hof⟩ := parse_ne_none_iff.mp hnone
        exact Or.inr ((written_iff_exact hof).mpr (h file hof))

theorem reads_written_one :
    let time : Time := ⟨2026, 3, 1, 1, 30, 5, -34200⟩
    let path := ascii "/bin/x".toList
    (RoundTrips 12 34 time path ∧ PrefixesSafe 12 34 time path) ∧ parse (ascii "12".toList) = none := by
  intro time path
  have hvalid : time.Valid :=
    ⟨by decide, by decide, by decide, by decide, by decide, by decide, by decide⟩
  have hboth := @reads_written 12 34 time path (by decide) (by decide) hvalid (by decide +kernel)
    (ascii "12".toList)
  exact ⟨hboth.1.mpr (by decide), by decide +kernel⟩

/-- "12 days", "+34", a time, a path and one line more. -/
theorem reads_unwritten :
    let data := ascii "12 days\n+34\n2026-01-01T00:00:00Z\n/bin/x\nmore".toList
    ¬ (parse data = none ∨ Written data) := by
  intro data
  have hread : parse data = some ⟨12, 34, ⟨2026, 1, 1, 0, 0, 0, 0⟩, ascii "/bin/x".toList⟩ := by
    decide +kernel
  rw [hread]
  rintro (hnone | ⟨goPid, rustPid, startTime, binaryPath, -, -, -, -, hwritten⟩)
  · cases hnone
  · have hdata : data = ascii "12 days".toList ++
        10 :: ascii "+34\n2026-01-01T00:00:00Z\n/bin/x\nmore".toList := by
      decide +kernel
    rw [hdata] at hwritten
    obtain ⟨hline, -⟩ := line_inj (by decide +kernel) (feed_not_mem_ascii (toDigits_printed _)) hwritten
    have hdigits := congrArg chars hline
    rw [chars_ascii, chars_ascii] at hdigits
    have hspace : ' ' ∈ Nat.toDigits 10 goPid := by
      rw [← hdigits]
      decide
    exact Text.not_mem_toDigits rfl goPid hspace

end DatumConnect.Plugin.PidBytes
