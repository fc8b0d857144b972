import DatumConnect.Lib.IpSame
import DatumConnect.HomeAssistant.LeastChange
/-!
# Networks as Home Assistant reads them

`parse_network` beside Python's `ip_network`, by which Home Assistant checks and uses the trusted
proxies: where one takes an entry and the other does not, and that they agree on all others.
-/

namespace DatumConnect.HomeAssistant

open DatumConnect.Lib
open DatumConnect.Lib.IpAddr (Stands parse_iff)
open DatumConnect.Lib.IpNetwork (network ipNetwork netmask)
open DatumConnect.Lib.Json

/-! ## One entry -/

/-- A text in two parts at its first slash, or whole. -/
inductive Split : List Char → List Char → Option (List Char) → Prop
  | whole {addr : List Char} (h : '/' ∉ addr) : Split addr addr none
  | parts {addr len : List Char} (h : '/' ∉ addr) : Split (addr ++ '/' :: len) addr (some len)

def width : IpAddr → Nat
  | .v4 _ => 32
  | .v6 _ => 128

/-- The length as the code reads it; of a whole address it is all bits. -/
def codeLength (ip : IpAddr) : Option (List Char) → Option Nat
  | none => some (width ip)
  | some text => ((Text.parseU8 text).filter fun len => len.toNat ≤ width ip).map UInt8.toNat

/-- No bit of the address is behind the prefix. -/
def Clean : IpAddr → Nat → Prop
  | .v4 n, len => n &&& netmask 32 len = n
  | .v6 n, len => n &&& netmask 128 len = n

theorem splitOnce_eq_none {sep : Char} {s : List Char} (h : sep ∉ s) :
    Text.splitOnce sep s = none := by
  cases hsplit : Text.splitOnce sep s with
  | none => rfl
  | some halves =>
      obtain ⟨rfl, _⟩ := Text.splitOnce_eq_some hsplit
      exact absurd (by simp) h

theorem exists_split (s : List Char) : ∃ addr text, Split s addr text := by
  by_cases hslash : '/' ∈ s
  · obtain ⟨addr, len, rfl, hfirst⟩ := List.eq_append_cons_of_mem hslash
    exact ⟨addr, some len, .parts hfirst⟩
  · exact ⟨s, none, .whole hslash⟩

theorem parseNetwork_entry {p : String} {addr : List Char} {text : Option (List Char)}
    (h : Split (Text.trim p.toList) addr text) :
    parseNetwork p = (IpAddr.parse addr).bind fun ip => (codeLength ip text).map (ip, ·) := by
  unfold parseNetwork
  revert h
  generalize Text.trim p.toList = s
  intro h
  cases h with
  | whole hslash =>
      simp only [splitOnce_eq_none hslash]
      cases IpAddr.parse addr with
      | none => rfl
      | some ip => cases ip <;> rfl
  | parts hslash =>
      simp only [Text.splitOnce_append hslash]
      cases IpAddr.parse addr with
      | none => rfl
      | some ip =>
          cases ip <;>
            simp only [codeLength, width, Option.map_eq_bind, Option.bind_assoc,
              Option.bind_some, Function.comp_def] <;> rfl

theorem ipNetwork_entry {p : String} {addr : List Char} {text : Option (List Char)}
    (h : Split p.toList addr text) :
    ipNetwork p = if ∀ len ∈ text, '/' ∉ len then network addr text else none := by
  unfold ipNetwork
  revert h
  generalize p.toList = s
  intro h
  cases h with
  | whole hslash =>
      rw [List.splitOn_eq_singleton hslash, if_pos nofun]
  | @parts _ len hslash =>
      rw [List.splitOn_append_cons_self_of_not_mem hslash]
      by_cases hmore : '/' ∈ len
      · obtain ⟨before, after, rfl⟩ := List.append_of_mem hmore
        rw [if_neg (fun hall => hall _ rfl hmore), List.splitOn_append_cons_self]
        obtain ⟨b, bs, hb⟩ := List.exists_cons_of_ne_nil (List.splitOn_ne_nil '/' before)
        obtain ⟨a, as, ha⟩ := List.exists_cons_of_ne_nil (List.splitOn_ne_nil '/' after)
        rw [hb, ha]
        cases bs <;> rfl
      · rw [List.splitOn_eq_singleton hmore, if_pos]
        intro len' hlen
        cases hlen
        exact hmore

/-! ## Lengths -/

/-- The length as Python reads it, where it is no mask. -/
def pythonLength (ip : IpAddr) : Option (List Char) → Option Nat
  | none => some (width ip)
  | some text => IpNetwork.prefixFromString (width ip) text

/-- Only the code takes a sign, and only the code takes any number of digits. -/
def LooseLength (text : Option (List Char)) : Prop :=
  ∃ len ∈ text, len.head? = some '+' ∨ 4300 < len.length

theorem width_le (ip : IpAddr) : width ip ≤ 128 := by
  unfold width
  split <;> omega

theorem digitsValue_ten {digits : List Char} (h : ∀ c ∈ digits, IpAddr.IsDigit 10 c) :
    digits.foldl (fun n c => 10 * n + (c.toNat - '0'.toNat)) 0 = IpAddr.digitsValue 10 digits := by
  unfold IpAddr.digitsValue
  apply List.foldl_ext
  intro n c hc
  rw [IpAddr.toDigit_ten, if_pos (IpAddr.isDigit_ten.mp (h c hc)), Option.getD_some]

/-- The length as the code reads it, where it has no sign. -/
theorem codeLength_eq {ip : IpAddr} {digits : List Char} (h : digits.head? ≠ some '+') :
    codeLength ip (some digits) =
      if digits ≠ [] ∧ (∀ c ∈ digits, IpAddr.IsDigit 10 c) ∧
        IpAddr.digitsValue 10 digits ≤ width ip then some (IpAddr.digitsValue 10 digits)
      else none := by
  have hplus : Text.stripPrefix ['+'] digits = none := by
    unfold Text.stripPrefix
    rw [if_neg]
    rw [List.isPrefixOf_iff_prefix]
    rintro ⟨rest, rfl⟩
    exact h rfl
  have hall : digits.all Char.isDigit = true ↔ ∀ c ∈ digits, IpAddr.IsDigit 10 c := by
    rw [List.all_eq_true]
    exact forall₂_congr fun c _ => IpAddr.isDigit_ten.symm
  have hwidth := width_le ip
  unfold codeLength Text.parseU8
  simp only [hplus, Option.getD_none, hall]
  by_cases hdigits : digits ≠ [] ∧ ∀ c ∈ digits, IpAddr.IsDigit 10 c
  · rw [digitsValue_ten hdigits.2]
    by_cases hsmall : IpAddr.digitsValue 10 digits < 2 ^ 8
    · have hvalue : (UInt8.ofNat (IpAddr.digitsValue 10 digits)).toNat =
          IpAddr.digitsValue 10 digits := by
        rw [UInt8.toNat_ofNat']
        exact Nat.mod_eq_of_lt hsmall
      rw [if_pos ⟨hdigits.1, hdigits.2, hsmall⟩, Option.filter_some, hvalue]
      by_cases hle : IpAddr.digitsValue 10 digits ≤ width ip
      · rw [if_pos (decide_eq_true hle), if_pos ⟨hdigits.1, hdigits.2, hle⟩, Option.map_some,
          hvalue]
      · rw [if_neg (by simpa using hle), if_neg fun hall => hle hall.2.2]
        rfl
    · rw [if_neg fun hall => hsmall hall.2.2, if_neg]
      · rfl
      · rintro ⟨_, _, hle⟩
        omega
  · rw [if_neg fun hall => hdigits ⟨hall.1, hall.2.1⟩,
      if_neg fun hall => hdigits ⟨hall.1, hall.2.1⟩]
    rfl

/-- Python's reading of a length is the code's, but for a sign and too many digits. -/
theorem codeLength_eq_pythonLength {ip : IpAddr} {text : Option (List Char)}
    (h : ¬ LooseLength text) : codeLength ip text = pythonLength ip text := by
  cases text with
  | none => rfl
  | some len =>
      have hplus : len.head? ≠ some '+' := fun hplus => h ⟨len, rfl, Or.inl hplus⟩
      have hshort : len.length ≤ 4300 :=
        Nat.not_lt.mp fun hlong => h ⟨len, rfl, Or.inr hlong⟩
      rw [codeLength_eq hplus, pythonLength, IpNetwork.prefixFromString]
      simp only [hshort, true_and]

theorem pythonLength_of_loose {ip : IpAddr} {text : Option (List Char)} (h : LooseLength text) :
    pythonLength ip text = none := by
  obtain ⟨len, hlen, hloose⟩ := h
  cases hlen
  show IpNetwork.prefixFromString (width ip) len = none
  unfold IpNetwork.prefixFromString
  rw [if_neg]
  rintro ⟨_, hdigits, hshort, _⟩
  rcases hloose with hplus | hlong
  · have hdigit := hdigits '+' (List.mem_of_head? hplus)
    revert hdigit
    decide
  · omega

theorem isDigit_of_pythonLength {ip : IpAddr} {text : Option (List Char)} {len : Nat}
    (h : pythonLength ip text = some len) : ∀ m ∈ text, ∀ c ∈ m, IpAddr.IsDigit 10 c := by
  intro m hm
  cases hm
  change IpNetwork.prefixFromString (width ip) m = some len at h
  unfold IpNetwork.prefixFromString at h
  split at h
  · rename_i hdigits
    exact hdigits.2.1
  · cases h

theorem isDigit_of_codeLength {ip : IpAddr} {text : Option (List Char)} {len : Nat}
    (h : codeLength ip text = some len) : ∀ m ∈ text, ∀ c ∈ m, IpAddr.IsDigit 10 c ∨ c = '+' := by
  intro m hm
  cases hm
  change ((Text.parseU8 m).filter fun len => len.toNat ≤ width ip).map UInt8.toNat = some len at h
  obtain ⟨n, hn, _⟩ := Option.map_eq_some_iff.mp h
  have hparsed := (Option.filter_eq_some_iff.mp hn).1
  unfold Text.parseU8 at hparsed
  generalize hread : (Text.stripPrefix ['+'] m).getD m = digits at hparsed
  have hcases : m = digits ∨ m = '+' :: digits := by
    unfold Text.stripPrefix at hread
    split at hread
    · rename_i hplus
      obtain ⟨rest, rfl⟩ := List.isPrefixOf_iff_prefix.mp hplus
      rw [← hread]
      exact Or.inr rfl
    · exact Or.inl hread
  simp only at hparsed
  split at hparsed
  · rename_i hdigits
    have hall : ∀ c ∈ digits, IpAddr.IsDigit 10 c := fun c hc =>
      IpAddr.isDigit_ten.mpr (List.all_eq_true.mp hdigits.2.1 c hc)
    intro c hc
    rcases hcases with rfl | rfl
    · exact Or.inl (hall c hc)
    · rcases List.mem_cons.mp hc with hc | hc
      · exact Or.inr hc
      · exact Or.inl (hall c hc)
  · cases hparsed

/-! ## The networks of Python -/

theorem splitOnce_scope {addr : List Char} (h : '%' ∉ addr) :
    IpNetwork.ipv6Address addr = (IpNetwork.hextets addr).map (IpAddr.ofGroups 128 16) := by
  unfold IpNetwork.ipv6Address
  rw [splitOnce_eq_none h]

theorem ipv4Network_eq {addr : List Char} {text : Option (List Char)}
    (hmask : ∀ m ∈ text, '.' ∉ m) :
    IpNetwork.ipv4Network addr text = (IpNetwork.ipv4Address addr).bind fun n =>
      (pythonLength (.v4 n) text).map (n, ·) := by
  unfold IpNetwork.ipv4Network
  cases IpNetwork.ipv4Address addr with
  | none => rfl
  | some n =>
      cases text with
      | none => rfl
      | some m =>
          have hno : IpNetwork.prefixFromIp m = none := by
            have hdotted : IpAddr.dotted? m = none := by
              cases hdotted : IpAddr.dotted? m with
              | none => rfl
              | some bytes => exact absurd (IpAddr.point_mem_of_dotted hdotted) (hmask m rfl)
            unfold IpNetwork.prefixFromIp IpNetwork.ipv4Address
            rw [IpNetwork.octets_eq, hdotted]
            rfl
          simp only [Option.bind_eq_bind, Option.bind_some, hno, pythonLength, width]
          cases IpNetwork.prefixFromString 32 m <;> rfl

theorem ipv6Network_eq {addr : List Char} {text : Option (List Char)} (hscope : '%' ∉ addr) :
    IpNetwork.ipv6Network addr text =
      ((IpNetwork.hextets addr).map (IpAddr.ofGroups 128 16)).bind fun n =>
        (pythonLength (.v6 n) text).map (n, ·) := by
  unfold IpNetwork.ipv6Network
  rw [splitOnce_scope hscope]
  cases (IpNetwork.hextets addr).map (IpAddr.ofGroups 128 16) with
  | none => rfl
  | some n =>
      cases text with
      | none => rfl
      | some m =>
          simp only [Option.bind_eq_bind, Option.bind_some, pythonLength, width]
          cases IpNetwork.prefixFromString 128 m <;> rfl

/-- Without a scope and without a mask. -/
theorem network_iff {addr : List Char} {text : Option (List Char)} {ip : IpAddr} {len : Nat}
    (hscope : '%' ∉ addr) (hmask : ∀ m ∈ text, '.' ∉ m) :
    network addr text = some (ip, len) ↔
      Stands addr ip ∧ pythonLength ip text = some len ∧ Clean ip len := by
  unfold network
  rw [ipv4Network_eq hmask, ipv6Network_eq hscope]
  constructor
  · intro h
    split at h
    · rename_i n len' hv4
      split at h
      · rename_i hclean
        cases h
        obtain ⟨n', hn', hmap⟩ := Option.bind_eq_some_iff.mp hv4
        obtain ⟨len', hlen', heq⟩ := Option.map_eq_some_iff.mp hmap
        cases heq
        exact ⟨IpNetwork.stands_iff.mpr (Or.inl ⟨_, rfl, hn'⟩), hlen', hclean⟩
      · cases h
    · split at h
      · rename_i n len' hv6
        split at h
        · rename_i hclean
          cases h
          obtain ⟨n', hn', hmap⟩ := Option.bind_eq_some_iff.mp hv6
          obtain ⟨len', hlen', heq⟩ := Option.map_eq_some_iff.mp hmap
          cases heq
          exact ⟨IpNetwork.stands_iff.mpr (Or.inr ⟨_, rfl, hn'⟩), hlen', hclean⟩
        · cases h
      · cases h
  · rintro ⟨hstands, hlen, hclean⟩
    rcases IpNetwork.stands_iff.mp hstands with ⟨n, rfl, hn⟩ | ⟨n, rfl, hn⟩
    · have hclean' : n &&& netmask 32 len = n := hclean
      rw [hn, Option.bind_some, hlen, Option.map_some]
      simp only
      rw [if_pos hclean']
    · have hclean' : n &&& netmask 128 len = n := hclean
      have hv4 : IpNetwork.ipv4Address addr = none := by
        cases hv4 : IpNetwork.ipv4Address addr with
        | none => rfl
        | some n' =>
            have hstands' := IpNetwork.stands_iff.mpr (Or.inl ⟨n', rfl, hv4⟩)
            have heq := (parse_iff.mpr hstands).symm.trans (parse_iff.mpr hstands')
            cases heq
      rw [hv4, hn, Option.bind_none, Option.bind_some, hlen, Option.map_some]
      simp only
      rw [if_pos hclean']

/-! ## White space -/

theorem isDigit_range {radix : Nat} {c : Char} (h : IpAddr.IsDigit radix c) :
    48 ≤ c.toNat ∧ c.toNat ≤ 122 := by
  unfold IpAddr.IsDigit IpAddr.toDigit at h
  by_cases hten : '0' ≤ c ∧ c ≤ '9'
  · have hlow : 48 ≤ c.toNat := hten.1
    have hhigh : c.toNat ≤ 57 := hten.2
    omega
  · rw [if_neg hten] at h
    by_cases hlower : 'a' ≤ c ∧ c ≤ 'z'
    · have hlow : 97 ≤ c.toNat := hlower.1
      have hhigh : c.toNat ≤ 122 := hlower.2
      omega
    · rw [if_neg hlower] at h
      by_cases hupper : 'A' ≤ c ∧ c ≤ 'Z'
      · have hlow : 65 ≤ c.toNat := hupper.1
        have hhigh : c.toNat ≤ 90 := hupper.2
        omega
      · rw [if_neg hupper] at h
        cases h

theorem isAddressChar_cases {c : Char} (h : IpAddr.IsAddressChar c) :
    Text.isWhitespace c = false ∧ c ≠ '%' ∧ c ≠ '/' := by
  rcases h with h | rfl | rfl
  · obtain ⟨hlow, hhigh⟩ := isDigit_range h
    refine ⟨Text.printed_not_whitespace (by omega) (by omega), ?_, ?_⟩
    · rintro rfl
      exact absurd hlow (by decide)
    · rintro rfl
      exact absurd hlow (by decide)
  · decide
  · decide

/-- The first slash is where it is. -/
theorem Split.unique {s addr addr' : List Char} {text text' : Option (List Char)}
    (h : Split s addr text) (h' : Split s addr' text') : addr = addr' ∧ text = text' := by
  have hsplit : ∀ {a : List Char} {t : Option (List Char)}, Split s a t →
      Text.splitOnce '/' s = t.map (a, ·) ∧ (t = none → a = s) := by
    intro a t hentry
    cases hentry with
    | whole hslash => exact ⟨splitOnce_eq_none hslash, fun _ => rfl⟩
    | parts hslash => exact ⟨Text.splitOnce_append hslash, nofun⟩
  obtain ⟨hs, hwhole⟩ := hsplit h
  obtain ⟨hs', hwhole'⟩ := hsplit h'
  rw [hs] at hs'
  cases text with
  | none =>
      cases text' with
      | none => exact ⟨(hwhole rfl).trans (hwhole' rfl).symm, rfl⟩
      | some m => cases hs'
  | some m =>
      cases text' with
      | none => cases hs'
      | some m' =>
          cases hs'
          exact ⟨rfl, rfl⟩

/-- Trimming leaves the parts but for white space. -/
theorem Split.trim {s addr : List Char} {text : Option (List Char)} (h : Split s addr text) :
    ∃ addr' text', Split (Text.trim s) addr' text' ∧
      (∀ c ∈ addr, Text.isWhitespace c = false → c ∈ addr') ∧
      ∀ m ∈ text, ∃ m' ∈ text', ∀ c ∈ m, Text.isWhitespace c = false → c ∈ m' := by
  have hslash : Text.isWhitespace '/' = false := by decide
  cases h with
  | whole haddr =>
      have hsubset : ∀ c ∈ Text.trim s, c ∈ s := by
        intro c hc
        have hdropped : Text.trim s ⊆ s.dropWhile Text.isWhitespace :=
          (List.rdropWhile_prefix Text.isWhitespace _).subset
        exact (List.dropWhile_suffix _).subset (hdropped hc)
      refine ⟨Text.trim s, none, .whole fun hmem => haddr (hsubset _ hmem), fun c hc hwhite => ?_,
        nofun⟩
      exact Text.mem_rdropWhile hwhite (Text.mem_dropWhile hwhite hc)
  | @parts addr len haddr =>
      rw [Text.trim_append_cons hslash]
      have hsubset : addr.dropWhile Text.isWhitespace ⊆ addr := (List.dropWhile_suffix _).subset
      refine ⟨_, _, .parts fun hmem => haddr (hsubset hmem),
        fun c hc hwhite => Text.mem_dropWhile hwhite hc,
        fun m hm => ⟨_, rfl, fun c hc hwhite => ?_⟩⟩
      cases hm
      exact Text.mem_rdropWhile hwhite hc

/-! ## Entries only one side takes -/

/-- The code takes it, with white space around it, with a length it reads loosely, or with host
bits set; Python does not. -/
def Loose (p : String) : Prop :=
  ∃ addr text ip len, Split (Text.trim p.toList) addr text ∧ IpAddr.parse addr = some ip ∧
    codeLength ip text = some len ∧
    (Text.trim p.toList ≠ p.toList ∨ LooseLength text ∨ ¬ Clean ip len)

/-- Python takes it with a scope, or with a mask for the length; the code does not. -/
def Foreign (p : String) : Prop :=
  (ipNetwork p).isSome = true ∧
    ∃ addr text, Split p.toList addr text ∧ ('%' ∈ addr ∨ ∃ m ∈ text, '.' ∈ m)

theorem parseNetwork_eq_some {p : String} {ip : IpAddr} {len : Nat} :
    parseNetwork p = some (ip, len) ↔ ∃ addr text, Split (Text.trim p.toList) addr text ∧
      IpAddr.parse addr = some ip ∧ codeLength ip text = some len := by
  obtain ⟨addr, text, hentry⟩ := exists_split (Text.trim p.toList)
  rw [parseNetwork_entry hentry]
  constructor
  · intro h
    obtain ⟨ip', hip, hmap⟩ := Option.bind_eq_some_iff.mp h
    obtain ⟨len', hlen, heq⟩ := Option.map_eq_some_iff.mp hmap
    cases heq
    exact ⟨addr, text, hentry, hip, hlen⟩
  · rintro ⟨addr', text', hentry', hip, hlen⟩
    obtain ⟨rfl, rfl⟩ := hentry.unique hentry'
    rw [hip, Option.bind_some, hlen, Option.map_some]

/-- What the code takes has no scope and no mask. -/
theorem plain_of_parseNetwork {p : String} {addr : List Char} {text : Option (List Char)}
    (hentry : Split p.toList addr text) (h : (parseNetwork p).isSome = true) :
    '%' ∉ addr ∧ ∀ m ∈ text, '.' ∉ m := by
  obtain ⟨⟨ip, len⟩, h⟩ := Option.isSome_iff_exists.mp h
  obtain ⟨addr', text', hentry', hip, hlen⟩ := parseNetwork_eq_some.mp h
  obtain ⟨addr'', text'', htrim, haddr, htext⟩ := hentry.trim
  obtain ⟨rfl, rfl⟩ := hentry'.unique htrim
  constructor
  · intro hmem
    have hchar := (parse_iff.mp hip).isAddressChar '%' (haddr _ hmem (by decide))
    exact (isAddressChar_cases hchar).2.1 rfl
  · intro m hm hmem
    obtain ⟨m', hm', hsubset⟩ := htext m hm
    rcases isDigit_of_codeLength hlen m' hm' '.' (hsubset _ hmem (by decide)) with hdigit | heq
    · revert hdigit
      decide
    · cases heq

theorem trim_eq_self {s : List Char} (h : ∀ c ∈ s, Text.isWhitespace c = false) :
    Text.trim s = s :=
  Text.Trimmed.trim_eq ⟨fun c hc => h c (List.mem_of_head? hc),
    fun c hc => h c (List.mem_of_getLast? hc)⟩

/-- What Python takes without a scope and without a mask. -/
theorem ipNetwork_eq_some {p : String} {addr : List Char} {text : Option (List Char)}
    {ip : IpAddr} {len : Nat} (hentry : Split p.toList addr text) (hscope : '%' ∉ addr)
    (hmask : ∀ m ∈ text, '.' ∉ m) :
    ipNetwork p = some (ip, len) ↔ Stands addr ip ∧ pythonLength ip text = some len ∧
      Clean ip len := by
  rw [ipNetwork_entry hentry, ← network_iff hscope hmask]
  constructor
  · intro h
    split at h
    · exact h
    · cases h
  · intro h
    have hlen := ((network_iff hscope hmask).mp h).2.1
    rw [if_pos, h]
    intro m hm hmem
    have hdigit := isDigit_of_pythonLength hlen m hm '/' hmem
    revert hdigit
    decide

theorem trim_of_ipNetwork {p : String} {addr : List Char} {text : Option (List Char)}
    {ip : IpAddr} {len : Nat} (hentry : Split p.toList addr text) (hstands : Stands addr ip)
    (hlen : pythonLength ip text = some len) : Text.trim p.toList = p.toList := by
  have haddr : ∀ c ∈ addr, Text.isWhitespace c = false := fun c hc =>
    (isAddressChar_cases (hstands.isAddressChar c hc)).1
  have hdigits : ∀ m ∈ text, ∀ c ∈ m, Text.isWhitespace c = false := by
    intro m hm c hc
    obtain ⟨hlow, hhigh⟩ := isDigit_range (isDigit_of_pythonLength hlen m hm c hc)
    exact Text.printed_not_whitespace (by omega) (by omega)
  apply trim_eq_self
  revert hentry
  generalize p.toList = s
  intro hentry
  cases hentry with
  | whole _ => exact haddr
  | parts _ =>
      refine List.forall_mem_append.mpr ⟨haddr, List.forall_mem_cons.mpr ⟨by decide, ?_⟩⟩
      exact hdigits _ rfl

/-! ## Agreement -/

theorem parseNetwork_eq_ipNetwork {p : String} (hloose : ¬ Loose p) (hforeign : ¬ Foreign p) :
    parseNetwork p = ipNetwork p := by
  obtain ⟨addr, text, hentry⟩ := exists_split p.toList
  apply Option.ext
  rintro ⟨ip, len⟩
  constructor
  · intro h
    obtain ⟨hscope, hmask⟩ := plain_of_parseNetwork hentry (by rw [h]; rfl)
    obtain ⟨addr', text', hentry', hip, hlen⟩ := parseNetwork_eq_some.mp h
    have htrim : Text.trim p.toList = p.toList := by
      by_contra hwhite
      exact hloose ⟨addr', text', ip, len, hentry', hip, hlen, Or.inl hwhite⟩
    have htight : ¬ LooseLength text' := fun htext =>
      hloose ⟨addr', text', ip, len, hentry', hip, hlen, Or.inr (Or.inl htext)⟩
    have hclean : Clean ip len := by
      by_contra hbits
      exact hloose ⟨addr', text', ip, len, hentry', hip, hlen, Or.inr (Or.inr hbits)⟩
    rw [htrim] at hentry'
    obtain ⟨rfl, rfl⟩ := hentry.unique hentry'
    rw [ipNetwork_eq_some hentry hscope hmask, ← codeLength_eq_pythonLength htight]
    exact ⟨parse_iff.mp hip, hlen, hclean⟩
  · intro h
    have hplain : ¬ ('%' ∈ addr ∨ ∃ m ∈ text, '.' ∈ m) := fun hplain =>
      hforeign ⟨by rw [h]; rfl, addr, text, hentry, hplain⟩
    have hscope : '%' ∉ addr := fun hmem => hplain (Or.inl hmem)
    have hmask : ∀ m ∈ text, '.' ∉ m := fun m hm hmem => hplain (Or.inr ⟨m, hm, hmem⟩)
    obtain ⟨hstands, hlen, _⟩ := (ipNetwork_eq_some hentry hscope hmask).mp h
    have htight : ¬ LooseLength text := by
      intro htext
      rw [pythonLength_of_loose htext] at hlen
      cases hlen
    rw [parseNetwork_eq_some, trim_of_ipNetwork hentry hstands hlen]
    rw [← codeLength_eq_pythonLength htight] at hlen
    exact ⟨addr, text, hentry, parse_iff.mpr hstands, hlen⟩

theorem Loose.only_code {p : String} (h : Loose p) :
    (parseNetwork p).isSome = true ∧ (ipNetwork p).isSome = false := by
  obtain ⟨addr, text, ip, len, hentry, hip, hlen, hloose⟩ := h
  have hparse : parseNetwork p = some (ip, len) :=
    parseNetwork_eq_some.mpr ⟨addr, text, hentry, hip, hlen⟩
  have htaken : (parseNetwork p).isSome = true := by
    rw [hparse]
    rfl
  refine ⟨htaken, ?_⟩
  rw [Option.isSome_eq_false_iff, Option.isNone_iff_eq_none, Option.eq_none_iff_forall_ne_some]
  rintro ⟨ip', len'⟩ hpython
  obtain ⟨addr', text', hentry'⟩ := exists_split p.toList
  obtain ⟨hscope, hmask⟩ := plain_of_parseNetwork hentry' htaken
  obtain ⟨hstands, hlength, hclean⟩ := (ipNetwork_eq_some hentry' hscope hmask).mp hpython
  have htrim := trim_of_ipNetwork hentry' hstands hlength
  rw [htrim] at hentry
  obtain ⟨rfl, rfl⟩ := hentry.unique hentry'
  rcases hloose with hwhite | htext | hbits
  · exact hwhite htrim
  · rw [pythonLength_of_loose htext] at hlength
    cases hlength
  · have htight : ¬ LooseLength text := by
      intro htext
      rw [pythonLength_of_loose htext] at hlength
      cases hlength
    have hsame : ip = ip' := by
      have heq := hip.symm.trans (parse_iff.mpr hstands)
      cases heq
      rfl
    subst hsame
    rw [← codeLength_eq_pythonLength htight, hlen] at hlength
    cases hlength
    exact hbits hclean

theorem Foreign.only_python {p : String} (h : Foreign p) :
    (parseNetwork p).isSome = false ∧ (ipNetwork p).isSome = true := by
  obtain ⟨hpython, addr, text, hentry, hplain⟩ := h
  refine ⟨?_, hpython⟩
  rw [← Bool.not_eq_true]
  intro htaken
  obtain ⟨hscope, hmask⟩ := plain_of_parseNetwork hentry htaken
  rcases hplain with hmem | ⟨m, hm, hmem⟩
  · exact hscope hmem
  · exact hmask m hm hmem

/-! ## Containment -/

theorem length_le {p : String} {ip : IpAddr} {len : Nat} (h : parseNetwork p = some (ip, len)) :
    len ≤ width ip := by
  obtain ⟨_, text, _, _, hlen⟩ := parseNetwork_eq_some.mp h
  cases text with
  | none =>
      cases hlen
      exact Nat.le_refl _
  | some text =>
      obtain ⟨n, hn, rfl⟩ := Option.map_eq_some_iff.mp hlen
      exact of_decide_eq_true (Option.filter_eq_some_iff.mp hn).2

/-- On a network without host bits the two sides of the comparison may both be masked. -/
theorem networkContains_eq {net ip : IpAddr} {len : Nat} (hlen : len ≤ width net)
    (hclean : Clean net len) : networkContains net len ip = IpNetwork.contains net len ip := by
  cases net with
  | v4 n =>
      cases ip with
      | v4 i =>
          have hmasked : n &&& netmask 32 len = n := hclean
          have hmask : netmask 32 len =
              if len = 0 then 0#32 else BitVec.allOnes 32 <<< (32 - len) :=
            IpNetwork.netmask_eq hlen
          unfold networkContains IpNetwork.contains
          rw [hmask] at hmasked ⊢
          rw [decide_eq_decide]
          exact ⟨fun h => h.symm.trans hmasked, fun h => hmasked.trans h.symm⟩
      | v6 i => rfl
  | v6 n =>
      cases ip with
      | v4 i => rfl
      | v6 i =>
          have hmasked : n &&& netmask 128 len = n := hclean
          have hmask : netmask 128 len =
              if len = 0 then 0#128 else BitVec.allOnes 128 <<< (128 - len) :=
            IpNetwork.netmask_eq hlen
          unfold networkContains IpNetwork.contains
          rw [hmask] at hmasked ⊢
          rw [decide_eq_decide]
          exact ⟨fun h => h.symm.trans hmasked, fun h => hmasked.trans h.symm⟩

/-- `any(ip in ip_network(p))` over the entries that are networks. -/
def pythonCovers (proxies : List String) (ip : IpAddr) : Bool :=
  (proxies.filterMap ipNetwork).any fun (net, len) => IpNetwork.contains net len ip

theorem clean_of_ipNetwork {p : String} {ip : IpAddr} {len : Nat}
    (h : ipNetwork p = some (ip, len)) : Clean ip len := by
  obtain ⟨addr, text, hentry⟩ := exists_split p.toList
  rw [ipNetwork_entry hentry] at h
  split at h
  · unfold network at h
    split at h
    · split at h
      · rename_i hclean
        cases h
        exact hclean
      · cases h
    · split at h
      · split at h
        · rename_i hclean
          cases h
          exact hclean
        · cases h
      · cases h
  · cases h

theorem covers_eq_pythonCovers {proxies : List String}
    (h : ∀ p ∈ proxies, ¬ Loose p ∧ ¬ Foreign p) (ip : IpAddr) :
    covers proxies ip = pythonCovers proxies ip := by
  induction proxies with
  | nil => rfl
  | cons p ps ih =>
      obtain ⟨⟨hloose, hforeign⟩, hrest⟩ := List.forall_mem_cons.mp h
      have hsame := parseNetwork_eq_ipNetwork hloose hforeign
      have htail := ih hrest
      unfold covers pythonCovers at htail ⊢
      cases hp : ipNetwork p with
      | none => rw [List.filterMap_cons_none (hsame.trans hp), List.filterMap_cons_none hp, htail]
      | some network =>
          obtain ⟨net, len⟩ := network
          have hparse := hsame.trans hp
          rw [List.filterMap_cons_some hparse, List.filterMap_cons_some hp, List.any_cons,
            List.any_cons, htail]
          simp only [networkContains_eq (length_le hparse) (clean_of_ipNetwork hp)]

/-! ## Checking an entry -/

theorem validate_single (p : String) :
    validate (.object [("trusted_proxies", .string p)]) = .ok () ↔
      (parseNetwork p).isSome = true := by
  have hone : (parseNetwork p).isSome = true ↔ ∀ q ∈ [p], (parseNetwork q).isSome = true :=
    (List.forall_mem_singleton (p := fun q => (parseNetwork q).isSome = true)).symm
  rw [hone, ← forIn_networks, validate]
  change Except.bind (forIn [p] () fun p _ => do
      if (parseNetwork p).isNone then throw (SettingsError.notANetwork p)
      pure (ForInStep.yield ()) : Except SettingsError Unit) (fun _ => _) = _ ↔ _
  cases hloop : (forIn [p] () fun p _ => do
      if (parseNetwork p).isNone then throw (SettingsError.notANetwork p)
      pure (ForInStep.yield ()) : Except SettingsError Unit) with
  | error e => exact iff_of_false (fun h => by cases h) (fun h => by cases h)
  | ok _ => exact iff_of_true rfl rfl

/-- The entries mean to the code what they mean to Home Assistant, and no mask is made by a shift
of the whole width. -/
structure Agrees (proxies : List String) : Prop where
  covers : ∀ ip, covers proxies ip = pythonCovers proxies ip
  accepts : ∀ p ∈ proxies, validate (.object [("trusted_proxies", .string p)]) = .ok () ↔
    (ipNetwork p).isSome = true
  shifts : ∀ p ∈ proxies, ∀ ip len, parseNetwork p = some (ip, len) →
    len ≤ width ip ∧ (len ≠ 0 → width ip - len < width ip)

theorem networks_agree_iff (proxies : List String) :
    Agrees proxies ↔ ∀ p ∈ proxies, ¬ Loose p ∧ ¬ Foreign p := by
  constructor
  · intro h p hp
    have haccepts := h.accepts p hp
    rw [validate_single] at haccepts
    constructor
    · intro hloose
      obtain ⟨hcode, hpython⟩ := hloose.only_code
      rw [haccepts.mp hcode] at hpython
      cases hpython
    · intro hforeign
      obtain ⟨hcode, hpython⟩ := hforeign.only_python
      rw [haccepts.mpr hpython] at hcode
      cases hcode
  · intro h
    constructor
    · exact covers_eq_pythonCovers h
    · intro p hp
      rw [validate_single, parseNetwork_eq_ipNetwork (h p hp).1 (h p hp).2]
    · intro p _ ip len hparse
      have hle := length_le hparse
      exact ⟨hle, fun hne => by omega⟩

theorem loose_hostBits : Loose "127.0.0.1/8" := by
  refine ⟨"127.0.0.1".toList, some ['8'], .v4 0x7f000001#32, 8, ?_, by decide +kernel,
    by decide +kernel, Or.inr (Or.inr ?_)⟩
  · have htext : Text.trim "127.0.0.1/8".toList = "127.0.0.1".toList ++ '/' :: ['8'] := by
      decide +kernel
    rw [htext]
    exact .parts (by decide +kernel)
  · intro hclean
    revert hclean
    unfold Clean
    decide +kernel

/-- Host bits: the code reads the network of the address, Python refuses it. -/
theorem hostBits_disagree : ¬ Agrees ["127.0.0.1/8"] := by
  intro h
  have hcode : covers ["127.0.0.1/8"] (.v4 0x7f000001#32) = true := by decide +kernel
  have hnone : ipNetwork "127.0.0.1/8" = none :=
    Option.isNone_iff_eq_none.mp (Option.isSome_eq_false_iff.mp loose_hostBits.only_code.2)
  have hpython := h.covers (.v4 0x7f000001#32)
  rw [hcode, pythonCovers, List.filterMap_cons_none hnone] at hpython
  cases hpython

end DatumConnect.HomeAssistant
