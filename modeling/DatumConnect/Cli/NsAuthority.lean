import DatumConnect.Lib.IpAddr
/-!
# The name servers a hostname is looked up at

Before a tunnel's hostname is checked over HTTP it is looked up at the name servers of its
zone, past the caches of the system's own resolver.
-/

namespace DatumConnect.Cli

open DatumConnect.Lib

inductive Record where
  | ns (name : List Char)
  | a (bits : BitVec 32)
  | aaaa (bits : BitVec 128)
  | other
  deriving DecidableEq, Repr

/-- The answers of the system's resolver; `none` is an error. -/
structure SystemResolver where
  nsLookup : List Char → Option (List Record)
  lookupIp : List Char → Option (List IpAddr)

def nsName : Record → Option (List Char)
  | .ns name => some (Text.trimEndMatches '.' name)
  | _ => none

/-- The order of `IpAddr`. -/
def ipLt : IpAddr → IpAddr → Bool
  | .v4 a, .v4 b => a < b
  | .v4 _, .v6 _ => true
  | .v6 _, .v4 _ => false
  | .v6 a, .v6 b => a < b

/-- `BTreeSet::insert`, the set being listed in its order. -/
def insertIp (ip : IpAddr) : List IpAddr → List IpAddr
  | [] => [ip]
  | first :: rest =>
      if ip = first then first :: rest
      else if ipLt ip first then ip :: first :: rest
      else first :: insertIp ip rest

def resolveNsIps (system : SystemResolver) (domain : List Char) : List IpAddr :=
  match system.nsLookup domain with
  | none => []
  | some records =>
      let found := (records.filterMap nsName).flatMap fun name => (system.lookupIp name).getD []
      found.foldl (fun ips ip => insertIp ip ips) []

def join (labels : List (List Char)) : List Char := ['.'].intercalate labels

/-- The loop of `discover_ns_authority` for `n` and the numbers below it, `1` the last. -/
def tryLevels (system : SystemResolver) (labels : List (List Char)) :
    (n : Nat) → List IpAddr × List Char
  | 0 => ([], [])
  | n + 1 =>
      let domain := join (labels.drop n)
      let nsIps := resolveNsIps system domain
      if nsIps.isEmpty then tryLevels system labels n else (nsIps, domain)

def discoverNsAuthority (system : SystemResolver) (hostname : List Char) :
    List IpAddr × List Char :=
  let labels := hostname.splitOn '.'
  tryLevels system labels (labels.length - 1)

/-! ## The zones of a hostname -/

/-- A suffix of at least two labels. -/
def IsZone (hostname zone : List Char) : Prop :=
  ∃ labels, labels <:+ hostname.splitOn '.' ∧ 2 ≤ labels.length ∧ zone = join labels

/-- An address of a name server of the domain. -/
def ServedAt (system : SystemResolver) (domain : List Char) (ip : IpAddr) : Prop :=
  ∃ records name ips, system.nsLookup domain = some records ∧ Record.ns name ∈ records ∧
    system.lookupIp (Text.trimEndMatches '.' name) = some ips ∧ ip ∈ ips

def Served (system : SystemResolver) (domain : List Char) : Prop :=
  ∃ ip, ServedAt system domain ip

/-- The answer is the longest zone that is served, with its servers; none if there is none. -/
def IsClosest (system : SystemResolver) (hostname : List Char)
    (answer : List IpAddr × List Char) : Prop :=
  (∃ zone, IsZone hostname zone ∧ Served system zone ∧
    (∀ other, IsZone hostname other → Served system other → other.length ≤ zone.length) ∧
    answer.2 = zone ∧ ∀ ip, ip ∈ answer.1 ↔ ServedAt system zone ip) ∨
  ((∀ zone, IsZone hostname zone → ¬ Served system zone) ∧ answer = ([], []))

theorem mem_insertIp {ip x : IpAddr} {ips : List IpAddr} :
    x ∈ insertIp ip ips ↔ x = ip ∨ x ∈ ips := by
  induction ips with
  | nil => simp [insertIp]
  | cons first rest ih =>
      unfold insertIp
      split
      · rename_i heq
        subst heq
        simp
      · split
        · simp
        · rw [List.mem_cons, ih, List.mem_cons]
          tauto

theorem mem_foldl_insertIp {x : IpAddr} {found ips : List IpAddr} :
    x ∈ found.foldl (fun ips ip => insertIp ip ips) ips ↔ x ∈ found ∨ x ∈ ips := by
  induction found generalizing ips with
  | nil => simp
  | cons ip found ih =>
      rw [List.foldl_cons, ih, mem_insertIp, List.mem_cons]
      tauto

theorem mem_resolveNsIps {system : SystemResolver} {domain : List Char} {ip : IpAddr} :
    ip ∈ resolveNsIps system domain ↔ ServedAt system domain ip := by
  unfold resolveNsIps ServedAt
  cases system.nsLookup domain with
  | none => simp
  | some records =>
      rw [mem_foldl_insertIp]
      constructor
      · intro h
        obtain ⟨name, hname, hip⟩ := List.mem_flatMap.mp (h.resolve_right List.not_mem_nil)
        obtain ⟨record, hrecord, hnamed⟩ := List.mem_filterMap.mp hname
        cases record with
        | ns full =>
            cases hnamed
            cases hips : system.lookupIp (Text.trimEndMatches '.' full) with
            | none => rw [hips] at hip; exact absurd hip List.not_mem_nil
            | some ips =>
                rw [hips] at hip
                exact ⟨records, full, ips, rfl, hrecord, hips, hip⟩
        | a | aaaa | other => cases hnamed
      · rintro ⟨_, name, ips, ⟨⟩, hrecord, hips, hip⟩
        left
        apply List.mem_flatMap.mpr
        refine ⟨_, List.mem_filterMap.mpr ⟨_, hrecord, rfl⟩, ?_⟩
        rw [hips]
        exact hip

theorem isEmpty_resolveNsIps {system : SystemResolver} {domain : List Char} :
    (resolveNsIps system domain).isEmpty = true ↔ ¬ Served system domain := by
  rw [List.isEmpty_iff, List.eq_nil_iff_forall_not_mem]
  simp only [mem_resolveNsIps, Served, not_exists]

theorem join_cons_cons (first second : List Char) (rest : List (List Char)) :
    join (first :: second :: rest) = first ++ '.' :: join (second :: rest) := by
  simp [join, List.intercalate]

/-- A shorter suffix of the labels is a shorter name. -/
theorem length_join_drop_lt {labels : List (List Char)} {i j : Nat} (hij : i < j)
    (hj : j < labels.length) :
    (join (labels.drop j)).length < (join (labels.drop i)).length := by
  induction labels generalizing i j with
  | nil => simp at hj
  | cons first rest ih =>
      obtain ⟨j, rfl⟩ : ∃ k, j = k + 1 := ⟨j - 1, by omega⟩
      rw [List.length_cons] at hj
      have hrest : j < rest.length := by omega
      have hcons : (join rest).length < (join (first :: rest)).length := by
        cases rest with
        | nil => simp at hrest
        | cons second rest =>
            rw [join_cons_cons, List.length_append, List.length_cons]
            omega
      cases i with
      | zero =>
          rcases Nat.eq_zero_or_pos j with rfl | hpos
          · exact hcons
          · have hlt := ih hpos hrest
            rw [List.drop_zero] at hlt
            exact hlt.trans hcons
      | succ i =>
          have hi : i < j := by omega
          exact ih hi hrest

theorem isZone_iff {hostname zone : List Char} :
    IsZone hostname zone ↔ ∃ i, i < (hostname.splitOn '.').length - 1 ∧
      zone = join ((hostname.splitOn '.').drop i) := by
  constructor
  · rintro ⟨labels, hsuffix, htwo, rfl⟩
    rw [List.suffix_iff_eq_drop] at hsuffix
    have hlen := congrArg List.length hsuffix
    rw [List.length_drop] at hlen
    exact ⟨_, by omega, congrArg join hsuffix⟩
  · rintro ⟨i, hi, rfl⟩
    refine ⟨_, List.drop_suffix i _, ?_, rfl⟩
    rw [List.length_drop]
    omega

/-- What the loop finds is the last level below `n` that is served. -/
theorem tryLevels_spec (system : SystemResolver) (labels : List (List Char)) (n : Nat) :
    (∃ i, i < n ∧ Served system (join (labels.drop i)) ∧
      (∀ j, i < j → j < n → ¬ Served system (join (labels.drop j))) ∧
      tryLevels system labels n =
        (resolveNsIps system (join (labels.drop i)), join (labels.drop i))) ∨
    ((∀ i, i < n → ¬ Served system (join (labels.drop i))) ∧
      tryLevels system labels n = ([], [])) := by
  induction n with
  | zero => right; exact ⟨fun i hi => absurd hi (Nat.not_lt_zero i), rfl⟩
  | succ n ih =>
      unfold tryLevels
      by_cases hserved : Served system (join (labels.drop n))
      · left
        refine ⟨n, Nat.lt_succ_self n, hserved, fun j hlt hle => by omega, ?_⟩
        have hsome := mt isEmpty_resolveNsIps.mp (not_not.mpr hserved)
        exact if_neg hsome
      · simp only [if_pos (isEmpty_resolveNsIps.mpr hserved)]
        rcases ih with ⟨i, hi, hfound, hlast, heq⟩ | ⟨hnone, heq⟩
        · left
          refine ⟨i, by omega, hfound, ?_, heq⟩
          intro j hij hj
          rcases Nat.lt_succ_iff_lt_or_eq.mp hj with hlt | rfl
          · exact hlast j hij hlt
          · exact hserved
        · right
          refine ⟨?_, heq⟩
          intro i hi
          rcases Nat.lt_succ_iff_lt_or_eq.mp hi with hlt | rfl
          · exact hnone i hlt
          · exact hserved

/-- At most one zone of the hostname is served. -/
def OneServed (system : SystemResolver) (hostname : List Char) : Prop :=
  ∀ zone other, IsZone hostname zone → Served system zone →
    IsZone hostname other → Served system other → zone = other

/-- The level found is the last one, so its name is the shortest served; the longest only
where there is no other. -/
theorem oneServed_of_isClosest {system : SystemResolver} {hostname : List Char}
    (h : IsClosest system hostname (discoverNsAuthority system hostname)) :
    OneServed system hostname := by
  have hspec := tryLevels_spec system (hostname.splitOn '.') ((hostname.splitOn '.').length - 1)
  rcases h with ⟨longest, -, -, hlongest, hname, -⟩ | ⟨hnone, -⟩
  · rcases hspec with ⟨i, hi, hserved, hlast, heq⟩ | ⟨hnone, -⟩
    · have hfound : longest = join ((hostname.splitOn '.').drop i) := by
        rw [← hname]
        unfold discoverNsAuthority
        rw [heq]
      have honly : ∀ zone, IsZone hostname zone → Served system zone → zone = longest := by
        intro zone hzone hzoneServed
        have hle := hlongest zone hzone hzoneServed
        obtain ⟨j, hj, rfl⟩ := isZone_iff.mp hzone
        rcases Nat.lt_trichotomy j i with hlt | rfl | hgt
        · have hshorter := length_join_drop_lt hlt (by omega : i < (hostname.splitOn '.').length)
          rw [← hfound] at hshorter
          omega
        · exact hfound.symm
        · exact absurd hzoneServed (hlast j hgt hj)
      intro zone other hzone hzs hother hos
      rw [honly zone hzone hzs, honly other hother hos]
    · intro zone _ hzone hzs
      obtain ⟨j, hj, rfl⟩ := isZone_iff.mp hzone
      exact absurd hzs (hnone j hj)
  · intro zone _ hzone hzs
    exact absurd hzs (hnone zone hzone)

theorem isClosest_of_oneServed {system : SystemResolver} {hostname : List Char}
    (h : OneServed system hostname) :
    IsClosest system hostname (discoverNsAuthority system hostname) := by
  have hspec := tryLevels_spec system (hostname.splitOn '.') ((hostname.splitOn '.').length - 1)
  rcases hspec with ⟨i, hi, hserved, -, heq⟩ | ⟨hnone, heq⟩
  · left
    have hzone := isZone_iff.mpr ⟨i, hi, rfl⟩
    refine ⟨_, hzone, hserved, ?_, ?_, ?_⟩
    · intro other hother hos
      exact (congrArg List.length (h other _ hother hos hzone hserved)).le
    · exact congrArg Prod.snd heq
    · intro ip
      show ip ∈ (tryLevels system _ _).1 ↔ _
      rw [heq]
      exact mem_resolveNsIps
  · right
    refine ⟨?_, heq⟩
    intro zone hzone
    obtain ⟨j, hj, rfl⟩ := isZone_iff.mp hzone
    exact hnone j hj

/-- The walk asks from the shortest zone on, so it finds the closest one exactly where only
one is served. -/
theorem discoverNsAuthority_closest_iff (system : SystemResolver) (hostname : List Char) :
    IsClosest system hostname (discoverNsAuthority system hostname) ↔
      OneServed system hostname := by
  constructor
  · intro h
    exact oneServed_of_isClosest h
  · intro h
    exact isClosest_of_oneServed h

/-- `ha.example.com` is delegated by `example.com`. -/
def delegated : SystemResolver where
  nsLookup domain :=
    if domain = "ha.example.com".toList then some [.ns "ns.ha.example.com.".toList]
    else if domain = "example.com".toList then some [.ns "ns.example.com.".toList]
    else none
  lookupIp name :=
    if name = "ns.ha.example.com".toList then some [.v4 0x0a000002#32]
    else if name = "ns.example.com".toList then some [.v4 0x0a000001#32]
    else none

theorem parent_found :
    discoverNsAuthority delegated "t.ha.example.com".toList =
        ([.v4 0x0a000001#32], "example.com".toList) ∧
      ¬ IsClosest delegated "t.ha.example.com".toList
        (discoverNsAuthority delegated "t.ha.example.com".toList) := by
  refine ⟨by decide +kernel, ?_⟩
  intro hclosest
  have hsub : IsZone "t.ha.example.com".toList "ha.example.com".toList :=
    isZone_iff.mpr ⟨1, by decide +kernel, by decide +kernel⟩
  have hparent : IsZone "t.ha.example.com".toList "example.com".toList :=
    isZone_iff.mpr ⟨2, by decide +kernel, by decide +kernel⟩
  have hsubServed : Served delegated "ha.example.com".toList :=
    ⟨.v4 0x0a000002#32, mem_resolveNsIps.mp (by decide +kernel)⟩
  have hparentServed : Served delegated "example.com".toList :=
    ⟨.v4 0x0a000001#32, mem_resolveNsIps.mp (by decide +kernel)⟩
  have heq := oneServed_of_isClosest hclosest _ _ hsub hsubServed hparent hparentServed
  exact absurd heq (by decide +kernel)

end DatumConnect.Cli
