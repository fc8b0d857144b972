import DatumConnect.Inspector.Replay
/-!
# The headers of a response

What the inspector answers with, of what the origin has answered: by `proxy_handler` its headers
but for those of the hop, and by `proxy_upgrade`, where the origin does not upgrade, all of them.
-/

namespace DatumConnect.Inspector

/-! ## A map of headers -/

/-- A `HeaderMap`: each name with its values, in the order in which the names came. -/
abbrev Entries := List (HeaderName × List Bytes)

namespace Entries

/-- `append` -/
def append (name : HeaderName) (value : Bytes) : Entries → Entries
  | [] => [(name, [value])]
  | (other, values) :: rest =>
      if other = name then (other, values ++ [value]) :: rest
      else (other, values) :: append name value rest

/-- `iter` -/
def iter (headers : Entries) : HeaderMap :=
  headers.flatMap fun (name, values) => values.map (name, ·)

end Entries

/-- The map of headers that have come one after the other. -/
def received (headers : HeaderMap) : Entries :=
  headers.foldl (fun map (name, value) => map.append name value) []

/-! ## The code -/

/-- `HOP_BY_HOP_HEADERS` -/
def hopByHopHeaders : List String :=
  ["connection", "content-length", "keep-alive", "proxy-authenticate", "proxy-authorization",
    "te", "trailer", "transfer-encoding", "upgrade"]

def HeaderName.isHopByHop (name : HeaderName) : Bool := hopByHopHeaders.contains name.text

def copyOriginHeaders (dst src : Entries) : Entries :=
  src.iter.foldl (fun dst (name, value) => if name.isHopByHop then dst else dst.append name value)
    dst

/-- What the origin answers; there is no body where it broke off. -/
structure Origin where
  status : UInt16
  headers : HeaderMap
  body : Option Bytes
  deriving DecidableEq

structure Response where
  status : UInt16
  headers : Entries
  body : Option Bytes
  deriving DecidableEq

/-- `StatusCode::SWITCHING_PROTOCOLS` -/
def switchingProtocols : UInt16 := 101

/-- `proxy_upgrade`, once the origin has answered; where it switches, the connection is relayed. -/
def proxyUpgradeResponse (origin : Origin) : Response :=
  if origin.status ≠ switchingProtocols then
    { status := origin.status
      headers := received origin.headers
      body := some (origin.body.getD []) }
  else
    { status := origin.status
      headers := received origin.headers
      body := some [] }

/-- `proxy_handler`, once the origin has answered. -/
def proxyHandlerResponse (requestHeaders : HeaderMap) (origin : Origin) : Response :=
  if isUpgradeRequest requestHeaders then proxyUpgradeResponse origin
  else
    { status := origin.status
      headers := copyOriginHeaders [] (received origin.headers)
      body := origin.body }

/-! ## What should cross -/

def valuesOf (name : HeaderName) (headers : HeaderMap) : List Bytes :=
  (headers.filter fun h => h.1 = name).map (·.2)

/-- All of the origin's headers but those of the hop, in the order of its map. -/
structure Intact (origin : HeaderMap) (headers : Entries) : Prop where
  values : ∀ name, valuesOf name headers.iter =
    if name.isHopByHop then [] else valuesOf name origin
  order : headers = (received origin).filter fun entry => !entry.1.isHopByHop

/-- The headers cross, unless the connection is upgraded. -/
def Crosses (requestHeaders : HeaderMap) (origin : Origin) : Prop :=
  ¬ (isUpgradeRequest requestHeaders = true ∧ origin.status = switchingProtocols) →
    Intact origin.headers (proxyHandlerResponse requestHeaders origin).headers

/-! ## Maps -/

namespace Entries

/-- Every name once, and with a value. -/
structure Sound (headers : Entries) : Prop where
  once : (headers.map (·.1)).Nodup
  valued : ∀ entry ∈ headers, entry.2 ≠ []

theorem map_append_names (name : HeaderName) (value : Bytes) (headers : Entries) :
    (headers.append name value).map (·.1) =
      if name ∈ headers.map (·.1) then headers.map (·.1) else headers.map (·.1) ++ [name] := by
  induction headers with
  | nil => rfl
  | cons entry rest ih =>
      obtain ⟨other, values⟩ := entry
      unfold append
      by_cases hname : other = name
      · subst hname
        simp
      · have hname' : ¬ name = other := fun heq => hname heq.symm
        rw [if_neg hname, List.map_cons, ih, List.map_cons]
        by_cases hmem : name ∈ rest.map (·.1)
        · rw [if_pos hmem, if_pos (List.mem_cons_of_mem _ hmem)]
        · have hnot : name ∉ other :: rest.map (·.1) := by
            rw [List.mem_cons, not_or]
            exact ⟨hname', hmem⟩
          rw [if_neg hmem, if_neg hnot, List.cons_append]

theorem Sound.append {headers : Entries} (h : headers.Sound) (name : HeaderName) (value : Bytes) :
    (headers.append name value).Sound := by
  constructor
  · rw [map_append_names]
    split
    · exact h.once
    · rename_i hnew
      rw [List.nodup_append]
      refine ⟨h.once, (List.pairwise_singleton _ _), ?_⟩
      rintro a ha b hb rfl
      rw [List.mem_singleton] at hb
      exact hnew (hb ▸ ha)
  · have hvalued := h.valued
    clear h
    induction headers with
    | nil =>
        rintro entry hmem
        cases List.mem_singleton.mp hmem
        exact List.cons_ne_nil _ _
    | cons entry rest ih =>
        obtain ⟨other, values⟩ := entry
        obtain ⟨hfirst, hrest⟩ := List.forall_mem_cons.mp hvalued
        unfold Entries.append
        split
        · refine List.forall_mem_cons.mpr ⟨?_, hrest⟩
          simp
        · exact List.forall_mem_cons.mpr ⟨hfirst, ih hrest⟩

theorem valuesOf_iter_cons (name other : HeaderName) (values : List Bytes) (rest : Entries) :
    valuesOf name (iter ((other, values) :: rest)) =
      (if other = name then values else []) ++ valuesOf name rest.iter := by
  have hvalues : valuesOf name (values.map (other, ·)) = if other = name then values else [] := by
    unfold valuesOf
    split
    · rename_i hname
      rw [List.filter_eq_self.mpr, List.map_map]
      · exact List.map_id values
      · intro h hmem
        obtain ⟨v, _, rfl⟩ := List.mem_map.mp hmem
        exact decide_eq_true hname
    · rename_i hname
      rw [List.filter_eq_nil_iff.mpr, List.map_nil]
      intro h hmem
      obtain ⟨v, _, rfl⟩ := List.mem_map.mp hmem
      simpa using hname
  rw [← hvalues]
  unfold iter valuesOf
  rw [List.flatMap_cons, List.filter_append, List.map_append]

theorem valuesOf_iter_of_not_mem {name : HeaderName} {headers : Entries}
    (h : name ∉ headers.map (·.1)) : valuesOf name headers.iter = [] := by
  induction headers with
  | nil => rfl
  | cons entry rest ih =>
      obtain ⟨first, values⟩ := entry
      rw [List.map_cons, List.mem_cons, not_or] at h
      rw [valuesOf_iter_cons, if_neg fun heq => h.1 heq.symm, ih h.2]
      rfl

theorem valuesOf_append {headers : Entries} (h : (headers.map (·.1)).Nodup)
    (name other : HeaderName) (value : Bytes) :
    valuesOf name (headers.append other value).iter =
      valuesOf name headers.iter ++ if other = name then [value] else [] := by
  induction headers with
  | nil =>
      rw [append, valuesOf_iter_cons]
      exact List.append_nil _
  | cons entry rest ih =>
      obtain ⟨first, values⟩ := entry
      rw [List.map_cons, List.nodup_cons] at h
      unfold append
      by_cases hfirst : first = other
      · subst hfirst
        rw [if_pos rfl, valuesOf_iter_cons, valuesOf_iter_cons]
        by_cases hname : first = name
        · -- No entry behind it has the name again.
          subst hname
          simp [valuesOf_iter_of_not_mem h.1]
        · simp [hname]
      · rw [if_neg hfirst, valuesOf_iter_cons, valuesOf_iter_cons, ih h.2, List.append_assoc]

/-! ## Copies -/

theorem append_new {name : HeaderName} {headers : Entries} (h : name ∉ headers.map (·.1))
    (value : Bytes) : headers.append name value = headers ++ [(name, [value])] := by
  induction headers with
  | nil => rfl
  | cons entry rest ih =>
      obtain ⟨other, values⟩ := entry
      rw [List.map_cons, List.mem_cons, not_or] at h
      rw [append, if_neg fun heq => h.1 heq.symm, ih h.2]
      rfl

theorem append_last {name : HeaderName} {headers : Entries} (h : name ∉ headers.map (·.1))
    (values : List Bytes) (value : Bytes) :
    append name value (headers ++ [(name, values)]) = headers ++ [(name, values ++ [value])] := by
  induction headers with
  | nil => exact if_pos rfl
  | cons entry rest ih =>
      obtain ⟨other, values'⟩ := entry
      rw [List.map_cons, List.mem_cons, not_or] at h
      rw [List.cons_append, append, if_neg fun heq => h.1 heq.symm, ih h.2]
      rfl

end Entries

open Entries

theorem sound_received (headers : HeaderMap) : (received headers).Sound := by
  unfold received
  have hstep : ∀ map : Entries, map.Sound →
      (headers.foldl (fun map (name, value) => map.append name value) map).Sound := by
    induction headers with
    | nil => exact fun _ hmap => hmap
    | cons h rest ih => exact fun map hmap => ih _ (hmap.append h.1 h.2)
  exact hstep [] ⟨List.nodup_nil, nofun⟩

/-- Of each name the map has the values that came, in their order. -/
theorem valuesOf_received (name : HeaderName) (headers : HeaderMap) :
    valuesOf name (received headers).iter = valuesOf name headers := by
  have hstep : ∀ map : Entries, map.Sound →
      valuesOf name (iter (headers.foldl (fun map (name, value) => map.append name value) map)) =
        valuesOf name map.iter ++ valuesOf name headers := by
    induction headers with
    | nil => exact fun _ _ => (List.append_nil _).symm
    | cons h rest ih =>
        intro map hmap
        have hone : valuesOf name (h :: rest) =
            (if h.1 = name then [h.2] else []) ++ valuesOf name rest := by
          unfold valuesOf
          rw [List.filter_cons]
          by_cases hname : h.1 = name
          · rw [if_pos (decide_eq_true hname), if_pos hname]
            rfl
          · rw [if_neg (by simpa using hname), if_neg hname]
            rfl
        rw [List.foldl_cons, ih _ (hmap.append h.1 h.2), valuesOf_append hmap.once, hone,
          List.append_assoc]
  exact hstep [] ⟨List.nodup_nil, nofun⟩

/-- The values of one name are copied together. -/
theorem foldl_append_values {name : HeaderName} {dst : Entries} (h : name ∉ dst.map (·.1))
    (values before : List Bytes) :
    values.foldl (fun dst value => dst.append name value) (dst ++ [(name, before)]) =
      dst ++ [(name, before ++ values)] := by
  induction values generalizing before with
  | nil => rw [List.append_nil, List.foldl_nil]
  | cons value rest ih => rw [List.foldl_cons, append_last h, ih, List.append_assoc,
      List.singleton_append]

theorem copyOriginHeaders_eq {src : Entries} (h : src.Sound) (dst : Entries)
    (hdst : ∀ name ∈ src.map (·.1), name ∉ dst.map (·.1)) :
    copyOriginHeaders dst src = dst ++ src.filter fun entry => !entry.1.isHopByHop := by
  induction src generalizing dst with
  | nil => exact (List.append_nil _).symm
  | cons entry rest ih =>
      obtain ⟨name, values⟩ := entry
      have honce := List.nodup_cons.mp h.once
      obtain ⟨hvalues, hvalued⟩ := List.forall_mem_cons.mp h.valued
      have hrest : Entries.Sound rest := ⟨honce.2, hvalued⟩
      obtain ⟨hname, hnames⟩ := List.forall_mem_cons.mp hdst
      have hsplit : copyOriginHeaders dst ((name, values) :: rest) =
          copyOriginHeaders (values.foldl (fun dst value =>
            if name.isHopByHop then dst else dst.append name value) dst) rest := by
        unfold copyOriginHeaders iter
        rw [List.flatMap_cons, List.foldl_append, List.foldl_map]
      rw [hsplit]
      by_cases hhop : name.isHopByHop = true
      · have hsame : values.foldl (fun dst value =>
            if name.isHopByHop then dst else dst.append name value) dst = dst := by
          simp only [hhop, if_true]
          exact List.foldl_fixed values
        rw [hsame, ih hrest dst hnames, List.filter_cons_of_neg (by simp [hhop])]
      · obtain ⟨value, more, rfl⟩ := List.exists_cons_of_ne_nil hvalues
        have hblock : (value :: more).foldl (fun dst value =>
            if name.isHopByHop then dst else dst.append name value) dst =
              dst ++ [(name, value :: more)] := by
          simp only [if_neg hhop]
          rw [List.foldl_cons, append_new hname, foldl_append_values hname]
          rfl
        have hnames' : ∀ other ∈ rest.map (·.1),
            other ∉ (dst ++ [(name, value :: more)]).map (·.1) := by
          intro other hother
          rw [List.map_append, List.mem_append, not_or]
          refine ⟨hnames other hother, ?_⟩
          rw [List.map_singleton, List.mem_singleton]
          rintro rfl
          exact honce.1 hother
        rw [hblock, ih hrest _ hnames', List.append_assoc, List.singleton_append,
          List.filter_cons_of_pos (by simp [hhop])]

theorem valuesOf_filter (name : HeaderName) (headers : Entries) :
    valuesOf name (iter (headers.filter fun entry => !entry.1.isHopByHop)) =
      if name.isHopByHop then [] else valuesOf name headers.iter := by
  induction headers with
  | nil => exact (ite_self _).symm
  | cons entry rest ih =>
      obtain ⟨first, values⟩ := entry
      by_cases hhop : first.isHopByHop = true
      · rw [List.filter_cons_of_neg (by simp [hhop]), ih]
        by_cases hname : name.isHopByHop = true
        · rw [if_pos hname, if_pos hname]
        · have hne : first ≠ name := by
            rintro rfl
            exact hname hhop
          rw [if_neg hname, if_neg hname, valuesOf_iter_cons, if_neg hne, List.nil_append]
      · rw [List.filter_cons_of_pos (by simp [hhop]), valuesOf_iter_cons, ih, valuesOf_iter_cons]
        by_cases hname : name.isHopByHop = true
        · have hne : first ≠ name := by
            rintro rfl
            exact hhop hname
          rw [if_pos hname, if_pos hname, if_neg hne]
          rfl
        · rw [if_neg hname, if_neg hname]

/-! ## Both paths -/

theorem intact_copied (origin : HeaderMap) :
    Intact origin (copyOriginHeaders [] (received origin)) := by
  have hcopied := copyOriginHeaders_eq (sound_received origin) [] fun _ _ => List.not_mem_nil
  rw [List.nil_append] at hcopied
  rw [hcopied]
  refine ⟨fun name => ?_, rfl⟩
  rw [valuesOf_filter, valuesOf_received]

theorem mem_received {origin : HeaderMap} {entry : HeaderName × List Bytes}
    (h : entry ∈ received origin) : ∃ value, (entry.1, value) ∈ origin := by
  obtain ⟨name, values⟩ := entry
  have hne : valuesOf name (received origin).iter ≠ [] := by
    obtain ⟨value, hvalue⟩ := List.exists_mem_of_ne_nil _ ((sound_received origin).valued _ h)
    apply List.ne_nil_of_mem (a := value)
    refine List.mem_map.mpr ⟨(name, value), List.mem_filter.mpr ⟨?_, decide_eq_true rfl⟩, rfl⟩
    exact List.mem_flatMap.mpr ⟨_, h, List.mem_map.mpr ⟨value, hvalue, rfl⟩⟩
  rw [valuesOf_received] at hne
  obtain ⟨value, hvalue⟩ := List.exists_mem_of_ne_nil _ hne
  obtain ⟨⟨other, v⟩, hmem, rfl⟩ := List.mem_map.mp hvalue
  obtain ⟨hin, hname⟩ := List.mem_filter.mp hmem
  have hsame : other = name := of_decide_eq_true hname
  exact ⟨v, hsame ▸ hin⟩

theorem intact_received_iff (origin : HeaderMap) :
    Intact origin (received origin) ↔ ∀ h ∈ origin, h.1.isHopByHop = false := by
  constructor
  · intro hintact h hmem
    rw [← Bool.not_eq_true]
    intro hhop
    have hvalues := hintact.values h.1
    rw [if_pos hhop, valuesOf_received] at hvalues
    have hin : h.2 ∈ valuesOf h.1 origin :=
      List.mem_map.mpr ⟨h, List.mem_filter.mpr ⟨hmem, decide_eq_true rfl⟩, rfl⟩
    rw [hvalues] at hin
    exact List.not_mem_nil hin
  · intro hplain
    have hsame : ((received origin).filter fun entry => !entry.1.isHopByHop) = received origin := by
      rw [List.filter_eq_self]
      intro entry hmem
      obtain ⟨value, hvalue⟩ := mem_received hmem
      rw [hplain _ hvalue]
      rfl
    refine ⟨fun name => ?_, hsame.symm⟩
    rw [← valuesOf_received name origin, ← valuesOf_filter, hsame]

theorem headers_cross_iff (requestHeaders : HeaderMap) (origin : Origin) :
    Crosses requestHeaders origin ↔
      isUpgradeRequest requestHeaders = false ∨ origin.status = switchingProtocols ∨
        ∀ h ∈ origin.headers, h.1.isHopByHop = false := by
  unfold Crosses proxyHandlerResponse
  cases hupgrade : isUpgradeRequest requestHeaders with
  | false => exact iff_of_true (fun _ => intact_copied _) (Or.inl rfl)
  | true =>
      by_cases hswitch : origin.status = switchingProtocols
      · exact iff_of_true (fun hnot => absurd ⟨rfl, hswitch⟩ hnot) (Or.inr (Or.inl hswitch))
      · have hdeclined : (proxyUpgradeResponse origin).headers = received origin.headers := by
          rw [proxyUpgradeResponse, if_pos hswitch]
        simp only [if_true, hdeclined, intact_received_iff]
        simp [hswitch]

/-- An origin that declines in chunks: its framing is passed on. -/
theorem declined_framing :
    ¬ Crosses [(connection, "Upgrade".toList.map fun c => UInt8.ofNat c.toNat)]
      { status := 200
        headers := [(⟨"transfer-encoding", by decide⟩,
          "chunked".toList.map fun c => UInt8.ofNat c.toNat)]
        body := some [] } := by
  intro h
  have hvalues := (h (by decide)).values ⟨"transfer-encoding", by decide⟩
  revert hvalues
  decide +kernel

end DatumConnect.Inspector
