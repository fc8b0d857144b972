import DatumConnect.AddonPage.Ingress
/-!
# The page as it is served

The template of the page and what is put into it: the token, the mode, and a `<base>` when
Home Assistant sent the path it serves the page under.
-/

namespace DatumConnect.AddonPage

open DatumConnect.Lib

def indexHtml : List Char :=
  "<!doctype html>\n".toList ++
  "<html lang=\"en\">\n".toList ++
  "<head>\n".toList ++
  "<meta charset=\"utf-8\">\n".toList ++
  "<meta name=\"viewport\" content=\"width=device-width, initial-scale=1\">\n".toList ++
  "<meta name=\"color-scheme\" content=\"light dark\">\n".toList ++
  "<meta name=\"referrer\" content=\"no-referrer\">\n".toList ++
  "<meta name=\"datum-csrf\" content=\"\x7b\x7bCSRF\x7d\x7d\">\n".toList ++
  "\x7b\x7bBASE\x7d\x7d<title>Datum Connect</title>\n".toList ++
  "<link rel=\"stylesheet\" href=\"app.css\">\n".toList ++
  "</head>\n".toList ++
  "<body data-mode=\"\x7b\x7bMODE\x7d\x7d\">\n".toList ++
  "<main id=\"app\" aria-live=\"polite\">\n".toList ++
  "  <h1>Datum Connect</h1>\n".toList ++
  "  <p class=\"muted\">Loading&hellip;</p>\n".toList ++
  "  <noscript><p>This page needs JavaScript.</p></noscript>\n".toList ++
  "</main>\n".toList ++
  "<script src=\"app.js\"></script>\n".toList ++
  "</body>\n".toList ++
  "</html>\n".toList

def csrfSlot : List Char := "\x7b\x7bCSRF\x7d\x7d".toList

def modeSlot : List Char := "\x7b\x7bMODE\x7d\x7d".toList

def baseSlot : List Char := "\x7b\x7bBASE\x7d\x7d".toList

def Mode.name : Mode → List Char
  | .setup => "setup".toList
  | .paired => "paired".toList

def isTokenChar (c : Char) : Bool := c.isAlphanum || c = '-' || c = '_'

def validIngressPath (path : List Char) : Option (List Char) :=
  (Text.stripPrefix "/api/hassio_ingress/".toList path).bind fun token =>
    if token ≠ [] ∧ token.all isTokenChar = true then some path else none

def baseTag (path : List Char) : List Char :=
  "<base href=\"".toList ++ path ++ "/\">\n".toList

def Ingress.index (state : Ingress) (headers : HeaderMap) : List Char :=
  let path := ((headers.get ingressPathHeader).bind toStr).bind validIngressPath
  let base := (path.map baseTag).getD []
  Text.replace baseSlot base <|
    Text.replace modeSlot state.mode.name <|
    Text.replace csrfSlot state.csrf indexHtml

/-! ## The parts of the template -/

def headStart : List Char :=
  "<!doctype html>\n".toList ++
  "<html lang=\"en\">\n".toList ++
  "<head>\n".toList ++
  "<meta charset=\"utf-8\">\n".toList ++
  "<meta name=\"viewport\" content=\"width=device-width, initial-scale=1\">\n".toList ++
  "<meta name=\"color-scheme\" content=\"light dark\">\n".toList ++
  "<meta name=\"referrer\" content=\"no-referrer\">\n".toList ++
  "<meta name=\"datum-csrf\" content=\"".toList

def headEnd : List Char := "\">\n".toList

def bodyStart : List Char :=
  "<title>Datum Connect</title>\n".toList ++
  "<link rel=\"stylesheet\" href=\"app.css\">\n".toList ++
  "</head>\n".toList ++
  "<body data-mode=\"".toList

def bodyEnd : List Char :=
  "\">\n".toList ++
  "<main id=\"app\" aria-live=\"polite\">\n".toList ++
  "  <h1>Datum Connect</h1>\n".toList ++
  "  <p class=\"muted\">Loading&hellip;</p>\n".toList ++
  "  <noscript><p>This page needs JavaScript.</p></noscript>\n".toList ++
  "</main>\n".toList ++
  "<script src=\"app.js\"></script>\n".toList ++
  "</body>\n".toList ++
  "</html>\n".toList

theorem csrf_line : "<meta name=\"datum-csrf\" content=\"\x7b\x7bCSRF\x7d\x7d\">\n".toList =
    "<meta name=\"datum-csrf\" content=\"".toList ++ (csrfSlot ++ headEnd) := by
  unfold csrfSlot headEnd
  repeat rw [String.toList_ofList]
  rfl

theorem base_line : "\x7b\x7bBASE\x7d\x7d<title>Datum Connect</title>\n".toList =
    baseSlot ++ "<title>Datum Connect</title>\n".toList := by
  unfold baseSlot
  repeat rw [String.toList_ofList]
  rfl

theorem mode_line : "<body data-mode=\"\x7b\x7bMODE\x7d\x7d\">\n".toList =
    "<body data-mode=\"".toList ++ (modeSlot ++ "\">\n".toList) := by
  unfold modeSlot
  repeat rw [String.toList_ofList]
  rfl

theorem indexHtml_eq : indexHtml = headStart ++ (csrfSlot ++ (headEnd ++ (baseSlot ++
    (bodyStart ++ (modeSlot ++ bodyEnd))))) := by
  unfold indexHtml headStart bodyStart bodyEnd
  rw [csrf_line, base_line, mode_line]
  simp only [List.append_assoc]

theorem no_brace : '{' ∉ headStart ∧ '{' ∉ headEnd ∧ '{' ∉ bodyStart ∧ '{' ∉ bodyEnd := by
  unfold headStart headEnd bodyStart bodyEnd
  -- The literals as lists, or the kernel decodes each from its bytes.
  repeat rw [String.toList_ofList]
  decide +kernel

/-- What stands before the place of the `<base>`. -/
def pageStart (csrf : List Char) : List Char := headStart ++ (csrf ++ headEnd)

/-- What stands after the place of the `<base>`. -/
def pageEnd (mode : Mode) : List Char := bodyStart ++ (mode.name ++ bodyEnd)

theorem not_mem_newCsrfToken {random : Vector UInt8 32} {c : Char}
    (h : ∀ n < 16, c ≠ Nat.digitChar n) : c ∉ newCsrfToken random := by
  intro hmem
  obtain ⟨n, hn, hc⟩ := mem_newCsrfToken hmem
  exact h n hn hc

theorem csrfSlot_head : csrfSlot.head? = some '{' := by decide

theorem modeSlot_head : modeSlot.head? = some '{' := by decide

theorem baseSlot_head : baseSlot.head? = some '{' := by decide

theorem clear_afterCsrf :
    Text.Clear csrfSlot (headEnd ++ (baseSlot ++ (bodyStart ++ (modeSlot ++ bodyEnd)))) := by
  obtain ⟨-, hheadEnd, hbodyStart, hbodyEnd⟩ := no_brace
  have hbase : Text.Clear csrfSlot baseSlot := by decide
  have hmode : Text.Clear csrfSlot modeSlot := by decide
  have hend := hmode.append (Text.clear_of_not_mem csrfSlot_head hbodyEnd)
  have hbody := (Text.clear_of_not_mem csrfSlot_head hbodyStart).append hend
  exact (Text.clear_of_not_mem csrfSlot_head hheadEnd).append (hbase.append hbody)

theorem slots_ne_nil : csrfSlot ≠ [] ∧ modeSlot ≠ [] ∧ baseSlot ≠ [] := by decide

theorem clear_token {slot : List Char} {random : Vector UInt8 32} (h : slot.head? = some '{') :
    Text.Clear slot (newCsrfToken random) :=
  Text.clear_of_not_mem h (not_mem_newCsrfToken (by decide))

theorem replace_csrf (csrf : List Char) :
    Text.replace csrfSlot csrf indexHtml = headStart ++ (csrf ++ (headEnd ++ (baseSlot ++
      (bodyStart ++ (modeSlot ++ bodyEnd))))) := by
  rw [indexHtml_eq]
  calc Text.replace csrfSlot csrf (headStart ++ (csrfSlot ++ (headEnd ++ (baseSlot ++
        (bodyStart ++ (modeSlot ++ bodyEnd))))))
      = headStart ++ Text.replace csrfSlot csrf (csrfSlot ++ (headEnd ++ (baseSlot ++
          (bodyStart ++ (modeSlot ++ bodyEnd))))) :=
        Text.replace_append (Text.clear_of_not_mem csrfSlot_head no_brace.1)
    _ = headStart ++ (csrf ++ Text.replace csrfSlot csrf (headEnd ++ (baseSlot ++
          (bodyStart ++ (modeSlot ++ bodyEnd))))) := congrArg _ (Text.replace_match slots_ne_nil.1)
    _ = _ := by rw [Text.replace_clear clear_afterCsrf]

theorem replace_mode (mode : Mode) (random : Vector UInt8 32) :
    Text.replace modeSlot mode.name (headStart ++ (newCsrfToken random ++ (headEnd ++ (baseSlot ++
      (bodyStart ++ (modeSlot ++ bodyEnd)))))) =
    pageStart (newCsrfToken random) ++ (baseSlot ++ pageEnd mode) := by
  obtain ⟨hheadStart, hheadEnd, hbodyStart, hbodyEnd⟩ := no_brace
  have hhead := Text.clear_of_not_mem modeSlot_head hheadStart
  have hend := Text.clear_of_not_mem modeSlot_head hheadEnd
  have hbase : Text.Clear modeSlot baseSlot := by decide
  have hbody := Text.clear_of_not_mem modeSlot_head hbodyStart
  rw [Text.replace_append hhead, Text.replace_append (clear_token modeSlot_head), Text.replace_append hend,
    Text.replace_append hbase, Text.replace_append hbody]
  have hslot : Text.replace modeSlot mode.name (modeSlot ++ bodyEnd) = mode.name ++ bodyEnd := by
    calc Text.replace modeSlot mode.name (modeSlot ++ bodyEnd)
        = mode.name ++ Text.replace modeSlot mode.name bodyEnd :=
          Text.replace_match slots_ne_nil.2.1
      _ = mode.name ++ bodyEnd := by
          rw [Text.replace_clear (Text.clear_of_not_mem modeSlot_head hbodyEnd)]
  rw [hslot]
  simp only [pageStart, pageEnd, List.append_assoc]

theorem clear_pageEnd {mode : Mode} : Text.Clear baseSlot (pageEnd mode) := by
  obtain ⟨-, -, hbodyStart, hbodyEnd⟩ := no_brace
  have hname : '{' ∉ mode.name := by cases mode <;> decide
  apply Text.clear_of_not_mem baseSlot_head
  unfold pageEnd
  rw [List.mem_append, List.mem_append]
  tauto

theorem clear_pageStart {random : Vector UInt8 32} :
    Text.Clear baseSlot (pageStart (newCsrfToken random)) := by
  have hhead := Text.clear_of_not_mem baseSlot_head no_brace.1
  have hend := Text.clear_of_not_mem baseSlot_head no_brace.2.1
  exact hhead.append ((clear_token baseSlot_head).append hend)

theorem replace_base {mode : Mode} (base : List Char) :
    Text.replace baseSlot base (baseSlot ++ pageEnd mode) = base ++ pageEnd mode := by
  calc Text.replace baseSlot base (baseSlot ++ pageEnd mode)
      = base ++ Text.replace baseSlot base (pageEnd mode) := Text.replace_match slots_ne_nil.2.2
    _ = base ++ pageEnd mode := by rw [Text.replace_clear clear_pageEnd]

/-- The page is the template around what is put in for the base. -/
theorem index_eq {mode : Mode} {random : Vector UInt8 32} {allowed : List IpAddr}
    (headers : HeaderMap) :
    (Ingress.new mode random allowed).index headers =
      pageStart (newCsrfToken random) ++
        (((((headers.get ingressPathHeader).bind toStr).bind validIngressPath).map baseTag).getD [] ++
          pageEnd mode) := by
  unfold Ingress.index
  simp only [Ingress.new]
  rw [replace_csrf, replace_mode, Text.replace_append clear_pageStart]
  apply congrArg (pageStart (newCsrfToken random) ++ ·)
  exact replace_base _

/-- Nothing, or a base whose path is the one in the header: `/api/hassio_ingress/` and a
token of the characters of one. -/
def IsBase (headers : HeaderMap) (base : List Char) : Prop :=
  base = [] ∨ ∃ token, token ≠ [] ∧ (∀ c ∈ token, isTokenChar c = true) ∧
    headers.get ingressPathHeader = some (asBytes ("/api/hassio_ingress/".toList ++ token)) ∧
    base = baseTag ("/api/hassio_ingress/".toList ++ token)

theorem isBase_index (headers : HeaderMap) :
    IsBase headers
      (((((headers.get ingressPathHeader).bind toStr).bind validIngressPath).map baseTag).getD []) := by
  cases hpath : ((headers.get ingressPathHeader).bind toStr).bind validIngressPath with
  | none => exact .inl rfl
  | some path =>
      right
      obtain ⟨text, htext, hvalid⟩ := Option.bind_eq_some_iff.mp hpath
      obtain ⟨v, hv, hread⟩ := Option.bind_eq_some_iff.mp htext
      obtain ⟨token, hstrip, hif⟩ := Option.bind_eq_some_iff.mp hvalid
      unfold Text.stripPrefix at hstrip
      split at hstrip
      · rename_i hpre
        obtain ⟨rest, hrest⟩ := List.isPrefixOf_iff_prefix.mp hpre
        obtain rfl : rest = token := by
          rw [← hrest, List.drop_left] at hstrip
          exact Option.some.inj hstrip
        split at hif
        · rename_i htoken
          cases hif
          refine ⟨rest, htoken.1, List.all_eq_true.mp htoken.2, ?_, ?_⟩
          · rw [hv, hrest, asBytes_of_toStr hread]
          · rw [hrest]
            rfl
        · cases hif
      · cases hstrip

theorem occurrences_base_le {headers : HeaderMap} {base rest : List Char}
    (h : IsBase headers base) :
    Text.occurrences "<base".toList (base ++ rest) ≤
      1 + Text.occurrences "<base".toList rest := by
  rcases h with rfl | ⟨token, -, htoken, -, rfl⟩
  · exact Nat.le_add_left _ _
  · -- Past its first character the tag has no other start of one.
    have htail : '<' ∉ "base href=\"".toList ++ ("/api/hassio_ingress/".toList ++ token) ++
        "/\">\n".toList := by
      have hnot : '<' ∉ token := fun hmem => absurd (htoken _ hmem) (by decide)
      simp only [List.mem_append, hnot, or_false, not_or]
      decide
    have hclear : Text.Clear "<base".toList _ := Text.clear_of_not_mem (by decide) htail
    calc Text.occurrences "<base".toList
          (baseTag ("/api/hassio_ingress/".toList ++ token) ++ rest)
        ≤ 1 + Text.occurrences "<base".toList ("base href=\"".toList ++
            ("/api/hassio_ingress/".toList ++ token) ++ "/\">\n".toList ++ rest) :=
          Text.occurrences_cons_le
      _ = 1 + Text.occurrences "<base".toList rest := by
          rw [Text.occurrences_append hclear]

theorem no_base : Text.Clear "<base".toList headStart ∧ Text.Clear "<base".toList headEnd ∧
    Text.Clear "<base".toList bodyStart ∧ Text.Clear "<base".toList bodyEnd := by
  unfold headStart headEnd bodyStart bodyEnd
  repeat rw [String.toList_ofList]
  decide +kernel

theorem occurrences_index_le {mode : Mode} {random : Vector UInt8 32} {headers : HeaderMap}
    {base : List Char} (h : IsBase headers base) :
    Text.occurrences "<base".toList
      (pageStart (newCsrfToken random) ++ (base ++ pageEnd mode)) ≤ 1 := by
  obtain ⟨hhead, hheadEnd, hbodyStart, hbodyEnd⟩ := no_base
  have htoken : Text.Clear "<base".toList (newCsrfToken random) :=
    Text.clear_of_not_mem (by decide : _ = some '<') (not_mem_newCsrfToken (by decide))
  have hstart : Text.Clear "<base".toList (pageStart (newCsrfToken random)) :=
    hhead.append (htoken.append hheadEnd)
  have hend : Text.Clear "<base".toList (pageEnd mode) := by
    have hname : Text.Clear "<base".toList mode.name := by cases mode <;> decide
    exact hbodyStart.append (hname.append hbodyEnd)
  have hnone : Text.occurrences "<base".toList (pageEnd mode) = 0 :=
    Text.occurrences_clear (by decide) hend
  rw [Text.occurrences_append hstart]
  have hle := @occurrences_base_le headers base (pageEnd mode) h
  omega

/-- **The page's handlers are the page's.** Nobody but an allowed peer reaches a handler,
one that changes anything is reached exactly by a POST with this server's token that is not
known to come from elsewhere and has the JSON body the handler asks for, if it asks for one, and
the page holds no byte of any header but the token of a valid ingress path, in its one `<base>`. -/
theorem action_needs_page (mode : Mode) (random : Vector UInt8 32) (allowed : List IpAddr)
    (json : JsonReader) :
    let state := Ingress.new mode random allowed
    (∀ request h, (state.router json request).outcome = .handled h →
      PeerAllowed allowed request) ∧
    (∀ request h, h.changes = true → ((state.router json request).outcome = .handled h ↔
      PeerAllowed allowed request ∧ request.path = h.path ∧ request.method = .post ∧
        FromThePage (newCsrfToken random) request.headers ∧ HasBody json h request)) ∧
    (∀ headers, ∃ base, IsBase headers base ∧
      state.index headers = pageStart (newCsrfToken random) ++ (base ++ pageEnd mode) ∧
      Text.occurrences "<base".toList (state.index headers) ≤ 1) := by
  intro state
  refine ⟨?_, ?_, ?_⟩
  · intro request h hh
    exact peer_of_handled hh
  · intro request h hchanges
    exact handled_iff hchanges
  · intro headers
    have hbase := isBase_index headers
    refine ⟨_, hbase, index_eq headers, ?_⟩
    rw [index_eq headers]
    exact occurrences_index_le hbase

/-- A choice of a project from the page, the peer's address given as an IPv4-mapped one. -/
def chooseRequest : Request where
  peer := some (.v6 0xffffac1e2002#128)
  method := .post
  path := "/api/project".toList
  headers :=
    [("host".toList, asBytes "172.30.32.2:8099".toList),
     ("x-forwarded-host".toList, asBytes "Home.example, 172.30.32.2".toList),
     ("origin".toList, asBytes "https://home.example".toList),
     ("content-type".toList, asBytes "application/json".toList),
     (csrfHeader, asBytes (newCsrfToken (Vector.replicate 32 0xab)))]
  body := asBytes "\x7b\"project\":\"project-1\"\x7d".toList

/-- It takes the one content type, and reads that body. -/
def chooseReader : JsonReader where
  isJson contentType := contentType = "application/json".toList
  fromBytes field body :=
    if field = "project".toList ∧ body = chooseRequest.body then .ok "project-1".toList
    else .error .jsonSyntaxError

theorem action_needs_page_choose :
    PeerAllowed [.v4 0xac1e2002#32] chooseRequest ∧
      FromThePage (newCsrfToken (Vector.replicate 32 0xab)) chooseRequest.headers ∧
      HasBody chooseReader .chooseProject chooseRequest := by
  have hpage := action_needs_page .setup (Vector.replicate 32 0xab) [.v4 0xac1e2002#32] chooseReader
  obtain ⟨hpeer, -, -, hfrom, hbody⟩ :=
    (hpage.2.1 chooseRequest .chooseProject rfl).mp (by decide +kernel)
  exact ⟨hpeer, hfrom, hbody⟩

/-- The same without its content type is the page's as much, and does not reach the handler. -/
theorem action_needs_page_no_content_type :
    ¬ ∀ (mode : Mode) (random : Vector UInt8 32) (allowed : List IpAddr) (json : JsonReader)
      (request : Request) (h : Handler), h.changes = true →
        (((Ingress.new mode random allowed).router json request).outcome = .handled h ↔
          PeerAllowed allowed request ∧ request.path = h.path ∧ request.method = .post ∧
            FromThePage (newCsrfToken random) request.headers) := by
  intro hall
  let request : Request :=
    { chooseRequest with
      headers := chooseRequest.headers.filter fun header => header.1 ≠ "content-type".toList }
  have hpage := hall .setup (Vector.replicate 32 0xab) [.v4 0xac1e2002#32] chooseReader request
    .chooseProject rfl
  have hpeer : PeerAllowed [.v4 0xac1e2002#32] request :=
    ⟨_, _, rfl, List.mem_singleton.mpr rfl, by decide⟩
  have hfrom : FromThePage (newCsrfToken (Vector.replicate 32 0xab)) request.headers := by
    obtain ⟨hsite, horigin⟩ :=
      sameOrigin_iff.mp (show sameOrigin request.headers = true by decide +kernel)
    exact ⟨by decide +kernel, hsite, horigin⟩
  have hhandled := hpage.mpr ⟨hpeer, rfl, rfl, hfrom⟩
  exact absurd hhandled (by decide +kernel)

end DatumConnect.AddonPage
