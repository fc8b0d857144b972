import DatumConnect.Auth.Tokens
/-!
# What the token files hold

A token record is only ever read under a name that ends in `.json`.  Each
operation is described by what it does to the records under such names.
-/

namespace DatumConnect.Auth

open DatumConnect.Lib
open DatumConnect.Lib.Files

/-- The directory a tunnel's token files go to. -/
def operateTokensLoc (base : Path) (tunnelId : String) : Loc :=
  resolve [] (operateTokensDir base tunnelId).names

/-- A token record is at the entry, under a name it can be read by. -/
def RecordAt (files : FileTree Contents) (name : String) (dir : Loc)
    (record : OperateTokenRecord) : Prop :=
  (∃ x, name = x ++ ".json") ∧ files.node (name :: dir) = some (.file (.record record))

/-! ## Names -/

theorem append_json_inj {x y : String} (h : x ++ ".json" = y ++ ".json") : x = y := by
  rw [← String.toList_inj, String.toList_append, String.toList_append] at h
  rw [← String.toList_inj]
  exact List.append_cancel_right h

theorem append_json_ne (x : String) : x ++ ".json" ≠ "." ∧ x ++ ".json" ≠ ".." := by
  have hlen : ∀ y : String, y.toList.length < 3 → x ++ ".json" ≠ y := by
    rintro y hy rfl
    rw [String.toList_append, List.length_append] at hy
    exact absurd hy (by simp)
  exact ⟨hlen "." (by decide), hlen ".." (by decide)⟩

/-- The file beside a target is no token record. -/
theorem append_tmp_ne_append_json (x y : String) : x ++ ".tmp" ≠ y ++ ".json" := by
  intro h
  rw [← String.toList_inj, String.toList_append, String.toList_append] at h
  have hlast := congrArg List.getLast? h
  rw [List.getLast?_append_of_ne_nil _ (by decide), List.getLast?_append_of_ne_nil _ (by decide)]
    at hlast
  exact absurd hlast (by decide)

theorem append_tmp_ne (x : String) : x ++ ".tmp" ≠ "." ∧ x ++ ".tmp" ≠ ".." := by
  have hlen : ∀ y : String, y.toList.length < 3 → x ++ ".tmp" ≠ y := by
    rintro y hy rfl
    rw [String.toList_append, List.length_append] at hy
    exact absurd hy (by simp)
  exact ⟨hlen "." (by decide), hlen ".." (by decide)⟩

theorem slash_not_mem_encode (bytes : List UInt8) : '/' ∉ (Base64.encode bytes).toList := by
  intro h
  have := Base64.isSome_value_of_mem_encode h
  exact absurd this (by decide)

/-- A minted token's file is an entry of its tunnel's directory. -/
theorem isName_encode_json (bytes : List UInt8) : IsName (Base64.encode bytes ++ ".json") := by
  obtain ⟨hdot, hdots⟩ := append_json_ne (Base64.encode bytes)
  refine ⟨?_, ?_, hdot, hdots⟩
  · intro h
    rw [← String.toList_inj, String.toList_append] at h
    simp at h
  · rw [String.toList_append, List.mem_append, not_or]
    exact ⟨slash_not_mem_encode bytes, by decide⟩

/-- The path of a token file ends in a `.json` name. -/
theorem operateTokenPath_names (base : Path) (tunnelId tokenId : String) :
    ∃ dirs last, (operateTokenPath base tunnelId tokenId).names = dirs ++ [last ++ ".json"] := by
  obtain ⟨dirs, last, hnames, _⟩ :=
    Path.ofString_append tokenId ".json" (by decide) (by decide)
  unfold operateTokenPath Path.join
  simp only
  split
  · exact ⟨dirs, last, hnames⟩
  · refine ⟨(operateTokensDir base tunnelId).names ++ dirs, last, ?_⟩
    rw [hnames, List.append_assoc]

theorem resolve_json (loc : Loc) (dirs : List String) (last : String) :
    resolve loc (dirs ++ [last ++ ".json"]) = (last ++ ".json") :: resolve loc dirs := by
  obtain ⟨hdot, hdots⟩ := append_json_ne last
  rw [resolve_append, resolve_cons, next_of_ne _ hdot hdots, resolve_nil]

theorem resolve_operateTokenPath {base : Path} {tunnelId tokenId : String}
    (h : IsName (tokenId ++ ".json")) :
    resolve [] (operateTokenPath base tunnelId tokenId).names =
      (tokenId ++ ".json") :: operateTokensLoc base tunnelId := by
  rw [operateTokenPath, Path.join_of_isName _ h, resolve_append, resolve_cons,
    next_of_isName _ h, resolve_nil, operateTokensLoc]

/-! ## Operations -/

/-- Where the file beside a target goes. -/
theorem resolve_push_tmp {p : Path} {dirs : List String} {last : String}
    (h : p.names = dirs ++ [last]) :
    resolve [] (p.push ".tmp").names = (last ++ ".tmp") :: resolve [] dirs := by
  obtain ⟨hdot, hdots⟩ := append_tmp_ne last
  simp only [Path.push, h, List.getLast?_concat, List.dropLast_concat, resolve_append,
    resolve_cons, next_of_ne _ hdot hdots, resolve_nil]

/-- The target is replaced, or left as it is on an error; besides it only the
`.tmp` file can change. -/
theorem writeAtomicRaw_node {p : Path} {dirs : List String} {last : String}
    {c : Contents} {t t' : FileTree Contents} {r : Except IoError Unit}
    (hnames : p.names = dirs ++ [last])
    (hne : (last ++ ".tmp") :: resolve [] dirs ≠ resolve [] p.names)
    (h : writeAtomicRaw p c t = (r, t')) :
    (∀ l, l ≠ (last ++ ".tmp") :: resolve [] dirs → l ≠ resolve [] p.names →
        t'.node l = t.node l) ∧
      (r = .ok () ∧ t'.node (resolve [] p.names) = some (.file c) ∨
        (∃ e, r = .error e) ∧ t'.node (resolve [] p.names) = t.node (resolve [] p.names)) := by
  have htmp := resolve_push_tmp hnames
  unfold writeAtomicRaw at h
  simp only [Fs.bind_apply] at h
  cases hwrite : Fs.write (p.push ".tmp") c t with
  | mk r₁ t₁ =>
      rw [hwrite] at h
      rcases Fs.write_eq hwrite with ⟨rfl, _, hnode₁⟩ | ⟨⟨e, rfl⟩, rfl⟩
      · simp only at h
        rw [htmp] at hnode₁
        rcases Fs.rename_eq h (htmp ▸ hne) with ⟨rfl, a, ha, hnode⟩ | ⟨⟨e, rfl⟩, rfl⟩
        · rw [htmp, hnode₁] at ha
          simp only [if_true, Option.some.injEq, Node.file.injEq] at ha
          subst ha
          refine ⟨fun l hl hl' => ?_, .inl ⟨rfl, by simp [hnode]⟩⟩
          simp [hnode, hnode₁, htmp, hl, hl']
        · refine ⟨fun l hl _ => by simp [hnode₁, hl], .inr ⟨⟨e, rfl⟩, ?_⟩⟩
          simp [hnode₁, hne.symm]
      · simp only at h
        obtain ⟨rfl, rfl⟩ := h
        exact ⟨fun _ _ _ => rfl, .inr ⟨⟨e, rfl⟩, rfl⟩⟩

/-- Writing a token file: the records are as before, but for the one written. -/
theorem writeAtomicRaw_recordAt {p : Path} {dirs : List String} {last : String}
    {written : OperateTokenRecord} {t t' : FileTree Contents} {r : Except IoError Unit}
    (hnames : p.names = dirs ++ [last ++ ".json"])
    (h : writeAtomicRaw p (.record written) t = (r, t')) {name : String} {dir : Loc}
    {record : OperateTokenRecord} (hrecord : RecordAt t' name dir record) :
    r = .ok () ∧ name :: dir = resolve [] p.names ∧ record = written ∨
      RecordAt t name dir record ∧ (r = .ok () → name :: dir ≠ resolve [] p.names) := by
  have hresolve : resolve [] p.names = (last ++ ".json") :: resolve [] dirs := by
    rw [hnames, resolve_json]
  have hne : (last ++ ".json" ++ ".tmp") :: resolve [] dirs ≠ resolve [] p.names := by
    rw [hresolve]
    intro heq
    exact append_tmp_ne_append_json _ _ (List.cons.inj heq).1
  obtain ⟨hother, htarget⟩ := writeAtomicRaw_node hnames hne h
  obtain ⟨⟨x, hx⟩, hnode⟩ := hrecord
  by_cases heq : name :: dir = resolve [] p.names
  · rw [heq] at hnode
    rcases htarget with ⟨rfl, hnew⟩ | ⟨⟨e, rfl⟩, hold⟩
    · rw [hnew] at hnode
      cases hnode
      exact .inl ⟨rfl, heq, rfl⟩
    · refine .inr ⟨⟨⟨x, hx⟩, ?_⟩, by simp⟩
      rw [heq, ← hold, hnode]
  · refine .inr ⟨⟨⟨x, hx⟩, ?_⟩, fun _ => heq⟩
    rw [← hother _ (fun htmp => ?_) heq, hnode]
    rw [hx] at htmp
    exact append_tmp_ne_append_json _ _ (List.cons.inj htmp).1.symm

/-- Writing a file of another kind: no record is added. -/
theorem writeAtomicRaw_text_recordAt {p : Path} {dirs : List String} {last text : String}
    {t t' : FileTree Contents} {r : Except IoError Unit} (hnames : p.names = dirs ++ [last])
    (hne : (last ++ ".tmp") :: resolve [] dirs ≠ resolve [] p.names)
    (h : writeAtomicRaw p (.text text) t = (r, t')) {name : String} {dir : Loc}
    {record : OperateTokenRecord} (hrecord : RecordAt t' name dir record) :
    RecordAt t name dir record := by
  obtain ⟨hother, htarget⟩ := writeAtomicRaw_node hnames hne h
  obtain ⟨⟨x, hx⟩, hnode⟩ := hrecord
  refine ⟨⟨x, hx⟩, ?_⟩
  by_cases heq : name :: dir = resolve [] p.names
  · rw [heq] at hnode ⊢
    rcases htarget with ⟨_, hnew⟩ | ⟨_, hold⟩
    · rw [hnew] at hnode
      cases hnode
    · rw [← hold, hnode]
  · rw [← hother _ (fun htmp => ?_) heq, hnode]
    rw [hx] at htmp
    exact append_tmp_ne_append_json _ _ (List.cons.inj htmp).1.symm

theorem viewerTokenPath_names (base : Path) :
    (viewerTokenPath base).names = (base.names ++ ["daemon_auth"]) ++ ["viewer.token"] := by
  rw [viewerTokenPath, authDir, Path.join_of_isName _ (by decide), Path.join_of_isName _ (by decide)]

end DatumConnect.Auth
