import MissionControl.Daemon

/-!
# What the expressions of the daemon match

Each expression of the daemon is read (`RegExp.parse`) and its texts are
described: a user name of the grammar of `isSafeUser`, or a fixed text
around one. The three expressions put together from configuration text
match that text literally, whatever characters it has, since
`escapeRegExp` quotes it – `RegExp.readAll_escape` is used for that part of
the expression, and reading continues after it.
-/

namespace MissionControl

/-! ## The grammar of user names -/

def userHead : List (Char × Char) := [('_', '_'), ('a', 'z')]

def userTail : List (Char × Char) :=
  [('-', '-'), ('_', '_'), ('0', '9'), ('a', 'z')]

/-- A user name with a pattern after it. -/
def userThen (p : Pattern) : Pattern :=
  .seq (.cls userHead) (.seq (.rep (.cls userTail) 1 30) p)

/-- A literal text with a pattern after it. -/
def literal (s : String) (p : Pattern) : Pattern :=
  Pattern.after (s.toList.map Pattern.char).reverse p

/-- **The texts of user names**: one character of the first class and one to
thirty of the second. -/
def IsUserText (s : List Char) : Prop :=
  ∃ c cs, s = c :: cs ∧ Pattern.inClass userHead c = true ∧ 1 ≤ cs.length
    ∧ cs.length ≤ 30 ∧ ∀ x ∈ cs, Pattern.inClass userTail x = true

theorem matches_literal (t : String) (p : Pattern) (s : List Char) :
    (literal t p).Matches s ↔ ∃ v, s = t.toList ++ v ∧ p.Matches v :=
  Pattern.matches_after_chars _ _ _

theorem matches_userThen (p : Pattern) (s : List Char) :
    (userThen p).Matches s
      ↔ ∃ u v, s = u ++ v ∧ IsUserText u ∧ p.Matches v := by
  unfold userThen
  rw [Pattern.matches_cls_seq]
  refine ⟨fun h => ?_, fun h => ?_⟩
  · obtain ⟨c, w, rfl, hc, u, v, rfl, hu, hv⟩ := h
    rw [Pattern.matches_rep_cls] at hu
    exact ⟨c :: u, v, rfl, ⟨c, u, rfl, hc, hu⟩, hv⟩
  · obtain ⟨_, v, rfl, ⟨c, u, rfl, hc, hu⟩, hv⟩ := h
    exact ⟨c, u ++ v, rfl, hc, u, v, rfl,
      (Pattern.matches_rep_cls _ _ _ _).mpr hu, hv⟩

theorem regExpTest_iff {re : String} {p : Pattern}
    (h : RegExp.parse re.toList = some p) (s : String) :
    regExpTest re s = true ↔ p.Matches s.toList :=
  RegExp.test_eq_true_iff h _

/-- **`isSafeUser` decides the grammar of user names.** -/
theorem isSafeUser_iff (u : String) :
    isSafeUser u = true ↔ IsUserText u.toList := by
  have hparse : RegExp.parse userRe.toList = some (userThen .empty) := rfl
  unfold isSafeUser
  rw [regExpTest_iff hparse, matches_userThen]
  refine ⟨fun h => ?_, fun h => ⟨u.toList, [], (List.append_nil _).symm, h, rfl⟩⟩
  obtain ⟨v, _, hu, hv, rfl⟩ := h
  rwa [hu, List.append_nil]

/-- A character of a user name is none of the characters paths, owners and
lines are split at, nor a dot. -/
theorem IsUserText.notMem {s : List Char} (h : IsUserText s) {c : Char}
    (hc : Pattern.inClass userTail c = false) : c ∉ s := by
  obtain ⟨a, cs, rfl, ha, -, -, hcs⟩ := h
  have hhead : Pattern.inClass userTail a = true := by
    simp only [Pattern.inClass, userHead, userTail, List.any_cons,
      List.any_nil, Bool.or_false, Bool.or_eq_true] at ha ⊢
    rcases ha with ha | ha
    · exact Or.inr (Or.inl ha)
    · exact Or.inr (Or.inr (Or.inr ha))
  intro hmem
  rcases List.mem_cons.mp hmem with rfl | hmem
  · rw [hhead] at hc
    exact Bool.noConfusion hc
  · rw [hcs c hmem] at hc
    exact Bool.noConfusion hc

/-- **A user name is an ordinary path segment.** -/
theorem IsUserText.ordinary {s : List Char} (h : IsUserText s) :
    Posix.Ordinary s := by
  have hdot : '.' ∉ s := h.notMem (by decide)
  have hslash : '/' ∉ s := h.notMem (by decide)
  obtain ⟨a, cs, rfl, -⟩ := h
  refine ⟨List.cons_ne_nil _ _, hslash, ?_, ?_⟩
  · intro heq
    exact hdot (heq ▸ by decide)
  · intro heq
    exact hdot (heq ▸ by decide)

/-! ## Fixed texts around a user name -/

theorem exists_user_text (pre post s : String) :
    (∃ u, s.toList = pre.toList ++ (u ++ post.toList) ∧ IsUserText u)
      ↔ ∃ u, isSafeUser u = true ∧ s = pre ++ u ++ post := by
  refine ⟨fun h => ?_, fun h => ?_⟩
  · obtain ⟨u, hs, hu⟩ := h
    refine ⟨String.ofList u, (isSafeUser_iff _).mpr (by simpa using hu), ?_⟩
    rw [← String.toList_inj, hs]
    simp
  · obtain ⟨u, hu, rfl⟩ := h
    refine ⟨u.toList, ?_, (isSafeUser_iff u).mp hu⟩
    simp

/-- **An expression that is a text, a user name and a text** matches these
in order. -/
theorem regExpTest_user_iff {re pre post : String}
    (h : RegExp.parse re.toList
      = some (literal pre (userThen (literal post .empty)))) (s : String) :
    regExpTest re s = true
      ↔ ∃ u, isSafeUser u = true ∧ s = pre ++ u ++ post := by
  rw [regExpTest_iff h, ← exists_user_text, matches_literal]
  refine ⟨fun h => ?_, fun h => ?_⟩
  · obtain ⟨v, hs, hv⟩ := h
    rw [matches_userThen] at hv
    obtain ⟨u, w, rfl, hu, hw⟩ := hv
    rw [matches_literal] at hw
    obtain ⟨_, rfl, rfl⟩ := hw
    exact ⟨u, by rw [hs, List.append_nil], hu⟩
  · obtain ⟨u, hs, hu⟩ := h
    refine ⟨_, hs, (matches_userThen _ _).mpr ⟨u, _, rfl, hu, ?_⟩⟩
    exact (matches_literal _ _ _).mpr ⟨[], (List.append_nil _).symm, rfl⟩

theorem tenantEnvRe_iff (s : String) :
    regExpTest tenantEnvRe s = true
      ↔ ∃ u, isSafeUser u = true
        ∧ s = "/etc/openclaw-tenants/" ++ u ++ ".env" :=
  regExpTest_user_iff rfl s

theorem serviceRe_iff (s : String) :
    regExpTest serviceRe s = true
      ↔ ∃ u, isSafeUser u = true ∧ s = "openclaw-gateway@" ++ u ++ ".service" :=
  regExpTest_user_iff rfl s

/-! ## Expressions with configuration text -/

theorem caret_toList : "^".toList = ['^'] := rfl

/-- What an expression built from configuration text matches, once its fixed
end has been read: the configuration text, then what the end matches. -/
theorem regExpTest_configured_iff {re config : String} {rest : List Char}
    (items : List Pattern)
    (htext : re.toList = '^' :: (RegExp.escape config.toList ++ rest))
    (hrest : ∀ before, (RegExp.Reader.mk [] ⟨[], before⟩ .plain).readAll rest
      = some ⟨[], ⟨[], items ++ before⟩, .done⟩) (s : String) :
    regExpTest re s = true
      ↔ ∃ v, s.toList = config.toList ++ v
        ∧ (Pattern.after items .empty).Matches v := by
  have hparse : RegExp.parse re.toList
      = some (Pattern.after (config.toList.map Pattern.char).reverse
          (Pattern.after items .empty)) := by
    rw [htext, RegExp.parse_escape_append, hrest]
    show some (Pattern.after (items ++ _) .empty) = _
    unfold Pattern.after
    rw [List.foldl_append]
  rw [regExpTest_iff hparse, Pattern.matches_after_chars]

theorem matches_grouped_user (pre post : String) (s : List Char) :
    (literal pre (.seq (userThen .empty) (literal post .empty))).Matches s
      ↔ ∃ u, s = pre.toList ++ (u ++ post.toList) ∧ IsUserText u := by
  rw [matches_literal]
  refine ⟨fun h => ?_, fun h => ?_⟩
  · obtain ⟨_, rfl, u, w, rfl, hu, hw⟩ := h
    rw [matches_userThen] at hu
    obtain ⟨u, _, rfl, hu, rfl⟩ := hu
    rw [matches_literal] at hw
    obtain ⟨_, rfl, rfl⟩ := hw
    exact ⟨u, by rw [List.append_nil, List.append_nil], hu⟩
  · obtain ⟨u, rfl, hu⟩ := h
    refine ⟨_, rfl, u, post.toList, rfl, ?_, ?_⟩
    · exact (matches_userThen _ _).mpr ⟨u, [], (List.append_nil _).symm, hu, rfl⟩
    · exact (matches_literal _ _ _).mpr ⟨[], (List.append_nil _).symm, rfl⟩

/-- **The seeded configuration of a tenant** lies under the home root as it
is configured. -/
theorem openclawJsonRe_iff (d : Daemon) (s : String) :
    regExpTest d.openclawJsonRe s = true
      ↔ ∃ u, isSafeUser u = true
        ∧ s = joinPosix [d.tenantHomeRoot] ++ "/" ++ u
          ++ "/.openclaw/openclaw.json" := by
  have htext : d.openclawJsonRe.toList
      = '^' :: (RegExp.escape (joinPosix [d.tenantHomeRoot]).toList
        ++ "\\/([a-z_][a-z0-9_-]\x7b1,30\x7d)\\/\\.openclaw\\/openclaw\\.json$".toList) := by
    unfold Daemon.openclawJsonRe Daemon.homeRootRe escapeRegExp
    simp only [String.toList_append, String.toList_ofList, caret_toList,
      List.cons_append, List.nil_append]
  rw [regExpTest_configured_iff
    (("/.openclaw/openclaw.json".toList.map Pattern.char).reverse
      ++ [userThen .empty, .char '/']) htext (fun _ => rfl)]
  have hpattern : Pattern.after
        (("/.openclaw/openclaw.json".toList.map Pattern.char).reverse
          ++ [userThen .empty, .char '/']) .empty
      = literal "/" (.seq (userThen .empty)
          (literal "/.openclaw/openclaw.json" .empty)) := rfl
  simp only [hpattern, matches_grouped_user]
  rw [← exists_user_text]
  simp only [String.toList_append, List.append_assoc]
  refine ⟨fun h => ?_, fun h => ?_⟩
  · obtain ⟨v, hs, u, rfl, hu⟩ := h
    exact ⟨u, hs, hu⟩
  · obtain ⟨u, hs, hu⟩ := h
    exact ⟨_, hs, u, rfl, hu⟩

/-- **The directories that may be removed**: the state directory and the
workspace of a user under the home root. -/
theorem removableRe_iff (d : Daemon) (s : String) :
    regExpTest d.removableRe s = true
      ↔ ∃ u, isSafeUser u = true
        ∧ (s = joinPosix [d.tenantHomeRoot] ++ "/" ++ u ++ "/.openclaw"
          ∨ s = joinPosix [d.tenantHomeRoot] ++ "/" ++ u ++ "/"
            ++ d.tenantWorkspaceDirname) := by
  -- the last group: either fixed name or the configured one
  let names : Pattern := .alt (literal ".openclaw" .empty)
    (literal d.tenantWorkspaceDirname .empty)
  have htext : d.removableRe.toList
      = '^' :: (RegExp.escape (joinPosix [d.tenantHomeRoot]).toList
        ++ ("\\/([a-z_][a-z0-9_-]\x7b1,30\x7d)\\/(\\.openclaw|".toList
          ++ (RegExp.escape d.tenantWorkspaceDirname.toList ++ ")$".toList))) := by
    unfold Daemon.removableRe Daemon.homeRootRe escapeRegExp
    simp only [String.toList_append, String.toList_ofList, List.append_assoc,
      caret_toList, List.cons_append, List.nil_append]
  have hrest : ∀ before, (RegExp.Reader.mk [] ⟨[], before⟩ .plain).readAll
      ("\\/([a-z_][a-z0-9_-]\x7b1,30\x7d)\\/(\\.openclaw|".toList
        ++ (RegExp.escape d.tenantWorkspaceDirname.toList ++ ")$".toList))
      = some ⟨[], ⟨[], [names, .char '/', userThen .empty, .char '/']
          ++ before⟩, .done⟩ := by
    intro before
    have hfirst : (RegExp.Reader.mk [] ⟨[], before⟩ .plain).readAll
        "\\/([a-z_][a-z0-9_-]\x7b1,30\x7d)\\/(\\.openclaw|".toList
        = some ⟨[⟨[], .char '/' :: userThen .empty :: .char '/' :: before⟩],
            ⟨[literal ".openclaw" .empty], []⟩, .plain⟩ := rfl
    rw [RegExp.Reader.readAll_append, hfirst, Option.bind_some,
      RegExp.Reader.readAll_append, RegExp.readAll_escape, Option.bind_some,
      List.append_nil]
    rfl
  rw [regExpTest_configured_iff _ htext hrest]
  have hpattern : Pattern.after
        [names, .char '/', userThen .empty, .char '/'] .empty
      = literal "/" (.seq (userThen .empty) (literal "/" (.seq names .empty))) :=
    rfl
  have hnames : ∀ v, names.Matches v
      ↔ v = ".openclaw".toList ∨ v = d.tenantWorkspaceDirname.toList := by
    intro v
    simp only [names, Pattern.matches_alt, matches_literal,
      Pattern.matches_empty, exists_eq_right, List.append_nil]
  simp only [hpattern, matches_literal, Pattern.matches_seq, matches_userThen,
    hnames, Pattern.matches_empty]
  refine ⟨fun h => ?_, fun h => ?_⟩
  · obtain ⟨_, hs, _, rfl, _, _, rfl, ⟨u, _, rfl, hu, rfl⟩, _, rfl, w, _, rfl,
      hw, rfl⟩ := h
    refine ⟨String.ofList u, (isSafeUser_iff _).mpr (by simpa using hu), ?_⟩
    rcases hw with rfl | rfl
    · refine Or.inl ?_
      rw [← String.toList_inj, hs]
      simp
    · refine Or.inr ?_
      rw [← String.toList_inj, hs]
      simp
  · obtain ⟨u, hu, hs⟩ := h
    have hu' := (isSafeUser_iff u).mp hu
    rcases hs with rfl | rfl
    · exact ⟨_, by simp, _, rfl, u.toList, _, rfl,
        ⟨u.toList, [], by simp, hu', rfl⟩, _, rfl, ".openclaw".toList, [],
        rfl, Or.inl rfl, rfl⟩
    · exact ⟨_, by simp, _, rfl, u.toList, _, rfl,
        ⟨u.toList, [], by simp, hu', rfl⟩, _, rfl,
        d.tenantWorkspaceDirname.toList, [], (List.append_nil _).symm,
        Or.inr rfl, rfl⟩

/-- The characters of a slug, in the daemon's expression for artifacts. -/
def slugClass : List (Char × Char) := [('-', '-'), ('0', '9'), ('a', 'z')]

/-- **The texts the daemon takes for a slug**: three to thirty-two
characters of the class, in any order. -/
def IsSlugText (s : List Char) : Prop :=
  3 ≤ s.length ∧ s.length ≤ 32 ∧ ∀ c ∈ s, Pattern.inClass slugClass c = true

/-- **An env artifact** lies in the directory of a slug under the artifact
directory as it is configured. -/
theorem provisionerEnvRe_iff (d : Daemon) (s : String) :
    regExpTest d.provisionerEnvRe s = true
      ↔ ∃ slug : String, IsSlugText slug.toList
        ∧ s = pathJoin [d.dataDir, "provisioner"] ++ "/" ++ slug
          ++ "/openclaw-gateway.env" := by
  have htext : d.provisionerEnvRe.toList
      = '^' :: (RegExp.escape (pathJoin [d.dataDir, "provisioner"]).toList
        ++ "\\/([a-z0-9-]\x7b3,32\x7d)\\/openclaw-gateway\\.env$".toList) := by
    unfold Daemon.provisionerEnvRe escapeRegExp
    simp only [String.toList_append, String.toList_ofList, caret_toList,
      List.cons_append, List.nil_append]
  rw [regExpTest_configured_iff
    (("/openclaw-gateway.env".toList.map Pattern.char).reverse
      ++ [.seq (.rep (.cls slugClass) 3 32) .empty, .char '/'])
    htext (fun _ => rfl)]
  have hpattern : Pattern.after
        (("/openclaw-gateway.env".toList.map Pattern.char).reverse
          ++ [.seq (.rep (.cls slugClass) 3 32) .empty, .char '/']) .empty
      = literal "/" (.seq (.seq (.rep (.cls slugClass) 3 32) .empty)
          (literal "/openclaw-gateway.env" .empty)) := rfl
  simp only [hpattern, matches_literal, Pattern.matches_seq,
    Pattern.matches_rep_cls, Pattern.matches_empty]
  refine ⟨fun h => ?_, fun h => ?_⟩
  · obtain ⟨_, hs, _, rfl, _, _, rfl, ⟨slug, _, rfl, hslug, rfl⟩, _, rfl,
      rfl⟩ := h
    refine ⟨String.ofList slug, by simpa [IsSlugText] using hslug, ?_⟩
    rw [← String.toList_inj, hs]
    simp
  · obtain ⟨slug, hslug, rfl⟩ := h
    exact ⟨_, by simp, _, rfl, slug.toList, "/openclaw-gateway.env".toList,
      rfl, ⟨slug.toList, [], (List.append_nil _).symm, hslug, rfl⟩, [],
      (List.append_nil _).symm, rfl⟩

end MissionControl
