import MissionControl.Heartbeat

/-!
# Which mentions a heartbeat lists

A comment stores its mentions as the text of a JSON array, and a heartbeat looks for the
name of the agent in that text with `LIKE`. The name in quotes is found where it is
mentioned. But in the pattern the letters match in upper and lower case, and an
underscore matches any character: agent `b_b` is told of a comment that mentions `bob`
(`not_mentionsExact_sampleThread`), and such a comment takes the place of another one.

A heartbeat lists the latest mentions, however the database orders comments of one time,
exactly where each comment that only matches the pattern is older than ten that mention
the name (`heartbeat_mentionsExact_iff`).
-/

namespace MissionControl

/-! ## The mentions that are stored -/

/-- `mentions` of a comment that is written. -/
def mentionsColumn (rt : Runtime) (content : String) : Option String :=
  if parseMentions content = [] then none
  else some (jsonText rt (.arr ((parseMentions content).map .str)))

theorem isWordChar_of_mem_mentionsFrom {k : ℕ} {s : List Char} {name : String}
    (h : name ∈ mentionsFrom k s) {c : Char} (hc : c ∈ name.toList) : isWordChar c = true := by
  induction s generalizing k with
  | nil =>
    cases k <;> exact absurd h List.not_mem_nil
  | cons d s ih =>
    cases k with
    | succ k => exact ih h
    | zero =>
      unfold mentionsFrom at h
      split at h
      · split at h
        · exact ih h
        · rcases List.mem_cons.mp h with rfl | htail
          · rw [String.toList_ofList] at hc
            exact List.mem_takeWhile_imp hc
          · exact ih htail
      · exact ih h

theorem isWordChar_of_mem_parseMentions {text name : String} (h : name ∈ parseMentions text)
    {c : Char} (hc : c ∈ name.toList) : isWordChar c = true :=
  isWordChar_of_mem_mentionsFrom h hc

theorem escapeChar_word {c : Char} (h : isWordChar c = true) : Json.escapeChar c = [c] := by
  have hne : ∀ d : Char, isWordChar d = false → c ≠ d := fun d hd heq =>
    Bool.false_ne_true (hd.symm.trans (heq ▸ h))
  have hge : 0x30 ≤ c.toNat := by
    unfold isWordChar at h
    simp only [Bool.or_eq_true, Bool.and_eq_true, decide_eq_true_eq, Char.le_def,
      UInt32.le_iff_toNat_le] at h
    rcases h with ((⟨hlow, -⟩ | ⟨hlow, -⟩) | ⟨hlow, -⟩) | rfl
    · exact le_trans (by decide) hlow
    · exact le_trans (by decide) hlow
    · exact hlow
    · decide
  unfold Json.escapeChar
  rw [if_neg (hne _ (by decide)), if_neg (hne _ (by decide)), if_neg (by omega),
    if_neg (by omega), if_neg (hne _ (by decide)), if_neg (hne _ (by decide)),
    if_neg (hne _ (by decide)), if_neg (by omega)]

theorem quote_word {name : String} (h : ∀ c ∈ name.toList, isWordChar c = true) :
    Json.quote name = '"' :: (name.toList ++ ['"']) := by
  unfold Json.quote
  rw [List.flatMap_congr (g := fun c => [c]) fun c hc => escapeChar_word (h c hc)]
  simp

theorem quote_infix_stringify (rt : Runtime) {names : List String} {name : String}
    (h : name ∈ names) :
    Json.quote name <:+: Json.stringify rt (.arr (names.map .str)) := by
  have hmore : ∀ names : List String, name ∈ names →
      Json.quote name <:+: Json.stringify.moreElements rt (names.map .str) := by
    intro names hmem
    induction names with
    | nil => exact absurd hmem List.not_mem_nil
    | cons first names ih =>
      show Json.quote name <:+: ',' :: Json.quote first ++ _
      rcases List.mem_cons.mp hmem with rfl | htail
      · exact ⟨[','], _, rfl⟩
      · exact (ih htail).trans (List.suffix_append _ _).isInfix
  cases names with
  | nil => exact absurd h List.not_mem_nil
  | cons first names =>
    show Json.quote name <:+: '[' :: Json.quote first ++ _
    rcases List.mem_cons.mp h with rfl | htail
    · exact ⟨['['], _, rfl⟩
    · exact (hmore names htail).trans (List.suffix_append _ _).isInfix

theorem nul_notMem_stringify (rt : Runtime) {names : List String}
    (h : ∀ name ∈ names, ∀ c ∈ name.toList, isWordChar c = true) :
    '\x00' ∉ Json.stringify rt (.arr (names.map .str)) := by
  have hquote : ∀ name ∈ names, '\x00' ∉ Json.quote name := by
    intro name hname
    rw [quote_word (h name hname)]
    simp only [List.mem_cons, List.mem_append, List.not_mem_nil, or_false]
    rintro (hc | hc | hc)
    · exact absurd hc (by decide)
    · exact absurd (h name hname _ hc) (by decide)
    · exact absurd hc (by decide)
  have hmore : ∀ names : List String, (∀ name ∈ names, '\x00' ∉ Json.quote name) →
      '\x00' ∉ Json.stringify.moreElements rt (names.map .str) := by
    intro names hnames
    induction names with
    | nil =>
      show '\x00' ∉ [']']
      decide
    | cons first names ih =>
      show '\x00' ∉ ',' :: Json.quote first ++ _
      rw [List.cons_append, List.mem_cons, List.mem_append, not_or, not_or]
      exact ⟨by decide, hnames first List.mem_cons_self,
        ih fun name hname => hnames name (List.mem_cons_of_mem _ hname)⟩
  cases names with
  | nil =>
    show '\x00' ∉ ['[', ']']
    decide
  | cons first names =>
    show '\x00' ∉ '[' :: Json.quote first ++ _
    rw [List.cons_append, List.mem_cons, List.mem_append, not_or, not_or]
    exact ⟨by decide, hquote first List.mem_cons_self,
      hmore names fun name hname => hquote name (List.mem_cons_of_mem _ hname)⟩

theorem untilNul_eq {s : String} (h : '\x00' ∉ s.toList) : untilNul s = s.toList := by
  refine List.takeWhile_eq_self_iff.mpr fun c hc => decide_eq_true fun heq => h ?_
  exact heq ▸ hc

/-- **The pattern of a heartbeat finds the names that are mentioned.** -/
theorem sqlLike_of_mem (rt : Runtime) {names : List String}
    (hwords : ∀ name ∈ names, ∀ c ∈ name.toList, isWordChar c = true) {name : String}
    (h : name ∈ names) :
    sqlLike ("%\"" ++ name ++ "\"%") (jsonText rt (.arr (names.map .str))) = true := by
  have hpattern : ("%\"" ++ name ++ "\"%").toList = '%' :: (Json.quote name ++ ['%']) := by
    rw [String.toList_append, String.toList_append, quote_word (hwords name h)]
    simp
  have htext : (jsonText rt (.arr (names.map .str))).toList
      = Json.stringify rt (.arr (names.map .str)) := String.toList_ofList
  unfold sqlLike
  rw [untilNul_eq, untilNul_eq, hpattern, htext]
  · exact Like.run_contains _ (quote_infix_stringify rt h)
  · rw [htext]
    exact nul_notMem_stringify rt hwords
  · rw [hpattern, quote_word (hwords name h)]
    simp only [List.mem_cons, List.mem_append, List.not_mem_nil, or_false]
    rintro (hc | (hc | hc | hc) | hc)
    · exact absurd hc (by decide)
    · exact absurd hc (by decide)
    · exact absurd (hwords name h _ hc) (by decide)
    · exact absurd hc (by decide)
    · exact absurd hc (by decide)

/-! ## What the writes keep -/

/-- **The comments are as they were written**: each has the mentions of its content, and
its task is there. -/
def AsWritten (rt : Runtime) (s : CommentDb) : Prop :=
  ∀ id c, s.comments.row id = some c →
    c.mentions = mentionsColumn rt c.content ∧ (s.db.tasks.row c.taskId).isSome

theorem tasks_addComment (rt : Runtime) (orders : CommentOrders) (ctx : RequestContext)
    (id : ℕ) (task : TaskRow) (fields : CommentFields) (parentId : Option ℕ) (s : CommentDb) :
    (addComment rt orders ctx id task fields parentId s).1.db.tasks = s.db.tasks := by
  have hnotify : ∀ (author : String) (mentioned subscribers : List String) (w : Work),
      (notifyAll ctx author task.title fields.content mentioned s.comments.next subscribers
        w).db.tasks = w.db.tasks := by
    intro author mentioned subscribers w
    unfold notifyAll
    induction subscribers generalizing w with
    | nil => rfl
    | cons subscriber subscribers ih =>
      rw [List.foldl_cons, ih]
      rfl
  have hsubscribe : ∀ (names : List String) (w : Work),
      (names.foldl (·.ensureTaskSubscription id ·) w).db.tasks = w.db.tasks := by
    intro names w
    induction names generalizing w with
    | nil => rfl
    | cons name names ih => rw [List.foldl_cons, ih, Work.tasks_ensureTaskSubscription]
  unfold addComment
  dsimp only
  rw [hnotify, subscribeAll, Work.doIf_frame _ (fun w => w.db.tasks) _ fun w => by simp,
    hsubscribe, Work.tasks_ensureTaskSubscription, Work.tasks_logActivity]

/-- **Every request leaves the comments as they were written.** -/
theorem asWritten_next (rt : Runtime) (s : CommentDb) (a : CommentAction)
    (h : AsWritten rt s) : AsWritten rt ((commentMachine rt).next s a) := by
  obtain ⟨ctx, orders, request⟩ := a
  cases request with
  | tasks request =>
    intro id c hc
    unfold Machine.next commentMachine CommentRequest.serve cascadeComments at hc ⊢
    dsimp only at hc ⊢
    rw [Table.row_updateAll, Option.map_eq_some_iff] at hc
    obtain ⟨c, hc, rfl⟩ := hc
    obtain ⟨hrow, hkept⟩ := (s.comments.row_deleteWhere_eq_some _).mp hc
    obtain ⟨hmentions, htask⟩ := h id c hrow
    refine ⟨hmentions, ?_⟩
    rw [htask, Bool.true_and] at hkept
    exact Option.isSome_iff_ne_none.mpr fun hnone => by rw [hnone] at hkept; cases hkept
  | comment idText body =>
    show AsWritten rt (postComment rt orders ctx idText body s).state
    rcases postComment_cases rt orders ctx idText body s with
      ⟨response, heq, -⟩ | ⟨id, task, j, fields, parentId, response, -, hrow, -, -, -, heq, -⟩
    · rw [heq]
      exact h
    · rw [heq]
      intro id' c hc
      rw [tasks_addComment]
      rw [comments_addComment] at hc
      rcases (Table.row_insert_eq_some _ _).mp hc with ⟨rfl, rfl⟩ | hc
      · refine ⟨rfl, ?_⟩
        show (s.db.tasks.row id).isSome = true
        rw [hrow]
        rfl
      · exact h id' c hc

theorem asWritten_run (rt : Runtime) (actions : List CommentAction) :
    AsWritten rt ((commentMachine rt).state .empty actions) :=
  (commentMachine rt).state_invariant (fun id c hc => by cases hc) (asWritten_next rt) actions

/-! ## The mentions of a name -/

/-- The item `mentions` of an answer. -/
def HeartbeatResponse.mentions (response : HeartbeatResponse) :
    Option (ℕ × List MentionItem) :=
  response.items.findSome? fun
    | .mentions count items => some (count, items)
    | _ => none

/-- The comments, with the titles of their tasks. -/
def titledComments (s : CommentDb) : List MentionRow :=
  s.comments.rows.map fun (id, c) =>
    ⟨id, c, ((s.db.tasks.row c.taskId).map (·.title)).getD ""⟩

/-- **The parsed mentions of a comment contain a name.** -/
def MentionRow.mentions (rt : Runtime) (name : String) (r : MentionRow) : Bool :=
  match parseComment rt (r.id, r.comment) with
  | some ⟨_, _, .arr elements⟩ => elements.any fun x => Json.equalsText (some x) name
  | _ => false

def mentionsReport (rows : List MentionRow) : Option (ℕ × List MentionItem) :=
  if rows.isEmpty then none else some (rows.length, rows.map MentionRow.item)

/-- **The latest mentions are listed**, ten of the comments of the last four hours that
mention the name. -/
def MentionsExact (rt : Runtime) (name : String) (now : ℕ) (s : CommentDb)
    (response : HeartbeatResponse) : Prop :=
  ∃ rows, IsFirst (fun a b : MentionRow => b.comment.createdAt ≤ a.comment.createdAt) 10
      ((titledComments s).filter fun r =>
        r.mentions rt name && recent now r.comment.createdAt) rows
    ∧ response.mentions = mentionsReport rows

/-- **Enough mentions are later** than each comment that only matches the pattern. -/
def OthersOutnumbered (rt : Runtime) (name : String) (now : ℕ) (s : CommentDb) : Prop :=
  ∀ r ∈ titledComments s, recent now r.comment.createdAt = true →
    r.comment.mentions.any (sqlLike ("%\"" ++ name ++ "\"%")) = true →
    r.mentions rt name = false →
      10 ≤ (titledComments s).countP fun r' =>
        r'.mentions rt name && recent now r'.comment.createdAt
          && decide (r.comment.createdAt < r'.comment.createdAt)

section Mentions

variable {rt : Runtime} {name : String} {now : ℕ} {s : CommentDb}

theorem readBack_texts (names : List String) :
    (Json.arr (names.map .str)).readBack = .arr (names.map .str) := by
  refine congrArg Json.arr ?_
  induction names with
  | nil => rfl
  | cons name names ih => exact congrArg (Json.str name :: ·) ih

/-- **What is stored is what is mentioned.** -/
theorem mentions_iff {r : MentionRow}
    (h : r.comment.mentions = mentionsColumn rt r.comment.content) :
    r.mentions rt name = true ↔ name ∈ parseMentions r.comment.content := by
  have hparsed : ∃ parsed, parseComment rt (r.id, r.comment) = some parsed
      ∧ parsed.mentions = .arr ((parseMentions r.comment.content).map .str) := by
    unfold parseComment
    dsimp only
    rw [h, mentionsColumn]
    by_cases hnil : parseMentions r.comment.content = []
    · rw [if_pos hnil, hnil]
      exact ⟨_, rfl, rfl⟩
    · rw [if_neg hnil, Option.getD_some]
      have hnumbers : Json.NumbersRead rt
          (Json.arr ((parseMentions r.comment.content).map .str)).numbers := by
        rw [numbers_texts]
        exact fun q hq => absurd hq List.not_mem_nil
      have htext : jsonText rt (.arr ((parseMentions r.comment.content).map .str)) ≠ "" := by
        intro hempty
        have hparse := Json.parse_stringify hnumbers
        rw [jsonText, ← String.toList_inj, String.toList_ofList] at hempty
        rw [hempty] at hparse
        exact absurd hparse.symm (Option.some_ne_none _)
      rw [if_neg htext, jsonText, String.toList_ofList, Json.parse_stringify hnumbers,
        readBack_texts]
      exact ⟨_, rfl, rfl⟩
  obtain ⟨⟨id, row, mentions⟩, hparsed, rfl⟩ := hparsed
  unfold MentionRow.mentions
  rw [hparsed]
  dsimp only
  rw [List.any_map, List.any_eq_true]
  constructor
  · rintro ⟨name', hname', heq⟩
    exact of_decide_eq_true heq ▸ hname'
  · intro hmem
    exact ⟨name, hmem, decide_eq_true rfl⟩

theorem any_sqlLike_of_mentions {r : MentionRow}
    (h : r.comment.mentions = mentionsColumn rt r.comment.content)
    (hmentions : r.mentions rt name = true) :
    r.comment.mentions.any (sqlLike ("%\"" ++ name ++ "\"%")) = true := by
  have hmem := (mentions_iff h).mp hmentions
  rw [h, mentionsColumn, if_neg (List.ne_nil_of_mem hmem)]
  exact sqlLike_of_mem rt (fun name' hname' c hc => isWordChar_of_mem_parseMentions hname' hc)
    hmem

theorem joinedComments_eq (h : AsWritten rt s) : joinedComments s = titledComments s := by
  unfold joinedComments titledComments
  rw [← List.filterMap_eq_map]
  refine List.filterMap_congr fun ⟨id, c⟩ hrow => ?_
  obtain ⟨t, ht⟩ := Option.isSome_iff_exists.mp (h id c (s.comments.mem_rows.mp hrow)).2
  simp only [ht, Option.map_some, Option.getD_some, Function.comp_apply]

theorem mentions_of_mem_titledComments (h : AsWritten rt s) {r : MentionRow}
    (hr : r ∈ titledComments s) :
    r.comment.mentions = mentionsColumn rt r.comment.content := by
  obtain ⟨⟨id, c⟩, hrow, rfl⟩ := List.mem_map.mp hr
  exact (h id c (s.comments.mem_rows.mp hrow)).1

theorem eq_of_id_eq {r r' : MentionRow} (hr : r ∈ titledComments s)
    (hr' : r' ∈ titledComments s) (h : r.id = r'.id) : r = r' := by
  obtain ⟨x, hx, rfl⟩ := List.mem_map.mp hr
  obtain ⟨x', hx', rfl⟩ := List.mem_map.mp hr'
  rw [Table.eq_of_fst_eq hx hx' h]

theorem mentionsReport_inj {xs ys : List MentionRow} (hxs : ∀ x ∈ xs, x ∈ titledComments s)
    (hys : ∀ y ∈ ys, y ∈ titledComments s) (h : mentionsReport xs = mentionsReport ys) :
    xs = ys :=
  List.eq_of_map_eq (fun x hx y hy heq =>
    eq_of_id_eq (hxs x hx) (hys y hy) (congrArg MentionItem.id heq)) (map_eq_of_report h)

end Mentions

theorem mentions_heartbeat {site : AgentSite} {agents : AgentState} {idText name : String}
    {agent : ℕ} {r : AgentRow} (orders : HeartbeatOrders) (s : CommentDb)
    (hfound : lookupAgent site agents idText = some (agent, r)) (hname : r .name = .text name) :
    (heartbeat site orders agents idText s).2.mentions
      = mentionsReport (orders.mentions.first 10
        ((joinedComments s).filter (mentionTest name agents.now))) := by
  unfold HeartbeatResponse.mentions
  rw [items_heartbeat orders s hfound hname]
  unfold workItems mentionsReport
  simp only [List.findSome?_append, findSome?_workItem, ite_self, Option.or_none]

/-- Of the comments that the query lets through those that mention the name are the recent
ones. -/
theorem mentions_and_mentionTest {rt : Runtime} {s : CommentDb} (h : AsWritten rt s)
    (name : String) (now : ℕ) {r : MentionRow} (hr : r ∈ titledComments s) :
    (r.mentions rt name && mentionTest name now r)
      = (r.mentions rt name && recent now r.comment.createdAt) := by
  cases hmentions : r.mentions rt name with
  | false => rfl
  | true =>
    unfold mentionTest
    rw [any_sqlLike_of_mentions (mentions_of_mem_titledComments h hr) hmentions]
    rfl

/-- **A heartbeat lists the latest mentions**, however the database orders comments of one
time, exactly where ten of them are later than each comment that only matches the
pattern. -/
theorem heartbeat_mentionsExact_iff (site : AgentSite) (actions : List CommentAction)
    (agents : AgentState) (idText : String) {agent : ℕ} {r : AgentRow} {name : String}
    (hfound : lookupAgent site agents idText = some (agent, r)) (hname : r .name = .text name) :
    (∀ orders, MentionsExact site.rt name agents.now
        ((commentMachine site.rt).state .empty actions)
        (heartbeat site orders agents idText
          ((commentMachine site.rt).state .empty actions)).2)
      ↔ OthersOutnumbered site.rt name agents.now
        ((commentMachine site.rt).state .empty actions) := by
  have hwritten := asWritten_run site.rt actions
  generalize (commentMachine site.rt).state .empty actions = s at hwritten ⊢
  have hpoint : ∀ x ∈ titledComments s, _ := fun x hx =>
    mentions_and_mentionTest hwritten name agents.now hx
  have hfilter : ((titledComments s).filter (mentionTest name agents.now)).filter
        (fun x => x.mentions site.rt name)
      = (titledComments s).filter fun x =>
        x.mentions site.rt name && recent agents.now x.comment.createdAt := by
    rw [List.filter_filter]
    exact List.filter_congr hpoint
  have hcount : ∀ x : MentionRow,
      ((titledComments s).filter (mentionTest name agents.now)).countP
          (fun y => y.mentions site.rt name
            && decide (x.comment.createdAt < y.comment.createdAt))
        = (titledComments s).countP fun y =>
          y.mentions site.rt name && recent agents.now y.comment.createdAt
            && decide (x.comment.createdAt < y.comment.createdAt) := by
    intro x
    rw [List.countP_filter]
    refine List.countP_congr fun y hy => ?_
    rw [Bool.and_right_comm, hpoint y hy]
  have hiff : (∀ orders, MentionsExact site.rt name agents.now s
        (heartbeat site orders agents idText s).2)
      ↔ ∀ order : Descending fun x : MentionRow => x.comment.createdAt,
        IsFirst (fun a b : MentionRow => b.comment.createdAt ≤ a.comment.createdAt) 10
          (((titledComments s).filter (mentionTest name agents.now)).filter
            fun x => x.mentions site.rt name)
          (order.first 10 ((titledComments s).filter (mentionTest name agents.now))) := by
    rw [hfilter]
    constructor
    · intro h order
      obtain ⟨rows, hrows, hreport⟩ := h { sampleHeartbeatOrders with mentions := order }
      rw [mentions_heartbeat _ s hfound hname, joinedComments_eq hwritten] at hreport
      rw [mentionsReport_inj (fun x hx => (List.mem_filter.mp
        (order.mem_of_mem_first hx)).1) (fun y hy => (List.mem_filter.mp (hrows.mem hy)).1)
        hreport]
      exact hrows
    · intro h orders
      refine ⟨_, h orders.mentions, ?_⟩
      rw [mentions_heartbeat orders s hfound hname, joinedComments_eq hwritten]
  rw [hiff, Descending.forall_isFirst_filter_iff]
  constructor
  · intro h x hx hrecent hlike hbad
    rw [← hcount]
    refine h x (List.mem_filter.mpr ⟨hx, ?_⟩) hbad
    rw [mentionTest, hlike, hrecent]
    rfl
  · intro h x hx hbad
    obtain ⟨hx, htest⟩ := List.mem_filter.mp hx
    obtain ⟨hlike, hrecent⟩ := Bool.and_eq_true_iff.mp htest
    rw [hcount]
    exact h x hx hrecent hlike hbad

/-- Where all that match the pattern mention the name, the latest mentions are listed. -/
theorem heartbeat_mentionsExact_sampleThread :
    MentionsExact sampleRuntime "bob" (sampleAgents "bob").now
      ((commentMachine sampleRuntime).state .empty sampleThread)
      (heartbeat sampleAgentSite sampleHeartbeatOrders (sampleAgents "bob") "bob"
        ((commentMachine sampleRuntime).state .empty sampleThread)).2 := by
  have hagent : (lookupAgent sampleAgentSite (sampleAgents "bob") "bob").map
      (fun found => (found.1, found.2 .name)) = some (1, .text "bob") := by decide +kernel
  obtain ⟨⟨agent, r⟩, hfound, heq⟩ := Option.map_eq_some_iff.mp hagent
  refine (heartbeat_mentionsExact_iff sampleAgentSite sampleThread _ _ hfound
    (Prod.mk.inj heq).2).mpr ?_ sampleHeartbeatOrders
  unfold OthersOutnumbered
  decide +kernel

/-- **An agent is told of the mentions of another one**: the underscore in its name stands
for any character. -/
theorem not_mentionsExact_sampleThread :
    ¬ ∀ (site : AgentSite) (actions : List CommentAction) (agents : AgentState)
      (idText : String) (agent : ℕ) (r : AgentRow) (name : String),
      lookupAgent site agents idText = some (agent, r) → r .name = .text name →
        ∀ orders, MentionsExact site.rt name agents.now
          ((commentMachine site.rt).state .empty actions)
          (heartbeat site orders agents idText
            ((commentMachine site.rt).state .empty actions)).2 := by
  intro h
  have hagent : (lookupAgent sampleAgentSite (sampleAgents "b_b") "b_b").map
      (fun found => (found.1, found.2 .name)) = some (1, .text "b_b") := by decide +kernel
  have hlisted : (heartbeat sampleAgentSite sampleHeartbeatOrders (sampleAgents "b_b") "b_b"
      ((commentMachine sampleAgentSite.rt).state .empty sampleThread)).2.mentions.isSome
        = true := by decide +kernel
  have hnone : (titledComments
      ((commentMachine sampleAgentSite.rt).state .empty sampleThread)).all
        (fun r => !r.mentions sampleAgentSite.rt "b_b") = true := by decide +kernel
  obtain ⟨⟨agent, r⟩, hfound, heq⟩ := Option.map_eq_some_iff.mp hagent
  obtain ⟨rows, hrows, hreport⟩ := h sampleAgentSite sampleThread (sampleAgents "b_b") "b_b"
    agent r "b_b" hfound (Prod.mk.inj heq).2 sampleHeartbeatOrders
  have hempty : rows = [] := by
    refine List.eq_nil_iff_forall_not_mem.mpr fun x hx => ?_
    obtain ⟨hx, htest⟩ := List.mem_filter.mp (hrows.mem hx)
    have hnot := List.all_eq_true.mp hnone x hx
    rw [(Bool.and_eq_true_iff.mp htest).1] at hnot
    cases hnot
  rw [hreport, hempty] at hlisted
  cases hlisted

end MissionControl
