import MissionControl.Comments

/-!
# Comment threads

The two passes of `getComments` give each object the replies whose parent it is, in
whatever order the rows come. That each comment is reached then rests on what the
writes keep: a parent is a comment of the same task with a smaller id
(`WellThreaded`).

The two passes are folds over rows in any order, and they are first brought to a form in
which that order no longer counts: the replies of a comment are those of the rows whose
parent it is (`repliesOf_eq`). The forest then exists since parents have smaller ids, which
bounds the depth; and it has each comment once as each has one parent. A deletion takes a
task with all of its comments, so no parent is lost before its replies.
-/

namespace MissionControl

/-! ## The two passes -/

section Passes

variable {comments : List ParsedComment}

theorem commentMap_of_mem (hids : (comments.map (·.id)).Nodup) {c : ParsedComment}
    (hc : c ∈ comments) : commentMap comments c.id = some ⟨c, []⟩ := by
  unfold commentMap
  induction comments using List.reverseRecOn with
  | nil => exact absurd hc List.not_mem_nil
  | append_singleton comments d ih =>
    rw [List.map_append, List.nodup_append] at hids
    rw [List.foldl_append, List.foldl_cons, List.foldl_nil]
    rcases List.mem_append.mp hc with hc | hc
    · have hne : c.id ≠ d.id := hids.2.2 _ (List.mem_map_of_mem hc) _ List.mem_cons_self
      rw [Function.update_of_ne hne]
      exact ih hids.1 hc
    · obtain rfl := List.mem_singleton.mp hc
      exact Function.update_self _ _ _

/-- The comments among some that have a parent, or none, in their order. -/
def childIds (done : List ParsedComment) (p : Option ℕ) : List ℕ :=
  (done.filter fun c => c.parent = p).map (·.id)

theorem childIds_concat (done : List ParsedComment) (c : ParsedComment) (p : Option ℕ) :
    childIds (done ++ [c]) p = childIds done p ++ if c.parent = p then [c.id] else [] := by
  unfold childIds
  rw [List.filter_append, List.map_append, List.filter_singleton]
  congr 1
  by_cases hp : c.parent = p
  · rw [decide_eq_true hp, if_pos hp, cond_true, List.map_singleton]
  · rw [decide_eq_false hp, if_neg hp, cond_false, List.map_nil]

/-- The objects after the second pass on some comments: each has the replies among
them. -/
def withReplies (done : List ParsedComment) (map : CommentMap) : CommentMap := fun id =>
  (map id).map fun node => { node with replies := childIds done (some id) }

theorem organize_withReplies (done : List ParsedComment) (map : CommentMap)
    (c : ParsedComment) :
    organize (withReplies done map, childIds done none) c
      = (withReplies (done ++ [c]) map, childIds (done ++ [c]) none) := by
  -- only the replies of the parent change
  have hother : ∀ id, c.parent ≠ some id →
      withReplies (done ++ [c]) map id = withReplies done map id := by
    intro id hid
    unfold withReplies
    rw [childIds_concat, if_neg hid, List.append_nil]
  unfold organize
  cases hparent : c.parent with
  | none =>
    refine Prod.ext (funext fun id => (hother id ?_).symm) ?_
    · rw [hparent]
      exact (Option.some_ne_none id).symm
    · show childIds done none ++ [c.id] = _
      rw [childIds_concat, if_pos hparent]
  | some p =>
    have htop : childIds (done ++ [c]) none = childIds done none := by
      rw [childIds_concat, if_neg (by rw [hparent]; exact Option.some_ne_none p), List.append_nil]
    rw [htop]
    dsimp only
    cases hnode : map p with
    | none =>
      have hmissing : withReplies done map p = none := by
        unfold withReplies
        rw [hnode, Option.map_none]
      rw [hmissing]
      refine Prod.ext (funext fun id => ?_) rfl
      by_cases hid : id = p
      · subst hid
        show withReplies done map id = withReplies (done ++ [c]) map id
        unfold withReplies
        rw [hnode, Option.map_none, Option.map_none]
      · exact (hother id fun h => hid (Option.some.inj (h.symm.trans hparent))).symm
    | some node =>
      have hfound : withReplies done map p
          = some { node with replies := childIds done (some p) } := by
        unfold withReplies
        rw [hnode, Option.map_some]
      rw [hfound]
      refine Prod.ext (funext fun id => ?_) rfl
      show Function.update (withReplies done map) p _ id = _
      by_cases hid : id = p
      · subst hid
        rw [Function.update_self]
        show some (⟨node.comment, childIds done (some id) ++ [c.id]⟩ : ThreadNode)
          = withReplies (done ++ [c]) map id
        unfold withReplies
        rw [hnode, Option.map_some, childIds_concat, if_pos hparent]
      · rw [Function.update_of_ne hid]
        exact (hother id fun h => hid (Option.some.inj (h.symm.trans hparent))).symm

/-- **The second pass gives each object its replies**, and the other comments are at the
top. -/
theorem foldl_organize {map : CommentMap} (hmap : ∀ id node, map id = some node → node.replies = [])
    (done : List ParsedComment) :
    done.foldl organize (map, []) = (withReplies done map, childIds done none) := by
  induction done using List.reverseRecOn with
  | nil =>
    refine Prod.ext (funext fun id => ?_) rfl
    show map id = withReplies [] map id
    unfold withReplies
    cases hnode : map id with
    | none => rfl
    | some node =>
      have hnone : childIds [] (some id) = node.replies := (hmap id node hnode).symm
      rw [Option.map_some, hnone]
  | append_singleton done c ih =>
    rw [List.foldl_append, List.foldl_cons, List.foldl_nil, ih, organize_withReplies]

theorem replies_commentMap (comments : List ParsedComment) (id : ℕ) (node : ThreadNode)
    (h : commentMap comments id = some node) : node.replies = [] := by
  unfold commentMap at h
  induction comments using List.reverseRecOn with
  | nil => cases h
  | append_singleton comments d ih =>
    rw [List.foldl_append, List.foldl_cons, List.foldl_nil] at h
    by_cases hid : id = d.id
    · subst hid
      rw [Function.update_self] at h
      exact (congrArg ThreadNode.replies (Option.some.inj h)).symm
    · rw [Function.update_of_ne hid] at h
      exact ih h

theorem dereference_childIds (hids : (comments.map (·.id)).Nodup) (p : Option ℕ) :
    dereference (withReplies comments (commentMap comments)) (childIds comments p)
      = comments.filter fun c => c.parent = p := by
  unfold dereference childIds
  rw [List.filterMap_map]
  refine (List.filterMap_congr (g := some) fun c hc => ?_).trans List.filterMap_some
  show (withReplies comments (commentMap comments) c.id).map (·.comment) = some c
  unfold withReplies
  rw [commentMap_of_mem hids (List.mem_of_mem_filter hc)]
  rfl

/-- **The replies of a comment are the comments whose parent it is.** -/
theorem repliesOf_eq (hids : (comments.map (·.id)).Nodup) {c : ParsedComment}
    (hc : c ∈ comments) :
    repliesOf (withReplies comments (commentMap comments)) c
      = comments.filter fun d => d.parent = some c.id := by
  rw [← dereference_childIds hids]
  unfold repliesOf
  congr 1
  unfold withReplies
  rw [commentMap_of_mem hids hc]
  rfl

/-- What is among the replies of an object is a comment whose parent it is. -/
theorem mem_repliesOf (hids : (comments.map (·.id)).Nodup) {c d : ParsedComment}
    (hd : d ∈ repliesOf (withReplies comments (commentMap comments)) c) :
    d ∈ comments ∧ d.parent = some c.id := by
  unfold repliesOf at hd
  cases hnode : commentMap comments c.id with
  | none =>
    unfold withReplies at hd
    rw [hnode] at hd
    exact absurd hd List.not_mem_nil
  | some node =>
    have hreplies : ((withReplies comments (commentMap comments) c.id).map
        (·.replies)).getD [] = childIds comments (some c.id) := by
      unfold withReplies
      rw [hnode]
      rfl
    rw [hreplies, dereference_childIds hids] at hd
    obtain ⟨hmem, hparent⟩ := List.mem_filter.mp hd
    exact ⟨hmem, of_decide_eq_true hparent⟩

end Passes

/-! ## The forest -/

/-- The comments of one task are threaded: a parent is one of them, with a smaller
id. -/
structure Threaded (comments : List ParsedComment) : Prop where
  nodup : (comments.map (·.id)).Nodup
  parent_lt : ∀ c ∈ comments, ∀ p, c.parent = some p → p < c.id
  parent_mem : ∀ c ∈ comments, ∀ p, c.parent = some p → ∃ d ∈ comments, d.id = p

/-- A comment is directly below another one in a forest. -/
def Below (forest : List (RoseTree ParsedComment)) (a b : ParsedComment) : Prop :=
  (some a, b) ∈ RoseTree.placedIn none forest

/-- **The threads of a task are complete**: each comment is at one place, which is directly
below its parent, and none is below itself. -/
structure Complete (comments : List ParsedComment) (forest : List (RoseTree ParsedComment)) :
    Prop where
  placed : ((RoseTree.placedIn none forest).map fun x => (x.1.map (·.id), x.2)).Perm
    (comments.map fun c => (c.parent, c))
  acyclic : ∀ c, ¬ Relation.TransGen (Below forest) c c

namespace Threaded

variable {comments : List ParsedComment}

theorem countP_later_lt {a c : ParsedComment} (hc : c ∈ comments) (hlt : a.id < c.id) :
    comments.countP (fun d => c.id < d.id) < comments.countP (fun d => a.id < d.id) := by
  have hafter : (comments.filter fun d => c.id < d.id).countP (fun d => a.id < d.id)
      = comments.countP fun d => c.id < d.id := by
    rw [List.countP_eq_length_filter (l := comments)]
    refine List.countP_eq_length.mpr fun d hd => decide_eq_true ?_
    exact hlt.trans (of_decide_eq_true (List.mem_filter.mp hd).2)
  -- the reply itself comes after its parent
  have hself : 0 < (comments.filter fun d => !decide (c.id < d.id)).countP
      (fun d => a.id < d.id) :=
    List.countP_pos_iff.mpr ⟨c, List.mem_filter.mpr ⟨hc, by simp⟩, decide_eq_true hlt⟩
  have hsplit := List.countP_eq_countP_filter_add comments (fun d => decide (a.id < d.id))
    (fun d => decide (c.id < d.id))
  omega

/-- **Threaded comments make complete threads.** -/
theorem exists_complete (h : Threaded comments) :
    ∃ forest, buildThreads comments = some forest ∧ Complete comments forest := by
  have hpass := foldl_organize (replies_commentMap comments) comments
  have hroots := dereference_childIds h.nodup none
  generalize hchildren : repliesOf (withReplies comments (commentMap comments)) = children
  have hmem : ∀ {a d}, d ∈ children a → d ∈ comments ∧ d.parent = some a.id := by
    rw [← hchildren]
    exact mem_repliesOf h.nodup
  -- the forest grows, as replies come after their parents
  have hgrow : ∀ c ∈ comments.filter (fun c => c.parent = none),
      ∃ t, RoseTree.grow children comments.length c = some t := by
    intro c hc
    refine RoseTree.exists_grow children (P := (· ∈ comments))
      (μ := fun c => comments.countP fun d => c.id < d.id) (fun a _ d hd => ?_)
      (List.mem_of_mem_filter hc) ?_
    · obtain ⟨hd, hparent⟩ := hmem hd
      exact ⟨hd, countP_later_lt hd (h.parent_lt d hd _ hparent)⟩
    · exact List.countP_lt_length_iff.mpr
        ⟨c, List.mem_of_mem_filter hc, decide_eq_false (Nat.lt_irrefl _)⟩
  obtain ⟨forest, hforest⟩ := RoseTree.exists_mapM hgrow
  refine ⟨forest, ?_, ?_, ?_⟩
  · unfold buildThreads
    rw [hpass]
    dsimp only
    rw [hroots, hchildren, hforest]
  · have hplace : ∀ x ∈ RoseTree.placedIn none forest, x.1.map (·.id) = x.2.parent := by
      intro x hx
      rcases RoseTree.placedIn_grow children hforest hx with ⟨hnone, hroot⟩ | ⟨b, hb, hbelow⟩
      · rw [hnone, of_decide_eq_true (List.mem_filter.mp hroot).2, Option.map_none]
      · rw [hb, (hmem hbelow).2, Option.map_some]
    have hnodes : (RoseTree.nodes forest).Perm comments := by
      refine RoseTree.perm_nodes (·.id) (·.parent) h.nodup h.parent_lt (fun a ha => ?_)
        (.of_eq ?_) hforest
      · rw [← hchildren, repliesOf_eq h.nodup ha]
      · -- a comment with a parent has it among the comments
        refine List.filter_congr fun c hc => ?_
        cases hparent : c.parent with
        | none =>
          refine (decide_eq_true rfl).trans (Bool.eq_true_of_not_eq_false fun hno => ?_).symm
          obtain ⟨y, -, hy⟩ := RoseTree.atTop_eq_false.mp hno
          exact Option.some_ne_none _ (hy.symm.trans hparent)
        | some p =>
          obtain ⟨d, hd, rfl⟩ := h.parent_mem c hc p hparent
          rw [RoseTree.atTop_eq_false.mpr ⟨d, hd, hparent⟩]
          exact decide_eq_false (Option.some_ne_none _)
    refine List.Perm.trans (.of_eq ?_) (hnodes.map fun c => (c.parent, c))
    unfold RoseTree.nodes
    rw [List.map_map]
    refine List.map_congr_left fun x hx => ?_
    rw [hplace x hx]
    rfl
  · intro c hcycle
    have hlt : ∀ a b, Below forest a b → a.id < b.id := by
      intro a b hab
      rcases RoseTree.placedIn_grow children hforest hab with ⟨hnone, -⟩ | ⟨b', hb, hbelow⟩
      · exact absurd hnone (Option.some_ne_none a)
      · obtain rfl := Option.some.inj hb
        exact h.parent_lt b (hmem hbelow).1 _ (hmem hbelow).2
    have hself : Relation.TransGen (· < ·) c.id c.id :=
      Relation.TransGen.lift ParsedComment.id hlt c c hcycle
    rw [Relation.transGen_eq_self] at hself
    exact Nat.lt_irrefl _ hself

end Threaded

/-! ## What the writes keep -/

/-- **The comments are well threaded**: their mentions were stored by the runtime, and a
parent is an earlier comment of the same task. -/
def WellThreaded (rt : Runtime) (comments : Table Comment) : Prop :=
  ∀ id c, comments.row id = some c → c.MentionsStored rt
    ∧ ∀ p, c.parentId = some p → 0 < p ∧ p < id
      ∧ ∃ d, comments.row p = some d ∧ d.taskId = c.taskId

theorem wellThreaded_empty (rt : Runtime) : WellThreaded rt .empty := by
  intro id c hc
  cases hc

theorem WellThreaded.insert {rt : Runtime} {comments : Table Comment}
    (h : WellThreaded rt comments) {c : Comment} (hmentions : c.MentionsStored rt)
    (hparent : ∀ p, c.parentId = some p →
      0 < p ∧ ∃ d, comments.row p = some d ∧ d.taskId = c.taskId) :
    WellThreaded rt (comments.insert c) := by
  intro id c' hc'
  rcases (Table.row_insert_eq_some _ _).mp hc' with ⟨rfl, rfl⟩ | hc'
  · refine ⟨hmentions, fun p hp => ?_⟩
    obtain ⟨hpos, d, hd, htask⟩ := hparent p hp
    exact ⟨hpos, comments.row_lt hd, d, comments.row_insert_of_some _ hd, htask⟩
  · obtain ⟨hmentions', hparent'⟩ := h id c' hc'
    refine ⟨hmentions', fun p hp => ?_⟩
    obtain ⟨hpos, hlt, d, hd, htask⟩ := hparent' p hp
    exact ⟨hpos, hlt, d, comments.row_insert_of_some _ hd, htask⟩

theorem WellThreaded.cascade {rt : Runtime} {comments : Table Comment}
    (h : WellThreaded rt comments) (before after : Table TaskRow) :
    WellThreaded rt (cascadeComments before after comments) := by
  intro id c hc
  unfold cascadeComments at hc ⊢
  dsimp only at hc ⊢
  rw [Table.row_updateAll, Option.map_eq_some_iff] at hc
  obtain ⟨c, hc, rfl⟩ := hc
  obtain ⟨hrow, hkept⟩ := (comments.row_deleteWhere_eq_some _).mp hc
  obtain ⟨hmentions, hparent⟩ := h id c hrow
  refine ⟨hmentions, fun p hp => ?_⟩
  obtain ⟨hpc, -⟩ := Option.filter_eq_some_iff.mp hp
  obtain ⟨hpos, hlt, d, hd, htask⟩ := hparent p hpc
  -- the parent is of the same task, so it is kept as well
  have hdkept := (comments.row_deleteWhere_eq_some
    (fun _ c => (before.row c.taskId).isSome && (after.row c.taskId).isNone)).mpr
      ⟨hd, by rw [htask]; exact hkept⟩
  refine ⟨hpos, hlt, ?_⟩
  rw [Table.row_updateAll, hdkept]
  exact ⟨_, rfl, htask⟩

/-- **Every request keeps the comments well threaded.** -/
theorem wellThreaded_next (rt : Runtime) (s : CommentDb) (a : CommentAction)
    (h : WellThreaded rt s.comments) :
    WellThreaded rt ((commentMachine rt).next s a).comments := by
  obtain ⟨ctx, orders, request⟩ := a
  cases request with
  | tasks request => exact h.cascade _ _
  | comment idText body =>
    show WellThreaded rt (postComment rt orders ctx idText body s).state.comments
    rcases postComment_cases rt orders ctx idText body s with
      ⟨response, heq, -⟩ | ⟨id, task, j, fields, parentId, response, -, -, -, -, hparent, heq, -⟩
    · rw [heq]
      exact h
    · rw [heq, comments_addComment]
      exact h.insert (mentionsStored_commentRow rt ctx id fields parentId) hparent

/-! ## Whole runs -/

theorem exists_mapM_parseComment {rt : Runtime} {rows : List (ℕ × Comment)}
    (h : ∀ r ∈ rows, r.2.MentionsStored rt) :
    ∃ parsed, rows.mapM (parseComment rt) = some parsed
      ∧ parsed.map (fun c => (c.id, c.row)) = rows := by
  induction rows with
  | nil => exact ⟨[], rfl, rfl⟩
  | cons r rows ih =>
    obtain ⟨c, hc, hid, hrow⟩ := exists_parseComment r.1 (h r List.mem_cons_self)
    obtain ⟨cs, hcs, hmap⟩ := ih fun r' hr' => h r' (List.mem_cons_of_mem _ hr')
    refine ⟨c :: cs, RoseTree.mapM_cons_eq_some.mpr ⟨c, cs, hc, hcs, rfl⟩, ?_⟩
    rw [List.map_cons, hmap, hid, hrow]

theorem WellThreaded.threaded {rt : Runtime} {s : CommentDb} (h : WellThreaded rt s.comments)
    {id : ℕ} {parsed : List ParsedComment}
    (hparsed : (parsed.map fun c => (c.id, c.row)).Perm (s.ofTask id)) :
    Threaded parsed ∧ ∀ c ∈ parsed, c.parent = c.row.parentId := by
  have hrow : ∀ c ∈ parsed, s.comments.row c.id = some c.row ∧ c.row.taskId = id := by
    intro c hc
    obtain ⟨hmem, htask⟩ := List.mem_filter.mp
      (hparsed.mem_iff.mp (List.mem_map_of_mem (f := fun c => (c.id, c.row)) hc))
    exact ⟨s.comments.mem_rows.mp hmem, of_decide_eq_true htask⟩
  have hparent : ∀ c ∈ parsed, c.parent = c.row.parentId := by
    intro c hc
    unfold ParsedComment.parent
    cases hp : c.row.parentId with
    | none => rfl
    | some p =>
      obtain ⟨hpos, -⟩ := (h c.id c.row (hrow c hc).1).2 p hp
      rw [Option.filter_some, decide_eq_true hpos, if_pos rfl]
  refine ⟨⟨?_, fun c hc p hp => ?_, fun c hc p hp => ?_⟩, hparent⟩
  · have hids : ((s.ofTask id).map Prod.fst).Nodup :=
      s.comments.nodup_rows.sublist (List.filter_sublist.map _)
    have := ((hparsed.map Prod.fst).nodup_iff).mpr hids
    rwa [List.map_map] at this
  · rw [hparent c hc] at hp
    exact ((h c.id c.row (hrow c hc).1).2 p hp).2.1
  · rw [hparent c hc] at hp
    obtain ⟨-, -, d, hd, htask⟩ := (h c.id c.row (hrow c hc).1).2 p hp
    have hin : (p, d) ∈ s.ofTask id := List.mem_filter.mpr
      ⟨s.comments.mem_rows.mpr hd, decide_eq_true (htask.trans (hrow c hc).2)⟩
    obtain ⟨c', hc', heq⟩ := List.mem_map.mp (hparsed.mem_iff.mpr hin)
    exact ⟨c', hc', congrArg Prod.fst heq⟩

/-- **Comment threads are complete**: after every run of requests, whatever the order of
rows of one second, the answer has each comment of the task at one place, directly below
its parent, none below itself, and as many as it says. -/
theorem getComments_complete (rt : Runtime) (actions : List CommentAction)
    (orders : CommentOrders) {idText : String} {id : ℕ} {task : TaskRow}
    (hid : parseInt idText = some (id : ℤ))
    (htask : ((commentMachine rt).state .empty actions).db.tasks.row id = some task) :
    ∃ forest, getComments rt orders idText ((commentMachine rt).state .empty actions)
        = .threads forest (((commentMachine rt).state .empty actions).ofTask id).length
      ∧ ((RoseTree.placedIn none forest).map fun x => (x.1.map (·.id), x.2.id, x.2.row)).Perm
        ((((commentMachine rt).state .empty actions).ofTask id).map fun r =>
          (r.2.parentId, r.1, r.2))
      ∧ (∀ c, ¬ Relation.TransGen (Below forest) c c)
      ∧ (RoseTree.nodes forest).length
        = (((commentMachine rt).state .empty actions).ofTask id).length := by
  have hinv : WellThreaded rt ((commentMachine rt).state .empty actions).comments :=
    (commentMachine rt).state_invariant (I := fun s => WellThreaded rt s.comments)
      (wellThreaded_empty rt) (fun s a => wellThreaded_next rt s a) actions
  generalize (commentMachine rt).state .empty actions = s at hinv htask ⊢
  have hperm := orders.comments.perm (s.ofTask id)
  have hstored : ∀ r ∈ orders.comments.sort (s.ofTask id), r.2.MentionsStored rt :=
    fun r hr => (hinv r.1 r.2 (s.comments.mem_rows.mp
      (List.mem_of_mem_filter (hperm.mem_iff.mp hr)))).1
  obtain ⟨parsed, hparse, hrows⟩ := exists_mapM_parseComment hstored
  obtain ⟨hthreaded, hparent⟩ := hinv.threaded (hrows ▸ hperm)
  obtain ⟨forest, hbuild, hplaced, hacyclic⟩ := hthreaded.exists_complete
  have hpairs : ((RoseTree.placedIn none forest).map
      fun x => (x.1.map (·.id), x.2.id, x.2.row)).Perm
        ((s.ofTask id).map fun r => (r.2.parentId, r.1, r.2)) := by
    have hfull := hplaced.map fun x => (x.1, x.2.id, x.2.row)
    rw [List.map_map, List.map_map] at hfull
    refine List.Perm.trans hfull ?_
    refine List.Perm.trans (.of_eq ?_) (hperm.map fun r => (r.2.parentId, r.1, r.2))
    rw [← hrows, List.map_map]
    refine List.map_congr_left fun c hc => ?_
    show (c.parent, c.id, c.row) = (c.row.parentId, c.id, c.row)
    rw [hparent c hc]
  refine ⟨forest, ?_, hpairs, hacyclic, ?_⟩
  · unfold getComments
    rw [hid]
    dsimp only
    rw [TaskDb.findTask_eq_some.mpr ⟨rfl, htask⟩]
    dsimp only
    rw [hparse, Option.bind_some, hbuild]
    dsimp only
    rw [hperm.length_eq]
  · have hlength := hpairs.length_eq
    rw [List.length_map, List.length_map] at hlength
    unfold RoseTree.nodes
    rw [List.length_map, hlength]

/-- The threads of the sample task are complete. -/
theorem getComments_complete_sample :
    ∃ forest, getComments sampleRuntime sampleCommentOrders "1"
        ((commentMachine sampleRuntime).state .empty sampleThread)
        = .threads forest
          (((commentMachine sampleRuntime).state .empty sampleThread).ofTask 1).length
      ∧ ((RoseTree.placedIn none forest).map fun x => (x.1.map (·.id), x.2.id, x.2.row)).Perm
        ((((commentMachine sampleRuntime).state .empty sampleThread).ofTask 1).map fun r =>
          (r.2.parentId, r.1, r.2))
      ∧ (∀ c, ¬ Relation.TransGen (Below forest) c c)
      ∧ (RoseTree.nodes forest).length
        = (((commentMachine sampleRuntime).state .empty sampleThread).ofTask 1).length := by
  have hsome : (((commentMachine sampleRuntime).state .empty sampleThread).db.tasks.row
      1).isSome = true := by decide +kernel
  obtain ⟨task, htask⟩ := Option.isSome_iff_exists.mp hsome
  exact getComments_complete sampleRuntime sampleThread sampleCommentOrders (by decide) htask

/-- The sample thread is three levels deep. -/
example : (((commentMachine sampleRuntime).state .empty sampleThread).ofTask 1).map
    (fun r => (r.2.parentId, r.1)) = [(none, 1), (some 1, 2), (some 2, 3)] := by
  decide +kernel

end MissionControl
