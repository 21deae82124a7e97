import MissionControl.Tasks

/-!
# Bulk updates that are refused

`PUT /api/tasks` moves its tasks in one transaction: where the gate refuses
one of them, the tables are what they were. The activity log of the tasks
moved before that one is part of the transaction too – but its events are
broadcast as the rows are inserted, and nothing takes them back.

So an error leaves no trace on the bus exactly when no task has been moved to
another status before the one that is refused.
-/

namespace MissionControl

variable (ctx : RequestContext)

/-! ## The transaction, step by step -/

/-- Whether an element moves its task to another status. -/
def StatusMove.Changes (db : TaskDb) (move : StatusMove) : Prop :=
  ∃ t, db.tasks.row move.id = some t ∧ t.status ≠ move.status

namespace Work

variable (w : Work) (move : StatusMove)

@[simp] theorem tasks_move :
    (w.move ctx move).db.tasks = w.db.tasks.update move.id
      (fun t => { t with status := move.status, updatedAt := ctx.now }) := by
  unfold Work.move
  dsimp only
  split
  · rfl
  · rw [doIf_frame _ (fun w => w.db.tasks) _ (fun w => by simp)]
    rfl

@[simp] theorem reviews_move : (w.move ctx move).db.reviews = w.db.reviews := by
  unfold Work.move
  dsimp only
  split
  · rfl
  · rw [doIf_frame _ (fun w => w.db.reviews) _ (fun w => by simp)]
    rfl

@[simp] theorem refused_move (m : StatusMove) :
    m.refused ctx (w.move ctx move).db = m.refused ctx w.db := by
  unfold StatusMove.refused
  rw [hasAegisApproval_congr (reviews_move ctx w move)]

/-- **A move to another status is announced, and no other.** -/
theorem events_move :
    (w.move ctx move).events = w.events ∧ ¬ move.Changes w.db
      ∨ ∃ e, (w.move ctx move).events = w.events ++ [e] ∧ e.About move.id
        ∧ move.Changes w.db := by
  unfold Work.move
  dsimp only
  cases hrow : w.db.tasks.row move.id with
  | none =>
    refine .inl ⟨rfl, ?_⟩
    rintro ⟨t, ht, -⟩
    cases hrow.symm.trans ht
  | some t =>
    unfold doIf
    by_cases hne : t.status = move.status
    · refine .inl ⟨by simp [hne], ?_⟩
      rintro ⟨t', ht', hne'⟩
      obtain rfl : t = t' := Option.some.inj (hrow.symm.trans ht')
      exact hne' hne
    · refine .inr ⟨.activityCreated w.db.activities.next (moveActivity ctx move t),
        ?_, ⟨rfl, rfl⟩, t, hrow, hne⟩
      dsimp only
      rw [if_pos (by simpa using hne)]
      rfl

theorem changes_move_iff {move : StatusMove} (h : ¬ move.Changes w.db)
    (m : StatusMove) : m.Changes (w.move ctx move).db ↔ m.Changes w.db := by
  unfold StatusMove.Changes at *
  rw [tasks_move, Table.row_update]
  by_cases hid : m.id = move.id
  · rw [if_pos hid, hid]
    cases hrow : w.db.tasks.row move.id with
    | none => simp
    | some t =>
      have ht : t.status = move.status := by
        by_contra hne
        exact h ⟨t, hrow, hne⟩
      simp [ht]
  · rw [if_neg hid]

/-- **The moves before the first one that is refused are made.** -/
theorem moveAll_of_refused {pre post : List StatusMove} {bad : StatusMove}
    (hpre : ∀ m ∈ pre, m.refused ctx w.db = false)
    (hbad : bad.refused ctx w.db = true) :
    moveAll ctx (pre ++ bad :: post) w = (pre.foldl (·.move ctx ·) w, some bad) := by
  induction pre generalizing w with
  | nil => rw [List.nil_append, moveAll, if_pos hbad, List.foldl_nil]
  | cons m pre ih =>
    rw [List.cons_append, moveAll, if_neg (by simp [hpre m List.mem_cons_self]),
      List.foldl_cons]
    refine ih (w.move ctx m) (fun m' hm' => ?_) ?_
    · rw [refused_move, hpre m' (List.mem_cons_of_mem m hm')]
    · rw [refused_move, hbad]

theorem moveAll_of_forall {moves : List StatusMove}
    (h : ∀ m ∈ moves, m.refused ctx w.db = false) :
    moveAll ctx moves w = (moves.foldl (·.move ctx ·) w, none) := by
  induction moves generalizing w with
  | nil => rfl
  | cons m moves ih =>
    rw [moveAll, if_neg (by simp [h m List.mem_cons_self]), List.foldl_cons]
    refine ih (w.move ctx m) fun m' hm' => ?_
    rw [refused_move, h m' (List.mem_cons_of_mem m hm')]

theorem events_prefix_foldl_move (moves : List StatusMove) :
    w.events <+: (moves.foldl (·.move ctx ·) w).events := by
  induction moves generalizing w with
  | nil => exact List.prefix_refl _
  | cons m moves ih =>
    refine List.IsPrefix.trans ?_ (ih (w.move ctx m))
    rcases events_move ctx w m with ⟨h, -⟩ | ⟨e, h, -, -⟩
    · exact h ▸ List.prefix_refl w.events
    · rw [h]
      exact List.prefix_append _ _

/-- **Some moves announce nothing exactly when none is to another status.** -/
theorem events_foldl_move_eq_nil_iff (moves : List StatusMove)
    (hw : w.events = []) :
    (moves.foldl (·.move ctx ·) w).events = [] ↔ ∀ m ∈ moves, ¬ m.Changes w.db := by
  induction moves generalizing w with
  | nil => simpa using hw
  | cons m moves ih =>
    rw [List.foldl_cons, List.forall_mem_cons]
    rcases events_move ctx w m with ⟨h, hno⟩ | ⟨e, h, -, hyes⟩
    · -- the move changes no status, so the others find what they would have found
      rw [ih (w.move ctx m) (h.trans hw)]
      simp only [changes_move_iff ctx w hno, hno, not_false_eq_true, true_and]
    · have hgrown := events_prefix_foldl_move ctx (w.move ctx m) moves
      refine iff_of_false (fun hnil => ?_) (fun hall => hall.1 hyes)
      rw [hnil, h, List.prefix_nil] at hgrown
      simp at hgrown

theorem about_of_mem_events_foldl_move (moves : List StatusMove) {e : BusEvent}
    (he : e ∈ (moves.foldl (·.move ctx ·) w).events) :
    e ∈ w.events ∨ ∃ m ∈ moves, e.About m.id := by
  induction moves generalizing w with
  | nil => exact .inl he
  | cons m moves ih =>
    rcases ih (w.move ctx m) he with hmem | ⟨m', hm', habout⟩
    · rcases events_move ctx w m with ⟨h, -⟩ | ⟨e', h, habout, -⟩
      · exact .inl (h ▸ hmem)
      · rw [h] at hmem
        rcases List.mem_append.mp hmem with hmem | hmem
        · exact .inl hmem
        · obtain rfl := List.mem_singleton.mp hmem
          exact .inr ⟨m, List.mem_cons_self, habout⟩
    · exact .inr ⟨m', List.mem_cons_of_mem m hm', habout⟩

/-- **Where a status comes from after some moves**: from one of them, or it was
there. -/
theorem status_of_row_foldl_move (moves : List StatusMove) {id : ℕ} {t' : TaskRow}
    (h : (moves.foldl (·.move ctx ·) w).db.tasks.row id = some t') :
    (∃ t, w.db.tasks.row id = some t ∧ t.status = t'.status)
      ∨ ∃ m ∈ moves, m.id = id ∧ m.status = t'.status := by
  induction moves generalizing w with
  | nil => exact .inl ⟨t', h, rfl⟩
  | cons m moves ih =>
    rcases ih (w.move ctx m) h with ⟨t, ht, hstatus⟩ | ⟨m', hm', hid, hstatus⟩
    · rw [tasks_move, Table.row_update] at ht
      by_cases hid : id = m.id
      · rw [if_pos hid, Option.map_eq_some_iff] at ht
        obtain ⟨t, -, rfl⟩ := ht
        exact .inr ⟨m, List.mem_cons_self, hid.symm, hstatus⟩
      · rw [if_neg hid] at ht
        exact .inl ⟨t, ht, hstatus⟩
    · exact .inr ⟨m', List.mem_cons_of_mem m hm', hid, hstatus⟩

end Work

/-! ## What an error leaves behind -/

/-- **Where the loop stops**: at no element, or at the first one that is
refused. -/
theorem exists_first_refused (db : TaskDb) (moves : List StatusMove) :
    (∀ m ∈ moves, m.refused ctx db = false)
      ∨ ∃ pre bad post, moves = pre ++ bad :: post
        ∧ (∀ m ∈ pre, m.refused ctx db = false) ∧ bad.refused ctx db = true := by
  induction moves with
  | nil => exact .inl (List.forall_mem_nil _)
  | cons m moves ih =>
    cases hm : m.refused ctx db with
    | true => exact .inr ⟨[], m, moves, rfl, List.forall_mem_nil _, hm⟩
    | false =>
      rcases ih with hall | ⟨pre, bad, post, rfl, hpre, hbad⟩
      · exact .inl (List.forall_mem_cons.mpr ⟨hm, hall⟩)
      · exact .inr ⟨m :: pre, bad, post, rfl,
          List.forall_mem_cons.mpr ⟨hm, hpre⟩, hbad⟩

/-- Some task is moved to another status before the first element that the
gate refuses. -/
def MovesBeforeRefusal (db : TaskDb) (moves : List StatusMove) : Prop :=
  ∃ pre bad post, moves = pre ++ bad :: post
    ∧ (∀ m ∈ pre, m.refused ctx db = false) ∧ bad.refused ctx db = true
    ∧ ∃ m ∈ pre, m.Changes db

/-- An error leaves the database as it was, and has announced nothing about
the tasks of the request. -/
def LeavesNoTrace (moves : List StatusMove) (db : TaskDb)
    (r : Work × ApiResponse) : Prop :=
  400 ≤ r.2.status →
    r.1.db = db ∧ ∀ e ∈ r.1.events, ∀ m ∈ moves, ¬ e.About m.id

theorem bulkUpdate_of_forall {db : TaskDb} {moves : List StatusMove}
    (h : ∀ m ∈ moves, m.refused ctx db = false) :
    (bulkUpdate ctx moves db).2.status = 200 := by
  unfold bulkUpdate
  rw [Work.moveAll_of_forall ctx ⟨db, []⟩ h]
  rfl

/-- A bulk update that is refused: the tables are rolled back, the events of
the moves before stay. -/
theorem bulkUpdate_of_refused {db : TaskDb} {pre post : List StatusMove}
    {bad : StatusMove} (hpre : ∀ m ∈ pre, m.refused ctx db = false)
    (hbad : bad.refused ctx db = true) :
    bulkUpdate ctx (pre ++ bad :: post) db
      = (⟨db, (pre.foldl (·.move ctx ·) (⟨db, []⟩ : Work)).events⟩,
        .error 403 ("Aegis approval required for task " ++ toString bad.id)) := by
  unfold bulkUpdate
  rw [Work.moveAll_of_refused ctx ⟨db, []⟩ hpre hbad]

theorem first_refused_unique {db : TaskDb} {pre pre' post post' : List StatusMove}
    {bad bad' : StatusMove} (heq : pre ++ bad :: post = pre' ++ bad' :: post')
    (hpre : ∀ m ∈ pre, m.refused ctx db = false) (hbad : bad.refused ctx db = true)
    (hpre' : ∀ m ∈ pre', m.refused ctx db = false)
    (hbad' : bad'.refused ctx db = true) : pre = pre' := by
  induction pre generalizing pre' with
  | nil =>
    cases pre' with
    | nil => rfl
    | cons m pre' =>
      obtain ⟨rfl, -⟩ := List.cons.inj heq
      exact absurd (hpre' bad List.mem_cons_self) (by simp [hbad])
  | cons m pre ih =>
    cases pre' with
    | nil =>
      obtain ⟨rfl, -⟩ := List.cons.inj heq
      exact absurd (hpre m List.mem_cons_self) (by simp [hbad'])
    | cons m' pre' =>
      obtain ⟨rfl, htail⟩ := List.cons.inj heq
      rw [ih htail (fun m hm => hpre m (List.mem_cons_of_mem _ hm))
        (fun m hm => hpre' m (List.mem_cons_of_mem _ hm))]

/-- **An error of a bulk update leaves no trace exactly when no task has been
moved to another status before the first element that is refused.** -/
theorem putTasks_leavesNoTrace_iff {body : Json} {moves : List StatusMove}
    (hbody : bulkUpdateTaskStatusSchema.read body = .ok moves) (db : TaskDb) :
    LeavesNoTrace moves db (putTasks ctx (some body) db)
      ↔ ¬ MovesBeforeRefusal ctx db moves := by
  have hroute : putTasks ctx (some body) db = bulkUpdate ctx moves db := by
    unfold putTasks withBody validateBody
    simp only [hbody]
  rw [hroute]
  rcases exists_first_refused ctx db moves with hall | ⟨pre, bad, post, rfl, hpre, hbad⟩
  · -- nothing is refused, and there is no error
    refine iff_of_true (fun herror => ?_) ?_
    · rw [bulkUpdate_of_forall ctx hall] at herror
      exact absurd herror (by decide)
    · rintro ⟨pre, bad, post, rfl, -, hbad, -⟩
      exact absurd (hall bad (by simp)) (by simp [hbad])
  · have hnil := Work.events_foldl_move_eq_nil_iff ctx ⟨db, []⟩ pre rfl
    rw [bulkUpdate_of_refused ctx hpre hbad]
    constructor
    · rintro h ⟨pre', bad', post', heq, hpre', hbad', m, hm, hchanges⟩
      obtain rfl := first_refused_unique ctx heq hpre hbad hpre' hbad'
      obtain ⟨-, hquiet⟩ := h (show 400 ≤ 403 by decide)
      refine hnil.mp (List.eq_nil_iff_forall_not_mem.mpr fun e he => ?_) m hm hchanges
      rcases Work.about_of_mem_events_foldl_move ctx ⟨db, []⟩ pre he with
        hmem | ⟨m', hm', habout⟩
      · cases hmem
      · exact hquiet e he m' (List.mem_append_left _ hm') habout
    · intro h _
      refine ⟨rfl, fun e he => ?_⟩
      have hno : ∀ m ∈ pre, ¬ m.Changes db := fun m hm hchanges =>
        h ⟨pre, bad, post, rfl, hpre, hbad, m, hm, hchanges⟩
      rw [hnil.mpr hno] at he
      cases he

/-- A request that moves one task to review and another, without approval, to
done. -/
theorem putTasks_leavesNoTrace_iff_sample :
    LeavesNoTrace [⟨2, .done⟩, ⟨1, .review⟩]
        (sampleTasks [sampleTask, sampleTask])
        (putTasks sampleContext (some (.obj [("tasks", .arr [
          .obj [("id", .num (.finite 2)), ("status", .str "done")],
          .obj [("id", .num (.finite 1)), ("status", .str "review")]])]))
          (sampleTasks [sampleTask, sampleTask]))
      ↔ ¬ MovesBeforeRefusal sampleContext (sampleTasks [sampleTask, sampleTask])
        [⟨2, .done⟩, ⟨1, .review⟩] :=
  putTasks_leavesNoTrace_iff sampleContext (by decide) _

/-- **A task is announced as moved by a request that moved none**: the first
task goes to review, the second may not go to done. -/
theorem not_putTasks_leavesNoTrace :
    ¬ ∀ (ctx : RequestContext) (body : Json) (moves : List StatusMove) (db : TaskDb),
      bulkUpdateTaskStatusSchema.read body = .ok moves →
      LeavesNoTrace moves db (putTasks ctx (some body) db) := by
  intro h
  obtain ⟨-, hquiet⟩ := h sampleContext
    (.obj [("tasks", .arr [
      .obj [("id", .num (.finite 1)), ("status", .str "review")],
      .obj [("id", .num (.finite 2)), ("status", .str "done")]])])
    [⟨1, .review⟩, ⟨2, .done⟩] (sampleTasks [sampleTask, sampleTask])
    (by decide) (by decide)
  refine hquiet (.activityCreated 1 (moveActivity sampleContext ⟨1, .review⟩
    sampleTask)) ?_ ⟨1, .review⟩ List.mem_cons_self ⟨rfl, rfl⟩
  show _ ∈ [BusEvent.activityCreated 1 (moveActivity sampleContext ⟨1, .review⟩
    sampleTask)]
  exact List.mem_singleton_self _

end MissionControl
