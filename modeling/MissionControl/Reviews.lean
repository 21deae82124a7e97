import MissionControl.QualityGate

/-!
# The review the gate reads

The gate reads the review of the greatest time; the times are whole seconds.
Where two reviews of a task by `aegis` are of one second, the order of their
submission is not stored in what the query orders by.

What the requests do to the reviews is said once, by `reviews_next`: they store
one review, delete those of one task, or leave them alone. From it follows when
the gate reads the review that was submitted last, in every run.
-/

namespace MissionControl

/-! ## What the gate reads -/

/-- The gate is open just where the review that it reads is an approval. -/
theorem hasAegisApproval_eq_true_iff (tie : TieBreak (ℕ × QualityReview)) (db : TaskDb)
    (id : ℕ) :
    hasAegisApproval tie db id = true
      ↔ ∃ r, tie.latest (·.2.createdAt) (aegisReviews db id) = some r
        ∧ r.2.status = .approved := by
  constructor
  · intro h
    unfold hasAegisApproval at h
    dsimp only at h
    split at h
    · next r hr => exact ⟨r, hr, of_decide_eq_true h⟩
    · cases h
  · rintro ⟨r, hr, happroved⟩
    exact hasAegisApproval_of_latest hr happroved

/-- **The gate reads the review that was submitted last**, whatever the
database does with reviews of one time. -/
def ReadsLast (id : ℕ) (db : TaskDb) : Prop :=
  ∀ tie, hasAegisApproval tie db id = true ↔ Approved id db

/-- **The gate reads the last review just where the reviews of the greatest time
agree with it.** -/
theorem readsLast_iff {id : ℕ} {db : TaskDb} :
    ReadsLast id db
      ↔ ∀ r ∈ aegisReviews db id,
        (∀ r' ∈ aegisReviews db id, r'.2.createdAt ≤ r.2.createdAt) →
          (r.2.status = .approved ↔ Approved id db) := by
  constructor
  · intro h r hr hmax
    have hlatest := TieBreak.latest_preferring (·.2.createdAt) hr hmax
    rw [← h (.preferring r), hasAegisApproval_eq_true_iff]
    constructor
    · intro happroved
      exact ⟨r, hlatest, happroved⟩
    · rintro ⟨r', hr', happroved⟩
      obtain rfl : r = r' := Option.some.inj (hlatest.symm.trans hr')
      exact happroved
  · intro h tie
    rw [hasAegisApproval_eq_true_iff]
    constructor
    · rintro ⟨r, hr, happroved⟩
      obtain ⟨hmem, hmax⟩ := tie.latest_eq_some _ hr
      exact (h r hmem hmax).mp happroved
    · intro happroved
      have hne : aegisReviews db id ≠ [] := by
        obtain ⟨last, hlast, -⟩ := happroved
        exact List.ne_nil_of_mem (List.mem_of_getLast? hlast)
      obtain ⟨r, hr⟩ := tie.exists_latest (·.2.createdAt) hne
      obtain ⟨hmem, hmax⟩ := tie.latest_eq_some _ hr
      exact ⟨r, hr, (h r hmem hmax).mpr happroved⟩

theorem readsLast_congr {id : ℕ} {db db' : TaskDb}
    (h : aegisReviews db' id = aegisReviews db id) :
    ReadsLast id db' ↔ ReadsLast id db := by
  rw [readsLast_iff, readsLast_iff]
  unfold Approved lastAegisReview
  rw [h]

/-- Where there is no review of the task by `aegis`, the gate is closed. -/
theorem readsLast_of_eq_nil {id : ℕ} {db : TaskDb} (h : aegisReviews db id = []) :
    ReadsLast id db := by
  rw [readsLast_iff, h]
  exact fun r hr => absurd hr List.not_mem_nil

/-! ## What the requests do to the reviews -/

def submittedReview (db : TaskDb) (a : RequestContext × TaskRequest) : Option QualityReview :=
  match a.2 with
  | .review body =>
    match validateBody qualityReviewSchema body with
    | .ok fields => (fields.taskId.integer.bind db.findTask).map fun t =>
      ⟨t.1, fields.reviewer, fields.status, fields.notes, a.1.now⟩
    | .error _ => none
  | _ => none

section Requests

variable (rt : Runtime) (ctx : RequestContext) (db : TaskDb)

theorem reviews_postReview (body : Option Json) :
    (postReview ctx body db).1.db.reviews
      = match submittedReview db (ctx, .review body) with
        | some review => db.reviews.insert review
        | none => db.reviews := by
  unfold postReview withBody submittedReview
  dsimp only
  cases validateBody qualityReviewSchema body with
  | error response => rfl
  | ok fields =>
    dsimp only
    unfold createReview
    cases fields.taskId.integer.bind db.findTask with
    | none => rfl
    | some t => rfl

theorem reviews_postTasks (body : Option Json) :
    (postTasks rt ctx body db).1.db.reviews = db.reviews :=
  postTasks_keeps (P := (·.reviews = db.reviews)) rfl
    (fun title data => reviews_createTaskWork rt ctx title data db) body

theorem reviews_putTasks (body : Option Json) :
    (putTasks ctx body db).1.db.reviews = db.reviews :=
  putTasks_keeps (P := (·.reviews = db.reviews)) rfl
    (fun w m hw => (Work.reviews_move ctx w m).trans hw) body

theorem reviews_putTask (idText : String) (body : Option Json) :
    (putTask rt ctx idText body db).1.db.reviews = db.reviews :=
  putTask_keeps (P := (·.reviews = db.reviews)) rfl
    (fun id task data => reviews_announceUpdate ctx id task data _) idText body

theorem reviews_deleteTask (idText : String) :
    (deleteTask ctx idText db).1.db.reviews = db.reviews
      ∨ ∃ id, (deleteTask ctx idText db).1.db.reviews
        = db.reviews.deleteWhere fun _ r => r.taskId = id :=
  deleteTask_keeps (P := fun db' => db'.reviews = db.reviews
      ∨ ∃ id, db'.reviews = db.reviews.deleteWhere fun _ r => r.taskId = id)
    (.inl rfl) (fun id _ => .inr ⟨id, rfl⟩) idText

theorem reviews_handleSync (repo : String) (assignAgent : Option String)
    (issues : List GitHubIssue) :
    (handleSync rt ctx repo assignAgent issues db).1.db.reviews = db.reviews :=
  handleSync_keeps (P := (·.reviews = db.reviews)) rfl
    (fun p issue hp => (p.issue_cases rt ctx repo assignAgent issue).1.trans hp)
    (fun _ _ h => h) issues

/-- **What a request does to the reviews**: it stores the one that it submits,
or deletes those of a task, or leaves them alone. -/
theorem reviews_next (a : RequestContext × TaskRequest) :
    (∃ review, submittedReview db a = some review
        ∧ ((taskMachine rt).next db a).reviews = db.reviews.insert review)
      ∨ submittedReview db a = none
        ∧ (((taskMachine rt).next db a).reviews = db.reviews
          ∨ ∃ id, ((taskMachine rt).next db a).reviews
            = db.reviews.deleteWhere fun _ r => r.taskId = id) := by
  obtain ⟨ctx, request⟩ := a
  cases request with
  | create body => exact .inr ⟨rfl, .inl (reviews_postTasks rt ctx db body)⟩
  | bulk body => exact .inr ⟨rfl, .inl (reviews_putTasks ctx db body)⟩
  | update idText body => exact .inr ⟨rfl, .inl (reviews_putTask rt ctx db idText body)⟩
  | delete idText => exact .inr ⟨rfl, reviews_deleteTask ctx db idText⟩
  | review body =>
    have h := reviews_postReview ctx db body
    cases hsubmitted : submittedReview db (ctx, .review body) with
    | none =>
      rw [hsubmitted] at h
      exact .inr ⟨rfl, .inl h⟩
    | some review =>
      rw [hsubmitted] at h
      exact .inl ⟨review, rfl, h⟩
  | sync repo assignAgent issues =>
    exact .inr ⟨rfl, .inl (reviews_handleSync rt ctx db repo assignAgent issues)⟩

end Requests

/-! ## Runs -/

theorem aegisReviews_insert {db db' : TaskDb} {review : QualityReview} (id : ℕ)
    (h : db'.reviews = db.reviews.insert review) :
    aegisReviews db' id = aegisReviews db id
      ++ if review.taskId = id ∧ review.reviewer = "aegis" then [(db.reviews.next, review)]
        else [] := by
  unfold aegisReviews
  rw [h, Table.rows_insert, List.filter_append]
  congr 1
  rw [List.filter_singleton, cond_eq_ite]
  simp only [Bool.and_eq_true, decide_eq_true_eq]

theorem aegisReviews_delete {db db' : TaskDb} {id' : ℕ} (id : ℕ)
    (h : db'.reviews = db.reviews.deleteWhere fun _ r => r.taskId = id') :
    aegisReviews db' id = if id = id' then [] else aegisReviews db id := by
  unfold aegisReviews
  rw [h, Table.rows_deleteWhere, List.filter_filter]
  split
  · next heq =>
    subst heq
    refine List.filter_eq_nil_iff.mpr fun r _ => ?_
    simp only [Bool.and_eq_true, decide_eq_true_eq, Bool.not_eq_true', decide_eq_false_iff_not]
    exact fun hr => hr.2 hr.1.1
  · next hne =>
    refine List.filter_congr fun r _ => ?_
    by_cases hid : r.2.taskId = id
    · simp [hid, hne]
    · simp [hid]

/-- **The request submits its review in turn**: a review of the task by `aegis`
comes later than all of them that are stored, or says what the last of them
says. -/
def InTurn (id : ℕ) (db : TaskDb) (a : RequestContext × TaskRequest) : Prop :=
  ∀ review, submittedReview db a = some review → review.taskId = id →
    review.reviewer = "aegis" →
    (∀ r ∈ aegisReviews db id, r.2.createdAt < review.createdAt)
      ∨ ∀ last, lastAegisReview db id = some last → last.2.status = review.status

/-- The task is approved just if the review that is stored last approves it. -/
theorem approved_iff_of_concat {id : ℕ} {db : TaskDb} {rs : List (ℕ × QualityReview)}
    {r : ℕ × QualityReview} (h : aegisReviews db id = rs ++ [r]) :
    Approved id db ↔ r.2.status = .approved := by
  unfold Approved lastAegisReview
  rw [h, List.getLast?_append, List.getLast?_singleton, Option.some_or]
  constructor
  · rintro ⟨r', hr', happroved⟩
    obtain rfl := Option.some.inj hr'
    exact happroved
  · exact fun happroved => ⟨r, rfl, happroved⟩

/-- A review says the same as another one just if both or none approve. -/
theorem ReviewStatus.approved_iff_iff {s t : ReviewStatus} :
    (s = .approved ↔ t = .approved) ↔ s = t := by
  cases s <;> cases t <;> decide

/-- **A review that is stored last**: the gate still reads the last review just
if the new one comes later than the others or says what the last one says. -/
theorem readsLast_concat {id : ℕ} {db db' : TaskDb} {r : ℕ × QualityReview}
    (hreads : ReadsLast id db) (h : aegisReviews db' id = aegisReviews db id ++ [r]) :
    ReadsLast id db'
      ↔ (∀ r' ∈ aegisReviews db id, r'.2.createdAt < r.2.createdAt)
        ∨ ∀ last, lastAegisReview db id = some last → last.2.status = r.2.status := by
  rw [readsLast_iff] at hreads ⊢
  rw [approved_iff_of_concat h, h]
  have hlastApproved : ∀ last, lastAegisReview db id = some last →
      (Approved id db ↔ last.2.status = .approved) := by
    intro last hlast
    obtain ⟨rs, hrs⟩ := List.getLast?_eq_some_iff.mp hlast
    exact approved_iff_of_concat hrs
  constructor
  · intro hreads'
    by_contra hno
    obtain ⟨hlate, hother⟩ := not_or.mp hno
    obtain ⟨last, hother⟩ := not_forall.mp hother
    obtain ⟨hlast, hstatus⟩ := Classical.not_imp.mp hother
    -- some stored review of the greatest time is not before the new one
    obtain ⟨x, hx, hmax⟩ := TieBreak.exists_greatest (·.2.createdAt)
      (List.ne_nil_of_mem (List.mem_of_getLast? hlast))
    have hnew : r.2.createdAt ≤ x.2.createdAt := by
      by_contra hlt
      exact hlate fun r' hr' => Nat.lt_of_le_of_lt (hmax r' hr') (Nat.not_le.mp hlt)
    have hsame := hreads' x (List.mem_append_left _ hx) fun r' hr' => by
      rcases List.mem_append.mp hr' with hr' | hr'
      · exact hmax r' hr'
      · obtain rfl := List.mem_singleton.mp hr'
        exact hnew
    refine hstatus (ReviewStatus.approved_iff_iff.mp ?_)
    rw [← hlastApproved last hlast, ← hreads x hx hmax, hsame]
  · rintro (hlate | hsame) x hx hmax
    · rcases List.mem_append.mp hx with hx | hx
      · have hle := hmax r (List.mem_append_right _ (List.mem_singleton_self r))
        exact absurd (hlate x hx) (Nat.not_lt.mpr hle)
      · obtain rfl := List.mem_singleton.mp hx
        exact Iff.rfl
    · rcases List.mem_append.mp hx with hx | hx
      · have hlast : lastAegisReview db id
            = some ((aegisReviews db id).getLast (List.ne_nil_of_mem hx)) :=
          List.getLast?_eq_getLast_of_ne_nil _
        rw [hreads x hx fun r' hr' => hmax r' (List.mem_append_left _ hr'),
          hlastApproved _ hlast, hsame _ hlast]
      · obtain rfl := List.mem_singleton.mp hx
        exact Iff.rfl

/-- **A request keeps the gate at the last review just if it submits its review
in turn.** -/
theorem readsLast_next_iff (rt : Runtime) {id : ℕ} {db : TaskDb}
    {a : RequestContext × TaskRequest} (hreads : ReadsLast id db) :
    ReadsLast id ((taskMachine rt).next db a) ↔ InTurn id db a := by
  rcases reviews_next rt db a with ⟨review, hsubmitted, hreviews⟩ | ⟨hsubmitted, hkept⟩
  · have hrows := aegisReviews_insert id hreviews
    unfold InTurn
    rw [hsubmitted]
    by_cases haegis : review.taskId = id ∧ review.reviewer = "aegis"
    · rw [if_pos haegis] at hrows
      rw [readsLast_concat hreads hrows]
      constructor
      · rintro h review' hreview' - -
        obtain rfl := Option.some.inj hreview'
        exact h
      · exact fun h => h review rfl haegis.1 haegis.2
    · rw [if_neg haegis, List.append_nil] at hrows
      refine iff_of_true ((readsLast_congr hrows).mpr hreads) ?_
      intro review' hreview' htask hreviewer
      obtain rfl := Option.some.inj hreview'
      exact absurd ⟨htask, hreviewer⟩ haegis
  · refine iff_of_true ?_ fun review hreview => ?_
    · rcases hkept with hsame | ⟨id', hdeleted⟩
      · refine (readsLast_congr ?_).mpr hreads
        unfold aegisReviews
        rw [hsame]
      · have hrows := aegisReviews_delete id hdeleted
        split at hrows
        · exact readsLast_of_eq_nil hrows
        · exact (readsLast_congr hrows).mpr hreads
    · exact absurd (hsubmitted.symm.trans hreview) (Option.some_ne_none _).symm

/-- **All along a run the gate of a task reads the review that was submitted
last, exactly when each review of it by `aegis` is submitted in turn.** -/
theorem gate_readsLast_iff (rt : Runtime) (requests : List (RequestContext × TaskRequest))
    (id : ℕ) :
    (taskMachine rt).Always (ReadsLast id) .empty requests
      ↔ (taskMachine rt).EachStep (InTurn id) .empty requests :=
  (taskMachine rt).always_iff_eachStep (J := fun _ => True) trivial (fun _ _ _ => trivial)
    (readsLast_of_eq_nil rfl) (fun _ _ _ hreads => readsLast_next_iff rt hreads) requests

/-- A task is created, approved and, within the second, rejected. -/
def sampleReviews : List (RequestContext × TaskRequest) :=
  [(sampleContext, .create (some (.obj [("title", .str "Fix login")]))),
    (sampleContext, .review (some (.obj [("taskId", .num (.finite 1)),
      ("status", .str "approved"), ("notes", .str "ok")]))),
    (sampleContext, .review (some (.obj [("taskId", .num (.finite 1)),
      ("status", .str "rejected"), ("notes", .str "breaks the logout")])))]

/-- **The gate is open after the rejection.** -/
theorem not_gate_readsLast_sampleReviews :
    ¬ ∀ (rt : Runtime) (requests : List (RequestContext × TaskRequest)) (id : ℕ),
      ReadsLast id ((taskMachine rt).state .empty requests) := by
  intro h
  have hopen : hasAegisApproval .first
      ((taskMachine sampleRuntime).state .empty sampleReviews) 1 = true := by
    decide +kernel
  obtain ⟨last, hlast, happroved⟩ := (h sampleRuntime sampleReviews 1 .first).mp hopen
  have hrejected : (lastAegisReview ((taskMachine sampleRuntime).state .empty sampleReviews)
      1).map (·.2.status) = some .rejected := by decide +kernel
  rw [hlast, Option.map_some, happroved] at hrejected
  cases hrejected

end MissionControl
