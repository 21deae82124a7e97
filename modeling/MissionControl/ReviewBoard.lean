import MissionControl.RateLimit
import MissionControl.Reviews

/-!
# The reviews on the task board

The board asks for reviews twice: for the badges of its tasks, whose answer has
the latest review of each task by whoever it is, and before it lets a task be
dropped on done, whose answer has the ten latest reviews of the task. The server
asks for the latest review by `aegis`. The three agree just where no review by
another reviewer follows an approval by `aegis` that is its last word.
-/

namespace MissionControl

/-! ## `GET /api/quality-review` -/

/-- What the answer for many tasks tells of a review. -/
structure LatestReview where
  status : ReviewStatus
  reviewer : String
  createdAt : ℕ
  deriving DecidableEq

/-- The answer of `GET /api/quality-review`. -/
inductive ReviewsResponse where
  | error (status : ℕ) (message : String)
  /-- For each task that was asked for, a review or `null`. -/
  | latest (byTask : ℤ → Option (Option LatestReview))
  | reviews (rows : List (ℕ × QualityReview))

/-- How the database orders the rows of the two queries. -/
structure ReviewOrders where
  /-- `ORDER BY task_id ASC, created_at DESC`. -/
  byTask : OrderBy fun a b : ℕ × QualityReview =>
    a.2.taskId < b.2.taskId ∨ a.2.taskId = b.2.taskId ∧ b.2.createdAt ≤ a.2.createdAt
  /-- `ORDER BY created_at DESC`. -/
  newest : Descending fun r : ℕ × QualityReview => r.2.createdAt

def LatestReview.ofRow (row : ℕ × QualityReview) : LatestReview :=
  ⟨row.2.status, row.2.reviewer, row.2.createdAt⟩

/-- A row takes the place of the review that is held for its task, if it is
later. -/
def holdLatest (byTask : ℤ → Option (Option LatestReview)) (row : ℕ × QualityReview) :
    ℤ → Option (Option LatestReview) :=
  match (byTask row.2.taskId).join with
  | none => Function.update byTask row.2.taskId (some (some (.ofRow row)))
  | some existing =>
    if existing.createdAt < row.2.createdAt then
      Function.update byTask row.2.taskId (some (some (.ofRow row)))
    else byTask

/-- `byTask`: no review at first, for the tasks that are asked for. -/
def latestByTask (ids : List ℤ) (rows : List (ℕ × QualityReview)) :
    ℤ → Option (Option LatestReview) :=
  rows.foldl holdLatest
    (ids.foldl (fun byTask id => Function.update byTask id (some none)) fun _ => none)

/-- **`GET /api/quality-review`**, with the parameters `taskIds` and `taskId`. -/
def getQualityReviews (orders : ReviewOrders) (taskIdsParam taskIdParam : Option String)
    (db : TaskDb) : ReviewsResponse :=
  if taskIdsParam.getD "" ≠ "" then
    let ids := (splitList (taskIdsParam.getD "")).filterMap parseInt
    if ids = [] then .error 400 "taskIds must include at least one numeric id"
    else .latest (latestByTask ids
      (orders.byTask.sort (db.reviews.rows.filter fun r => (r.2.taskId : ℤ) ∈ ids)))
  else
    match parseInt (taskIdParam.getD "") with
    | none => .error 400 "taskId is required"
    | some taskId => .reviews
      (orders.newest.first 10 (db.reviews.rows.filter fun r => (r.2.taskId : ℤ) = taskId))

/-! ## The board -/

/-- `aegisMap`, made of an answer: the tasks whose latest review is an approval by
`aegis`. -/
def aegisMap (response : ReviewsResponse) (id : ℤ) : Bool :=
  match response with
  | .latest byTask =>
    match (byTask id).join with
    | some row => row.reviewer = "aegis" && row.status = .approved
    | none => false
  | _ => false

/-- **`aegisApproved`**, the badge of a task on a board that shows some tasks. -/
def aegisApproved (orders : ReviewOrders) (db : TaskDb) (taskIds : List ℕ) (id : ℕ) : Bool :=
  if taskIds = [] then false
  else aegisMap
    (getQualityReviews orders (some (",".intercalate (taskIds.map Nat.repr))) none db) id

/-- **What `handleDrop` asks before a task goes to done.** -/
def verifyDone (orders : ReviewOrders) (db : TaskDb) (id : ℕ) : Except String Unit :=
  match getQualityReviews orders none (some id.repr) db with
  | .error _ _ => .error "Unable to verify Aegis approval"
  | .latest _ => .error "Aegis approval is required before moving to done"
  | .reviews rows =>
    match rows.find? (fun r => r.2.reviewer = "aegis") with
    | some latest =>
      if latest.2.status ≠ .approved then
        .error "Aegis approval is required before moving to done"
      else .ok ()
    | none => .error "Aegis approval is required before moving to done"

/-! ## What the answers say -/

/-- The reviews of a task, by whoever they are. -/
def taskReviews (db : TaskDb) (id : ℕ) : List (ℕ × QualityReview) :=
  db.reviews.rows.filter fun r => r.2.taskId = id

/-- The review is one of them, and none of them is later. -/
def Newest (rows : List (ℕ × QualityReview)) (r : ℕ × QualityReview) : Prop :=
  r ∈ rows ∧ ∀ r' ∈ rows, r'.2.createdAt ≤ r.2.createdAt

theorem aegisReviews_eq (db : TaskDb) (id : ℕ) :
    aegisReviews db id = (taskReviews db id).filter fun r => r.2.reviewer = "aegis" := by
  unfold aegisReviews taskReviews
  rw [List.filter_filter]
  exact List.filter_congr fun r _ => Bool.and_comm _ _

theorem mem_aegisReviews {db : TaskDb} {id : ℕ} {r : ℕ × QualityReview} :
    r ∈ aegisReviews db id ↔ r ∈ taskReviews db id ∧ r.2.reviewer = "aegis" := by
  rw [aegisReviews_eq, List.mem_filter, decide_eq_true_eq]

theorem nodup_aegisReviews {db : TaskDb} {id : ℕ}
    (hdistinct : ((taskReviews db id).map (·.2.createdAt)).Nodup) :
    ((aegisReviews db id).map (·.2.createdAt)).Nodup := by
  rw [aegisReviews_eq]
  exact hdistinct.sublist (List.filter_sublist.map _)

theorem Newest.unique {rows : List (ℕ × QualityReview)}
    (hdistinct : (rows.map (·.2.createdAt)).Nodup) {r r' : ℕ × QualityReview}
    (h : Newest rows r) (h' : Newest rows r') : r = r' :=
  List.inj_on_of_nodup_map hdistinct h.1 h'.1 (Nat.le_antisymm (h'.2 r h.1) (h.2 r' h'.1))

section Answers

variable (orders : ReviewOrders) (tie : TieBreak (ℕ × QualityReview)) {db : TaskDb} {id : ℕ}

/-- **The gate is open just if the newest review by `aegis` is an approval.** -/
theorem hasAegisApproval_iff_newest
    (hdistinct : ((aegisReviews db id).map (·.2.createdAt)).Nodup) :
    hasAegisApproval tie db id = true
      ↔ ∃ r, Newest (aegisReviews db id) r ∧ r.2.status = .approved := by
  rw [hasAegisApproval_eq_true_iff]
  constructor
  · rintro ⟨r, hr, happroved⟩
    exact ⟨r, tie.latest_eq_some _ hr, happroved⟩
  · rintro ⟨r, hnewest, happroved⟩
    obtain ⟨r', hr'⟩ := tie.exists_latest (·.2.createdAt) (List.ne_nil_of_mem hnewest.1)
    obtain rfl : r = r' := hnewest.unique hdistinct (tie.latest_eq_some _ hr')
    exact ⟨r, hr', happroved⟩

theorem holdLatest_of_none {byTask : ℤ → Option (Option LatestReview)}
    {row : ℕ × QualityReview} (h : byTask row.2.taskId = some none) :
    holdLatest byTask row row.2.taskId = some (some (.ofRow row)) := by
  unfold holdLatest
  rw [h]
  exact Function.update_self _ _ _

theorem holdLatest_of_some {byTask : ℤ → Option (Option LatestReview)}
    {row : ℕ × QualityReview} {existing : LatestReview}
    (h : byTask row.2.taskId = some (some existing)) :
    holdLatest byTask row row.2.taskId
      = some (some (if existing.createdAt < row.2.createdAt then .ofRow row else existing)) := by
  unfold holdLatest
  rw [h]
  show (if existing.createdAt < row.2.createdAt then _ else byTask) (row.2.taskId : ℤ) = _
  split
  · exact Function.update_self _ _ _
  · exact h

theorem holdLatest_of_ne (byTask : ℤ → Option (Option LatestReview))
    {row : ℕ × QualityReview} (h : row.2.taskId ≠ id) :
    holdLatest byTask row id = byTask id := by
  have hother : (id : ℤ) ≠ (row.2.taskId : ℤ) := fun heq => h (Int.ofNat.inj heq).symm
  unfold holdLatest
  cases (byTask row.2.taskId).join with
  | none => exact Function.update_of_ne hother _ _
  | some existing =>
    show (if existing.createdAt < row.2.createdAt then _ else byTask) (id : ℤ) = _
    split
    · exact Function.update_of_ne hother _ _
    · rfl

theorem latestByTask_nil {ids : List ℤ} {n : ℤ} (hn : n ∈ ids) :
    latestByTask ids [] n = some none := by
  show ids.foldl (fun byTask id => Function.update byTask id (some none)) _ n = _
  induction ids using List.reverseRecOn with
  | nil => exact absurd hn List.not_mem_nil
  | append_singleton ids id ih =>
    rw [List.foldl_append, List.foldl_cons, List.foldl_nil]
    by_cases heq : n = id
    · rw [heq, Function.update_self]
    · rw [Function.update_of_ne heq]
      exact ih ((List.mem_append.mp hn).resolve_right fun h => heq (List.mem_singleton.mp h))

/-- What is held for a task that was asked for: the newest of its rows so far, or
no review. -/
theorem latestByTask_cases {ids : List ℤ} (hid : (id : ℤ) ∈ ids)
    (rows : List (ℕ × QualityReview)) :
    (latestByTask ids rows id = some none ∧ rows.filter (fun r => r.2.taskId = id) = [])
      ∨ ∃ r, Newest (rows.filter fun r => r.2.taskId = id) r
        ∧ latestByTask ids rows id = some (some (.ofRow r)) := by
  induction rows using List.reverseRecOn with
  | nil => exact .inl ⟨latestByTask_nil hid, rfl⟩
  | append_singleton rows row ih =>
    have hstep : latestByTask ids (rows ++ [row]) = holdLatest (latestByTask ids rows) row := by
      unfold latestByTask
      rw [List.foldl_append, List.foldl_cons, List.foldl_nil]
    rw [hstep, List.filter_append, List.filter_singleton]
    by_cases htask : row.2.taskId = id
    · subst htask
      rw [decide_eq_true rfl, cond_true]
      refine .inr ?_
      rcases ih with ⟨hheld, hnone⟩ | ⟨r, ⟨hmem, hmax⟩, hheld⟩
      · rw [hnone]
        refine ⟨row, ⟨List.mem_singleton_self row, fun r' hr' => ?_⟩, holdLatest_of_none hheld⟩
        rw [List.mem_singleton.mp hr']
      · rw [holdLatest_of_some hheld]
        by_cases hlater : r.2.createdAt < row.2.createdAt
        · refine ⟨row, ⟨List.mem_append_right _ (List.mem_singleton_self row), ?_⟩, ?_⟩
          · intro r' hr'
            rcases List.mem_append.mp hr' with hr' | hr'
            · exact (hmax r' hr').trans hlater.le
            · rw [List.mem_singleton.mp hr']
          · exact congrArg (fun x => some (some x)) (if_pos hlater)
        · refine ⟨r, ⟨List.mem_append_left _ hmem, ?_⟩, ?_⟩
          · intro r' hr'
            rcases List.mem_append.mp hr' with hr' | hr'
            · exact hmax r' hr'
            · rw [List.mem_singleton.mp hr']
              exact Nat.not_lt.mp hlater
          · exact congrArg (fun x => some (some x)) (if_neg hlater)
    · rw [decide_eq_false htask, cond_false, List.append_nil, holdLatest_of_ne _ htask]
      exact ih

theorem splitList_intercalate {texts : List String} (h : texts ≠ [])
    (htexts : ∀ t ∈ texts, ',' ∉ t.toList ∧ trim t = t) :
    splitList (",".intercalate texts) = texts := by
  have hsplit : (",".intercalate texts).toList.splitOn ',' = texts.map String.toList := by
    rw [toList_intercalate]
    refine List.splitOn_intercalate ',' (fun cs hcs => ?_) fun hnil =>
      h (List.map_eq_nil_iff.mp hnil)
    obtain ⟨t, ht, rfl⟩ := List.mem_map.mp hcs
    exact (htexts t ht).1
  unfold splitList
  rw [hsplit, List.map_map]
  refine (List.map_congr_left fun t ht => ?_).trans (List.map_id texts)
  rw [Function.comp_apply, String.ofList_toList]
  exact (htexts t ht).2

/-- **The ids in the address of the request are the ids that are asked for.** -/
theorem parse_taskIds {ids : List ℕ} (h : ids ≠ []) :
    (splitList (",".intercalate (ids.map Nat.repr))).filterMap parseInt
      = ids.map fun id : ℕ => (id : ℤ) := by
  rw [splitList_intercalate fun hnil => h (List.map_eq_nil_iff.mp hnil)]
  · clear h
    induction ids with
    | nil => rfl
    | cons id ids ih =>
      rw [List.map_cons, List.filterMap_cons_some (parseInt_repr id), ih, List.map_cons]
  · intro t ht
    obtain ⟨id, -, rfl⟩ := List.mem_map.mp ht
    exact ⟨notMem_repr rfl, trim_repr id⟩

/-- **The badge is shown just if the newest review of the task by anyone is an
approval by `aegis`.** -/
theorem aegisApproved_iff_newest {taskIds : List ℕ} (hid : id ∈ taskIds)
    (hdistinct : ((taskReviews db id).map (·.2.createdAt)).Nodup) :
    aegisApproved orders db taskIds id = true
      ↔ ∃ r, Newest (taskReviews db id) r ∧ r.2.reviewer = "aegis"
        ∧ r.2.status = .approved := by
  have hne : taskIds ≠ [] := List.ne_nil_of_mem hid
  have hparse := parse_taskIds hne
  have htext : ",".intercalate (taskIds.map Nat.repr) ≠ "" := by
    intro hempty
    rw [hempty] at hparse
    have hnone : (splitList "").filterMap parseInt = [] := by decide
    exact hne (List.map_eq_nil_iff.mp (hparse.symm.trans hnone))
  have hmem : (id : ℤ) ∈ taskIds.map fun id : ℕ => (id : ℤ) := List.mem_map_of_mem hid
  unfold aegisApproved getQualityReviews
  rw [if_neg hne, Option.getD_some, if_pos htext, hparse]
  dsimp only
  rw [if_neg fun hnil => hne (List.map_eq_nil_iff.mp hnil)]
  dsimp only [aegisMap]
  -- the rows of the task among those that the query finds
  generalize hrows : orders.byTask.sort _ = rows
  have hperm : (rows.filter fun r => r.2.taskId = id).Perm (taskReviews db id) := by
    rw [← hrows]
    refine ((orders.byTask.perm _).filter _).trans (List.Perm.of_eq ?_)
    unfold taskReviews
    rw [List.filter_filter]
    refine List.filter_congr fun r _ => ?_
    by_cases htask : r.2.taskId = id
    · simp only [htask, hmem, decide_true, Bool.and_self]
    · simp only [htask, decide_false, Bool.false_and]
  have hnewest : ∀ r, Newest (rows.filter fun r => r.2.taskId = id) r
      ↔ Newest (taskReviews db id) r := by
    intro r
    unfold Newest
    rw [hperm.mem_iff]
    exact and_congr_right fun _ => forall_congr' fun r' => by rw [hperm.mem_iff]
  rcases latestByTask_cases hmem rows with ⟨hheld, hnone⟩ | ⟨r, hr, hheld⟩
  · rw [hheld]
    refine iff_of_false Bool.false_ne_true ?_
    rintro ⟨r, hr, -, -⟩
    have hin := ((hnewest r).mpr hr).1
    rw [hnone] at hin
    exact absurd hin List.not_mem_nil
  · rw [hheld]
    show (r.2.reviewer = "aegis" && r.2.status = .approved) = true ↔ _
    rw [Bool.and_eq_true, decide_eq_true_eq, decide_eq_true_eq]
    constructor
    · rintro ⟨hreviewer, hstatus⟩
      exact ⟨r, (hnewest r).mp hr, hreviewer, hstatus⟩
    · rintro ⟨r', hr', hreviewer, hstatus⟩
      obtain rfl := ((hnewest r).mp hr).unique hdistinct hr'
      exact ⟨hreviewer, hstatus⟩

/-- The reviews that are later than another one. -/
def laterThan (r : ℕ × QualityReview) (rows : List (ℕ × QualityReview)) : ℕ :=
  rows.countP fun r' => r.2.createdAt < r'.2.createdAt

/-- **A task may be dropped on done just if the newest review of it by `aegis` is
an approval that fewer than ten reviews follow.** -/
theorem verifyDone_iff_newest
    (hdistinct : ((taskReviews db id).map (·.2.createdAt)).Nodup) :
    verifyDone orders db id = .ok ()
      ↔ ∃ r, Newest (aegisReviews db id) r ∧ r.2.status = .approved
        ∧ laterThan r (taskReviews db id) < 10 := by
  have hrows : (db.reviews.rows.filter fun r => (r.2.taskId : ℤ) = (id : ℤ))
      = taskReviews db id := by
    unfold taskReviews
    refine List.filter_congr fun r _ => ?_
    simp only [Int.natCast_inj]
  have hanswer : getQualityReviews orders none (some id.repr) db
      = .reviews (orders.newest.first 10 (taskReviews db id)) := by
    unfold getQualityReviews
    rw [if_neg (by decide), Option.getD_some, parseInt_repr]
    dsimp only
    rw [hrows]
  -- the review that is found is the newest one by `aegis`
  have hfound : ∀ r, (orders.newest.first 10 (taskReviews db id)).find?
      (fun r => r.2.reviewer = "aegis") = some r → Newest (aegisReviews db id) r
        ∧ laterThan r (taskReviews db id) < 10 := by
    intro r hr
    have hmem := orders.newest.mem_of_mem_first (List.mem_of_find?_eq_some hr)
    have haegis : r.2.reviewer = "aegis" := by
      simpa using List.find?_some hr
    refine ⟨⟨mem_aegisReviews.mpr ⟨hmem, haegis⟩, fun r' hr' => ?_⟩, ?_⟩
    · obtain ⟨hin, haegis'⟩ := mem_aegisReviews.mp hr'
      refine orders.newest.le_of_find?_sort (p := fun r => r.2.reviewer = "aegis") ?_ hin
        (decide_eq_true haegis')
      rw [← List.take_append_drop 10 (orders.newest.sort _), List.find?_append]
      unfold Descending.first at hr
      rw [hr]
      rfl
    · exact (orders.newest.mem_first_iff hmem hdistinct).mp (List.mem_of_find?_eq_some hr)
  unfold verifyDone
  rw [hanswer]
  dsimp only
  constructor
  · intro h
    split at h
    · next r hr =>
      split at h
      · cases h
      · next hstatus =>
        obtain ⟨hnewest, hlater⟩ := hfound r hr
        exact ⟨r, hnewest, not_not.mp hstatus, hlater⟩
    · cases h
  · rintro ⟨r, hnewest, hstatus, hlater⟩
    obtain ⟨hmem, haegis⟩ := mem_aegisReviews.mp hnewest.1
    have hfirst := (orders.newest.mem_first_iff hmem hdistinct).mpr hlater
    obtain ⟨r', hr'⟩ := Option.isSome_iff_exists.mp (List.find?_isSome
      (p := fun r : ℕ × QualityReview => r.2.reviewer = "aegis").mpr
      ⟨r, hfirst, decide_eq_true haegis⟩)
    obtain rfl := hnewest.unique (nodup_aegisReviews hdistinct) (hfound r' hr').1
    rw [hr']
    dsimp only
    rw [if_neg (not_not.mpr hstatus)]

/-! ## Agreement -/

/-- **The last word of `aegis` is the last one**: if the newest review of the task
by `aegis` is an approval, no other review follows it. -/
def AegisHasLastWord (db : TaskDb) (id : ℕ) : Prop :=
  ∀ r, Newest (aegisReviews db id) r → r.2.status = .approved → Newest (taskReviews db id) r

/-- **The last word of `aegis` is among the last ten**: if the newest review of the
task by `aegis` is an approval, fewer than ten reviews follow it. -/
def AegisInLastTen (db : TaskDb) (id : ℕ) : Prop :=
  ∀ r, Newest (aegisReviews db id) r → r.2.status = .approved →
    laterThan r (taskReviews db id) < 10

theorem AegisHasLastWord.inLastTen (h : AegisHasLastWord db id) : AegisInLastTen db id := by
  intro r hr happroved
  have hnone : laterThan r (taskReviews db id) = 0 := by
    refine List.countP_eq_zero.mpr fun r' hr' => ?_
    simpa using (h r hr happroved).2 r' hr'
  rw [hnone]
  decide

/-- The newest review of the task is the newest by `aegis`, if it is by `aegis`. -/
theorem Newest.aegis {r : ℕ × QualityReview} (h : Newest (taskReviews db id) r)
    (haegis : r.2.reviewer = "aegis") : Newest (aegisReviews db id) r :=
  ⟨mem_aegisReviews.mpr ⟨h.1, haegis⟩, fun r' hr' => h.2 r' (mem_aegisReviews.mp hr').1⟩

/-- **The badge says what the server says just where `aegis` has the last word.** -/
theorem aegisApproved_agrees_iff {taskIds : List ℕ} (hid : id ∈ taskIds)
    (hdistinct : ((taskReviews db id).map (·.2.createdAt)).Nodup) :
    aegisApproved orders db taskIds id = hasAegisApproval tie db id
      ↔ AegisHasLastWord db id := by
  have haegis := nodup_aegisReviews hdistinct
  rw [Bool.eq_iff_iff, aegisApproved_iff_newest orders hid hdistinct,
    hasAegisApproval_iff_newest tie haegis]
  constructor
  · intro h r hr happroved
    obtain ⟨r', hr', hreviewer, -⟩ := h.mpr ⟨r, hr, happroved⟩
    rwa [hr.unique haegis (hr'.aegis hreviewer)]
  · intro h
    constructor
    · rintro ⟨r, hr, hreviewer, happroved⟩
      exact ⟨r, hr.aegis hreviewer, happroved⟩
    · rintro ⟨r, hr, happroved⟩
      exact ⟨r, h r hr happroved, (mem_aegisReviews.mp hr.1).2, happroved⟩

/-- **The drop says what the server says just where the last word of `aegis` is
among the last ten.** -/
theorem verifyDone_agrees_iff (hdistinct : ((taskReviews db id).map (·.2.createdAt)).Nodup) :
    (verifyDone orders db id = .ok () ↔ hasAegisApproval tie db id = true)
      ↔ AegisInLastTen db id := by
  have haegis := nodup_aegisReviews hdistinct
  rw [verifyDone_iff_newest orders hdistinct, hasAegisApproval_iff_newest tie haegis]
  constructor
  · intro h r hr happroved
    obtain ⟨r', hr', -, hlater⟩ := h.mpr ⟨r, hr, happroved⟩
    rwa [hr.unique haegis hr']
  · intro h
    constructor
    · rintro ⟨r, hr, happroved, -⟩
      exact ⟨r, hr, happroved⟩
    · rintro ⟨r, hr, happroved⟩
      exact ⟨r, hr, happroved, h r hr happroved⟩

/-- **The board agrees with the server**: the badge and the drop say what the gate
says. -/
def BoardAgrees (orders : ReviewOrders) (tie : TieBreak (ℕ × QualityReview)) (db : TaskDb)
    (taskIds : List ℕ) (id : ℕ) : Prop :=
  aegisApproved orders db taskIds id = hasAegisApproval tie db id
    ∧ (verifyDone orders db id = .ok () ↔ hasAegisApproval tie db id = true)

/-- **The board agrees with the server on a task just where `aegis` has the last
word on it.** -/
theorem boardAgrees_iff {taskIds : List ℕ} (hid : id ∈ taskIds)
    (hdistinct : ((taskReviews db id).map (·.2.createdAt)).Nodup) :
    BoardAgrees orders tie db taskIds id ↔ AegisHasLastWord db id := by
  unfold BoardAgrees
  rw [aegisApproved_agrees_iff orders tie hid hdistinct,
    verifyDone_agrees_iff orders tie hdistinct]
  exact and_iff_left_of_imp AegisHasLastWord.inLastTen

end Answers

/-! ## A board -/

/-- SQLite for concrete runs: rows that may stand either way stand as they were
inserted. -/
def sampleOrders : ReviewOrders where
  byTask :=
    have : Std.Total fun a b : ℕ × QualityReview =>
        a.2.taskId < b.2.taskId ∨ a.2.taskId = b.2.taskId ∧ b.2.createdAt ≤ a.2.createdAt :=
      ⟨fun a b => by omega⟩
    have : IsTrans (ℕ × QualityReview) fun a b =>
        a.2.taskId < b.2.taskId ∨ a.2.taskId = b.2.taskId ∧ b.2.createdAt ≤ a.2.createdAt :=
      ⟨fun a b c => by omega⟩
    .insertion _
  newest := .insertion _

/-- A review that is posted some seconds after the task is created. -/
def sampleReview (seconds : ℕ) (reviewer status : String) : RequestContext × TaskRequest :=
  ({ sampleContext with now := sampleContext.now + seconds },
    .review (some (.obj [("taskId", .num (.finite 1)), ("reviewer", .str reviewer),
      ("status", .str status), ("notes", .str "ok")])))

/-- A task is created, then reviewed. -/
def sampleReviewed (reviews : List (RequestContext × TaskRequest)) : TaskDb :=
  (taskMachine sampleRuntime).state .empty
    ((sampleContext, .create (some (.obj [("title", .str "Fix login")]))) :: reviews)

/-- Where `aegis` approves last, the board agrees with the server. -/
theorem boardAgrees_iff_sample :
    BoardAgrees sampleOrders .first
        (sampleReviewed [sampleReview 1 "bob" "rejected", sampleReview 2 "aegis" "approved"])
        [1] 1
      ↔ AegisHasLastWord
        (sampleReviewed [sampleReview 1 "bob" "rejected", sampleReview 2 "aegis" "approved"])
        1 :=
  boardAgrees_iff sampleOrders .first (List.mem_singleton_self 1) (by decide +kernel)

/-- **After an approval by `aegis`, bob reviews the task**: the badge is gone, and
the server lets the task go to done. -/
theorem not_boardAgrees_sample :
    ¬ ∀ (orders : ReviewOrders) (tie : TieBreak (ℕ × QualityReview)) (db : TaskDb)
      (taskIds : List ℕ) (id : ℕ), id ∈ taskIds →
      ((taskReviews db id).map (·.2.createdAt)).Nodup →
      BoardAgrees orders tie db taskIds id := by
  intro h
  have hbadge := (h sampleOrders .first
    (sampleReviewed [sampleReview 1 "aegis" "approved", sampleReview 2 "bob" "approved"]) [1] 1
    (List.mem_singleton_self 1) (by decide +kernel)).1
  revert hbadge
  decide +kernel

end MissionControl
