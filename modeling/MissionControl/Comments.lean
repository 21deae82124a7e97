import MissionControl.JsonRoundTrip
import MissionControl.Library.Forest
import MissionControl.Mentions
import MissionControl.QualityGate

/-!
# Comments

The requests that read and write the comments of a task. A comment answers to
another one of the same task, its parent. A comment subscribes its author, whom it
mentions and the assignee to the task, and notifies the subscribers but for the
author. Nothing deletes a comment but the deletion of its task.

`postComment_cases` says what a request to comment can come to: it is refused and changes
nothing, or its comment is added to a task that is there, below a comment of that task if
below one. What later modules say of threads and of notifications rests on these cases.
-/

namespace MissionControl

/-! ## Rows -/

/-- **A row of `comments`.** -/
structure Comment where
  taskId : ℕ
  author : String
  content : String
  createdAt : ℕ
  parentId : Option ℕ
  mentions : Option String
  deriving DecidableEq

/-- **The tables the comment requests work on.** -/
structure CommentDb where
  db : TaskDb
  comments : Table Comment

def CommentDb.empty : CommentDb := ⟨.empty, .empty⟩

def CommentDb.ofTask (s : CommentDb) (id : ℕ) : List (ℕ × Comment) :=
  s.comments.rows.filter fun r => r.2.taskId = id

/-- How the database orders the rows of the two queries. -/
structure CommentOrders where
  /-- `ORDER BY created_at ASC`. -/
  comments : OrderBy fun a b : ℕ × Comment => a.2.createdAt ≤ b.2.createdAt
  /-- The query for subscriptions has no `ORDER BY`. -/
  subscriptions : OrderBy fun _ _ : ℕ × TaskSubscription => True

/-! ## `POST /api/tasks/[id]/comments` -/

/-- A parsed body of `POST /api/tasks/[id]/comments`. -/
structure CommentFields where
  taskId : Option JsNumber
  content : String
  author : Option String
  parentId : Option JsNumber

def createCommentSchema : Reader CommentFields :=
  .object fun fields =>
    (((Checked.ap (.ok CommentFields.mk) (Reader.number.fieldOptional "task_id" fields)).ap
      ((Reader.string.minLength 1 (some "Comment content is required")).field
        "content" fields)).ap
      (Reader.string.fieldOptional "author" fields)).ap
      (Reader.number.fieldOptional "parent_id" fields)

/-- The beginning of a comment, as previews have it. -/
def contentPreview (content : String) : String :=
  String.ofList (sliceUnits 100 content.toList)

/-- `db_helpers.createNotification`. -/
def Work.createNotificationOf (w : Work) (ctx : RequestContext)
    (recipient type title message sourceType : String) (sourceId : ℕ) : Work :=
  let notification : Notification :=
    ⟨recipient, type, title, message, some sourceType, some sourceId, none, none, ctx.now⟩
  Work.broadcast
    { w with db :=
      { w.db with notifications := w.db.notifications.insert notification } }
    (.notificationCreated w.db.notifications.next notification)

/-- `db_helpers.getTaskSubscribers`. -/
def getTaskSubscribers (orders : CommentOrders) (db : TaskDb) (id : ℕ) : List String :=
  (orders.subscriptions.sort (db.subscriptions.rows.filter fun s => s.2.taskId = id)).map
    (·.2.agentName)

structure NotificationText where
  type : String
  title : String
  message : String

/-- What a subscriber is told of a comment. -/
def commentNotification (author title content : String) (isMention : Bool) : NotificationText :=
  let ending := contentPreview content ++ if 100 < utf16Length content then "..." else ""
  if isMention then
    ⟨"mention", "You were mentioned",
      author ++ " mentioned you in a comment on \"" ++ title ++ "\": " ++ ending⟩
  else
    ⟨"comment", "New comment on a subscribed task",
      author ++ " commented on \"" ++ title ++ "\": " ++ ending⟩

/-- The subscriptions of a comment: its author, whom it mentions, and the assignee. -/
def subscribeAll (id : ℕ) (author : String) (uniqueMentions : List String)
    (assignedTo : String) (w : Work) : Work :=
  let w := w.ensureTaskSubscription id author
  let w := uniqueMentions.foldl (·.ensureTaskSubscription id ·) w
  w.doIf (assignedTo ≠ "") (·.ensureTaskSubscription id assignedTo)

def notifyAll (ctx : RequestContext) (author title content : String)
    (mentioned : List String) (commentId : ℕ) (subscribers : List String) (w : Work) : Work :=
  subscribers.foldl (fun w subscriber =>
    let told := commentNotification author title content (subscriber ∈ mentioned)
    w.createNotificationOf ctx subscriber told.type told.title told.message "comment"
      commentId) w

/-- What the activity log is told about a comment. -/
def commentActivity (ctx : RequestContext) (id : ℕ) (task : TaskRow) (author : String)
    (fields : CommentFields) (isReply : Bool) (commentId : ℕ) : Activity where
  type := "comment_added"
  entityType := "comment"
  entityId := commentId
  actor := author
  description := (if isReply then "Replied to comment on task: " else "Added comment to task: ")
    ++ task.title
  data := some (.object [("task_id", some (.ofNat id)), ("task_title", some (.str task.title)),
    ("parent_id", fields.parentId.map .num),
    ("mentions", some (.arr ((parseMentions fields.content).map .str))),
    ("content_preview", some (.str (contentPreview fields.content)))])
  createdAt := ctx.now

/-- **What an accepted comment writes and announces.** -/
def addComment (rt : Runtime) (orders : CommentOrders) (ctx : RequestContext) (id : ℕ)
    (task : TaskRow) (fields : CommentFields) (parentId : Option ℕ) (s : CommentDb) :
    CommentDb × List BusEvent :=
  let author := fields.author.getD "system"
  let mentions := parseMentions fields.content
  let comment : Comment := ⟨id, author, fields.content, ctx.now, parentId,
    if mentions = [] then none else some (jsonText rt (.arr (mentions.map .str)))⟩
  let commentId := s.comments.next
  let w : Work := ⟨s.db, []⟩
  let w := w.logActivity
    (commentActivity ctx id task author fields parentId.isSome commentId)
  let uniqueMentions := mentions.eraseDups
  let w := subscribeAll id author uniqueMentions (task.assignedTo.getD "") w
  let subscribers := (getTaskSubscribers orders w.db id).eraseDups.filter (· ≠ author)
  let w := notifyAll ctx author task.title fields.content uniqueMentions commentId subscribers w
  (⟨w.db, s.comments.insert comment⟩, w.events)

/-- The parent of a comment to be: none where the body names none, and not found where
it is no comment of the task. -/
inductive ParentSearch where
  | absent
  | found (parentId : ℕ)
  | notFound

/-- The search for the parent that a body names. -/
def findParent (s : CommentDb) (id : ℕ) (parentId : Option JsNumber) : ParentSearch :=
  match parentId with
  | none => .absent
  | some n =>
    if Json.truthy (some (.num n)) then
      match n.integer with
      | some z =>
        if 0 ≤ z ∧ (s.comments.row z.toNat).any (fun c => c.taskId = id) then .found z.toNat
        else .notFound
      | none => .notFound
    else .absent

/-- A comment as responses have it: the row, with `mentions` parsed. -/
structure ParsedComment where
  id : ℕ
  row : Comment
  mentions : Json

/-- `mentions` of a row; none where its text is not JSON. -/
def parseComment (rt : Runtime) (r : ℕ × Comment) : Option ParsedComment :=
  let text := r.2.mentions.getD ""
  if text = "" then some ⟨r.1, r.2, .arr []⟩
  else (Json.parse rt text.toList).map fun mentions => ⟨r.1, r.2, mentions⟩

/-- The parsed comment as a JSON object, with its replies. -/
def ParsedComment.json (c : ParsedComment) (replies : List Json) : Json :=
  .obj [("id", .ofNat c.id), ("task_id", .ofNat c.row.taskId), ("author", .str c.row.author),
    ("content", .str c.row.content), ("created_at", .ofNat c.row.createdAt),
    ("parent_id", (c.row.parentId.map Json.ofNat).getD .null), ("mentions", c.mentions),
    ("replies", .arr replies)]

/-- What a request for comments leaves, announces and answers. -/
structure CommentOutcome where
  state : CommentDb
  events : List BusEvent
  response : ApiResponse

/-- **`POST /api/tasks/[id]/comments`.** -/
def postComment (rt : Runtime) (orders : CommentOrders) (ctx : RequestContext)
    (idText : String) (body : Option Json) (s : CommentDb) : CommentOutcome :=
  match parseInt idText with
  | none => ⟨s, [], .error 400 "Invalid task ID"⟩
  | some n =>
    match validateBody createCommentSchema body with
    | .error response => ⟨s, [], response⟩
    | .ok fields =>
      match s.db.findTask n with
      | none => ⟨s, [], .error 404 "Task not found"⟩
      | some (id, task) =>
        let add (parentId : Option ℕ) : CommentOutcome :=
          let added := addComment rt orders ctx id task fields parentId s
          match (added.1.comments.row s.comments.next).bind
              fun c => parseComment rt (s.comments.next, c) with
          | none => ⟨added.1, added.2, .error 500 "Failed to add comment"⟩
          | some created => ⟨added.1, added.2, .json 201 (.obj [("comment", created.json [])])⟩
        match findParent s id fields.parentId with
        | .notFound => ⟨s, [], .error 404 "Parent comment not found"⟩
        | .absent => add none
        | .found parentId => add (some parentId)

theorem integer_ne_zero {n : JsNumber} (h : Json.truthy (some (.num n)) = true) :
    n.integer ≠ some 0 := by
  intro hzero
  unfold JsNumber.integer at hzero
  split at hzero
  · next q =>
    split at hzero
    · obtain rfl : q = 0 := Rat.num_eq_zero.mp (Option.some.inj hzero)
      exact absurd h (by decide)
    · cases hzero
  · cases hzero

theorem findParent_eq_found {s : CommentDb} {id p : ℕ} {parentId : Option JsNumber}
    (h : findParent s id parentId = .found p) :
    0 < p ∧ ∃ c, s.comments.row p = some c ∧ c.taskId = id := by
  unfold findParent at h
  cases parentId with
  | none => cases h
  | some n =>
    dsimp only at h
    split at h
    · next htruthy =>
      cases hz : n.integer with
      | none =>
        rw [hz] at h
        cases h
      | some z =>
        rw [hz] at h
        dsimp only at h
        split at h
        · next hfound =>
          cases h
          refine ⟨Nat.pos_of_ne_zero fun hzero => integer_ne_zero htruthy ?_, ?_⟩
          · rw [hz, Int.le_antisymm (Int.toNat_eq_zero.mp hzero) hfound.1]
          · obtain ⟨hnonneg, hany⟩ := hfound
            cases hc : s.comments.row z.toNat with
            | none =>
              rw [hc] at hany
              cases hany
            | some c =>
              rw [hc] at hany
              exact ⟨c, rfl, of_decide_eq_true hany⟩
        · cases h
    · cases h

/-- The mentions of a row were stored by the runtime. -/
def Comment.MentionsStored (rt : Runtime) (c : Comment) : Prop :=
  ∀ text, c.mentions = some text →
    ∃ names : List String, text = jsonText rt (.arr (names.map .str))

theorem numbers_texts (names : List String) : (Json.arr (names.map .str)).numbers = [] := by
  show Json.numbers.numbersOfElements (names.map .str) = []
  induction names with
  | nil => rfl
  | cons name names ih => exact ih

theorem exists_parseComment {rt : Runtime} (id : ℕ) {c : Comment} (h : c.MentionsStored rt) :
    ∃ parsed, parseComment rt (id, c) = some parsed ∧ parsed.id = id ∧ parsed.row = c := by
  unfold parseComment
  dsimp only
  split
  · exact ⟨_, rfl, rfl, rfl⟩
  · next hne =>
    cases htext : c.mentions with
    | none => exact absurd (congrArg (Option.getD · "") htext) hne
    | some text =>
      obtain ⟨names, rfl⟩ := h text htext
      have hnumbers : Json.NumbersRead rt (Json.arr (names.map .str)).numbers := by
        rw [numbers_texts]
        exact fun q hq => absurd hq List.not_mem_nil
      refine ⟨⟨id, c, (Json.arr (names.map .str)).readBack⟩, ?_, rfl, rfl⟩
      unfold jsonText
      rw [Option.getD_some, String.toList_ofList, Json.parse_stringify hnumbers]
      rfl

section Post

variable (rt : Runtime) (orders : CommentOrders) (ctx : RequestContext)

def commentRow (id : ℕ) (fields : CommentFields) (parentId : Option ℕ) : Comment :=
  ⟨id, fields.author.getD "system", fields.content, ctx.now, parentId,
    if parseMentions fields.content = [] then none
    else some (jsonText rt (.arr ((parseMentions fields.content).map .str)))⟩

theorem mentionsStored_commentRow (id : ℕ) (fields : CommentFields) (parentId : Option ℕ) :
    (commentRow rt ctx id fields parentId).MentionsStored rt := by
  intro text htext
  unfold commentRow at htext
  dsimp only at htext
  split at htext
  · cases htext
  · exact ⟨_, (Option.some.inj htext).symm⟩

@[simp] theorem comments_addComment (id : ℕ) (task : TaskRow) (fields : CommentFields)
    (parentId : Option ℕ) (s : CommentDb) :
    (addComment rt orders ctx id task fields parentId s).1.comments
      = s.comments.insert (commentRow rt ctx id fields parentId) := rfl

/-- The parent that a comment is stored with: one that was found, if one is named. -/
def ParentOf (s : CommentDb) (id : ℕ) (parentId : Option ℕ) : Prop :=
  ∀ p, parentId = some p → 0 < p ∧ ∃ c, s.comments.row p = some c ∧ c.taskId = id

/-- **A comment is refused before it does anything, or is added** to a task that is there,
below a comment of this task if below one. -/
theorem postComment_cases (idText : String) (body : Option Json) (s : CommentDb) :
    (∃ response, postComment rt orders ctx idText body s = ⟨s, [], response⟩
        ∧ 400 ≤ response.status)
      ∨ ∃ (id : ℕ) (task : TaskRow) (j : Json) (fields : CommentFields)
          (parentId : Option ℕ) (response : ApiResponse), parseInt idText = some (id : ℤ)
        ∧ s.db.tasks.row id = some task ∧ body = some j
        ∧ createCommentSchema.read j = .ok fields ∧ ParentOf s id parentId
        ∧ postComment rt orders ctx idText body s
          = ⟨(addComment rt orders ctx id task fields parentId s).1,
            (addComment rt orders ctx id task fields parentId s).2, response⟩
        ∧ response.status = 201 := by
  unfold postComment
  cases hn : parseInt idText with
  | none => exact .inl ⟨_, rfl, by decide⟩
  | some n =>
    unfold validateBody
    cases body with
    | none => exact .inl ⟨_, rfl, by decide⟩
    | some j =>
      dsimp only
      cases hread : createCommentSchema.read j with
      | error issues => exact .inl ⟨_, rfl, Nat.le_refl 400⟩
      | ok fields =>
        dsimp only
        cases hfind : s.db.findTask n with
        | none => exact .inl ⟨_, rfl, by decide⟩
        | some found =>
          obtain ⟨id, task⟩ := found
          obtain ⟨rfl, hrow⟩ := TaskDb.findTask_eq_some.mp hfind
          dsimp only
          -- an added comment can be read back
          have hcreated : ∀ parentId, ∃ created,
              ((addComment rt orders ctx id task fields parentId s).1.comments.row
                s.comments.next).bind (fun c => parseComment rt (s.comments.next, c))
                = some created := by
            intro parentId
            obtain ⟨created, hcreated, -, -⟩ := exists_parseComment s.comments.next
              (mentionsStored_commentRow rt ctx id fields parentId)
            refine ⟨created, ?_⟩
            rw [comments_addComment, Table.row_insert_next]
            exact hcreated
          cases hparent : findParent s id fields.parentId with
          | notFound => exact .inl ⟨_, rfl, by decide⟩
          | absent =>
            obtain ⟨created, hcreated⟩ := hcreated none
            refine .inr ⟨id, task, j, fields, none, .json 201 (.obj [("comment", created.json [])]),
              rfl, hrow, rfl, hread, ?_, ?_, rfl⟩
            · exact fun p hp => absurd hp.symm (Option.some_ne_none p)
            · dsimp only
              rw [hcreated]
          | found p =>
            obtain ⟨created, hcreated⟩ := hcreated (some p)
            refine .inr ⟨id, task, j, fields, some p,
              .json 201 (.obj [("comment", created.json [])]), rfl, hrow, rfl, hread, ?_, ?_, rfl⟩
            · intro p' hp'
              obtain rfl := Option.some.inj hp'
              exact findParent_eq_found hparent
            · dsimp only
              rw [hcreated]

end Post

/-! ## `GET /api/tasks/[id]/comments` -/

/-- An object of `commentMap`. The replies are references to objects of the map. -/
structure ThreadNode where
  comment : ParsedComment
  replies : List ℕ

abbrev CommentMap := ℕ → Option ThreadNode

/-- The first pass: an object for each comment. -/
def commentMap (comments : List ParsedComment) : CommentMap :=
  comments.foldl (fun map c => Function.update map c.id (some ⟨c, []⟩)) fun _ => none

/-- `comment.parent_id`, where it counts as true. -/
def ParsedComment.parent (c : ParsedComment) : Option ℕ := c.row.parentId.filter (0 < ·)

/-- The second pass, on one comment: it is pushed to the replies of its parent, if that
is found, or to the comments at the top. -/
def organize (threads : CommentMap × List ℕ) (c : ParsedComment) : CommentMap × List ℕ :=
  match c.parent with
  | none => (threads.1, threads.2 ++ [c.id])
  | some p =>
    match threads.1 p with
    | none => threads
    | some parent =>
      (Function.update threads.1 p (some { parent with replies := parent.replies ++ [c.id] }),
        threads.2)

def dereference (map : CommentMap) (ids : List ℕ) : List ParsedComment :=
  ids.filterMap fun id => (map id).map (·.comment)

def repliesOf (map : CommentMap) (c : ParsedComment) : List ParsedComment :=
  dereference map (((map c.id).map (·.replies)).getD [])

/-- The answer of `GET /api/tasks/[id]/comments`. -/
inductive CommentsResponse where
  | error (status : ℕ) (message : String)
  | threads (comments : List (RoseTree ParsedComment)) (total : ℕ)

/-- **The threads of some comments.** There are none where an object is below itself,
which no text can say: it takes more levels than there are comments. -/
def buildThreads (comments : List ParsedComment) : Option (List (RoseTree ParsedComment)) :=
  let threads := comments.foldl organize (commentMap comments, [])
  (dereference threads.1 threads.2).mapM
    (RoseTree.grow (repliesOf threads.1) comments.length)

/-- **`GET /api/tasks/[id]/comments`.** -/
def getComments (rt : Runtime) (orders : CommentOrders) (idText : String) (s : CommentDb) :
    CommentsResponse :=
  match parseInt idText with
  | none => .error 400 "Invalid task ID"
  | some n =>
    match s.db.findTask n with
    | none => .error 404 "Task not found"
    | some (id, _) =>
      let comments := orders.comments.sort (s.ofTask id)
      match (comments.mapM (parseComment rt)).bind buildThreads with
      | none => .error 500 "Failed to fetch comments"
      | some threads => .threads threads comments.length

/-! ## Runs -/

/-- **A request that writes tasks, reviews or comments.** -/
inductive CommentRequest where
  | tasks (request : TaskRequest)
  | comment (idText : String) (body : Option Json)

/-- `ON DELETE CASCADE` of `comments.task_id`, and `ON DELETE SET NULL` of `parent_id`: the
comments of the tasks that are gone are gone, and no comment refers to them. -/
def cascadeComments (before after : Table TaskRow) (comments : Table Comment) :
    Table Comment :=
  let kept := comments.deleteWhere fun _ c =>
    (before.row c.taskId).isSome && (after.row c.taskId).isNone
  kept.updateAll fun _ c =>
    { c with parentId := c.parentId.filter fun p => (kept.row p).isSome }

/-- What a request does, and what it announces. -/
def CommentRequest.serve (rt : Runtime) (orders : CommentOrders) (ctx : RequestContext)
    (s : CommentDb) : CommentRequest → CommentDb × List BusEvent
  | tasks request =>
    let w := (request.serve rt ctx s.db).1
    (⟨w.db, cascadeComments s.db.tasks w.db.tasks s.comments⟩, w.events)
  | comment idText body =>
    let outcome := postComment rt orders ctx idText body s
    (outcome.state, outcome.events)

/-- A request, who sends it and when, and how the database orders its rows. -/
structure CommentAction where
  ctx : RequestContext
  orders : CommentOrders
  request : CommentRequest

/-- **The tasks API and its comments as a machine.** -/
def commentMachine (rt : Runtime) : Machine CommentDb CommentAction BusEvent where
  step s a := a.request.serve rt a.orders a.ctx s

/-! ## A thread -/

/-- SQLite for concrete runs: rows that may stand either way stand as they were
inserted. -/
def sampleCommentOrders : CommentOrders where
  comments :=
    have : Std.Total fun a b : ℕ × Comment => a.2.createdAt ≤ b.2.createdAt :=
      ⟨fun a b => Nat.le_total a.2.createdAt b.2.createdAt⟩
    have : IsTrans (ℕ × Comment) fun a b => a.2.createdAt ≤ b.2.createdAt :=
      ⟨fun _ _ _ hab hbc => Nat.le_trans hab hbc⟩
    .insertion _
  subscriptions :=
    have : Std.Total fun _ _ : ℕ × TaskSubscription => True := ⟨fun _ _ => .inl trivial⟩
    have : IsTrans (ℕ × TaskSubscription) fun _ _ => True := ⟨fun _ _ _ _ _ => trivial⟩
    .insertion _

/-- A request of the sample administrator. -/
def sampleAction (request : CommentRequest) : CommentAction :=
  ⟨sampleContext, sampleCommentOrders, request⟩

/-- A comment of ann on the first task. -/
def sampleComment (fields : List (String × Json)) : CommentAction :=
  sampleAction (.comment "1" (some (.obj (("author", .str "ann") :: fields))))

/-- A task is created and commented on, all within one second. -/
def sampleThread : List CommentAction :=
  [sampleAction (.tasks (.create (some (.obj [("title", .str "Fix login"),
      ("assigned_to", .str "cy")])))),
    sampleComment [("content", .str "Look, @bob")],
    sampleComment [("content", .str "@bob @ann?"), ("parent_id", .num (.finite 1))],
    sampleComment [("content", .str "Anyone?"), ("parent_id", .num (.finite 2))]]

end MissionControl
