import Mathlib.Algebra.Order.Ring.Rat
import MissionControl.Agents
import MissionControl.ChatStore
import MissionControl.Comments
import MissionControl.Library.Double
import MissionControl.Library.Ranking
import MissionControl.Notifications

/-!
# The lists of tasks, activities and chat messages

The requests that list tasks, activities and chat messages take a limit and an offset as
texts. `Math.min` caps the limit from above; a negative one goes to the database as it
is, for which it is no limit at all (`not_capped_sampleLimit`).

Each of the lists has at most as many rows as its cap exactly where the limit is not read
as a negative integer, or the request fails, or no more rows are left behind the offset
(`lists_capped_iff`).
-/

namespace MissionControl

/-! ## Numbers -/

def JsNumber.ofInteger (z : ℤ) : JsNumber :=
  match Double.nearest z.natAbs with
  | some n => .finite (if z < 0 then -(n : ℚ) else n)
  | none => .infinity (decide (z < 0))

/-- `parseInt(text)`. -/
def parseNumber (text : String) : JsNumber := (parseInt text).elim .nan JsNumber.ofInteger

/-- `Math.min(x, n)`. -/
def JsNumber.capped (n : ℕ) : JsNumber → JsNumber
  | nan => nan
  | infinity true => infinity true
  | infinity false => finite n
  | finite q => finite (min q n)

def boundNumber : JsNumber → SqlValue
  | .nan => .null
  | n => .number n

/-! ## Queries -/

/-- `AND column = ?`, where the parameter of the request is there and not empty. -/
def paramTest (param column : Option String) : Bool :=
  decide (param.getD "" = "") || decide (column = param)

/-- `AND created_at > ?`, where the parameter of the request is there and not empty. -/
def sinceTest (since : Option String) (createdAt : ℕ) : Bool :=
  match since with
  | none => true
  | some text =>
    decide (text = "")
      || match parseNumber text with
        | .nan => false
        | .infinity negative => negative
        | .finite q => decide (q < createdAt)

/-- What a request says of the part of a list that it wants. -/
structure PageParams where
  limit : Option String
  offset : Option String

/-- `Math.min(parseInt(limit || '50'), cap)`. -/
def PageParams.limitNumber (page : PageParams) (cap : ℕ) : JsNumber :=
  (parseNumber (orElse (page.limit.getD "") "50")).capped cap

/-- `parseInt(offset || '0')`. -/
def PageParams.offsetNumber (page : PageParams) : JsNumber :=
  parseNumber (orElse (page.offset.getD "") "0")

/-- `LIMIT ? OFFSET ?`, of rows in their order. A negative offset is none. -/
def selectPage {α : Type} (sq : Sqlite) (limit offset : JsNumber) (rows : List α) :
    Except Exception (List α) := do
  let limit ← sqlLimit sq (boundNumber limit)
  let offset ← sqlLimit sq (boundNumber offset)
  let rows := rows.drop (offset.getD 0)
  .ok (limit.elim rows fun n => rows.take n)

/-- The answer of a list: the rows, how many there are in all, and the numbers that tell
which part this is. -/
inductive ListResponse (β : Type) where
  | error (status : ℕ) (message : String)
  | page (rows : List β) (total : ℕ) (limit offset : JsNumber)

def ListResponse.rows {β : Type} : ListResponse β → List β
  | error _ _ => []
  | page rows _ _ _ => rows

/-- **A list**: of the rows in their order those of a page, with their texts parsed. -/
def listRows {α β : Type} (sq : Sqlite) (cap : ℕ) (message : String) (page : PageParams)
    (rows : List α) (parse : α → Option β) : ListResponse β :=
  match selectPage sq (page.limitNumber cap) page.offsetNumber rows with
  | .error _ => .error 500 message
  | .ok selected =>
    match selected.mapM parse with
    | none => .error 500 message
    | some parsed => .page parsed rows.length (page.limitNumber cap) page.offsetNumber

/-! ## The three lists -/

/-- The parameters of `GET /api/tasks`. -/
structure TaskListParams where
  status : Option String
  assignedTo : Option String
  priority : Option String
  page : PageParams

def TaskListParams.test (q : TaskListParams) (t : TaskRow) : Bool :=
  paramTest q.status (some t.status.text) && paramTest q.assignedTo t.assignedTo
    && paramTest q.priority (some t.priority.text)

/-- **`GET /api/tasks`.** -/
def getTasks (rt : Runtime) (sq : Sqlite) (order : Descending fun r : ℕ × TaskRow => r.2.createdAt)
    (db : TaskDb) (q : TaskListParams) : ListResponse ParsedTask :=
  listRows sq 200 "Failed to fetch tasks" q.page
    (order.sort (db.tasks.rows.filter fun r => q.test r.2)) fun r => readTask rt db r.1

/-- The parameters of `GET /api/activities`, of a request that does not ask for the
statistics. -/
structure ActivityListParams where
  type : Option String
  actor : Option String
  entityType : Option String
  since : Option String
  page : PageParams

inductive EntityDetails where
  | task (id : ℕ) (title : String) (status : TaskStatus)
  | agent (id : ℕ) (name role status : SqlValue)
  | comment (id : ℕ) (content : String) (taskId : ℕ) (taskTitle : Option String)
    (contentPreview : String)

/-- A row of `activities`, with the text of its data. -/
structure ActivityRow where
  type : String
  entityType : String
  entityId : ℕ
  actor : String
  description : String
  data : Option String
  createdAt : ℕ

/-- An activity with its data parsed, and with what it is about. -/
structure EnhancedActivity where
  id : ℕ
  activity : ActivityRow
  data : Option Json
  entity : Option EntityDetails

def ActivityListParams.test (q : ActivityListParams) (a : ActivityRow) : Bool :=
  paramTest q.type (some a.type) && paramTest q.actor (some a.actor)
    && paramTest q.entityType (some a.entityType) && sinceTest q.since a.createdAt

def entityDetails (s : CommentDb) (agents : Table AgentRow) (a : ActivityRow) :
    Option EntityDetails :=
  if a.entityType = "task" then
    (s.db.tasks.row a.entityId).map fun t => .task a.entityId t.title t.status
  else if a.entityType = "agent" then
    (agents.row a.entityId).map fun r => .agent a.entityId (r .name) (r .role) (r .status)
  else if a.entityType = "comment" then
    (s.comments.row a.entityId).map fun c =>
      .comment a.entityId c.content c.taskId ((s.db.tasks.row c.taskId).map (·.title))
        (contentPreview c.content)
  else none

/-- `text ? JSON.parse(text) : null`. -/
def parseColumn (rt : Runtime) (text : Option String) : Option (Option Json) :=
  if text.getD "" = "" then some none else (Json.parse rt (text.getD "").toList).map some

def enhanceActivity (rt : Runtime) (s : CommentDb) (agents : Table AgentRow)
    (r : ℕ × ActivityRow) : Option EnhancedActivity :=
  (parseColumn rt r.2.data).map fun data => ⟨r.1, r.2, data, entityDetails s agents r.2⟩

/-- **`GET /api/activities`.** -/
def getActivities (rt : Runtime) (sq : Sqlite)
    (order : Descending fun r : ℕ × ActivityRow => r.2.createdAt) (s : CommentDb)
    (agents : Table AgentRow) (activities : Table ActivityRow) (q : ActivityListParams) :
    ListResponse EnhancedActivity :=
  listRows sq 500 "Failed to fetch activities" q.page
    (order.sort (activities.rows.filter fun r => q.test r.2)) (enhanceActivity rt s agents)

/-- A row of `messages`. -/
structure MessageRow where
  conversationId : String
  fromAgent : String
  toAgent : Option String
  content : String
  messageType : String
  metadata : Option String
  readAt : Option ℕ
  createdAt : ℕ

/-- The parameters of `GET /api/chat/messages`. -/
structure MessageListParams where
  conversationId : Option String
  fromAgent : Option String
  toAgent : Option String
  since : Option String
  page : PageParams

def MessageListParams.test (q : MessageListParams) (m : MessageRow) : Bool :=
  paramTest q.conversationId (some m.conversationId) && paramTest q.fromAgent (some m.fromAgent)
    && paramTest q.toAgent m.toAgent && sinceTest q.since m.createdAt

/-- `msg.metadata ? JSON.parse(msg.metadata) : null`, in a message. -/
def parseMessage (rt : Runtime) (r : ℕ × MessageRow) : Option ChatMessage :=
  (parseColumn rt r.2.metadata).map fun metadata =>
    ⟨r.1, r.2.conversationId, r.2.fromAgent, r.2.toAgent, r.2.content, r.2.messageType,
      metadata, r.2.readAt, r.2.createdAt, none⟩

/-- **`GET /api/chat/messages`.** -/
def getMessages (rt : Runtime) (sq : Sqlite)
    (order : OrderBy fun a b : ℕ × MessageRow => a.2.createdAt ≤ b.2.createdAt)
    (messages : Table MessageRow) (q : MessageListParams) : ListResponse ChatMessage :=
  listRows sq 200 "Failed to fetch messages" q.page
    (order.sort (messages.rows.filter fun r => q.test r.2)) (parseMessage rt)

/-! ## The cap -/

/-- A number that the database takes for a limit or an offset. -/
def JsNumber.Takes (n : JsNumber) (z : ℤ) : Prop := n.integer = some z ∧ z.natAbs < 2 ^ 63

theorem sqlLimit_of_takes (sq : Sqlite) {n : JsNumber} {z : ℤ} (h : n.Takes z) :
    sqlLimit sq (boundNumber n) = .ok (if z < 0 then none else some z.toNat) := by
  obtain ⟨hinteger, hsmall⟩ := h
  unfold sqlLimit
  cases n with
  | nan => cases hinteger
  | infinity negative => cases hinteger
  | finite q =>
    dsimp only [boundNumber, SqlValue.asInteger]
    rewrite [hinteger]
    exact if_pos hsmall

theorem sqlLimit_of_not_takes (sq : Sqlite) {n : JsNumber} (h : ∀ z, ¬ n.Takes z) :
    sqlLimit sq (boundNumber n) = .error .typeError := by
  unfold sqlLimit
  cases n with
  | nan => rfl
  | infinity negative => rfl
  | finite q =>
    dsimp only [boundNumber, SqlValue.asInteger]
    cases hinteger : (JsNumber.finite q).integer with
    | none => rfl
    | some z => exact if_neg fun hsmall => h z ⟨hinteger, hsmall⟩

/-- **The cap bounds the limit**, and leaves a negative one as it is. -/
theorem integer_capped {cap : ℕ} {n : JsNumber} {z : ℤ}
    (h : (n.capped cap).integer = some z) : z ≤ cap ∧ (z < 0 → n.integer = some z) := by
  rw [JsNumber.integer_eq_some] at h ⊢
  cases n with
  | nan => cases h
  | infinity negative =>
    cases negative with
    | true => cases h
    | false =>
      have hz : (cap : ℚ) = z := JsNumber.finite.inj h
      have hz : (cap : ℤ) = z := by exact_mod_cast hz
      exact ⟨hz.ge, fun hneg => by omega⟩
  | finite q =>
    have hz : min q cap = (z : ℚ) := JsNumber.finite.inj h
    have hle : (z : ℚ) ≤ cap := hz ▸ min_le_right q cap
    refine ⟨by exact_mod_cast hle, fun hneg => ?_⟩
    rcases min_choice q (cap : ℚ) with hmin | hmin
    · rw [← hmin, hz]
    · rw [hmin] at hz
      have hz : (cap : ℤ) = z := by exact_mod_cast hz
      omega

theorem integer_capped_of_neg {cap : ℕ} {n : JsNumber} {z : ℤ} (h : n.integer = some z)
    (hz : z < 0) : (n.capped cap).integer = some z := by
  rw [JsNumber.integer_eq_some] at h ⊢
  have hle : (z : ℚ) ≤ cap := by exact_mod_cast hz.le.trans (Int.natCast_nonneg cap)
  rw [h]
  exact congrArg JsNumber.finite (min_eq_left hle)

/-- **No more rows than the cap are asked for**: if the limit is a negative integer, then at
most as many follow the offset, or the text of one of these cannot be parsed. -/
def StaysCapped {α β : Type} (cap : ℕ) (page : PageParams) (rows : List α)
    (parse : α → Option β) : Prop :=
  ∀ limit offset : ℤ, (parseNumber (orElse (page.limit.getD "") "50")).Takes limit → limit < 0 →
    page.offsetNumber.Takes offset →
      (rows.drop offset.toNat).length ≤ cap ∨ ∃ r ∈ rows.drop offset.toNat, parse r = none

section Capped

variable {α β : Type} {sq : Sqlite} {cap : ℕ} {message : String} {page : PageParams}
  {rows : List α} {parse : α → Option β}

theorem length_rows_of_error {e : Exception}
    (h : selectPage sq (page.limitNumber cap) page.offsetNumber rows = .error e) :
    (listRows sq cap message page rows parse).rows.length ≤ cap := by
  unfold listRows
  rw [h]
  exact Nat.zero_le cap

/-- The rows of an answer are those that were selected, if all can be parsed. -/
theorem length_rows_listRows {selected : List α}
    (h : selectPage sq (page.limitNumber cap) page.offsetNumber rows = .ok selected) :
    (listRows sq cap message page rows parse).rows.length ≤ cap
      ↔ selected.length ≤ cap ∨ ∃ r ∈ selected, parse r = none := by
  unfold listRows
  rw [h]
  dsimp only
  cases hparsed : selected.mapM parse with
  | none =>
    refine iff_of_true (Nat.zero_le cap) (.inr ?_)
    by_contra hall
    obtain ⟨parsed, hsome⟩ := @RoseTree.exists_mapM _ _ parse selected fun r hr =>
      Option.ne_none_iff_exists'.mp fun hnone => hall ⟨r, hr, hnone⟩
    rw [hparsed] at hsome
    cases hsome
  | some parsed =>
    have hmap := RoseTree.mapM_eq_some_iff.mp hparsed
    have hlength : parsed.length = selected.length := by
      simpa using (congrArg List.length hmap).symm
    show parsed.length ≤ cap ↔ _
    rw [hlength, or_iff_left]
    rintro ⟨r, hr, hnone⟩
    have hmem : none ∈ selected.map parse := List.mem_map.mpr ⟨r, hr, hnone⟩
    rw [hmap] at hmem
    obtain ⟨y, -, hy⟩ := List.mem_map.mp hmem
    cases hy

/-- **When a list is capped.** -/
theorem length_listRows_le_iff :
    (listRows sq cap message page rows parse).rows.length ≤ cap
      ↔ StaysCapped cap page rows parse := by
  by_cases hlimit : ∃ limit, (page.limitNumber cap).Takes limit
  · obtain ⟨limit, hlimit⟩ := hlimit
    by_cases hoffset : ∃ offset, page.offsetNumber.Takes offset
    · obtain ⟨offset, hoffset⟩ := hoffset
      have hselect : selectPage sq (page.limitNumber cap) page.offsetNumber rows
          = .ok ((if limit < 0 then none else some limit.toNat).elim (rows.drop offset.toNat)
            fun n => (rows.drop offset.toNat).take n) := by
        have hdrop : (if offset < 0 then none else some offset.toNat).getD 0 = offset.toNat := by
          split
          · next hneg => exact (Int.toNat_of_nonpos hneg.le).symm
          · rfl
        unfold selectPage
        rw [sqlLimit_of_takes sq hlimit, sqlLimit_of_takes sq hoffset]
        show Except.ok _ = _
        rw [hdrop]
      obtain ⟨hle, hneg⟩ := integer_capped hlimit.1
      rw [length_rows_listRows hselect]
      by_cases hsign : limit < 0
      · rw [if_pos hsign]
        have htakes : (parseNumber (orElse (page.limit.getD "") "50")).Takes limit :=
          ⟨hneg hsign, hlimit.2⟩
        refine ⟨fun h limit' offset' hlimit' _ hoffset' => ?_, fun h =>
          h limit offset htakes hsign hoffset⟩
        rw [← Option.some.inj (hoffset.1.symm.trans hoffset'.1)]
        exact h
      · rw [if_neg hsign]
        refine iff_of_true (.inl ?_) fun limit' offset' hlimit' hneg' _ => ?_
        · refine (List.length_take_le _ _).trans ?_
          omega
        · have heq : (page.limitNumber cap).integer = some limit' :=
            integer_capped_of_neg hlimit'.1 hneg'
          rw [Option.some.inj (hlimit.1.symm.trans heq)] at hsign
          exact absurd hneg' hsign
    · refine iff_of_true (length_rows_of_error (e := .typeError) ?_) fun _ offset' _ _ hoffset' =>
        absurd ⟨offset', hoffset'⟩ hoffset
      unfold selectPage
      rw [sqlLimit_of_takes sq hlimit,
        sqlLimit_of_not_takes sq fun z hz => hoffset ⟨z, hz⟩]
      rfl
  · refine iff_of_true (length_rows_of_error (e := .typeError) ?_)
      fun limit' _ hlimit' hneg' _ => absurd ⟨limit', integer_capped_of_neg hlimit'.1 hneg',
        hlimit'.2⟩ hlimit
    unfold selectPage
    rw [sqlLimit_of_not_takes sq fun z hz => hlimit ⟨z, hz⟩]
    rfl

end Capped

/-- **A list has at most as many rows as its cap** exactly where no more are asked for. -/
theorem lists_capped_iff (rt : Runtime) (sq : Sqlite)
    (tasksOrder : Descending fun r : ℕ × TaskRow => r.2.createdAt)
    (activitiesOrder : Descending fun r : ℕ × ActivityRow => r.2.createdAt)
    (messagesOrder : OrderBy fun a b : ℕ × MessageRow => a.2.createdAt ≤ b.2.createdAt)
    (s : CommentDb) (agents : Table AgentRow) (activities : Table ActivityRow)
    (messages : Table MessageRow)
    (tasksParams : TaskListParams) (activitiesParams : ActivityListParams)
    (messagesParams : MessageListParams) :
    ((getTasks rt sq tasksOrder s.db tasksParams).rows.length ≤ 200
        ↔ StaysCapped 200 tasksParams.page
          (tasksOrder.sort (s.db.tasks.rows.filter fun r => tasksParams.test r.2))
          fun r => readTask rt s.db r.1)
      ∧ ((getActivities rt sq activitiesOrder s agents activities activitiesParams).rows.length
          ≤ 500
        ↔ StaysCapped 500 activitiesParams.page
          (activitiesOrder.sort (activities.rows.filter fun r => activitiesParams.test r.2))
          (enhanceActivity rt s agents))
      ∧ ((getMessages rt sq messagesOrder messages messagesParams).rows.length ≤ 200
        ↔ StaysCapped 200 messagesParams.page
          (messagesOrder.sort (messages.rows.filter fun r => messagesParams.test r.2))
          (parseMessage rt)) :=
  ⟨length_listRows_le_iff, length_listRows_le_iff, length_listRows_le_iff⟩

/-! ## A negative limit -/

/-- A message of a conversation. -/
def sampleChatMessage (createdAt : ℕ) : MessageRow :=
  ⟨"conv_1", "ann", some "bob", "Hello", "text", none, none, createdAt⟩

/-- A table of so many messages, one a second. -/
def sampleMessages : ℕ → Table MessageRow
  | 0 => .empty
  | n + 1 => (sampleMessages n).insert (sampleChatMessage n)

/-- Rows in the order of their times. -/
def sampleMessageOrder : OrderBy fun a b : ℕ × MessageRow => a.2.createdAt ≤ b.2.createdAt where
  sort rows := rows.insertionSort fun a b => a.2.createdAt ≤ b.2.createdAt
  perm := List.perm_insertionSort _
  sorted := pairwise_insertionSort_key _

/-- A request for the messages with a limit. -/
def sampleMessageParams (limit : String) : MessageListParams :=
  ⟨none, none, none, none, ⟨some limit, none⟩⟩

/-- **A limit of -1 returns all messages.** -/
theorem not_capped_sampleLimit :
    ¬ ∀ (rt : Runtime) (sq : Sqlite)
      (tasksOrder : Descending fun r : ℕ × TaskRow => r.2.createdAt)
      (activitiesOrder : Descending fun r : ℕ × ActivityRow => r.2.createdAt)
      (messagesOrder : OrderBy fun a b : ℕ × MessageRow => a.2.createdAt ≤ b.2.createdAt)
      (s : CommentDb) (agents : Table AgentRow) (activities : Table ActivityRow)
      (messages : Table MessageRow)
      (tasksParams : TaskListParams) (activitiesParams : ActivityListParams)
      (messagesParams : MessageListParams),
      (getTasks rt sq tasksOrder s.db tasksParams).rows.length ≤ 200
        ∧ (getActivities rt sq activitiesOrder s agents activities activitiesParams).rows.length
          ≤ 500
        ∧ (getMessages rt sq messagesOrder messages messagesParams).rows.length ≤ 200 := by
  intro h
  have hcapped := (h sampleRuntime sampleSqlite (.insertion _) (.insertion _) sampleMessageOrder
    .empty .empty .empty (sampleMessages 201) ⟨none, none, none, ⟨none, none⟩⟩
    ⟨none, none, none, none, ⟨none, none⟩⟩ (sampleMessageParams "-1")).2.2
  exact absurd hcapped (by decide +kernel)

end MissionControl
