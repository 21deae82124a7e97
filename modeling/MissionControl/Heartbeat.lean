import MissionControl.AgentApi
import MissionControl.Comments
import MissionControl.Library.Like
import MissionControl.Library.Ranking

/-!
# The work items of a heartbeat

`GET /api/agents/[id]/heartbeat` tells an agent what there is to do: the comments of the
last four hours that mention it, its tasks, its unread notifications, and what the
activity log says of it.

The tasks are ordered by the *text* of their priority, of which `medium` is the greatest
and `critical` the least. So the critical tasks come last, and a busy agent is not told
of them at all (`not_prioritized_sampleQueue`). The order is that of the priorities as
long as no task is critical or high, or all have one priority
(`heartbeat_prioritized_iff`).
-/

namespace MissionControl

/-! ## The queries -/

/-- A text as the functions of the database that take C strings read it. -/
def untilNul (s : String) : List Char := s.toList.takeWhile (· ≠ '\x00')

/-- `text LIKE pattern`. The letters of ASCII match in upper and lower case. -/
def sqlLike (pattern text : String) : Bool :=
  Like.run Char.toLower (untilNul pattern) (untilNul text)

/-- A comment with the title of its task. -/
structure MentionRow where
  id : ℕ
  comment : Comment
  taskTitle : String

/-- `comments c JOIN tasks t ON c.task_id = t.id`. -/
def joinedComments (s : CommentDb) : List MentionRow :=
  s.comments.rows.filterMap fun (id, c) =>
    (s.db.tasks.row c.taskId).map fun t => ⟨id, c, t.title⟩

/-- `ORDER BY priority DESC, created_at ASC`: priorities are texts. -/
def TaskOrder (a b : ℕ × TaskRow) : Prop :=
  b.2.priority.text < a.2.priority.text
    ∨ b.2.priority.text = a.2.priority.text ∧ a.2.createdAt ≤ b.2.createdAt

/-- How the database orders the rows of the four queries. -/
structure HeartbeatOrders where
  mentions : Descending fun r : MentionRow => r.comment.createdAt
  tasks : OrderBy TaskOrder
  notifications : Descending fun r : ℕ × Notification => r.2.createdAt
  activities : Descending fun r : ℕ × Activity => r.2.createdAt

/-- The time is one of the last four hours. -/
def recent (now time : ℕ) : Bool := decide (now < time + 4 * 60 * 60)

/-- The condition on the comments that mention an agent. -/
def mentionTest (name : String) (now : ℕ) (r : MentionRow) : Bool :=
  r.comment.mentions.any (sqlLike ("%\"" ++ name ++ "\"%")) && recent now r.comment.createdAt

/-- The condition on the tasks of an agent. -/
def assignedTest (name : String) (r : ℕ × TaskRow) : Bool :=
  decide (r.2.assignedTo = some name)
    && (decide (r.2.status = .assigned) || decide (r.2.status = .in_progress))

/-- The condition on what the activity log says of an agent. -/
def urgentTest (name : String) (now : ℕ) (r : ℕ × Activity) : Bool :=
  decide (r.2.type ∈ ["task_created", "task_assigned", "high_priority_alert"])
    && recent now r.2.createdAt && sqlLike ("%" ++ name ++ "%") r.2.description

/-! ## The work items -/

structure MentionItem where
  id : ℕ
  taskTitle : String
  author : String
  content : String
  createdAt : ℕ

structure TaskItem where
  id : ℕ
  title : String
  status : TaskStatus
  priority : TaskPriority
  dueDate : Option JsNumber
  deriving DecidableEq

structure NotificationItem where
  id : ℕ
  type : String
  title : String
  message : String
  createdAt : ℕ

structure ActivityItem where
  id : ℕ
  type : String
  description : String
  createdAt : ℕ

/-- **A work item.** -/
inductive WorkItem where
  | mentions (count : ℕ) (items : List MentionItem)
  | assignedTasks (count : ℕ) (items : List TaskItem)
  | notifications (count : ℕ) (items : List NotificationItem)
  | urgentActivities (count : ℕ) (items : List ActivityItem)

namespace WorkItem

def type : WorkItem → String
  | mentions .. => "mentions"
  | assignedTasks .. => "assigned_tasks"
  | notifications .. => "notifications"
  | urgentActivities .. => "urgent_activities"

def count : WorkItem → ℕ
  | mentions count _ | assignedTasks count _ | notifications count _
  | urgentActivities count _ => count

end WorkItem

def MentionRow.item (r : MentionRow) : MentionItem :=
  ⟨r.id, r.taskTitle, r.comment.author, contentPreview r.comment.content ++ "...",
    r.comment.createdAt⟩

def TaskItem.of (r : ℕ × TaskRow) : TaskItem :=
  ⟨r.1, r.2.title, r.2.status, r.2.priority, r.2.dueDate⟩

def NotificationItem.of (r : ℕ × Notification) : NotificationItem :=
  ⟨r.1, r.2.type, r.2.title, r.2.message, r.2.createdAt⟩

def ActivityItem.of (r : ℕ × Activity) : ActivityItem :=
  ⟨r.1, r.2.type, r.2.description, r.2.createdAt⟩

/-- A work item for some rows, if there are any. -/
def workItem {α : Type} (rows : List α) (item : List α → WorkItem) : List WorkItem :=
  if rows.isEmpty then [] else [item rows]

/-- **The work items of an agent.** -/
def workItems (orders : HeartbeatOrders) (name : String) (now : ℕ) (s : CommentDb) :
    List WorkItem :=
  workItem (orders.mentions.first 10 ((joinedComments s).filter (mentionTest name now)))
      (fun rows => .mentions rows.length (rows.map MentionRow.item))
    ++ workItem (orders.tasks.first 10 (s.db.tasks.rows.filter (assignedTest name)))
      (fun rows => .assignedTasks rows.length (rows.map TaskItem.of))
    ++ workItem (orders.notifications.sort (s.db.notifications.rows.filter fun r =>
        decide (r.2.recipient = name) && r.2.readAt.isNone))
      (fun rows => .notifications rows.length ((rows.take 5).map NotificationItem.of))
    ++ workItem (orders.activities.first 5 (s.db.activities.rows.filter (urgentTest name now)))
      (fun rows => .urgentActivities rows.length (rows.map ActivityItem.of))

/-! ## The request -/

inductive HeartbeatResponse where
  | error (status : ℕ) (message : String)
  | ok (agent : String) (checkedAt : ℕ) (message : String)
  | found (agent : String) (checkedAt : ℕ) (items : List WorkItem) (total : ℕ)

def HeartbeatResponse.items : HeartbeatResponse → List WorkItem
  | found _ _ items _ => items
  | _ => []

/-- What the activity log is told about a heartbeat. -/
def heartbeatActivity (agent : ℕ) (name : String) (now : ℕ) (items : List WorkItem) :
    Activity where
  type := "agent_heartbeat"
  entityType := "agent"
  entityId := agent
  actor := name
  description := "Heartbeat check completed - "
    ++ (if items.isEmpty then "no work items"
      else toString items.length ++ " work items found")
  data := some (.object [("workItemsCount", some (.ofNat items.length)),
    ("workItemTypes", some (.arr (items.map fun item => .str item.type)))])
  createdAt := now

/-- **`GET /api/agents/[id]/heartbeat`**, beside what it writes about the agent. The name
of an agent is a text. -/
def heartbeat (site : AgentSite) (orders : HeartbeatOrders) (agents : AgentState) (id : String)
    (s : CommentDb) : Work × HeartbeatResponse :=
  match lookupAgent site agents id with
  | some (agent, r) =>
    match r .name with
    | .text name =>
      let items := workItems orders name agents.now s
      let w := Work.logActivity ⟨s.db, []⟩ (heartbeatActivity agent name agents.now items)
      if items.isEmpty then (w, .ok name agents.now "No work items found")
      else (w, .found name agents.now items (items.map (·.count)).sum)
    | _ => (⟨s.db, []⟩, .error 500 "Failed to perform heartbeat check")
  | none => (⟨s.db, []⟩, .error 404 "Agent not found")

section Answer

variable {site : AgentSite} {agents : AgentState} {idText name : String} {agent : ℕ}
  {r : AgentRow}

theorem items_heartbeat (orders : HeartbeatOrders) (s : CommentDb)
    (hfound : lookupAgent site agents idText = some (agent, r)) (hname : r .name = .text name) :
    (heartbeat site orders agents idText s).2.items = workItems orders name agents.now s := by
  unfold heartbeat
  rw [hfound]
  dsimp only
  rw [hname]
  dsimp only
  split
  · next hempty => exact (List.isEmpty_iff.mp hempty).symm
  · rfl

end Answer

/-- The first part of some lists in which a search finds something, or the next one. -/
theorem findSome?_workItem {α β : Type} (f : WorkItem → Option β) (rows : List α)
    (item : List α → WorkItem) :
    (workItem rows item).findSome? f = if rows.isEmpty then none else f (item rows) := by
  unfold workItem
  split
  · rfl
  · rw [List.findSome?_singleton]

/-! ## The order of the tasks -/

/-- The item `assigned_tasks` of an answer. -/
def HeartbeatResponse.assignedTasks (response : HeartbeatResponse) :
    Option (ℕ × List TaskItem) :=
  response.items.findSome? fun
    | .assignedTasks count items => some (count, items)
    | _ => none

def TaskPriority.rank : TaskPriority → ℕ
  | critical => 3
  | high => 2
  | medium => 1
  | low => 0

/-- **A task comes before another one**: it is more urgent, or as urgent and not newer. -/
def Precedes (a b : ℕ × TaskRow) : Prop :=
  b.2.priority.rank < a.2.priority.rank
    ∨ b.2.priority = a.2.priority ∧ a.2.createdAt ≤ b.2.createdAt

def tasksReport (rows : List (ℕ × TaskRow)) : Option (ℕ × List TaskItem) :=
  if rows.isEmpty then none else some (rows.length, rows.map TaskItem.of)

/-- **The most urgent tasks are listed**, ten of those an agent has to do, in their
order. -/
def Prioritized (name : String) (s : CommentDb) (response : HeartbeatResponse) : Prop :=
  ∃ rows, IsFirst Precedes 10 (s.db.tasks.rows.filter (assignedTest name)) rows
    ∧ response.assignedTasks = tasksReport rows

theorem map_eq_of_report {α β : Type} {item : α → β} {xs ys : List α}
    (h : (if xs.isEmpty then none else some (xs.length, xs.map item))
      = if ys.isEmpty then none else some (ys.length, ys.map item)) :
    xs.map item = ys.map item := by
  cases xs with
  | nil =>
    cases ys with
    | nil => rfl
    | cons y ys => cases h
  | cons x xs =>
    cases ys with
    | nil => cases h
    | cons y ys => exact (Prod.mk.inj (Option.some.inj h)).2

theorem tasksReport_inj {tasks : Table TaskRow} {xs ys : List (ℕ × TaskRow)}
    (hxs : ∀ x ∈ xs, x ∈ tasks.rows) (hys : ∀ y ∈ ys, y ∈ tasks.rows)
    (h : tasksReport xs = tasksReport ys) : xs = ys :=
  List.eq_of_map_eq (fun x hx y hy heq =>
    Table.eq_of_fst_eq (hxs x hx) (hys y hy) (congrArg TaskItem.id heq)) (map_eq_of_report h)

theorem TaskPriority.text_lt_iff {a b : TaskPriority} :
    a.text < b.text ↔ a = .critical ∧ b ≠ .critical ∨ a = .high ∧ (b = .medium ∨ b = .low)
      ∨ a = .low ∧ b = .medium := by
  cases a <;> cases b <;> decide

theorem TaskPriority.text_inj {a b : TaskPriority} : a.text = b.text ↔ a = b := by
  cases a <;> cases b <;> decide

/-- Two different priorities stand in one order by their texts and by their ranks only if
they are medium and low. -/
theorem TaskPriority.orders_agree_iff {a b : TaskPriority} :
    b.text < a.text ∧ b.rank < a.rank ↔ a = .medium ∧ b = .low := by
  cases a <;> cases b <;> decide

/-- **Where the two orders agree**: the tasks are medium or low, or of one priority. -/
def EvenlyUrgent (tasks : List (ℕ × TaskRow)) : Prop :=
  (∀ t ∈ tasks, t.2.priority = .medium ∨ t.2.priority = .low)
    ∨ ∀ t ∈ tasks, ∀ t' ∈ tasks, t.2.priority = t'.2.priority

theorem EvenlyUrgent.precedes {tasks : List (ℕ × TaskRow)} (h : EvenlyUrgent tasks)
    {a b : ℕ × TaskRow} (ha : a ∈ tasks) (hb : b ∈ tasks) (hab : TaskOrder a b) :
    Precedes a b := by
  unfold TaskOrder at hab
  rw [TaskPriority.text_inj] at hab
  refine hab.imp_left fun hlt => ?_
  have hcases := TaskPriority.text_lt_iff.mp hlt
  rcases h with hlow | hsame
  · refine (TaskPriority.orders_agree_iff.mpr ?_).2
    rcases hlow a ha with ha | ha <;> rcases hlow b hb with hb | hb <;> simp_all
  · rw [hsame a ha b hb] at hlt
    exact absurd hlt (String.lt_irrefl _)

theorem evenlyUrgent_of_first {tasks : List (ℕ × TaskRow)} {x : ℕ × TaskRow}
    (htext : ∀ t ∈ tasks, TaskOrder x t) (hrank : ∀ t ∈ tasks, Precedes x t) :
    EvenlyUrgent tasks := by
  have hcases : ∀ t ∈ tasks, t.2.priority = x.2.priority
      ∨ x.2.priority = .medium ∧ t.2.priority = .low := by
    intro t ht
    rcases htext t ht with hlt | ⟨heq, -⟩
    · rcases hrank t ht with hless | ⟨heq, -⟩
      · exact .inr (TaskPriority.orders_agree_iff.mp ⟨hlt, hless⟩)
      · exact .inl heq
    · exact .inl (TaskPriority.text_inj.mp heq)
  by_cases hmedium : x.2.priority = .medium
  · refine .inl fun t ht => (hcases t ht).imp (fun heq => ?_) And.right
    rw [heq, hmedium]
  · have hall : ∀ t ∈ tasks, t.2.priority = x.2.priority := fun t ht =>
      (hcases t ht).resolve_right fun h => hmedium h.1
    exact .inr fun t ht t' ht' => (hall t ht).trans (hall t' ht').symm

theorem assignedTasks_heartbeat {site : AgentSite} {agents : AgentState} {idText name : String}
    {agent : ℕ} {r : AgentRow} (orders : HeartbeatOrders) (s : CommentDb)
    (hfound : lookupAgent site agents idText = some (agent, r)) (hname : r .name = .text name) :
    (heartbeat site orders agents idText s).2.assignedTasks
      = tasksReport (orders.tasks.first 10 (s.db.tasks.rows.filter (assignedTest name))) := by
  unfold HeartbeatResponse.assignedTasks
  rw [items_heartbeat orders s hfound hname]
  unfold workItems tasksReport
  simp only [List.findSome?_append, findSome?_workItem, ite_self, Option.none_or, Option.or_none]

/-- **The tasks of a heartbeat are in the order of their priorities** exactly where none
that the agent has to do is critical or high, or all have one priority. -/
theorem heartbeat_prioritized_iff (site : AgentSite) (orders : HeartbeatOrders)
    (agents : AgentState) (idText : String) (s : CommentDb) {agent : ℕ} {r : AgentRow}
    {name : String} (hfound : lookupAgent site agents idText = some (agent, r))
    (hname : r .name = .text name) :
    Prioritized name s (heartbeat site orders agents idText s).2
      ↔ EvenlyUrgent (s.db.tasks.rows.filter (assignedTest name)) := by
  have hfirst := orders.tasks.isFirst_first 10 (s.db.tasks.rows.filter (assignedTest name))
  have hreport := assignedTasks_heartbeat orders s hfound hname
  constructor
  · rintro ⟨rows, hrows, hsame⟩
    have hmem : ∀ {xs : List (ℕ × TaskRow)}, (∀ x ∈ xs,
        x ∈ s.db.tasks.rows.filter (assignedTest name)) → ∀ x ∈ xs, x ∈ s.db.tasks.rows :=
      fun h x hx => (List.mem_filter.mp (h x hx)).1
    rw [tasksReport_inj (hmem fun _ => hfirst.mem) (hmem fun _ => hrows.mem)
      (hreport.symm.trans hsame)] at hfirst
    cases rows with
    | nil =>
      have hlength := hfirst.length
      have hnone : s.db.tasks.rows.filter (assignedTest name) = [] :=
        List.length_eq_zero_iff.mp (by rw [List.length_nil] at hlength; omega)
      rw [hnone]
      exact .inl fun t ht => absurd ht List.not_mem_nil
    | cons x rows =>
      exact evenlyUrgent_of_first (fun t => hfirst.head_precedes (.inr ⟨rfl, Nat.le_refl _⟩))
        fun t => hrows.head_precedes (.inr ⟨rfl, Nat.le_refl _⟩)
  · intro h
    exact ⟨_, hfirst.mono fun a ha b hb => h.precedes ha hb, hreport⟩

/-! ## A queue -/

theorem TaskPriority.text_trichotomy (a b : TaskPriority) :
    a.text < b.text ∨ a.text = b.text ∨ b.text < a.text := by
  cases a <;> cases b <;> decide

instance : DecidableRel TaskOrder := fun a b =>
  inferInstanceAs (Decidable (b.2.priority.text < a.2.priority.text ∨ _ ∧ _))

/-- SQLite for concrete runs: rows that may stand either way stand as they were
inserted. -/
def sampleHeartbeatOrders : HeartbeatOrders where
  mentions := .insertion _
  tasks :=
    have : Std.Total TaskOrder := ⟨fun a b => by
      rcases TaskPriority.text_trichotomy a.2.priority b.2.priority with h | h | h
      · exact .inr (.inl h)
      · exact (Nat.le_total a.2.createdAt b.2.createdAt).imp (fun hle => .inr ⟨h.symm, hle⟩)
          fun hle => .inr ⟨h, hle⟩
      · exact .inl (.inl h)⟩
    have : IsTrans (ℕ × TaskRow) TaskOrder := ⟨fun a b c hab hbc => by
      rcases hab with hab | ⟨hab, htab⟩
      · rcases hbc with hbc | ⟨hbc, -⟩
        · exact .inl (String.lt_trans hbc hab)
        · exact .inl (hbc ▸ hab)
      · rcases hbc with hbc | ⟨hbc, htbc⟩
        · exact .inl (hab ▸ hbc)
        · exact .inr ⟨hbc.trans hab, htab.trans htbc⟩⟩
    .insertion _
  notifications := .insertion _
  activities := .insertion _

/-- An agent of the name. -/
def sampleAgents (name : String) : AgentState :=
  (postAgent sampleAgentSite (.initial 1700000000000)
    (some (.obj [("name", .str name), ("role", .str "developer")]))).1

/-- Two tasks of ada, of which the first is critical. -/
def sampleQueue : CommentDb where
  db := sampleTasks
    [{ sampleTask with title := "Outage", priority := .critical, assignedTo := some "ada" },
      { sampleTask with title := "Docs", priority := .medium, assignedTo := some "ada" }]
  comments := .empty

theorem Prioritized.ranks {name : String} {s : CommentDb} {response : HeartbeatResponse}
    (h : Prioritized name s response) {count : ℕ} {items : List TaskItem}
    (hitems : response.assignedTasks = some (count, items)) :
    items.Pairwise fun a b => b.priority.rank ≤ a.priority.rank := by
  obtain ⟨rows, hrows, hreport⟩ := h
  rw [hreport, tasksReport] at hitems
  split at hitems
  · cases hitems
  · obtain ⟨-, rfl⟩ := Prod.mk.inj (Option.some.inj hitems)
    refine List.pairwise_map.mpr (hrows.sorted.imp fun hab => ?_)
    rcases hab with hless | ⟨hsame, -⟩
    · exact hless.le
    · exact (congrArg TaskPriority.rank hsame).le

/-- **The critical task comes last.** -/
theorem not_prioritized_sampleQueue :
    ¬ ∀ (site : AgentSite) (orders : HeartbeatOrders) (agents : AgentState) (idText : String)
      (s : CommentDb) (agent : ℕ) (r : AgentRow) (name : String),
      lookupAgent site agents idText = some (agent, r) → r .name = .text name →
        Prioritized name s (heartbeat site orders agents idText s).2 := by
  intro h
  have hagent : (lookupAgent sampleAgentSite (sampleAgents "ada") "ada").map
      (fun found => (found.1, found.2 .name)) = some (1, .text "ada") := by decide +kernel
  have hlisted : (heartbeat sampleAgentSite sampleHeartbeatOrders (sampleAgents "ada") "ada"
      sampleQueue).2.assignedTasks = some (2, [⟨2, "Docs", .in_progress, .medium, none⟩,
        ⟨1, "Outage", .in_progress, .critical, none⟩]) := by decide +kernel
  obtain ⟨⟨agent, r⟩, hfound, heq⟩ := Option.map_eq_some_iff.mp hagent
  have hranks := (h sampleAgentSite sampleHeartbeatOrders (sampleAgents "ada") "ada" sampleQueue
    agent r "ada" hfound (Prod.mk.inj heq).2).ranks hlisted
  exact absurd hranks (by decide)

/-- Two tasks of ada that are not urgent. -/
def sampleChores : CommentDb where
  db := sampleTasks
    [{ sampleTask with title := "Docs", priority := .low, assignedTo := some "ada" },
      { sampleTask with title := "Tests", priority := .medium, assignedTo := some "ada" }]
  comments := .empty

/-- Where no task is critical or high, the medium ones come first. -/
theorem heartbeat_prioritized_sampleChores :
    Prioritized "ada" sampleChores (heartbeat sampleAgentSite sampleHeartbeatOrders
      (sampleAgents "ada") "ada" sampleChores).2 := by
  have hagent : (lookupAgent sampleAgentSite (sampleAgents "ada") "ada").map
      (fun found => (found.1, found.2 .name)) = some (1, .text "ada") := by decide +kernel
  obtain ⟨⟨agent, r⟩, hfound, heq⟩ := Option.map_eq_some_iff.mp hagent
  refine (heartbeat_prioritized_iff _ _ _ _ _ hfound (Prod.mk.inj heq).2).mpr (.inl ?_)
  decide +kernel

end MissionControl
