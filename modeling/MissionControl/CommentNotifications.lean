import MissionControl.Comments

/-!
# The notifications of a comment

A comment notifies the subscribers of its task once it has subscribed its author, whom
it mentions and the assignee. Names come by four ways and meet in a set, so that each
subscriber but the author is told once. The empty name is never subscribed, which the
only writer of the subscriptions sees to (`Named`).

That last point is what makes the account exact: a name that is subscribed is told, and a
notification to nobody would be one too many. The order in which the database lists the
subscribers changes the order of the notifications only.
-/

namespace MissionControl

/-! ## Subscriptions -/

def Subscribed (db : TaskDb) (id : ℕ) (name : String) : Prop :=
  ∃ i, db.subscriptions.row i = some ⟨id, name⟩

/-- No empty name is subscribed to a task. -/
def Named (db : TaskDb) : Prop :=
  ∀ i s, db.subscriptions.row i = some s → s.agentName ≠ ""

section Subscriptions

variable {w : Work} {id : ℕ} {name : String}

/-- **`ensureTaskSubscription` subscribes the name**, if it is not empty. -/
theorem subscribed_ensureTaskSubscription (id' : ℕ) (agentName : String) :
    Subscribed (w.ensureTaskSubscription id' agentName).db id name
      ↔ Subscribed w.db id name ∨ id = id' ∧ name = agentName ∧ agentName ≠ "" := by
  unfold Work.ensureTaskSubscription
  split
  · next hskip =>
    refine ⟨.inl, fun h => h.elim (fun h => h) ?_⟩
    rintro ⟨rfl, rfl, hne⟩
    -- the name is there already
    have hthere := hskip.resolve_left hne
    by_contra hno
    have hnone : w.db.subscriptions.any (fun s => s = ⟨id, name⟩) = false := by
      rw [Table.any_eq_false_iff]
      intro i s hs
      refine decide_eq_false ?_
      rintro rfl
      exact hno ⟨i, hs⟩
    rw [hnone] at hthere
    exact Bool.false_ne_true hthere
  · next hnew =>
    obtain ⟨hne, -⟩ := not_or.mp hnew
    unfold Subscribed
    dsimp only
    constructor
    · rintro ⟨i, hi⟩
      rcases (Table.row_insert_eq_some _ _).mp hi with ⟨-, heq⟩ | hi
      · obtain ⟨rfl, rfl⟩ := TaskSubscription.mk.inj heq
        exact .inr ⟨rfl, rfl, hne⟩
      · exact .inl ⟨i, hi⟩
    · rintro (⟨i, hi⟩ | ⟨rfl, rfl, -⟩)
      · exact ⟨i, Table.row_insert_of_some _ _ hi⟩
      · exact ⟨_, Table.row_insert_next _ _⟩

theorem subscribed_foldl_ensure (id' : ℕ) (names : List String) :
    Subscribed (names.foldl (·.ensureTaskSubscription id' ·) w).db id name
      ↔ Subscribed w.db id name ∨ id = id' ∧ name ∈ names ∧ name ≠ "" := by
  induction names generalizing w with
  | nil => simp
  | cons agentName names ih =>
    rw [List.foldl_cons, ih, subscribed_ensureTaskSubscription, or_assoc, List.mem_cons]
    refine or_congr_right ?_
    constructor
    · rintro (⟨hid, rfl, hne⟩ | ⟨hid, hmem, hne⟩)
      · exact ⟨hid, .inl rfl, hne⟩
      · exact ⟨hid, .inr hmem, hne⟩
    · rintro ⟨hid, rfl | hmem, hne⟩
      · exact .inl ⟨hid, rfl, hne⟩
      · exact .inr ⟨hid, hmem, hne⟩

/-- **A comment subscribes its author, whom it mentions and the assignee.** -/
theorem subscribed_subscribeAll (author : String) (mentions : List String)
    (assignedTo : String) :
    Subscribed (subscribeAll id author mentions assignedTo w).db id name
      ↔ Subscribed w.db id name
        ∨ name ≠ "" ∧ (name = author ∨ name ∈ mentions ∨ name = assignedTo) := by
  have hassignee : ∀ w' : Work, Subscribed (w'.doIf (assignedTo ≠ "")
      (·.ensureTaskSubscription id assignedTo)).db id name
        ↔ Subscribed w'.db id name ∨ name = assignedTo ∧ name ≠ "" := by
    intro w'
    unfold Work.doIf
    split
    · rw [subscribed_ensureTaskSubscription]
      refine or_congr_right ⟨fun h => ⟨h.2.1, h.2.1 ▸ h.2.2⟩, fun h => ⟨rfl, h.1, h.1 ▸ h.2⟩⟩
    · next hempty =>
      refine ⟨.inl, fun h => h.elim (fun h => h) fun ⟨heq, hne⟩ => ?_⟩
      rw [heq] at hne
      exact absurd (decide_eq_true hne) hempty
  unfold subscribeAll
  dsimp only
  rw [hassignee, subscribed_foldl_ensure, subscribed_ensureTaskSubscription]
  constructor
  · rintro (((h | ⟨-, rfl, hne⟩) | ⟨-, hmem, hne⟩) | ⟨heq, hne⟩)
    · exact .inl h
    · exact .inr ⟨hne, .inl rfl⟩
    · exact .inr ⟨hne, .inr (.inl hmem)⟩
    · exact .inr ⟨hne, .inr (.inr heq)⟩
  · rintro (h | ⟨hne, rfl | hmem | heq⟩)
    · exact .inl (.inl (.inl h))
    · exact .inl (.inl (.inr ⟨rfl, rfl, hne⟩))
    · exact .inl (.inr ⟨rfl, hmem, hne⟩)
    · exact .inr ⟨heq, hne⟩

theorem mem_getTaskSubscribers (orders : CommentOrders) {db : TaskDb} :
    name ∈ getTaskSubscribers orders db id ↔ Subscribed db id name := by
  unfold getTaskSubscribers Subscribed
  rw [List.mem_map]
  constructor
  · rintro ⟨⟨i, s⟩, hs, rfl⟩
    obtain ⟨hmem, htask⟩ := List.mem_filter.mp ((orders.subscriptions.perm _).mem_iff.mp hs)
    obtain rfl := of_decide_eq_true htask
    exact ⟨i, db.subscriptions.mem_rows.mp hmem⟩
  · rintro ⟨i, hi⟩
    exact ⟨(i, ⟨id, name⟩), (orders.subscriptions.perm _).mem_iff.mpr (List.mem_filter.mpr
      ⟨db.subscriptions.mem_rows.mpr hi, decide_eq_true rfl⟩), rfl⟩

end Subscriptions

/-! ## Notifications -/

def toldOf (ctx : RequestContext) (author title content : String) (mentioned : List String)
    (commentId : ℕ) (subscriber : String) : Notification :=
  let told := commentNotification author title content (subscriber ∈ mentioned)
  ⟨subscriber, told.type, told.title, told.message, some "comment", some commentId, none, none,
    ctx.now⟩

/-- **Each subscriber is told once, in order.** -/
theorem notifications_notifyAll (ctx : RequestContext) (author title content : String)
    (mentioned : List String) (commentId : ℕ) (subscribers : List String) (w : Work) :
    (notifyAll ctx author title content mentioned commentId subscribers w
        ).db.notifications.rows.map (·.2)
      = w.db.notifications.rows.map (·.2)
        ++ subscribers.map (toldOf ctx author title content mentioned commentId) := by
  unfold notifyAll
  induction subscribers generalizing w with
  | nil => rw [List.foldl_nil, List.map_nil, List.append_nil]
  | cons subscriber subscribers ih =>
    rw [List.foldl_cons, ih]
    unfold Work.createNotificationOf
    rw [Work.db_broadcast, Table.rows_insert, List.map_append, List.append_assoc]
    rfl

theorem subscriptions_notifyAll (ctx : RequestContext) (author title content : String)
    (mentioned : List String) (commentId : ℕ) (subscribers : List String) (w : Work) :
    (notifyAll ctx author title content mentioned commentId subscribers w).db.subscriptions
      = w.db.subscriptions := by
  unfold notifyAll
  induction subscribers generalizing w with
  | nil => rfl
  | cons subscriber subscribers ih =>
    rw [List.foldl_cons, ih]
    rfl

theorem notifications_subscribeAll (id : ℕ) (author : String) (mentions : List String)
    (assignedTo : String) (w : Work) :
    (subscribeAll id author mentions assignedTo w).db.notifications = w.db.notifications := by
  have hensure : ∀ (w : Work) agentName,
      (w.ensureTaskSubscription id agentName).db.notifications = w.db.notifications := by
    intro w agentName
    unfold Work.ensureTaskSubscription
    split <;> rfl
  unfold subscribeAll
  rw [Work.doIf_frame _ (fun w => w.db.notifications) _ fun w => hensure w assignedTo]
  have hfold : ∀ w : Work, (mentions.foldl (·.ensureTaskSubscription id ·) w).db.notifications
      = w.db.notifications := by
    induction mentions with
    | nil => exact fun _ => rfl
    | cons agentName mentions ih =>
      intro w
      rw [List.foldl_cons, ih, hensure]
  rw [hfold, hensure]

theorem nodup_eraseDups (names : List String) : names.eraseDups.Nodup := by
  induction h : names.length using Nat.strong_induction_on generalizing names with
  | _ n ih =>
    cases names with
    | nil => exact List.nodup_nil
    | cons name names =>
      rw [List.eraseDups_cons, List.nodup_cons, List.mem_eraseDups, List.mem_filter]
      refine ⟨fun hmem => ?_, ih _ ?_ _ rfl⟩
      · simp at hmem
      · rw [← h, List.length_cons]
        exact Nat.lt_succ_of_le (List.length_filter_le _ _)

/-! ## No empty name is subscribed -/

section Named

variable {w : Work} (rt : Runtime) (ctx : RequestContext)

theorem named_empty : Named .empty := by
  intro i s hs
  cases hs

theorem Named.congr {db db' : TaskDb} (h : Named db)
    (heq : db'.subscriptions = db.subscriptions) : Named db' := by
  unfold Named
  rw [heq]
  exact h

theorem Named.ensureTaskSubscription (h : Named w.db) (id : ℕ) (agentName : String) :
    Named (w.ensureTaskSubscription id agentName).db := by
  unfold Work.ensureTaskSubscription
  split
  · exact h
  · next hnew =>
    intro i s hs
    rcases (Table.row_insert_eq_some _ _).mp hs with ⟨-, rfl⟩ | hs
    · exact fun hempty => hnew (.inl hempty)
    · exact h i s hs

theorem Named.doIf (h : Named w.db) (c : Bool) {f : Work → Work}
    (hf : ∀ w, Named w.db → Named (f w).db) : Named (w.doIf c f).db := by
  unfold Work.doIf
  split
  · exact hf w h
  · exact h

theorem Named.subscribeAll (h : Named w.db) (id : ℕ) (author : String)
    (mentions : List String) (assignedTo : String) :
    Named (subscribeAll id author mentions assignedTo w).db := by
  refine Named.doIf ?_ _ fun w hw => hw.ensureTaskSubscription _ _
  have hauthor := h.ensureTaskSubscription id author
  generalize w.ensureTaskSubscription id author = w' at hauthor ⊢
  induction mentions generalizing w' with
  | nil => exact hauthor
  | cons agentName mentions ih => exact ih _ (hauthor.ensureTaskSubscription id agentName)

theorem named_postTasks {db : TaskDb} (h : Named db) (body : Option Json) :
    Named (postTasks rt ctx body db).1.db := by
  refine postTasks_keeps h (fun title data => ?_) body
  refine Named.doIf ?_ _ fun w hw => (hw.ensureTaskSubscription _ _).congr rfl
  exact Named.ensureTaskSubscription (h.congr rfl) _ _

theorem named_putTasks {db : TaskDb} (h : Named db) (body : Option Json) :
    Named (putTasks ctx body db).1.db := by
  refine putTasks_keeps h (fun w m hw => ?_) body
  unfold Work.move
  dsimp only
  have hupdated : ∀ f, Named (w.updateTask m.id f).db := fun _ => hw.congr rfl
  split
  · exact hupdated _
  · exact (hupdated _).doIf _ fun w hw => hw.congr rfl

theorem named_putTask {db : TaskDb} (h : Named db) (idText : String) (body : Option Json) :
    Named (putTask rt ctx idText body db).1.db := by
  refine putTask_keeps h (fun id task data => ?_) idText body
  refine Named.doIf (Named.doIf (Named.doIf (h.congr rfl) _ fun w hw => ?_) _
    fun w hw => ?_) _ fun w hw => hw.congr rfl
  · exact hw.congr rfl
  · exact (hw.ensureTaskSubscription _ _).congr rfl

theorem named_deleteTask {db : TaskDb} (h : Named db) (idText : String) :
    Named (deleteTask ctx idText db).1.db := by
  refine deleteTask_keeps h (fun _ _ => ?_) idText
  intro i s hs
  exact h i s ((Table.row_deleteWhere_eq_some _ _).mp hs).1

theorem named_postReview {db : TaskDb} (h : Named db) (body : Option Json) :
    Named (postReview ctx body db).1.db :=
  postReview_keeps h (fun _ _ => h.congr rfl) body

theorem named_handleSync {db : TaskDb} (h : Named db) (repo : String)
    (assignAgent : Option String) (issues : List GitHubIssue) :
    Named (handleSync rt ctx repo assignAgent issues db).1.db := by
  refine handleSync_keeps h (fun p issue hp => hp.congr ?_) (fun _ _ h => h.congr rfl) issues
  unfold SyncProgress.issue
  split
  · rfl
  · rfl
  · dsimp only
    split
    · rfl
    · rfl

/-- **No request subscribes an empty name.** -/
theorem named_next (s : CommentDb) (a : CommentAction) (h : Named s.db) :
    Named ((commentMachine rt).next s a).db := by
  obtain ⟨ctx, orders, request⟩ := a
  cases request with
  | tasks request =>
    cases request with
    | create body => exact named_postTasks rt ctx h body
    | bulk body => exact named_putTasks ctx h body
    | update idText body => exact named_putTask rt ctx h idText body
    | delete idText => exact named_deleteTask ctx h idText
    | review body => exact named_postReview ctx h body
    | sync repo assignAgent issues => exact named_handleSync rt ctx h repo assignAgent issues
  | comment idText body =>
    show Named (postComment rt orders ctx idText body s).state.db
    rcases postComment_cases rt orders ctx idText body s with
      ⟨response, heq, -⟩ | ⟨id, task, j, fields, parentId, response, -, -, -, -, -, heq, -⟩
    · rw [heq]
      exact h
    · rw [heq]
      refine Named.congr ?_ (subscriptions_notifyAll _ _ _ _ _ _ _ _)
      exact Named.subscribeAll (h.congr rfl) _ _ _ _

end Named

/-! ## Exactness -/

/-- The name is to hear of a comment of an author: it is subscribed, mentioned or the
assignee, and neither the author nor empty. -/
def Concerned (db : TaskDb) (id : ℕ) (task : TaskRow) (author content name : String) : Prop :=
  name ≠ "" ∧ name ≠ author
    ∧ (Subscribed db id name ∨ name ∈ parseMentions content ∨ task.assignedTo = some name)

/-- **The notifications of a comment are exact**: one for each name that is to hear of it,
as a mention just if it is mentioned, and no other; and the author, the mentioned names and
the assignee are subscribed. -/
structure ExactlyNotified (before after : TaskDb) (id : ℕ) (task : TaskRow)
    (author content : String) (commentId : ℕ) : Prop where
  notified : ∃ told, after.notifications.rows.map (·.2)
      = before.notifications.rows.map (·.2) ++ told
    ∧ (told.map (·.recipient)).Nodup
    ∧ (∀ name, name ∈ told.map (·.recipient) ↔ Concerned before id task author content name)
    ∧ ∀ n ∈ told, n.type = (if n.recipient ∈ parseMentions content then "mention" else "comment")
      ∧ n.sourceType = some "comment" ∧ n.sourceId = some commentId
  subscribed : ∀ name, Subscribed after id name ↔ Subscribed before id name
    ∨ name ≠ "" ∧ (name = author ∨ name ∈ parseMentions content ∨ task.assignedTo = some name)

theorem eq_getD_iff {assignedTo : Option String} {name : String} (hne : name ≠ "") :
    name = assignedTo.getD "" ↔ assignedTo = some name := by
  cases assignedTo with
  | none => exact iff_of_false hne (Option.some_ne_none name).symm
  | some assignee => rw [Option.getD_some, Option.some.injEq, eq_comm]

/-- The name is subscribed once the comment is added. -/
def SubscribedAfter (db : TaskDb) (id : ℕ) (task : TaskRow) (author content name : String) :
    Prop :=
  Subscribed db id name
    ∨ name ≠ "" ∧ (name = author ∨ name ∈ parseMentions content ∨ task.assignedTo = some name)

/-- **The subscribers but the author are the names that are to hear of the comment.** -/
theorem mem_recipients (orders : CommentOrders) {db db' : TaskDb} (h : Named db) {id : ℕ}
    {task : TaskRow} {author content : String}
    (hsubscribed : ∀ name, Subscribed db' id name ↔ SubscribedAfter db id task author content name)
    (name : String) :
    name ∈ (getTaskSubscribers orders db' id).eraseDups.filter (· ≠ author)
      ↔ Concerned db id task author content name := by
  rw [List.mem_filter, List.mem_eraseDups, mem_getTaskSubscribers, hsubscribed,
    decide_eq_true_eq]
  constructor
  · rintro ⟨hold | ⟨hne, rfl | hnew⟩, hauthor⟩
    · refine ⟨?_, hauthor, .inl hold⟩
      obtain ⟨i, hi⟩ := hold
      exact h i _ hi
    · exact absurd rfl hauthor
    · exact ⟨hne, hauthor, .inr hnew⟩
  · rintro ⟨hne, hauthor, hold | hnew⟩
    · exact ⟨.inl hold, hauthor⟩
    · exact ⟨.inr ⟨hne, .inr hnew⟩, hauthor⟩

theorem type_toldOf (ctx : RequestContext) (author title content : String)
    (mentions : List String) (commentId : ℕ) (name : String) :
    (toldOf ctx author title content mentions.eraseDups commentId name).type
      = if name ∈ mentions then "mention" else "comment" := by
  unfold toldOf commentNotification
  dsimp only
  by_cases hmention : name ∈ mentions
  · rw [decide_eq_true (List.mem_eraseDups.mpr hmention), if_pos rfl, if_pos hmention]
  · rw [decide_eq_false fun hin => hmention (List.mem_eraseDups.mp hin),
      if_neg Bool.false_ne_true, if_neg hmention]

/-- **What an added comment notifies and subscribes.** -/
theorem exactlyNotified_addComment (rt : Runtime) (orders : CommentOrders)
    (ctx : RequestContext) (id : ℕ) (task : TaskRow) (fields : CommentFields)
    (parentId : Option ℕ) {s : CommentDb} (h : Named s.db) :
    ExactlyNotified s.db (addComment rt orders ctx id task fields parentId s).1.db id task
      (fields.author.getD "system") fields.content s.comments.next := by
  unfold addComment
  dsimp only
  generalize fields.author.getD "system" = author
  generalize hactivity : Work.logActivity _ _ = w
  have hsubscriptions : w.db.subscriptions = s.db.subscriptions := by
    rw [← hactivity]
    rfl
  have hnotifications : w.db.notifications = s.db.notifications := by
    rw [← hactivity]
    rfl
  generalize hwork : subscribeAll id author (parseMentions fields.content).eraseDups
    (task.assignedTo.getD "") w = w'
  have hsubscribed : ∀ name, Subscribed w'.db id name
      ↔ SubscribedAfter s.db id task author fields.content name := by
    intro name
    have hsame : Subscribed w.db id name ↔ Subscribed s.db id name := by
      unfold Subscribed
      rw [hsubscriptions]
    rw [← hwork, subscribed_subscribeAll, hsame, List.mem_eraseDups]
    refine or_congr_right (and_congr_right fun hne => ?_)
    rw [eq_getD_iff hne]
  have hnodup : ((getTaskSubscribers orders w'.db id).eraseDups.filter (· ≠ author)).Nodup :=
    (nodup_eraseDups _).filter _
  have hmem := mem_recipients orders h hsubscribed
  generalize (getTaskSubscribers orders w'.db id).eraseDups.filter (· ≠ author) = names
    at hnodup hmem ⊢
  have hrecipients : (names.map (toldOf ctx author task.title fields.content
      (parseMentions fields.content).eraseDups s.comments.next)).map (·.recipient) = names := by
    rw [List.map_map]
    exact List.map_id names
  refine ⟨⟨names.map (toldOf ctx author task.title fields.content
    (parseMentions fields.content).eraseDups s.comments.next), ?_, ?_, ?_, ?_⟩, ?_⟩
  · rw [notifications_notifyAll, ← hwork, notifications_subscribeAll, hnotifications]
  · rwa [hrecipients]
  · rwa [hrecipients]
  · intro n hn
    obtain ⟨name, -, rfl⟩ := List.mem_map.mp hn
    exact ⟨type_toldOf _ _ _ _ _ _ _, rfl, rfl⟩
  · intro name
    unfold Subscribed
    rw [subscriptions_notifyAll]
    exact hsubscribed name

end MissionControl
