import MissionControl.ListQueries

/-!
# The history of a conversation

When a conversation is opened, the chat panel loads its messages with a limit, and stores
them. The server orders them from the oldest on before it cuts the list off: of a long
conversation the panel shows the beginning, and not what was said last
(`not_showsLatest_sampleConversation`). It shows the latest messages exactly where there
are no more than the limit (`showsLatest_iff`).
-/

namespace MissionControl

/-- **`loadMessages`** of the chat panel, with a limit: what is loaded, if the server
answers with messages. -/
def loadMessages (rt : Runtime) (sq : Sqlite)
    (order : OrderBy fun a b : ℕ × MessageRow => a.2.createdAt ≤ b.2.createdAt)
    (messages : Table MessageRow) (activeConversation limit : String) :
    Option (List ChatMessage) :=
  if activeConversation = "" then none
  else
    match getMessages rt sq order messages
        ⟨some activeConversation, none, none, none, ⟨some limit, none⟩⟩ with
    | .page rows _ _ _ => some rows
    | .error _ _ => none

def conversationRows (messages : Table MessageRow) (conversation : String) :
    List (ℕ × MessageRow) :=
  messages.rows.filter fun r => decide (r.2.conversationId = conversation)

/-- **The latest messages are shown**, in the order of their times: what is loaded and
stored are so many of the newest. -/
def ShowsLatest (rt : Runtime) (sq : Sqlite)
    (order : OrderBy fun a b : ℕ × MessageRow => a.2.createdAt ≤ b.2.createdAt)
    (messages : Table MessageRow) (conversation : String) (limit : ℕ) (store : ChatState) :
    Prop :=
  ∃ loaded rows, loadMessages rt sq order messages conversation limit.repr = some loaded
    ∧ IsFirst (fun a b : ℕ × MessageRow => b.2.createdAt ≤ a.2.createdAt) limit
      (conversationRows messages conversation) rows
    ∧ (store.setChatMessages loaded).chatMessages.map some
      = rows.reverse.map (parseMessage rt)

/-! ## What is loaded -/

theorem parseNumber_repr {n : ℕ} (h : n < 2 ^ 53) : parseNumber n.repr = .finite n := by
  unfold parseNumber JsNumber.ofInteger
  rw [parseInt_repr, Option.elim_some, Int.natAbs_natCast, Double.nearest_of_lt h]
  dsimp only
  rw [if_neg (Int.not_lt.mpr (Int.natCast_nonneg n))]

theorem takes_limitNumber {limit cap : ℕ} (hcap : limit ≤ cap) (hsmall : limit < 2 ^ 53)
    (offset : Option String) :
    ((PageParams.mk (some limit.repr) offset).limitNumber cap).Takes limit := by
  have hne : limit.repr ≠ "" := by
    intro hempty
    have hparse := parseInt_repr limit
    rw [hempty, show parseInt "" = none from by decide +kernel] at hparse
    cases hparse
  have hle : (limit : ℚ) ≤ cap := by exact_mod_cast hcap
  have hnumber : (PageParams.mk (some limit.repr) offset).limitNumber cap
      = .finite (limit : ℤ) := by
    unfold PageParams.limitNumber
    rw [Option.getD_some, orElse, if_neg hne, parseNumber_repr hsmall, JsNumber.capped,
      min_eq_left hle, Int.cast_natCast]
  refine ⟨JsNumber.integer_eq_some.mpr hnumber, ?_⟩
  rw [Int.natAbs_natCast]
  exact hsmall.trans (Nat.pow_lt_pow_right (by decide) (by decide))

theorem takes_offsetNumber (limit : Option String) :
    (PageParams.mk limit none).offsetNumber.Takes 0 := by
  have hnumber : (PageParams.mk limit none).offsetNumber = .finite (0 : ℤ) := by
    unfold PageParams.offsetNumber
    rw [Option.getD_none]
    decide +kernel
  exact ⟨JsNumber.integer_eq_some.mpr hnumber, Nat.two_pow_pos 63⟩

section Load

variable {rt : Runtime} {sq : Sqlite}
  {order : OrderBy fun a b : ℕ × MessageRow => a.2.createdAt ≤ b.2.createdAt}
  {messages : Table MessageRow} {conversation : String} {limit : ℕ}

/-- **What is loaded** are the oldest messages of the conversation. -/
theorem loadMessages_eq (hne : conversation ≠ "") (hlimit : limit ≤ 200) :
    loadMessages rt sq order messages conversation limit.repr
      = (order.first limit (conversationRows messages conversation)).mapM (parseMessage rt) := by
  have hselect : ∀ rows : List (ℕ × MessageRow),
      selectPage sq ((PageParams.mk (some limit.repr) none).limitNumber 200)
        (PageParams.mk (some limit.repr) none).offsetNumber rows = .ok (rows.take limit) := by
    intro rows
    unfold selectPage
    rw [sqlLimit_of_takes sq (takes_limitNumber hlimit (by omega) none),
      sqlLimit_of_takes sq (takes_offsetNumber (some limit.repr)),
      if_neg (Int.not_lt.mpr (Int.natCast_nonneg limit)), Int.toNat_natCast]
    rfl
  have hrows : (messages.rows.filter fun r =>
        (MessageListParams.mk (some conversation) none none none ⟨some limit.repr, none⟩).test r.2)
      = conversationRows messages conversation := by
    refine List.filter_congr fun r _ => ?_
    unfold MessageListParams.test paramTest sinceTest
    simp [hne]
  unfold loadMessages getMessages listRows
  rw [if_neg hne, hrows]
  dsimp only
  rw [hselect]
  dsimp only
  unfold OrderBy.first
  cases ((order.sort (conversationRows messages conversation)).take limit).mapM
    (parseMessage rt) <;> rfl

theorem mem_conversationRows {r : ℕ × MessageRow} :
    r ∈ conversationRows messages conversation
      ↔ messages.row r.1 = some r.2 ∧ r.2.conversationId = conversation := by
  unfold conversationRows
  rw [List.mem_filter, messages.mem_rows, decide_eq_true_iff]

theorem lastMessages_eq_self {loaded : List ChatMessage} (h : loaded.length ≤ 500) :
    lastMessages loaded = loaded := by
  unfold lastMessages
  rw [Nat.sub_eq_zero_of_le h, List.drop_zero]

/-- Two rows of the table that are shown as one message are one row. -/
theorem eq_of_parseMessage {a b : ℕ × MessageRow} {m : ChatMessage}
    (ha : messages.row a.1 = some a.2) (hb : messages.row b.1 = some b.2)
    (hparse : parseMessage rt a = some m) (hparse' : parseMessage rt b = some m) : a = b := by
  have hid : ∀ r : ℕ × MessageRow, parseMessage rt r = some m → m.id = r.1 := by
    intro r h
    obtain ⟨metadata, -, rfl⟩ := Option.map_eq_some_iff.mp h
    rfl
  have hids : a.1 = b.1 := Int.natCast_inj.mp ((hid a hparse).symm.trans (hid b hparse'))
  rw [← hids, ha] at hb
  exact Prod.ext hids (Option.some.inj hb)

/-- **What is stored** is what the first rows are shown as. -/
theorem showsLatest_rows {store : ChatState} (hne : conversation ≠ "") (hlimit : limit ≤ 200) :
    ShowsLatest rt sq order messages conversation limit store
      ↔ ∃ (loaded : List ChatMessage) (rows : List (ℕ × MessageRow)),
          (order.first limit (conversationRows messages conversation)).map (parseMessage rt)
            = loaded.map some
        ∧ IsFirst (fun a b : ℕ × MessageRow => b.2.createdAt ≤ a.2.createdAt) limit
          (conversationRows messages conversation) rows
        ∧ rows.reverse.map (parseMessage rt) = loaded.map some := by
  unfold ShowsLatest
  refine exists_congr fun loaded => exists_congr fun rows => ?_
  rw [loadMessages_eq hne hlimit, RoseTree.mapM_eq_some_iff]
  refine and_congr_right fun hloaded => and_congr_right fun _ => ?_
  have hlength : loaded.length ≤ 500 := by
    have hlength := congrArg List.length hloaded
    rw [List.length_map, List.length_map, OrderBy.first, List.length_take] at hlength
    omega
  show (lastMessages loaded).map some = _ ↔ _
  rw [lastMessages_eq_self hlength]
  exact eq_comm

/-- **The oldest are the newest** only where all are shown. -/
theorem all_shown_of_showsLatest {store : ChatState}
    (hdistinct : ((conversationRows messages conversation).map fun r => r.2.createdAt).Nodup)
    (hne : conversation ≠ "") (hpos : 1 ≤ limit) (hlimit : limit ≤ 200)
    (h : ShowsLatest rt sq order messages conversation limit store) :
    (conversationRows messages conversation).length ≤ limit
      ∧ ∀ r ∈ conversationRows messages conversation, (parseMessage rt r).isSome := by
  obtain ⟨loaded, rows, hloaded, hrows, hlatest⟩ := (showsLatest_rows hne hlimit).mp h
  have hfirst := order.isFirst_first limit (conversationRows messages conversation)
  have hsome : ∀ r ∈ rows.reverse, ∃ m, parseMessage rt r = some m := by
    intro r hr
    have hmem := List.mem_map_of_mem (f := parseMessage rt) hr
    rw [hlatest] at hmem
    obtain ⟨m, -, hm⟩ := List.mem_map.mp hmem
    exact ⟨m, hm.symm⟩
  -- what is shown tells the rows
  have heq : rows.reverse = order.first limit (conversationRows messages conversation) := by
    refine List.eq_of_map_eq (fun a ha b hb hab => ?_) (hlatest.trans hloaded.symm)
    obtain ⟨m, hm⟩ := hsome a ha
    exact eq_of_parseMessage (mem_conversationRows.mp (hrows.mem (List.mem_reverse.mp ha))).1
      (mem_conversationRows.mp (hfirst.mem hb)).1 hm (hab.symm.trans hm)
  have hsubset : rows ⊆ order.first limit (conversationRows messages conversation) :=
    fun r hr => heq ▸ List.mem_reverse.mpr hr
  have hlength := hfirst.length_le_of_swap hrows hsubset hpos (List.Nodup.of_map _ hdistinct)
    fun a ha b hb hab hba => List.inj_on_of_nodup_map hdistinct ha hb (Nat.le_antisymm hab hba)
  refine ⟨hlength, fun r hr => ?_⟩
  have hall : rows.Perm (conversationRows messages conversation) :=
    hrows.subperm.perm_of_length_le (by rw [hrows.length, Nat.min_eq_right hlength])
  obtain ⟨m, hm⟩ := hsome r (List.mem_reverse.mpr (hall.mem_iff.mpr hr))
  exact Option.isSome_iff_exists.mpr ⟨m, hm⟩

end Load

/-- **The latest messages are shown** exactly where there are no more than the limit, a
conversation is open, and the metadata of all can be parsed. -/
theorem showsLatest_iff (rt : Runtime) (sq : Sqlite)
    (order : OrderBy fun a b : ℕ × MessageRow => a.2.createdAt ≤ b.2.createdAt)
    (messages : Table MessageRow) (conversation : String) (limit : ℕ) (store : ChatState)
    (hdistinct : ((conversationRows messages conversation).map fun r => r.2.createdAt).Nodup)
    (hpos : 1 ≤ limit) (hlimit : limit ≤ 200) :
    ShowsLatest rt sq order messages conversation limit store
      ↔ conversation ≠ "" ∧ (conversationRows messages conversation).length ≤ limit
        ∧ ∀ r ∈ conversationRows messages conversation, (parseMessage rt r).isSome := by
  by_cases hne : conversation = ""
  · refine iff_of_false ?_ fun h => h.1 hne
    rintro ⟨loaded, rows, hloaded, -⟩
    unfold loadMessages at hloaded
    rw [if_pos hne] at hloaded
    cases hloaded
  refine ⟨fun h => ⟨hne, all_shown_of_showsLatest hdistinct hne hpos hlimit h⟩, ?_⟩
  rw [showsLatest_rows hne hlimit]
  rintro ⟨-, hlength, hparsed⟩
  have htake : order.first limit (conversationRows messages conversation)
      = order.sort (conversationRows messages conversation) :=
    List.take_of_length_le ((order.perm _).length_eq.trans_le hlength)
  obtain ⟨loaded, hloaded⟩ := @RoseTree.exists_mapM _ _ (parseMessage rt)
    (order.sort (conversationRows messages conversation)) fun r hr =>
      Option.isSome_iff_exists.mp (hparsed r ((order.perm _).mem_iff.mp hr))
  have hmap := RoseTree.mapM_eq_some_iff.mp hloaded
  refine ⟨loaded, (order.sort (conversationRows messages conversation)).reverse,
    htake ▸ hmap, ?_, (List.reverse_reverse _).symm ▸ hmap⟩
  have hall : IsFirst (fun a b : ℕ × MessageRow => b.2.createdAt ≤ a.2.createdAt) limit
      (conversationRows messages conversation)
      ((order.sort (conversationRows messages conversation)).reverse.take limit) :=
    .take ((List.reverse_perm _).trans (order.perm _))
      (List.pairwise_reverse.mpr (order.sorted _))
  rwa [List.take_of_length_le
    ((List.length_reverse.trans (order.perm _).length_eq).trans_le hlength)] at hall

/-- Two messages are shown with a limit of two. -/
theorem showsLatest_sampleConversation :
    ShowsLatest sampleRuntime sampleSqlite sampleMessageOrder (sampleMessages 2) "conv_1" 2
      ⟨[], []⟩ :=
  (showsLatest_iff sampleRuntime sampleSqlite sampleMessageOrder (sampleMessages 2) "conv_1" 2
    ⟨[], []⟩ (by decide +kernel) (by decide) (by decide)).mpr (by decide +kernel)

/-- **Of two messages the first is shown** with a limit of one. -/
theorem not_showsLatest_sampleConversation :
    ¬ ∀ (rt : Runtime) (sq : Sqlite)
      (order : OrderBy fun a b : ℕ × MessageRow => a.2.createdAt ≤ b.2.createdAt)
      (messages : Table MessageRow) (conversation : String) (limit : ℕ) (store : ChatState),
      ((conversationRows messages conversation).map fun r => r.2.createdAt).Nodup →
        1 ≤ limit → limit ≤ 200 → conversation ≠ "" →
          (∀ r ∈ conversationRows messages conversation, (parseMessage rt r).isSome) →
            ShowsLatest rt sq order messages conversation limit store := by
  intro h
  have hshows := h sampleRuntime sampleSqlite sampleMessageOrder (sampleMessages 2) "conv_1" 1
    ⟨[], []⟩ (by decide +kernel) (by decide) (by decide) (by decide) (by decide +kernel)
  have hall := all_shown_of_showsLatest (by decide +kernel) (by decide) (by decide) (by decide)
    hshows
  exact absurd hall.1 (by decide +kernel)

end MissionControl
