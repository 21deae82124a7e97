import MissionControl.AuthRequests
import MissionControl.JsonRoundTrip
import MissionControl.Library.EventSource
import MissionControl.ServerEvents

/-!
# The event streams

`GET /api/events` opens a stream: it enqueues a greeting, registers a listener with the bus and
starts a heartbeat. `broadcast` hands an event to every listener, which enqueues it as one frame;
when the client goes, `cancel` removes the listener and stops the heartbeat.

`eventServer_kept` says what becomes of this in every run, whatever streams there are and in
whatever order they come and go: the listeners and the heartbeats are those of the streams that
are open, and a stream has been sent the greeting and then every event from its opening to its
cancellation, once and in order. `eventStream_dispatched` follows the octets to the other side:
wherever they stop and however they are cut, what the hook of the client hands to the store are
the events whose frames have arrived whole.
-/

namespace MissionControl

/-! ## The bus and the streams -/

/-- An event, as `broadcast` builds it. -/
structure BroadcastEvent where
  type : String
  data : Json
  timestamp : ℕ

def BroadcastEvent.toJson (event : BroadcastEvent) : Json :=
  .obj [("type", .str event.type), ("data", event.data),
    ("timestamp", .num (.finite event.timestamp))]

def connectedEvent (now : ℕ) : BroadcastEvent := ⟨"connected", .null, now⟩

/-- What is enqueued: an event, or a heartbeat. -/
inductive StreamItem where
  | event (event : BroadcastEvent)
  | heartbeat

/-- **A chunk**, as it is enqueued. -/
def StreamItem.chunk (rt : Runtime) : StreamItem → List ℕ
  | event e => Utf8.encode ("data: ".toList ++ Json.stringify rt e.toJson ++ ['\n', '\n'])
  | heartbeat => Utf8.encode ": heartbeat\n\n".toList

/-- A stream: its chunks, and whether the client has gone. -/
structure EventStream where
  chunks : List (List ℕ)
  cancelled : Bool

/-- `controller.enqueue`. It throws where the client has gone, and the handlers catch that. -/
def EventStream.enqueue (rt : Runtime) (item : StreamItem) (stream : EventStream) : EventStream :=
  if stream.cancelled then stream
  else { stream with chunks := stream.chunks ++ [item.chunk rt] }

/-- **The streams of a server**, the listeners of `server-event` in the order in which they were
registered, and the heartbeats that run, each by the stream it is for. -/
structure EventServer where
  streams : Table EventStream
  listeners : List ℕ
  heartbeats : List ℕ

def EventServer.initial : EventServer := ⟨.empty, [], []⟩

/-- **What happens**: a request, with what `requireRole` answers, a broadcast, a heartbeat that is
due, or a client that goes. -/
inductive EventServerAction where
  | get (auth : RoleAnswer) (now : ℕ)
  | broadcast (type : String) (data : Json) (now : ℕ)
  | heartbeat (stream : ℕ)
  | cancel (stream : ℕ)

inductive EventServerOutput where
  | refused (error : String) (status : ℕ)
  | opened (stream : ℕ)

namespace EventServer

variable (rt : Runtime) (s : EventServer)

/-- The stream is there, and its client too. -/
def Open (i : ℕ) : Prop := ∃ chunks, s.streams.row i = some ⟨chunks, false⟩

def enqueue (item : StreamItem) (i : ℕ) : EventServer :=
  { s with streams := s.streams.update i (·.enqueue rt item) }

def start (now : ℕ) : EventServer where
  streams := s.streams.insert ⟨[(StreamItem.event (connectedEvent now)).chunk rt], false⟩
  listeners := s.listeners ++ [s.streams.next]
  heartbeats := s.heartbeats ++ [s.streams.next]

/-- `emit`, of a broadcast. -/
def emit (event : BroadcastEvent) : EventServer :=
  s.listeners.foldl (fun s i => s.enqueue rt (.event event) i) s

/-- A heartbeat that is due. Where the client has gone, it is stopped. -/
def beat (i : ℕ) : EventServer :=
  if i ∈ s.heartbeats then
    match s.streams.row i with
    | some ⟨_, true⟩ => { s with heartbeats := s.heartbeats.erase i }
    | _ => s.enqueue rt .heartbeat i
  else s

/-- `cancel`, and the cleanup. -/
def cancel (i : ℕ) : EventServer where
  streams := s.streams.update i fun stream => { stream with cancelled := true }
  listeners := s.listeners.erase i
  heartbeats := s.heartbeats.erase i

end EventServer

/-- **The server.** A stream that is cancelled is so for good. -/
def eventServer (rt : Runtime) : Machine EventServer EventServerAction EventServerOutput where
  step s
    | .get (.refused error status) _ => (s, [.refused error status])
    | .get (.user _) now => (s.start rt now, [.opened s.streams.next])
    | .broadcast type data now => (s.emit rt ⟨type, data, now⟩, [])
    | .heartbeat i => (s.beat rt i, [])
    | .cancel i =>
      match s.streams.row i with
      | some ⟨_, false⟩ => (s.cancel i, [])
      | _ => (s, [])

/-! ## What is promised -/

def EventServerAction.cancels (i : ℕ) : EventServerAction → Bool
  | cancel j => j = i
  | _ => false

/-- What an action sends to a stream that is open. -/
def EventServerAction.sends (i : ℕ) : EventServerAction → Option StreamItem
  | broadcast type data now => some (.event ⟨type, data, now⟩)
  | heartbeat j => if j = i then some .heartbeat else none
  | _ => none

/-- **What a stream is sent** from its opening on: the greeting, and what comes before the
cancellation. -/
def sentItems (i now : ℕ) (as : List EventServerAction) : List StreamItem :=
  .event (connectedEvent now) :: (as.takeWhile fun a => !a.cancels i).filterMap (·.sends i)

/-- **Nothing is left behind**: the listeners and the heartbeats are those of the streams that are
open, one for each. -/
structure EventServer.Kept (s : EventServer) : Prop where
  nodup : s.listeners.Nodup
  listener : ∀ i, i ∈ s.listeners ↔ s.Open i
  heartbeats : s.heartbeats = s.listeners

/-! ## One step -/

section Steps

variable {rt : Runtime} {s : EventServer} {i j : ℕ} {chunks : List (List ℕ)}

@[simp] theorem EventStream.cancelled_enqueue (item : StreamItem) (stream : EventStream) :
    (stream.enqueue rt item).cancelled = stream.cancelled := by
  unfold EventStream.enqueue
  split <;> rfl

variable (rt) in
/-- **A broadcast**, by the handlers it goes through: each stream of them is sent it once. -/
theorem foldl_enqueue (item : StreamItem) {ls : List ℕ} (hls : ls.Nodup) : ∀ s : EventServer,
    let s' := ls.foldl (fun s i => s.enqueue rt item i) s
    s'.listeners = s.listeners ∧ s'.heartbeats = s.heartbeats ∧ s'.streams.next = s.streams.next
      ∧ ∀ j, s'.streams.row j
        = if j ∈ ls then (s.streams.row j).map (·.enqueue rt item) else s.streams.row j := by
  induction ls with
  | nil => exact fun s => ⟨rfl, rfl, rfl, fun j => (if_neg List.not_mem_nil).symm⟩
  | cons i ls ih =>
    intro s
    obtain ⟨hi, hls⟩ := List.nodup_cons.mp hls
    obtain ⟨hlisteners, hheartbeats, hnext, hrow⟩ := ih hls (s.enqueue rt item i)
    refine ⟨hlisteners, hheartbeats, hnext, fun j => ?_⟩
    rw [List.foldl_cons, hrow, show (s.enqueue rt item i).streams.row j = _ from
      Table.row_update _ _ _ _]
    by_cases hji : j = i
    · subst hji
      rw [if_neg hi, if_pos rfl, if_pos List.mem_cons_self]
    · rw [if_neg hji]
      exact if_congr (by simp [hji]) rfl rfl

theorem open_iff : s.Open i ↔ (s.streams.row i).any (fun stream => !stream.cancelled) = true := by
  unfold EventServer.Open
  cases s.streams.row i with
  | none => simp
  | some stream =>
    obtain ⟨chunks, cancelled⟩ := stream
    simp

variable (rt) in
theorem open_congr_map {s' : EventServer} (item : StreamItem)
    (h : s'.streams.row i = s.streams.row i
      ∨ s'.streams.row i = (s.streams.row i).map (·.enqueue rt item)) : s'.Open i ↔ s.Open i := by
  rw [open_iff, open_iff]
  obtain h | h := h
  · rw [h]
  · rw [h]
    cases s.streams.row i <;> simp

theorem open_start {now : ℕ} : (s.start rt now).Open i ↔ i = s.streams.next ∨ s.Open i := by
  constructor
  · rintro ⟨chunks, hrow⟩
    obtain ⟨hi, -⟩ | hold := (s.streams.row_insert_eq_some _).mp hrow
    · exact Or.inl hi
    · exact Or.inr ⟨chunks, hold⟩
  · rintro (rfl | ⟨chunks, hrow⟩)
    · exact ⟨_, s.streams.row_insert_next _⟩
    · exact ⟨chunks, s.streams.row_insert_of_some _ hrow⟩

theorem not_open_next : ¬ s.Open s.streams.next := by
  rintro ⟨chunks, hrow⟩
  exact absurd (s.streams.row_next ▸ hrow) nofun

theorem open_cancel : (s.cancel i).Open j ↔ s.Open j ∧ j ≠ i := by
  rw [open_iff, open_iff, show (s.cancel i).streams.row j = _ from Table.row_update _ _ _ _]
  by_cases hji : j = i
  · subst hji
    rw [if_pos rfl]
    cases s.streams.row j <;> simp
  · rw [if_neg hji, and_iff_left hji]

theorem beat_eq (h : s.Kept) (i : ℕ) :
    s.beat rt i = if i ∈ s.listeners then s.enqueue rt .heartbeat i else s := by
  unfold EventServer.beat
  rw [h.heartbeats]
  split
  · next hi =>
    obtain ⟨chunks, hrow⟩ := (h.listener i).mp hi
    rw [hrow]
  · rfl

theorem row_enqueue (item : StreamItem) : (s.enqueue rt item i).streams.row j
    = if j = i then (s.streams.row j).map (·.enqueue rt item) else s.streams.row j := by
  rw [show (s.enqueue rt item i).streams.row j = _ from Table.row_update _ _ _ _]
  split
  · next hji => rw [hji]
  · rfl

/-- **Every step leaves nothing behind.** -/
theorem EventServer.Kept.next (h : s.Kept) (a : EventServerAction) :
    ((eventServer rt).next s a).Kept := by
  unfold Machine.next eventServer
  cases a with
  | get auth now =>
    cases auth with
    | refused error status => exact h
    | user user =>
      have hnew : s.streams.next ∉ s.listeners := fun hmem => not_open_next ((h.listener _).mp hmem)
      refine ⟨?_, fun i => ?_, ?_⟩
      · exact List.nodup_append.mpr ⟨h.nodup, List.nodup_singleton _, fun j hj j' hj' heq =>
          hnew (List.mem_singleton.mp hj' ▸ heq ▸ hj)⟩
      · show i ∈ s.listeners ++ [s.streams.next] ↔ _
        rw [open_start, List.mem_append, h.listener, List.mem_singleton, or_comm]
      · show s.heartbeats ++ [s.streams.next] = s.listeners ++ [s.streams.next]
        rw [h.heartbeats]
  | broadcast type data now =>
    obtain ⟨hlisteners, hheartbeats, -, hrow⟩ :=
      foldl_enqueue rt (.event ⟨type, data, now⟩) h.nodup s
    refine ⟨?_, fun i => ?_, ?_⟩
    · exact hlisteners.symm ▸ h.nodup
    · refine ((iff_of_eq (congrArg (i ∈ ·) hlisteners)).trans (h.listener i)).trans
        (open_congr_map rt (.event ⟨type, data, now⟩) ?_).symm
      have := hrow i
      split at this
      · exact Or.inr this
      · exact Or.inl this
    · exact hheartbeats.trans (h.heartbeats.trans hlisteners.symm)
  | heartbeat i =>
    dsimp only
    rw [beat_eq h]
    split
    · refine ⟨h.nodup, fun j => (h.listener j).trans (open_congr_map rt .heartbeat ?_).symm,
        h.heartbeats⟩
      rw [row_enqueue]
      split
      · exact Or.inr rfl
      · exact Or.inl rfl
    · exact h
  | cancel i =>
    dsimp only
    split
    · refine ⟨h.nodup.erase i, fun j => ?_, congrArg (·.erase i) h.heartbeats⟩
      rw [open_cancel, ← h.listener]
      show j ∈ s.listeners.erase i ↔ _
      rw [h.nodup.mem_erase_iff, and_comm]
    · exact h

variable (rt) in
/-- **What a step does to a stream that is open.** -/
theorem row_next_open (h : s.Kept) (hrow : s.streams.row i = some ⟨chunks, false⟩)
    (a : EventServerAction) : ((eventServer rt).next s a).streams.row i
      = some ⟨chunks ++ (a.sends i).toList.map (StreamItem.chunk rt), a.cancels i⟩ := by
  have hmem : i ∈ s.listeners := (h.listener i).mpr ⟨chunks, hrow⟩
  unfold Machine.next eventServer EventServerAction.sends EventServerAction.cancels
  cases a with
  | get auth now =>
    rw [show (none : Option StreamItem).toList.map (StreamItem.chunk rt) = [] from rfl,
      List.append_nil]
    cases auth with
    | refused error status => exact hrow
    | user user => exact s.streams.row_insert_of_some _ hrow
  | broadcast type data now =>
    obtain ⟨-, -, -, hsent⟩ := foldl_enqueue rt (.event ⟨type, data, now⟩) h.nodup s
    refine (hsent i).trans ?_
    rw [if_pos hmem, hrow]
    rfl
  | heartbeat j =>
    dsimp only
    rw [beat_eq h]
    by_cases hji : j = i
    · rw [if_pos (hji ▸ hmem), row_enqueue, if_pos hji.symm, if_pos hji, hrow]
      rfl
    · rw [if_neg hji, Option.toList_none, List.map_nil, List.append_nil]
      split
      · rw [row_enqueue, if_neg (Ne.symm hji), hrow]
      · exact hrow
  | cancel j =>
    rw [show (none : Option StreamItem).toList.map (StreamItem.chunk rt) = [] from rfl,
      List.append_nil]
    by_cases hji : j = i
    · subst hji
      dsimp only
      rw [hrow]
      show (s.cancel j).streams.row j = _
      rw [show (s.cancel j).streams.row j = _ from Table.row_update_self _ _ _, hrow]
      simp
    · have hother : (s.cancel j).streams.row i = some ⟨chunks, false⟩ :=
        (Table.row_update_of_ne _ _ (Ne.symm hji)).trans hrow
      dsimp only
      rw [decide_eq_false hji]
      split
      · exact hother
      · exact hrow

theorem row_next_cancelled (h : s.Kept) (hrow : s.streams.row i = some ⟨chunks, true⟩)
    (a : EventServerAction) :
    ((eventServer rt).next s a).streams.row i = some ⟨chunks, true⟩ := by
  have hmem : i ∉ s.listeners := fun hmem => by
    obtain ⟨chunks', hrow'⟩ := (h.listener i).mp hmem
    exact absurd (hrow.symm.trans hrow') (by simp)
  unfold Machine.next eventServer
  cases a with
  | get auth now =>
    cases auth with
    | refused error status => exact hrow
    | user user => exact s.streams.row_insert_of_some _ hrow
  | broadcast type data now =>
    obtain ⟨-, -, -, hsent⟩ := foldl_enqueue rt (.event ⟨type, data, now⟩) h.nodup s
    refine (hsent i).trans ?_
    rw [if_neg hmem, hrow]
  | heartbeat j =>
    dsimp only
    rw [beat_eq h]
    split
    · next hj => rw [row_enqueue, if_neg (fun hij : i = j => hmem (hij ▸ hj)), hrow]
    · exact hrow
  | cancel j =>
    dsimp only
    split
    · next hj =>
      have hji : i ≠ j := by
        rintro rfl
        exact absurd (hrow.symm.trans hj) (by simp)
      exact (Table.row_update_of_ne _ _ hji).trans hrow
    · exact hrow

theorem sends_of_cancels {a : EventServerAction} (ha : a.cancels i = true) : a.sends i = none := by
  cases a with
  | cancel j => rfl
  | get auth now => cases ha
  | broadcast type data now => cases ha
  | heartbeat j => cases ha

/-- A stream that is cancelled has been sent all there is, in a run. -/
theorem row_state_cancelled (as : List EventServerAction) : ∀ {s : EventServer}, s.Kept →
    s.streams.row i = some ⟨chunks, true⟩ →
    ((eventServer rt).state s as).streams.row i = some ⟨chunks, true⟩ := by
  induction as with
  | nil => exact fun _ hrow => hrow
  | cons a as ih =>
    intro s h hrow
    rw [Machine.state_cons]
    exact ih (h.next a) (row_next_cancelled h hrow a)

/-- **What a run does to a stream that is open.** -/
theorem row_state_open (as : List EventServerAction) :
    ∀ {s : EventServer} {chunks : List (List ℕ)}, s.Kept →
    s.streams.row i = some ⟨chunks, false⟩ →
    ((eventServer rt).state s as).streams.row i
      = some ⟨chunks ++ ((as.takeWhile fun a => !a.cancels i).filterMap (·.sends i)).map
          (StreamItem.chunk rt), as.any (·.cancels i)⟩ := by
  induction as with
  | nil =>
    intro s chunks _ hrow
    rw [Machine.state_nil, hrow]
    simp
  | cons a as ih =>
    intro s chunks h hrow
    have hnext := row_next_open rt h hrow a
    rw [Machine.state_cons]
    cases ha : a.cancels i with
    | true =>
      rw [ha, sends_of_cancels ha] at hnext
      rw [row_state_cancelled as (h.next a) hnext, List.takeWhile_cons_of_neg (by simp [ha]),
        List.any_cons, ha]
      rfl
    | false =>
      rw [ha] at hnext
      rw [ih (h.next a) hnext, List.takeWhile_cons_of_pos (by simp [ha]), List.any_cons, ha,
        Bool.false_or, List.append_assoc]
      cases hsends : a.sends i with
      | none => rw [List.filterMap_cons_none hsends, Option.toList_none, List.map_nil,
          List.nil_append]
      | some item => rw [List.filterMap_cons_some hsends, Option.toList_some, List.map_cons,
          List.map_cons, List.map_nil, List.singleton_append]

theorem EventServer.initial_kept : EventServer.initial.Kept where
  nodup := List.nodup_nil
  listener _ := ⟨nofun, fun ⟨_, hrow⟩ => nomatch hrow⟩
  heartbeats := rfl

/-- What a stream has been sent, in the run in which it is opened. -/
theorem row_opened (rt : Runtime) (p q : List EventServerAction) (user : User) (now : ℕ) :
    let i := ((eventServer rt).state .initial p).streams.next
    ((eventServer rt).state .initial (p ++ .get (.user user) now :: q)).streams.row i
      = some ⟨(sentItems i now q).map (StreamItem.chunk rt), q.any (·.cancels i)⟩ := by
  have hkept : ((eventServer rt).state .initial p).Kept :=
    (eventServer rt).state_invariant EventServer.initial_kept (fun s a h => h.next a) p
  have hrow : ((eventServer rt).next ((eventServer rt).state .initial p)
      (.get (.user user) now)).streams.row ((eventServer rt).state .initial p).streams.next
      = some ⟨[(StreamItem.event (connectedEvent now)).chunk rt], false⟩ :=
    Table.row_insert_next _ _
  dsimp only
  rw [Machine.state_append, Machine.state_cons, row_state_open q (hkept.next _) hrow]
  rfl

end Steps

/-- **The streams of a server in every run**: nothing is left behind, and a stream has been sent
the greeting and then, once and in order, every event that was broadcast before it was
cancelled, with its own heartbeats between them. -/
theorem eventServer_kept (rt : Runtime) :
    (∀ as, ((eventServer rt).state .initial as).Kept)
    ∧ ∀ p q user now,
      let i := ((eventServer rt).state .initial p).streams.next
      ((eventServer rt).state .initial (p ++ .get (.user user) now :: q)).streams.row i
        = some ⟨(sentItems i now q).map (StreamItem.chunk rt), q.any (·.cancels i)⟩ :=
  ⟨fun as => (eventServer rt).state_invariant EventServer.initial_kept (fun _ a h => h.next a) as,
    fun p q user now => row_opened rt p q user now⟩

/-! ## The other side -/

/-- **The messages of a source, as the hook is handed them**: `onmessage` is called for the events
of type `message`, and parses their data. -/
def messageActions (rt : Runtime) (source : ℕ) (messages : List EventSource.Message) :
    List (StreamAction Json) :=
  (messages.filter fun m => m.type = "message".toList).map fun m =>
    .message source (Json.parse rt m.data)

namespace StreamItem

variable {rt : Runtime}

def event? : StreamItem → Option BroadcastEvent
  | event e => some e
  | heartbeat => none

def frame (rt : Runtime) : StreamItem → EventSource.Frame
  | event e => .data (Json.stringify rt e.toJson)
  | heartbeat => .comment " heartbeat".toList

theorem octets_frame (item : StreamItem) : (item.frame rt).octets = item.chunk rt := by
  cases item with
  | event e => rfl
  | heartbeat => rfl

/-- The numbers of an event are read back. -/
def NumbersRead (rt : Runtime) (item : StreamItem) : Prop :=
  ∀ e, item.event? = some e → Json.NumbersRead rt e.toJson.numbers

theorem plain_frame {item : StreamItem} (h : item.NumbersRead rt) : (item.frame rt).Plain := by
  cases item with
  | event e =>
    have hle : ∀ d ∈ Json.stringify rt e.toJson, 0x20 ≤ d.toNat := fun d =>
      Json.le_of_mem_stringify e.toJson (h e rfl)
    exact ⟨fun hmem => absurd (hle _ hmem) (by decide), fun hmem => absurd (hle _ hmem) (by decide)⟩
  | heartbeat => exact ⟨by decide, by decide⟩

end StreamItem

theorem readBack_toJson (e : BroadcastEvent) :
    e.toJson.readBack = { e with data := e.data.readBack }.toJson := rfl

/-- **The events of a stream**, as they are read back on the other side. -/
def readEvents (items : List StreamItem) : List Json :=
  (items.filterMap StreamItem.event?).map fun e => { e with data := e.data.readBack }.toJson

section Client

variable {rt : Runtime}

/-- The messages of the frames of a stream, as the hook is handed them. -/
theorem messageActions_frames (source : ℕ) {items : List StreamItem}
    (hitems : ∀ item ∈ items, item.NumbersRead rt) :
    messageActions rt source ((items.map (StreamItem.frame rt)).flatMap
        (EventSource.Frame.messages []))
      = (readEvents items).map fun j => .message source (some j) := by
  induction items with
  | nil => rfl
  | cons item items ih =>
    have hrest := ih fun item hitem => hitems item (List.mem_cons_of_mem _ hitem)
    cases item with
    | event e =>
      have hread := Json.parse_stringify (hitems (.event e) List.mem_cons_self e rfl)
      rw [readBack_toJson] at hread
      have hfirst : messageActions rt source (((StreamItem.event e :: items).map
          (StreamItem.frame rt)).flatMap (EventSource.Frame.messages []))
          = .message source (Json.parse rt (Json.stringify rt e.toJson))
            :: messageActions rt source ((items.map (StreamItem.frame rt)).flatMap
              (EventSource.Frame.messages [])) := rfl
      rw [hfirst, hread, hrest]
      rfl
    | heartbeat => exact hrest

/-- **A source that is open hands on what it is sent**, while the effect is mounted. -/
theorem trace_messages {h : StreamState} {source : ℕ} (hmounted : h.phase = .mounted)
    (hopen : h.sources.row source = some .open) (payloads : List Json) :
    (serverEvents Json).trace h (payloads.map fun j => .message source (some j))
      = payloads.map .dispatched := by
  induction payloads with
  | nil => rfl
  | cons j payloads ih =>
    have hstep : (serverEvents Json).emits h (.message source (some j)) = [.dispatched j] := by
      show (if h.sources.row source = some .open then h.messageHandler (some j) else []) = _
      rw [if_pos hopen]
      exact if_pos hmounted
    rw [List.map_cons, Machine.trace_cons, hstep, show (serverEvents Json).next h
      (.message source (some j)) = h from rfl, ih]
    rfl

end Client

/-- **What a stream is sent reaches the store**: however its octets are cut and wherever they have
stopped, the events that the hook has dispatched are those whose frames have arrived whole, in
their order and each once. -/
theorem eventStream_dispatched (rt : Runtime) (p q : List EventServerAction) (user : User)
    (now : ℕ)
    (hitems : ∀ item ∈ sentItems ((eventServer rt).state .initial p).streams.next now q,
      item.NumbersRead rt)
    {h : StreamState} {source : ℕ} (hmounted : h.phase = .mounted)
    (hopen : h.sources.row source = some .open) {stream : EventStream}
    (hstream : ((eventServer rt).state .initial (p ++ .get (.user user) now :: q)).streams.row
      ((eventServer rt).state .initial p).streams.next = some stream)
    {received : List (List ℕ)} (hreceived : received.flatten <+: stream.chunks.flatten) :
    ∃ k, (serverEvents Json).trace h (messageActions rt source
        (EventSource.stream.batched.trace EventSource.initial received))
      = (readEvents ((sentItems ((eventServer rt).state .initial p).streams.next now q).take k)).map
          .dispatched
    ∧ (stream.chunks.take k).flatten.length ≤ received.flatten.length
    ∧ (k < stream.chunks.length →
      received.flatten.length < (stream.chunks.take (k + 1)).flatten.length) := by
  obtain rfl := Option.some.inj (hstream.symm.trans (row_opened rt p q user now))
  dsimp only at hreceived ⊢
  generalize sentItems ((eventServer rt).state .initial p).streams.next now q = items
    at hitems hreceived ⊢
  -- the chunks are the octets of frames
  have hoctets : ∀ items : List StreamItem, (items.map (StreamItem.chunk rt)).flatten
      = (items.map (StreamItem.frame rt)).flatMap EventSource.Frame.octets := by
    intro items
    rw [List.flatMap_def, List.map_map]
    exact congrArg List.flatten
      (List.map_congr_left fun item _ => (StreamItem.octets_frame item).symm)
  have hplain : ∀ f ∈ items.map (StreamItem.frame rt), f.Plain := by
    intro f hf
    obtain ⟨item, hitem, rfl⟩ := List.mem_map.mp hf
    exact StreamItem.plain_frame (hitems item hitem)
  rw [hoctets] at hreceived
  obtain ⟨k, hwhole, hlength, hmore⟩ :=
    EventSource.exists_whole (items.map (StreamItem.frame rt)) received.flatten.length
  refine ⟨k, ?_, ?_, fun hk => ?_⟩
  · rw [Machine.trace_batched, EventSource.trace_frames hplain EventSource.idle_initial hreceived,
      hwhole, ← List.map_take, show EventSource.initial.2.lastEventId = [] from rfl,
      messageActions_frames source fun item hitem => hitems item (List.mem_of_mem_take hitem)]
    exact trace_messages hmounted hopen _
  · rw [← List.map_take, hoctets, List.map_take]
    exact hlength
  · rw [← List.map_take, hoctets, List.map_take]
    exact hmore (by simpa using hk)

/-- A user of the API key. -/
def sampleViewer : User := ⟨0, "api", "API Access", "admin", none, none, none, none⟩

/-- An event with a character that is not ASCII. -/
def sampleBroadcast : EventServerAction := .broadcast "task.created" (.obj [("title", .str "é")]) 0

/-- What a stream is sent then. -/
def sampleItems : List StreamItem := sentItems 1 0 [sampleBroadcast]

/-- The octets of the stream, cut inside the character. -/
def sampleReceived : List (List ℕ) :=
  let octets := (sampleItems.map (StreamItem.chunk sampleRuntime)).flatten
  [octets.take 101, octets.drop 101]

theorem numbersRead_sampleItems : ∀ item ∈ sampleItems, item.NumbersRead sampleRuntime := by
  have hzero : Json.NumbersRead sampleRuntime [0] := by
    intro q hq
    obtain rfl : q = 0 := List.mem_singleton.mp hq
    exact ⟨by decide +kernel, List.all_eq_true.mp (by decide +kernel), by decide +kernel⟩
  intro item hitem e he
  obtain rfl | hitem := List.mem_cons.mp hitem
  · obtain rfl := Option.some.inj he
    exact hzero
  · obtain rfl := List.mem_singleton.mp hitem
    obtain rfl := Option.some.inj he
    exact hzero

theorem flatten_sampleReceived : sampleReceived.flatten
    = (sampleItems.map (StreamItem.chunk sampleRuntime)).flatten := by
  unfold sampleReceived
  rw [List.flatten_cons, List.flatten_singleton, List.take_append_drop]

/-- A greeting and an event, which arrive in two chunks. -/
theorem eventStream_dispatched_sample : ∃ k,
    (serverEvents Json).trace ((serverEvents Json).state .initial [.mount, .opened 1])
        (messageActions sampleRuntime 1
          (EventSource.stream.batched.trace EventSource.initial sampleReceived))
      = (readEvents (sampleItems.take k)).map .dispatched
    ∧ ((sampleItems.map (StreamItem.chunk sampleRuntime)).take k).flatten.length
      ≤ sampleReceived.flatten.length
    ∧ (k < (sampleItems.map (StreamItem.chunk sampleRuntime)).length →
      sampleReceived.flatten.length
        < ((sampleItems.map (StreamItem.chunk sampleRuntime)).take (k + 1)).flatten.length) :=
  eventStream_dispatched sampleRuntime [] [sampleBroadcast] sampleViewer 0
    numbersRead_sampleItems rfl rfl (row_opened sampleRuntime [] [sampleBroadcast] sampleViewer 0)
    (flatten_sampleReceived ▸ List.prefix_refl _)

end MissionControl
