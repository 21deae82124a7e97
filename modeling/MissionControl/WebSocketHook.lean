import MissionControl.Js
import MissionControl.Library.Machine
import MissionControl.Library.Table

/-!
# The WebSocket hook

`useWebSocket` keeps one socket in a ref, and what happens to any socket that it has ever
created goes to handlers which share its refs. `disconnect` closes the socket and clears the
timer that is kept in a ref. But the socket's close event comes later, and its handler sets
a timer to connect again, whoever has closed the socket; and a timer of `reconnect`, or one
that another has replaced in the ref, is not cleared. So a manual disconnect is followed by a
new socket (`not_disconnect_final_sampleConnection`).

`disconnect_final_iff` says exactly when none follows: where no event of a socket can set a
timer any more, and no timer is left that can connect.

That this is enough is an invariant, `Quiet`: no event but a call of the page leaves it, and
none creates a socket in it. That it is needed takes a run for each way in which it fails – the
timer that is left fires, or a socket that is left closes and its timer fires, or it opens
first, which gives the attempts back. Those runs create a socket only because every URL that a
socket or a timer has is one for which a socket could be created before (`HookState.Valid`).
-/

namespace MissionControl

/-! ## The state -/

/-- `WebSocket.readyState`. -/
inductive ReadyState where
  | connecting | «open» | closing | closed
  deriving DecidableEq

/-- A socket, with the URL that it was created for. -/
structure Socket where
  url : String
  readyState : ReadyState

/-- **A timer that will connect**: that of a close event, to the URL of its socket, or that
of `reconnect`, to the URL of the last call. -/
inductive HookTimer where
  | closed (url : String)
  | delayed

/-- **What the browser says of a URL**: the token among its parameters, unless it is no URL,
and whether a socket can be created for it. -/
structure HookSite where
  urlToken : String → Option (Option String)
  accepts : String → Bool

/-- **The refs of the hook**, with the sockets and the timers there are. -/
structure HookState where
  sockets : Table Socket
  timers : Table HookTimer
  ws : Option ℕ
  reconnectTimeout : Option ℕ
  reconnectUrl : String
  authToken : String
  handshakeComplete : Bool
  reconnectAttempts : ℕ
  pingInterval : Bool
  pingCounter : ℕ
  pingsSent : List String
  missedPongs : ℕ

def HookState.initial : HookState where
  sockets := .empty
  timers := .empty
  ws := none
  reconnectTimeout := none
  reconnectUrl := ""
  authToken := ""
  handshakeComplete := false
  reconnectAttempts := 0
  pingInterval := false
  pingCounter := 0
  pingsSent := []
  missedPongs := 0

/-- What a frame of the gateway says to the hook itself. -/
structure GatewayFrame where
  type : String
  event : Option String
  id : Option String
  ok : Bool

/-- **What happens**: the calls, the events of every socket, and the timers that fire. A
message that is no frame is `none`. -/
inductive HookAction where
  | connect (url : String) (token : Option String)
  | disconnect
  | reconnect
  | opened (socket : ℕ)
  | message (socket : ℕ) (frame : Option GatewayFrame)
  | errored (socket : ℕ)
  | closed (socket : ℕ)
  | fire (timer : ℕ)
  | ping

structure SocketCreated where
  socket : ℕ
  deriving DecidableEq

def maxReconnectAttempts : ℕ := 10

/-- `MAX_MISSED_PONGS`. -/
def MAX_MISSED_PONGS : ℕ := 3

/-- `url.split('?')[0]`. -/
def withoutQuery (url : String) : String := String.ofList (url.toList.takeWhile (· ≠ '?'))

/-- A socket can be created for a URL. -/
def HookSite.creates (site : HookSite) (url : String) : Bool :=
  (site.urlToken url).isSome && site.accepts (withoutQuery url)

namespace HookState

def readyState (s : HookState) (i : ℕ) : Option ReadyState :=
  (s.sockets.row i).map Socket.readyState

def setReady (s : HookState) (i : ℕ) (r : ReadyState) : HookState :=
  { s with sockets := s.sockets.update i fun socket => { socket with readyState := r } }

/-- `ws.close()`: the socket is closed later. -/
def close (s : HookState) (i : ℕ) : HookState :=
  match s.readyState i with
  | some .connecting | some .open => s.setReady i .closing
  | _ => s

def clearTimer (s : HookState) (t : ℕ) : HookState :=
  { s with timers := s.timers.deleteWhere fun i _ => i = t }

def stopHeartbeat (s : HookState) : HookState :=
  { s with pingInterval := false, missedPongs := 0, pingsSent := [] }

end HookState

/-! ## The calls -/

/-- **`connect`.** A URL that is none throws; a socket that cannot be created is caught. -/
def connectHook (site : HookSite) (s : HookState) (url : String) (token : Option String) :
    HookState × List SocketCreated :=
  if s.ws.bind s.readyState = some .open then (s, [])
  else
    match site.urlToken url with
    | none => (s, [])
    | some urlToken =>
      let s := { s with
        authToken := orElse (token.getD "") (urlToken.getD "")
        reconnectUrl := url
        handshakeComplete := false }
      if site.accepts (withoutQuery url) then
        ({ s with
            sockets := s.sockets.insert ⟨url, .connecting⟩
            ws := some s.sockets.next }, [⟨s.sockets.next⟩])
      else (s, [])

/-- **`disconnect`.** -/
def disconnectHook (s : HookState) : HookState :=
  let s := match s.reconnectTimeout with
    | some t => s.clearTimer t
    | none => s
  let s := s.stopHeartbeat
  let s := match s.ws with
    | some i => { s.close i with ws := none }
    | none => s
  { s with handshakeComplete := false }

/-- **`reconnect`.** -/
def reconnectHook (s : HookState) : HookState :=
  let s := disconnectHook s
  if s.reconnectUrl ≠ "" then { s with timers := s.timers.insert .delayed } else s

/-! ## The handlers -/

/-- `handleGatewayFrame`, up to what it tells the store. -/
def handleGatewayFrame (s : HookState) (frame : GatewayFrame) : HookState :=
  if frame.type = "event" ∧ frame.event = some "connect.challenge" then s
  else if frame.type = "res" ∧ frame.ok ∧ ¬ s.handshakeComplete then
    { s with handshakeComplete := true, reconnectAttempts := 0, pingInterval := true }
  else
    match frame.id with
    | some id =>
      if frame.type = "res" ∧ "ping-".toList.isPrefixOf id.toList ∧ id ∈ s.pingsSent then
        { s with pingsSent := s.pingsSent.filter (· ≠ id), missedPongs := 0 }
      else s
    | none => s

/-- `ws.onclose`, of a socket with a URL. -/
def closeHandler (s : HookState) (url : String) : HookState :=
  let s := { s.stopHeartbeat with handshakeComplete := false }
  if s.reconnectAttempts < maxReconnectAttempts then
    { s with
      reconnectAttempts := s.reconnectAttempts + 1
      reconnectTimeout := some s.timers.next
      timers := s.timers.insert (.closed url) }
  else s

def pingHandler (s : HookState) : HookState :=
  match s.ws with
  | some i =>
    if s.readyState i = some .open ∧ s.handshakeComplete then
      if MAX_MISSED_PONGS ≤ s.missedPongs then s.close i
      else
        { s with
          pingCounter := s.pingCounter + 1
          pingsSent := s.pingsSent ++ ["ping-" ++ toString (s.pingCounter + 1)]
          missedPongs := s.missedPongs + 1 }
    else s
  | none => s

def fireTimer (site : HookSite) (s : HookState) (t : ℕ) : HookState × List SocketCreated :=
  match s.timers.row t with
  | none => (s, [])
  | some (.closed url) => connectHook site (s.clearTimer t) url (some s.authToken)
  | some .delayed => connectHook site (s.clearTimer t) s.reconnectUrl (some s.authToken)

/-- **The hook.** A socket opens once, has messages while it is open, and is closed once. -/
def webSocketHook (site : HookSite) : Machine HookState HookAction SocketCreated where
  step s
    | .connect url token => connectHook site s url token
    | .disconnect => (disconnectHook s, [])
    | .reconnect => (reconnectHook s, [])
    | .opened i => (if s.readyState i = some .connecting then s.setReady i .open else s, [])
    | .message i (some frame) =>
      (if s.readyState i = some .open then handleGatewayFrame s frame else s, [])
    | .message _ none => (s, [])
    | .errored _ => (s, [])
    | .closed i =>
      match s.sockets.row i with
      | none => (s, [])
      | some socket =>
        if socket.readyState = .closed then (s, [])
        else (closeHandler (s.setReady i .closed) socket.url, [])
    | .fire t => fireTimer site s t
    | .ping => (if s.pingInterval then pingHandler s else s, [])

def HookAction.connects : HookAction → Bool
  | connect _ _ | reconnect => true
  | _ => false

/-- **Disconnecting is final**: no socket is created until a call asks for one. -/
def FinalIn (site : HookSite) (s : HookState) : Prop :=
  ∀ as : List HookAction, (∀ a ∈ as, a.connects = false) →
    (webSocketHook site).trace ((webSocketHook site).next s .disconnect) as = []

/-- **Nothing is left to connect**: the only timer is the one that is kept in the ref, or
one of `reconnect` to a URL for which no socket can be created; and every socket that is not
closed yet is the one that `disconnect` closes, or is closing, with no attempt left. -/
structure NothingLeft (site : HookSite) (s : HookState) : Prop where
  timers : ∀ t timer, s.timers.row t = some timer →
    s.reconnectTimeout = some t ∨ timer = .delayed ∧ site.creates s.reconnectUrl = false
  sockets : ∀ i socket, s.sockets.row i = some socket → socket.readyState ≠ .closed →
    maxReconnectAttempts ≤ s.reconnectAttempts
      ∧ (s.ws = some i ∨ socket.readyState = .closing)

/-! ## What disconnecting leaves -/

namespace HookState

@[simp] theorem close_timers (s : HookState) (i : ℕ) : (s.close i).timers = s.timers := by
  unfold close
  split <;> rfl

@[simp] theorem close_reconnectUrl (s : HookState) (i : ℕ) :
    (s.close i).reconnectUrl = s.reconnectUrl := by
  unfold close
  split <;> rfl

@[simp] theorem close_reconnectAttempts (s : HookState) (i : ℕ) :
    (s.close i).reconnectAttempts = s.reconnectAttempts := by
  unfold close
  split <;> rfl

end HookState

/-- The socket as `close` leaves it. -/
def Socket.closing (k : Socket) : Socket :=
  { k with
    readyState :=
      match k.readyState with
      | .connecting | .open => .closing
      | r => r }

/-- **Closing a socket** leaves the others alone. -/
theorem HookState.close_row (s : HookState) (i j : ℕ) :
    (s.close i).sockets.row j
      = (s.sockets.row j).map fun k => if i = j then k.closing else k := by
  have hstay : ∀ {k : Socket}, k.readyState = .closing ∨ k.readyState = .closed →
      k.closing = k := by
    rintro ⟨url, r⟩ (h | h)
    · obtain rfl : r = .closing := h
      rfl
    · obtain rfl : r = .closed := h
      rfl
  have hgo : ∀ {k : Socket}, k.readyState = .connecting ∨ k.readyState = .open →
      k.closing = { k with readyState := .closing } := by
    rintro ⟨url, r⟩ (h | h)
    · obtain rfl : r = .connecting := h
      rfl
    · obtain rfl : r = .open := h
      rfl
  by_cases hij : i = j
  · subst hij
    cases hrow : s.sockets.row i with
    | none =>
      unfold close readyState
      rw [hrow]
      exact hrow
    | some k =>
      have hready : s.readyState i = some k.readyState := by
        unfold readyState
        rw [hrow]
        rfl
      show _ = some (if i = i then k.closing else k)
      rw [if_pos rfl]
      unfold close
      rw [hready]
      cases hk : k.readyState with
      | connecting =>
        show (s.sockets.update i _).row i = _
        rw [Table.row_update_self, hrow, hgo (Or.inl hk)]
        rfl
      | «open» =>
        show (s.sockets.update i _).row i = _
        rw [Table.row_update_self, hrow, hgo (Or.inr hk)]
        rfl
      | closing =>
        rw [hstay (Or.inl hk)]
        exact hrow
      | closed =>
        rw [hstay (Or.inr hk)]
        exact hrow
  · have hsame : (s.sockets.row j).map (fun k => if i = j then k.closing else k)
        = s.sockets.row j := by
      simp only [if_neg hij]
      exact Option.map_id'
    rw [hsame]
    unfold close
    split
    · exact Table.row_update_of_ne _ _ (Ne.symm hij)
    · exact Table.row_update_of_ne _ _ (Ne.symm hij)
    · rfl

section Disconnect

variable (s : HookState)

@[simp] theorem disconnect_ws : (disconnectHook s).ws = none := by
  unfold disconnectHook
  cases s.reconnectTimeout <;> cases hws : s.ws <;>
    simp [HookState.stopHeartbeat, HookState.clearTimer, hws]

@[simp] theorem disconnect_reconnectAttempts :
    (disconnectHook s).reconnectAttempts = s.reconnectAttempts := by
  unfold disconnectHook
  cases s.reconnectTimeout <;> cases hws : s.ws <;>
    simp [HookState.stopHeartbeat, HookState.clearTimer, hws]

@[simp] theorem disconnect_reconnectUrl :
    (disconnectHook s).reconnectUrl = s.reconnectUrl := by
  unfold disconnectHook
  cases s.reconnectTimeout <;> cases hws : s.ws <;>
    simp [HookState.stopHeartbeat, HookState.clearTimer, hws]

/-- **The timers that are left** are all but the one in the ref. -/
theorem disconnect_timers {t : ℕ} {timer : HookTimer} :
    (disconnectHook s).timers.row t = some timer
      ↔ s.timers.row t = some timer ∧ s.reconnectTimeout ≠ some t := by
  have htimers : (disconnectHook s).timers
      = match s.reconnectTimeout with
        | some t => s.timers.deleteWhere fun i _ => i = t
        | none => s.timers := by
    unfold disconnectHook
    cases s.reconnectTimeout <;> cases hws : s.ws <;>
      simp [HookState.stopHeartbeat, HookState.clearTimer, hws]
  rw [htimers]
  cases s.reconnectTimeout with
  | none => simp
  | some t' =>
    rw [Table.row_deleteWhere_eq_some]
    simp [eq_comm]

/-- **The sockets that are left**: the one in the ref is closing. -/
theorem disconnect_sockets (i : ℕ) :
    (disconnectHook s).sockets.row i
      = (s.sockets.row i).map fun k => if s.ws = some i then k.closing else k := by
  unfold disconnectHook
  cases hws : s.ws with
  | none =>
    cases s.reconnectTimeout <;>
      simp [HookState.stopHeartbeat, HookState.clearTimer, hws]
  | some j =>
    cases s.reconnectTimeout <;>
      simp [HookState.stopHeartbeat, HookState.clearTimer, hws, HookState.close_row]

end Disconnect

/-! ## Quiet states -/

/-- **A quiet state**: no socket is kept, no timer can connect, and the sockets that are not
closed yet are closing, with no attempt left. -/
structure Quiet (site : HookSite) (s : HookState) : Prop where
  ws : s.ws = none
  timers : ∀ t timer, s.timers.row t = some timer →
    timer = .delayed ∧ site.creates s.reconnectUrl = false
  sockets : ∀ i socket, s.sockets.row i = some socket → socket.readyState ≠ .closed →
    maxReconnectAttempts ≤ s.reconnectAttempts ∧ socket.readyState = .closing

section Quiet

variable {site : HookSite} {s : HookState}

/-- A call that does not connect leaves the state alone, but for the URL and the token. -/
theorem connectHook_of_not_creates {url : String} (h : site.creates url = false)
    (hws : s.ws = none) (token : Option String) :
    (connectHook site s url token).2 = []
      ∧ ((connectHook site s url token).1 = s
        ∨ ∃ authToken, (connectHook site s url token).1
          = { s with authToken, reconnectUrl := url, handshakeComplete := false }) := by
  unfold connectHook
  rw [hws]
  unfold HookSite.creates at h
  cases hurl : site.urlToken url with
  | none => exact ⟨rfl, Or.inl rfl⟩
  | some urlToken =>
    rw [hurl] at h
    have haccepts : site.accepts (withoutQuery url) = false := by simpa using h
    dsimp only [Option.bind_none]
    rw [if_neg nofun, haccepts]
    exact ⟨rfl, Or.inr ⟨_, rfl⟩⟩

/-- **Where no socket is kept**, a call creates one if one can be created. -/
theorem connectHook_of_creates {url : String} (h : site.creates url = true)
    (hws : s.ws = none) (token : Option String) :
    (connectHook site s url token).2 ≠ [] := by
  unfold HookSite.creates at h
  rw [Bool.and_eq_true] at h
  obtain ⟨urlToken, hurl⟩ := Option.isSome_iff_exists.mp h.1
  unfold connectHook
  rw [hws]
  dsimp only [Option.bind_none]
  rw [if_neg nofun, hurl]
  dsimp only
  rw [if_pos h.2]
  exact List.cons_ne_nil _ _

theorem Quiet.clearTimer (h : Quiet site s) (t : ℕ) : Quiet site (s.clearTimer t) where
  ws := h.ws
  timers t' timer ht := h.timers t' timer ((s.timers.row_deleteWhere_eq_some _).mp ht).1
  sockets := h.sockets

/-- **A quiet state stays quiet** and creates nothing. -/
theorem Quiet.step (h : Quiet site s) {a : HookAction} (ha : a.connects = false) :
    (webSocketHook site).emits s a = [] ∧ Quiet site ((webSocketHook site).next s a) := by
  cases a with
  | connect url token => exact nomatch ha
  | reconnect => exact nomatch ha
  | disconnect =>
    refine ⟨rfl, ?_⟩
    show Quiet site (disconnectHook s)
    refine ⟨disconnect_ws s, fun t timer ht => ?_, fun i socket hi hopen => ?_⟩
    · rw [disconnect_reconnectUrl]
      exact h.timers t timer ((disconnect_timers s).mp ht).1
    · rw [disconnect_sockets, h.ws] at hi
      simp only [reduceCtorEq, if_false, Option.map_id'] at hi
      rw [disconnect_reconnectAttempts]
      exact h.sockets i socket hi hopen
  | opened i =>
    refine ⟨rfl, ?_⟩
    show Quiet site (if s.readyState i = some .connecting then _ else s)
    rw [if_neg]
    · exact h
    · -- only a connecting socket opens, and those that are left are closing
      intro hready
      obtain ⟨socket, hrow, hconnecting⟩ := Option.map_eq_some_iff.mp hready
      have hclosing := (h.sockets i socket hrow (by rw [hconnecting]; decide)).2
      exact absurd (hconnecting.symm.trans hclosing) (by decide)
  | message i frame =>
    cases frame with
    | none => exact ⟨rfl, h⟩
    | some frame =>
      refine ⟨rfl, ?_⟩
      show Quiet site (if s.readyState i = some .open then _ else s)
      rw [if_neg]
      · exact h
      · intro hready
        obtain ⟨socket, hrow, hopen⟩ := Option.map_eq_some_iff.mp hready
        have hclosing := (h.sockets i socket hrow (by rw [hopen]; decide)).2
        exact absurd (hopen.symm.trans hclosing) (by decide)
  | errored i => exact ⟨rfl, h⟩
  | closed i =>
    unfold Machine.emits Machine.next webSocketHook
    dsimp only
    cases hrow : s.sockets.row i with
    | none => exact ⟨rfl, h⟩
    | some socket =>
      dsimp only
      split
      · exact ⟨rfl, h⟩
      · next hopen =>
        obtain ⟨hattempts, -⟩ := h.sockets i socket hrow hopen
        refine ⟨rfl, ?_⟩
        -- no attempt is left, so the handler sets no timer
        have hspent : ¬ (s.setReady i .closed).stopHeartbeat.reconnectAttempts
            < maxReconnectAttempts := Nat.not_lt.mpr hattempts
        unfold closeHandler
        dsimp only
        rw [if_neg hspent]
        refine ⟨h.ws, h.timers, fun j socket' hj hopen' => ?_⟩
        have hj : (s.sockets.update i _).row j = some socket' := hj
        rw [Table.row_update] at hj
        split at hj
        · -- the socket itself is closed now
          obtain ⟨_, -, rfl⟩ := Option.map_eq_some_iff.mp hj
          exact absurd rfl hopen'
        · exact h.sockets j socket' hj hopen'
  | fire t =>
    show (fireTimer site s t).2 = [] ∧ Quiet site (fireTimer site s t).1
    unfold fireTimer
    cases ht : s.timers.row t with
    | none => exact ⟨rfl, h⟩
    | some timer =>
      -- the only timers left are those of `reconnect`, for a URL that creates no socket
      obtain ⟨rfl, hcreates⟩ := h.timers t timer ht
      dsimp only
      have hcleared := h.clearTimer t
      obtain ⟨hnone, hsame | ⟨authToken, hurl⟩⟩ :=
        connectHook_of_not_creates (s := s.clearTimer t) hcreates h.ws (some s.authToken)
      · rw [hsame]
        exact ⟨hnone, hcleared⟩
      · rw [hurl]
        exact ⟨hnone, hcleared.ws, hcleared.timers, hcleared.sockets⟩
  | ping =>
    refine ⟨rfl, ?_⟩
    show Quiet site (if s.pingInterval then pingHandler s else s)
    unfold pingHandler
    rw [h.ws, ite_self]
    exact h

/-- **No run leaves a quiet state** without a call that asks for a connection. -/
theorem Quiet.trace (h : Quiet site s) {as : List HookAction}
    (has : ∀ a ∈ as, a.connects = false) : (webSocketHook site).trace s as = [] := by
  induction as generalizing s with
  | nil => rfl
  | cons a as ih =>
    obtain ⟨hnone, hquiet⟩ := h.step (has a List.mem_cons_self)
    rw [Machine.trace_cons, hnone, ih hquiet fun b hb => has b (List.mem_cons_of_mem a hb)]
    rfl

end Quiet

/-- **Where nothing is left**, disconnecting leaves a quiet state. -/
theorem NothingLeft.quiet {site : HookSite} {s : HookState} (h : NothingLeft site s) :
    Quiet site (disconnectHook s) where
  ws := disconnect_ws s
  timers t timer ht := by
    obtain ⟨hrow, href⟩ := (disconnect_timers s).mp ht
    rw [disconnect_reconnectUrl]
    exact (h.timers t timer hrow).resolve_left href
  sockets i socket hi hopen := by
    rw [disconnect_sockets] at hi
    obtain ⟨k, hk, hsocket⟩ := Option.map_eq_some_iff.mp hi
    -- `close` leaves a socket that is closed as it is
    have hk' : k.readyState ≠ .closed := by
      rintro hclosed
      refine hopen ?_
      rw [← hsocket]
      split
      · unfold Socket.closing
        rw [hclosed]
      · exact hclosed
    obtain ⟨hattempts, hwhich⟩ := h.sockets i k hk hk'
    rw [disconnect_reconnectAttempts]
    refine ⟨hattempts, ?_⟩
    rw [← hsocket]
    -- the socket in the ref is closing now, any other one was before
    by_cases hws : s.ws = some i
    · rw [if_pos hws]
      unfold Socket.closing
      cases hr : k.readyState with
      | closed => exact absurd hr hk'
      | connecting | «open» | closing => rfl
    · rw [if_neg hws]
      exact hwhich.resolve_left hws

/-! ## Runs that connect again -/

/-- **What every run keeps**: sockets, and timers that connect to the URL of one, are of
URLs for which a socket can be created. -/
structure HookState.Valid (site : HookSite) (s : HookState) : Prop where
  sockets : ∀ i socket, s.sockets.row i = some socket → site.creates socket.url = true
  timers : ∀ t url, s.timers.row t = some (.closed url) → site.creates url = true

section Again

variable {site : HookSite} {s : HookState}

theorem HookState.Valid.setReady (h : s.Valid site) (i : ℕ) (r : ReadyState) :
    (s.setReady i r).Valid site where
  sockets j socket hj := by
    have hj : (s.sockets.update i _).row j = some socket := hj
    rw [Table.row_update] at hj
    split at hj
    · obtain ⟨k, hk, rfl⟩ := Option.map_eq_some_iff.mp hj
      exact h.sockets i k hk
    · exact h.sockets j socket hj
  timers := h.timers

theorem HookState.Valid.close (h : s.Valid site) (i : ℕ) : (s.close i).Valid site := by
  unfold HookState.close
  split
  · exact h.setReady i .closing
  · exact h.setReady i .closing
  · exact h

theorem HookState.Valid.clearTimer (h : s.Valid site) (t : ℕ) :
    (s.clearTimer t).Valid site where
  sockets := h.sockets
  timers t' url ht := h.timers t' url ((s.timers.row_deleteWhere_eq_some _).mp ht).1

theorem HookState.Valid.connect (h : s.Valid site) (url : String) (token : Option String) :
    (connectHook site s url token).1.Valid site := by
  unfold connectHook
  split
  · exact h
  · cases hurl : site.urlToken url with
    | none => exact h
    | some urlToken =>
      dsimp only
      split
      · next haccepts =>
        refine ⟨fun i socket hi => ?_, h.timers⟩
        obtain ⟨-, rfl⟩ | hi := (s.sockets.row_insert_eq_some _).mp hi
        · show ((site.urlToken url).isSome && _) = true
          rw [hurl, haccepts]
          rfl
        · exact h.sockets i socket hi
      · exact ⟨h.sockets, h.timers⟩

theorem HookState.Valid.disconnect (h : s.Valid site) : (disconnectHook s).Valid site where
  sockets i socket hi := by
    rw [disconnect_sockets] at hi
    obtain ⟨k, hk, rfl⟩ := Option.map_eq_some_iff.mp hi
    have hurl : (if s.ws = some i then k.closing else k).url = k.url := by
      split <;> rfl
    rw [hurl]
    exact h.sockets i k hk
  timers t url ht := h.timers t url ((disconnect_timers s).mp ht).1

theorem HookState.Valid.insertTimer (h : s.Valid site) (timer : HookTimer)
    (htimer : ∀ url, timer = .closed url → site.creates url = true) :
    HookState.Valid site { s with timers := s.timers.insert timer } where
  sockets := h.sockets
  timers t url ht := by
    obtain ⟨-, heq⟩ | ht := (s.timers.row_insert_eq_some _).mp ht
    · exact htimer url heq.symm
    · exact h.timers t url ht

theorem handleGatewayFrame_kept (s : HookState) (frame : GatewayFrame) :
    (handleGatewayFrame s frame).sockets = s.sockets
      ∧ (handleGatewayFrame s frame).timers = s.timers := by
  unfold handleGatewayFrame
  split
  · exact ⟨rfl, rfl⟩
  · split
    · exact ⟨rfl, rfl⟩
    · split
      · split <;> exact ⟨rfl, rfl⟩
      · exact ⟨rfl, rfl⟩

theorem HookState.Valid.next (h : s.Valid site) (a : HookAction) :
    ((webSocketHook site).next s a).Valid site := by
  cases a with
  | connect url token => exact h.connect url token
  | disconnect => exact h.disconnect
  | reconnect =>
    show (reconnectHook s).Valid site
    unfold reconnectHook
    dsimp only
    split
    · -- the timer of `reconnect` has no URL of its own
      exact h.disconnect.insertTimer _ nofun
    · exact h.disconnect
  | opened i =>
    show (if s.readyState i = some .connecting then s.setReady i .open else s).Valid site
    split
    · exact h.setReady i .open
    · exact h
  | message i frame =>
    cases frame with
    | none => exact h
    | some frame =>
      show (if s.readyState i = some .open then handleGatewayFrame s frame else s).Valid site
      obtain ⟨hsockets, htimers⟩ := handleGatewayFrame_kept s frame
      split
      · exact ⟨hsockets ▸ h.sockets, htimers ▸ h.timers⟩
      · exact h
  | errored i => exact h
  | closed i =>
    unfold Machine.next webSocketHook
    dsimp only
    cases hrow : s.sockets.row i with
    | none => exact h
    | some socket =>
      dsimp only
      split
      · exact h
      · unfold closeHandler
        dsimp only
        have hclosed := h.setReady i .closed
        split
        · -- the timer is for the URL of the socket
          have htimer := hclosed.insertTimer (.closed socket.url)
            (fun url heq => (HookTimer.closed.inj heq) ▸ h.sockets i socket hrow)
          exact ⟨htimer.sockets, htimer.timers⟩
        · exact ⟨hclosed.sockets, hclosed.timers⟩
  | fire t =>
    show (fireTimer site s t).1.Valid site
    unfold fireTimer
    cases ht : s.timers.row t with
    | none => exact h
    | some timer =>
      cases timer with
      | closed url => exact (h.clearTimer t).connect url _
      | delayed => exact (h.clearTimer t).connect s.reconnectUrl _
  | ping =>
    show (if s.pingInterval then pingHandler s else s).Valid site
    split
    · unfold pingHandler
      split
      · next i _ =>
        split
        · split
          · exact h.close i
          · exact ⟨h.sockets, h.timers⟩
        · exact h
      · exact h
    · exact h

/-- **Every run keeps the URLs acceptable.** -/
theorem HookState.valid_state (site : HookSite) (as : List HookAction) :
    ((webSocketHook site).state .initial as).Valid site :=
  (webSocketHook site).state_invariant ⟨nofun, nofun⟩ (fun _ a h => h.next a) as

def HookTimer.url (s : HookState) : HookTimer → String
  | .closed url => url
  | .delayed => s.reconnectUrl

/-- **A timer creates a socket** when it fires where none is kept. -/
theorem fire_ne_nil {t : ℕ} (timer : HookTimer) (hws : s.ws = none)
    (ht : s.timers.row t = some timer) (hcreates : site.creates (timer.url s) = true) :
    (webSocketHook site).trace s [.fire t] ≠ [] := by
  have htrace : (webSocketHook site).trace s [.fire t] = (fireTimer site s t).2 := rfl
  rw [htrace]
  unfold fireTimer
  rw [ht]
  cases timer with
  | closed url => exact connectHook_of_creates (s := s.clearTimer t) hcreates hws _
  | delayed => exact connectHook_of_creates (s := s.clearTimer t) hcreates hws _

/-- **A socket that is closed brings a new one**, where an attempt is left. -/
theorem closed_ne_nil {i : ℕ} {socket : Socket} (hvalid : s.Valid site) (hws : s.ws = none)
    (hrow : s.sockets.row i = some socket) (hopen : socket.readyState ≠ .closed)
    (hattempts : s.reconnectAttempts < maxReconnectAttempts) :
    (webSocketHook site).trace s [.closed i, .fire s.timers.next] ≠ [] := by
  have hnext : (webSocketHook site).step s (.closed i)
      = (closeHandler (s.setReady i .closed) socket.url, []) := by
    unfold webSocketHook
    dsimp only
    rw [hrow]
    exact if_neg hopen
  have htimed : closeHandler (s.setReady i .closed) socket.url
      = { (s.setReady i .closed).stopHeartbeat with
          handshakeComplete := false
          reconnectAttempts := s.reconnectAttempts + 1
          reconnectTimeout := some s.timers.next
          timers := s.timers.insert (.closed socket.url) } := if_pos hattempts
  rw [Machine.trace_cons]
  unfold Machine.emits Machine.next
  rw [hnext, htimed, List.nil_append]
  refine fire_ne_nil (.closed socket.url) hws ?_ (hvalid.sockets i socket hrow)
  exact s.timers.row_insert_next _

/-- **A socket that can still open** brings a new one, however many attempts were made: the
handshake that it completes lets the attempts begin again. -/
theorem opened_ne_nil {i : ℕ} {socket : Socket} (hvalid : s.Valid site) (hws : s.ws = none)
    (hhandshake : s.handshakeComplete = false) (hrow : s.sockets.row i = some socket)
    (hready : socket.readyState = .connecting ∨ socket.readyState = .open) :
    (webSocketHook site).trace s
      [.opened i, .message i (some ⟨"res", none, none, true⟩), .closed i,
        .fire s.timers.next] ≠ [] := by
  obtain ⟨s', hs', hvalid', hws', hhandshake', htimers, hrow'⟩ :
      ∃ s', (webSocketHook site).next s (.opened i) = s' ∧ s'.Valid site
        ∧ s'.ws = none ∧ s'.handshakeComplete = false ∧ s'.timers = s.timers
        ∧ s'.sockets.row i = some { socket with readyState := .open } := by
    refine ⟨_, rfl, hvalid.next _, ?_⟩
    have hstate : s.readyState i = some socket.readyState := by
      unfold HookState.readyState
      rw [hrow]
      rfl
    have hnext : (webSocketHook site).next s (.opened i)
        = if s.readyState i = some .connecting then s.setReady i .open else s := rfl
    rw [hnext, hstate]
    obtain hconnecting | hopen := hready
    · rw [hconnecting, if_pos rfl]
      refine ⟨hws, hhandshake, rfl, ?_⟩
      show (s.sockets.update i _).row i = _
      rw [Table.row_update_self, hrow]
      rfl
    · rw [hopen, if_neg nofun]
      refine ⟨hws, hhandshake, rfl, ?_⟩
      rw [hrow, ← hopen]
  -- the answer to the handshake is taken, whoever has disconnected
  have hmessage : (webSocketHook site).next s'
        (.message i (some ⟨"res", none, none, true⟩))
      = { s' with handshakeComplete := true, reconnectAttempts := 0, pingInterval := true } := by
    have hstate : s'.readyState i = some .open := by
      unfold HookState.readyState
      rw [hrow']
      rfl
    show (if s'.readyState i = some .open then handleGatewayFrame s' _ else s') = _
    rw [if_pos hstate]
    unfold handleGatewayFrame
    rw [if_neg (fun h => absurd h.1 (by decide)), if_pos ⟨rfl, rfl, by rw [hhandshake']; nofun⟩]
  rw [Machine.trace_cons, Machine.trace_cons, hs', hmessage, ← htimers]
  refine List.append_ne_nil_of_right_ne_nil _ (List.append_ne_nil_of_right_ne_nil _ ?_)
  exact closed_ne_nil ⟨hvalid'.sockets, hvalid'.timers⟩ hws' hrow' nofun (Nat.zero_lt_succ 9)

/-- **What is left connects again**: where disconnecting is final, nothing is. -/
theorem FinalIn.nothingLeft (hvalid : s.Valid site) (h : FinalIn site s) :
    NothingLeft site s := by
  have hfinal : ∀ {as : List HookAction},
      (webSocketHook site).trace (disconnectHook s) as ≠ [] →
        ¬ ∀ a ∈ as, a.connects = false := fun hne has => hne (h _ has)
  refine ⟨fun t timer ht => ?_, fun i socket hi hopen => ?_⟩
  · by_contra hleft
    obtain ⟨href, hdelayed⟩ := not_or.mp hleft
    have hcreates : site.creates (timer.url (disconnectHook s)) = true := by
      cases timer with
      | closed url => exact hvalid.timers t url ht
      | delayed =>
        show site.creates (disconnectHook s).reconnectUrl = true
        rw [disconnect_reconnectUrl]
        simpa using hdelayed
    have ht' := (disconnect_timers s).mpr ⟨ht, href⟩
    refine hfinal (fire_ne_nil _ (disconnect_ws s) ht' hcreates) ?_
    simp [HookAction.connects]
  · have hrow : (disconnectHook s).sockets.row i
        = some (if s.ws = some i then socket.closing else socket) := by
      rw [disconnect_sockets, hi]
      rfl
    refine ⟨?_, ?_⟩
    · by_contra hattempts
      have hopen' : (if s.ws = some i then socket.closing else socket).readyState
          ≠ .closed := by
        split
        · unfold Socket.closing
          cases hr : socket.readyState with
          | closed => exact absurd hr hopen
          | connecting | «open» | closing => nofun
        · exact hopen
      have hleft : (disconnectHook s).reconnectAttempts < maxReconnectAttempts := by
        rw [disconnect_reconnectAttempts]
        exact Nat.lt_of_not_le hattempts
      refine hfinal (closed_ne_nil hvalid.disconnect (disconnect_ws s) hrow hopen' hleft) ?_
      simp [HookAction.connects]
    · by_contra hwhich
      obtain ⟨hws, hclosing⟩ := not_or.mp hwhich
      rw [if_neg hws] at hrow
      have hready : socket.readyState = .connecting ∨ socket.readyState = .open := by
        cases hr : socket.readyState with
        | connecting => exact Or.inl rfl
        | «open» => exact Or.inr rfl
        | closing => exact absurd hr hclosing
        | closed => exact absurd hr hopen
      refine hfinal (opened_ne_nil hvalid.disconnect (disconnect_ws s) rfl hrow hready) ?_
      simp [HookAction.connects]

end Again

/-- **Disconnecting is final exactly where nothing is left** that can connect. -/
theorem disconnect_final_iff (site : HookSite) (as : List HookAction) :
    FinalIn site ((webSocketHook site).state .initial as)
      ↔ NothingLeft site ((webSocketHook site).state .initial as) :=
  ⟨fun h => h.nothingLeft (HookState.valid_state site as),
    fun h _ has => h.quiet.trace has⟩

/-! ## A socket that is open -/

/-- Every URL is one, and has a socket. -/
def sampleHookSite : HookSite where
  urlToken := fun _ => some none
  accepts := fun _ => true

/-- **The close event comes after the call**: a connection that is open is disconnected, its
socket is closed, and the timer that its handler has set creates another. -/
theorem not_disconnect_final_sampleConnection :
    ¬ FinalIn sampleHookSite
      ((webSocketHook sampleHookSite).state .initial
        [.connect "ws://localhost:18789" none, .opened 1]) := by
  intro h
  have hnone := h [.closed 1, .fire 1] (by simp [HookAction.connects])
  have hcreated : (webSocketHook sampleHookSite).trace
      ((webSocketHook sampleHookSite).next
        ((webSocketHook sampleHookSite).state .initial
          [.connect "ws://localhost:18789" none, .opened 1]) .disconnect)
      [.closed 1, .fire 1] = [⟨2⟩] := by
    decide +kernel
  rw [hcreated] at hnone
  exact absurd hnone (List.cons_ne_nil _ _)

end MissionControl
