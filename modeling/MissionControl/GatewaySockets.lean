import MissionControl.WebSocketHook

/-!
# The sockets of the WebSocket hook

`connect` leaves a socket in its ref alone where it is open, and replaces it anywhere else,
also where it is still connecting. The socket that it replaces so is not closed: it opens
later, its messages go to the same refs, and the answer to its handshake is taken for one of
the socket that is now in the ref (`not_oneLive_sampleConnects`).

Nothing else does this. `webSocketHook_oneLive_iff` says that at most one socket is alive all
along a run, and that the handshake which is noted is one of the socket in the ref, exactly
where no call and no timer finds the socket in the ref still connecting.
-/

namespace MissionControl

/-! ## What the sockets have done -/

/-- **The hook**, with the sockets whose handshake has been answered. -/
structure WatchedHook where
  hook : HookState
  answered : List ℕ

def WatchedHook.initial : WatchedHook := ⟨.initial, []⟩

def HookState.Live (s : HookState) (i : ℕ) : Prop :=
  s.readyState i = some .connecting ∨ s.readyState i = some .open

/-- The socket that an action completes the handshake of: the gateway has answered it, while
it is open. -/
def HookState.answeredBy (s : HookState) : HookAction → List ℕ
  | .message i (some frame) =>
    if s.readyState i = some .open ∧ frame.type = "res" ∧ frame.ok then [i] else []
  | _ => []

def watchedHook (site : HookSite) : Machine WatchedHook HookAction SocketCreated where
  step s a := (⟨(webSocketHook site).next s.hook a, s.answered ++ s.hook.answeredBy a⟩,
    (webSocketHook site).emits s.hook a)

/-- **One live socket**, and a handshake that is noted is one of the socket in the ref. -/
structure WatchedHook.OneLive (s : WatchedHook) : Prop where
  live : ∀ i j, s.hook.Live i → s.hook.Live j → i = j
  handshake : s.hook.handshakeComplete = true → ∃ i, s.hook.ws = some i ∧ i ∈ s.answered

/-- The URL that an action connects to: that of a call, or of a timer. -/
def HookState.connectsTo (s : HookState) : HookAction → Option String
  | .connect url _ => some url
  | .fire t => (s.timers.row t).map (HookTimer.url s)
  | _ => none

/-- **An action that connects finds no socket connecting** in the ref, where it can create
one. -/
def WatchedHook.Unhurried (site : HookSite) (s : WatchedHook) (a : HookAction) : Prop :=
  ∀ url, s.hook.connectsTo a = some url → site.creates url = true →
    s.hook.ws.bind s.hook.readyState ≠ some .connecting

/-! ## What a step does to the sockets -/

section Steps

variable {site : HookSite} {s : HookState}

/-- **A call creates a socket**, where it can and none is open in the ref; anything else
leaves the sockets alone. -/
theorem connectHook_cases (site : HookSite) (s : HookState) (url : String)
    (token : Option String) :
    ((connectHook site s url token).1.sockets = s.sockets
        ∧ (connectHook site s url token).1.ws = s.ws
        ∧ ((connectHook site s url token).1.handshakeComplete = true →
          s.handshakeComplete = true)
        ∧ (site.creates url = true → s.ws.bind s.readyState = some .open))
      ∨ site.creates url = true ∧ s.ws.bind s.readyState ≠ some .open
        ∧ (connectHook site s url token).1.sockets = s.sockets.insert ⟨url, .connecting⟩
        ∧ (connectHook site s url token).1.ws = some s.sockets.next
        ∧ (connectHook site s url token).1.handshakeComplete = false := by
  unfold connectHook HookSite.creates
  split
  · next hopen => exact Or.inl ⟨rfl, rfl, id, fun _ => hopen⟩
  · next hopen =>
    cases hurl : site.urlToken url with
    | none => exact Or.inl ⟨rfl, rfl, id, fun h => absurd h (by simp)⟩
    | some urlToken =>
      dsimp only
      split
      · next haccepts => exact Or.inr ⟨by simpa using haccepts, hopen, rfl, rfl, rfl⟩
      · next haccepts => exact Or.inl ⟨rfl, rfl, nofun, fun h => absurd h (by simp [haccepts])⟩

theorem readyState_setReady (s : HookState) (i j : ℕ) (r : ReadyState) :
    (s.setReady i r).readyState j
      = if j = i then (s.readyState i).map fun _ => r else s.readyState j := by
  show ((s.sockets.update i _).row j).map Socket.readyState = _
  rw [Table.row_update]
  by_cases hji : j = i
  · rw [if_pos hji, if_pos hji]
    unfold HookState.readyState
    rw [Option.map_map, Option.map_map]
    rfl
  · rw [if_neg hji, if_neg hji]
    rfl

theorem live_setReady {i j : ℕ} {r : ReadyState} (hr : r = .closing ∨ r = .closed)
    (h : (s.setReady i r).Live j) : s.Live j ∧ j ≠ i := by
  unfold HookState.Live at h
  rw [readyState_setReady] at h
  by_cases hji : j = i
  · rw [if_pos hji] at h
    exfalso
    cases hi : s.readyState i with
    | none =>
      rw [hi] at h
      exact h.elim nofun nofun
    | some r' =>
      rw [hi] at h
      obtain rfl | rfl := hr <;> exact h.elim nofun nofun
  · rw [if_neg hji] at h
    exact ⟨h, hji⟩

theorem live_close {i j : ℕ} (h : (s.close i).Live j) : s.Live j := by
  unfold HookState.close at h
  split at h
  · exact (live_setReady (Or.inl rfl) h).1
  · exact (live_setReady (Or.inl rfl) h).1
  · exact h

theorem live_opened {i j : ℕ} (hi : s.readyState i = some .connecting)
    (h : (s.setReady i .open).Live j) : s.Live j := by
  by_cases hji : j = i
  · subst hji
    exact Or.inl hi
  · unfold HookState.Live at h
    rw [readyState_setReady, if_neg hji] at h
    exact h

/-- **After disconnecting**, the only sockets alive are those that the ref did not hold. -/
theorem live_disconnectHook {i : ℕ} (h : (disconnectHook s).Live i) :
    s.Live i ∧ s.ws ≠ some i := by
  unfold HookState.Live HookState.readyState at h
  rw [disconnect_sockets] at h
  cases hrow : s.sockets.row i with
  | none =>
    rw [hrow] at h
    exact h.elim nofun nofun
  | some k =>
    rw [hrow, Option.map_some, Option.map_some] at h
    by_cases hws : s.ws = some i
    · rw [if_pos hws] at h
      exfalso
      unfold Socket.closing at h
      cases hk : k.readyState <;> rw [hk] at h <;> exact h.elim nofun nofun
    · rw [if_neg hws] at h
      unfold HookState.Live HookState.readyState
      rw [hrow, Option.map_some]
      exact ⟨h, hws⟩

/-- **A frame notes a handshake** only where it answers one. -/
theorem handleGatewayFrame_handshake (s : HookState) (frame : GatewayFrame)
    (h : (handleGatewayFrame s frame).handshakeComplete = true) :
    s.handshakeComplete = true ∨ frame.type = "res" ∧ frame.ok = true := by
  unfold handleGatewayFrame at h
  split at h
  · exact Or.inl h
  · split at h
    · next hres => exact Or.inr ⟨hres.1, hres.2.1⟩
    · split at h
      · split at h <;> exact Or.inl h
      · exact Or.inl h

theorem handleGatewayFrame_ws (s : HookState) (frame : GatewayFrame) :
    (handleGatewayFrame s frame).ws = s.ws := by
  unfold handleGatewayFrame
  split
  · rfl
  · split
    · rfl
    · split
      · split <;> rfl
      · rfl

end Steps

/-! ## The invariant -/

/-- **The socket in the ref is the only one alive**, and the handshake that is noted is its
own. -/
structure WatchedHook.Sound (s : WatchedHook) : Prop where
  live : ∀ i, s.hook.Live i → s.hook.ws = some i
  handshake : s.hook.handshakeComplete = true → ∃ i, s.hook.ws = some i ∧ i ∈ s.answered

theorem WatchedHook.Sound.oneLive {s : WatchedHook} (h : s.Sound) : s.OneLive where
  live i j hi hj := Option.some.inj ((h.live i hi).symm.trans (h.live j hj))
  handshake := h.handshake

theorem WatchedHook.Sound.kept {s : WatchedHook} (h : s.Sound) {hook : HookState}
    (hlive : ∀ i, hook.Live i → s.hook.Live i) (hws : hook.ws = s.hook.ws)
    (hflag : hook.handshakeComplete = true → s.hook.handshakeComplete = true) :
    WatchedHook.Sound ⟨hook, s.answered⟩ where
  live i hi := hws.trans (h.live i (hlive i hi))
  handshake hdone := by
    obtain ⟨i, hi, hmem⟩ := h.handshake (hflag hdone)
    exact ⟨i, hws.trans hi, hmem⟩

/-- **A call keeps the invariant** where it is not hurried. -/
theorem WatchedHook.Sound.connect {site : HookSite} {s : WatchedHook} (h : s.Sound)
    {url : String} (token : Option String)
    (hurl : site.creates url = true → s.hook.ws.bind s.hook.readyState ≠ some .connecting) :
    WatchedHook.Sound ⟨(connectHook site s.hook url token).1, s.answered⟩ := by
  obtain ⟨hsockets, hws, hflag, -⟩ | ⟨hcreates, hopen, hsockets, hws, hflag⟩ :=
    connectHook_cases site s.hook url token
  · refine h.kept (fun i hi => ?_) hws hflag
    unfold HookState.Live HookState.readyState at hi
    rwa [hsockets] at hi
  · refine ⟨fun i hi => ?_, fun hdone => absurd (hflag.symm.trans hdone) nofun⟩
    unfold HookState.Live HookState.readyState at hi
    rw [hsockets] at hi
    by_cases hnew : i = s.hook.sockets.next
    · rw [hnew]
      exact hws
    · -- a socket that was alive is the one in the ref, and is neither connecting nor open
      rw [Table.row_insert_of_ne _ _ hnew] at hi
      have hkept : s.hook.ws.bind s.hook.readyState = s.hook.readyState i := by
        rw [h.live i hi]
        rfl
      rw [hkept] at hopen hurl
      exact hi.elim (fun hi => absurd hi (hurl hcreates)) (fun hi => absurd hi hopen)

theorem WatchedHook.Sound.clearTimer {s : WatchedHook} (h : s.Sound) (t : ℕ) :
    WatchedHook.Sound ⟨s.hook.clearTimer t, s.answered⟩ :=
  h.kept (fun _ hi => hi) rfl id

/-- **Disconnecting leaves no socket alive.** -/
theorem WatchedHook.Sound.disconnect {s : WatchedHook} (h : s.Sound) :
    WatchedHook.Sound ⟨disconnectHook s.hook, s.answered⟩ where
  live i hi := absurd (h.live i (live_disconnectHook hi).1) (live_disconnectHook hi).2
  handshake hdone := absurd hdone nofun

theorem WatchedHook.Sound.message {s : WatchedHook} (h : s.Sound) {i : ℕ}
    (hopen : s.hook.readyState i = some .open) (frame : GatewayFrame) :
    WatchedHook.Sound ⟨handleGatewayFrame s.hook frame,
      s.answered ++ s.hook.answeredBy (.message i (some frame))⟩ := by
  have hws := handleGatewayFrame_ws s.hook frame
  refine ⟨fun j hj => ?_, fun hdone => ?_⟩
  · unfold HookState.Live HookState.readyState at hj
    rw [(handleGatewayFrame_kept s.hook frame).1] at hj
    exact hws.trans (h.live j hj)
  · obtain hbefore | hanswer := handleGatewayFrame_handshake s.hook frame hdone
    · obtain ⟨j, hj, hmem⟩ := h.handshake hbefore
      exact ⟨j, hws.trans hj, List.mem_append_left _ hmem⟩
    · refine ⟨i, hws.trans (h.live i (Or.inr hopen)), List.mem_append_right _ ?_⟩
      show i ∈ if s.hook.readyState i = some .open ∧ frame.type = "res" ∧ frame.ok = true
        then [i] else []
      rw [if_pos ⟨hopen, hanswer⟩]
      exact List.mem_singleton_self i

theorem WatchedHook.Sound.reconnect {s : WatchedHook} (h : s.Sound) :
    WatchedHook.Sound ⟨reconnectHook s.hook, s.answered⟩ := by
  unfold reconnectHook
  dsimp only
  split
  · exact h.disconnect.kept (fun _ hi => hi) rfl id
  · exact h.disconnect

theorem WatchedHook.Sound.closed {s : WatchedHook} (h : s.Sound) (site : HookSite) (i : ℕ) :
    WatchedHook.Sound ⟨(webSocketHook site).next s.hook (.closed i), s.answered⟩ := by
  unfold Machine.next webSocketHook
  dsimp only
  cases hrow : s.hook.sockets.row i with
  | none => exact h
  | some socket =>
    dsimp only
    split
    · exact h
    · unfold closeHandler
      dsimp only
      split <;> exact h.kept (fun _ hj => (live_setReady (Or.inr rfl) hj).1) rfl nofun

theorem WatchedHook.Sound.fire {site : HookSite} {s : WatchedHook} (h : s.Sound) {t : ℕ}
    (ha : s.Unhurried site (.fire t)) :
    WatchedHook.Sound ⟨(fireTimer site s.hook t).1, s.answered⟩ := by
  unfold fireTimer
  cases ht : s.hook.timers.row t with
  | none => exact h
  | some timer =>
    have hurl : site.creates (timer.url s.hook) = true →
        s.hook.ws.bind s.hook.readyState ≠ some .connecting := by
      refine ha _ ?_
      show (s.hook.timers.row t).map _ = _
      rw [ht]
      rfl
    cases timer with
    | closed url => exact (h.clearTimer t).connect _ hurl
    | delayed => exact (h.clearTimer t).connect _ hurl

theorem WatchedHook.Sound.ping {s : WatchedHook} (h : s.Sound) :
    WatchedHook.Sound ⟨pingHandler s.hook, s.answered⟩ := by
  unfold pingHandler
  split
  · next i _ =>
    split
    · split
      · refine h.kept (fun _ hj => live_close hj) ?_ ?_
        · unfold HookState.close
          split <;> rfl
        · unfold HookState.close
          split <;> exact id
      · exact h.kept (fun _ hj => hj) rfl id
    · exact h
  · exact h

theorem watchedHook_next {site : HookSite} {s : WatchedHook} {a : HookAction}
    (h : s.hook.answeredBy a = []) :
    (watchedHook site).next s a = ⟨(webSocketHook site).next s.hook a, s.answered⟩ := by
  show (⟨_, s.answered ++ s.hook.answeredBy a⟩ : WatchedHook) = _
  rw [h, List.append_nil]

/-- **Every step that is not hurried keeps the invariant.** -/
theorem WatchedHook.Sound.next {site : HookSite} {s : WatchedHook} (h : s.Sound)
    {a : HookAction} (ha : s.Unhurried site a) : ((watchedHook site).next s a).Sound := by
  cases a with
  | connect url token =>
    rw [watchedHook_next rfl]
    exact h.connect token (ha url rfl)
  | disconnect =>
    rw [watchedHook_next rfl]
    exact h.disconnect
  | reconnect =>
    rw [watchedHook_next rfl]
    exact h.reconnect
  | opened i =>
    rw [watchedHook_next rfl]
    show WatchedHook.Sound ⟨if s.hook.readyState i = some .connecting then
      s.hook.setReady i .open else s.hook, s.answered⟩
    split
    · next hi => exact h.kept (fun _ hj => live_opened hi hj) rfl id
    · exact h
  | message i frame =>
    cases frame with
    | none =>
      rw [watchedHook_next rfl]
      exact h
    | some frame =>
      by_cases hopen : s.hook.readyState i = some .open
      · show WatchedHook.Sound ⟨if s.hook.readyState i = some .open then
          handleGatewayFrame s.hook frame else s.hook, s.answered ++ s.hook.answeredBy _⟩
        rw [if_pos hopen]
        exact h.message hopen frame
      · have hnone : s.hook.answeredBy (.message i (some frame)) = [] :=
          if_neg fun hanswer => hopen hanswer.1
        rw [watchedHook_next hnone]
        show WatchedHook.Sound ⟨if s.hook.readyState i = some .open then
          handleGatewayFrame s.hook frame else s.hook, s.answered⟩
        rw [if_neg hopen]
        exact h
  | errored i =>
    rw [watchedHook_next rfl]
    exact h
  | closed i =>
    rw [watchedHook_next rfl]
    exact h.closed site i
  | fire t =>
    rw [watchedHook_next rfl]
    exact h.fire ha
  | ping =>
    rw [watchedHook_next rfl]
    show WatchedHook.Sound ⟨if s.hook.pingInterval then pingHandler s.hook else s.hook,
      s.answered⟩
    split
    · exact h.ping
    · exact h

/-! ## The steps that break it -/

/-- **A hurried call leaves two sockets alive**: the one that was connecting, and the one
that takes its place. -/
theorem two_live_connectHook {site : HookSite} {s : HookState} {url : String}
    (token : Option String) (hcreates : site.creates url = true)
    (hws : s.ws.bind s.readyState = some .connecting) :
    ∃ i j, i ≠ j ∧ (connectHook site s url token).1.Live i
      ∧ (connectHook site s url token).1.Live j := by
  obtain ⟨-, -, -, hopen⟩ | ⟨-, -, hsockets, -, -⟩ := connectHook_cases site s url token
  · exact absurd (hws.symm.trans (hopen hcreates)) nofun
  · obtain ⟨i, -, hi⟩ := Option.bind_eq_some_iff.mp hws
    obtain ⟨socket, hrow, hready⟩ := Option.map_eq_some_iff.mp hi
    have hne : i ≠ s.sockets.next := by
      rintro rfl
      rw [Table.row_next] at hrow
      exact nomatch hrow
    refine ⟨i, s.sockets.next, hne, Or.inl ?_, Or.inl ?_⟩
    · unfold HookState.readyState
      rw [hsockets, Table.row_insert_of_ne _ _ hne, hrow]
      exact congrArg some hready
    · unfold HookState.readyState
      rw [hsockets, Table.row_insert_next]
      rfl

/-- **A step after which one socket is alive** was not hurried. -/
theorem WatchedHook.OneLive.unhurried {site : HookSite} {s : WatchedHook} {a : HookAction}
    (h : ((watchedHook site).next s a).OneLive) : s.Unhurried site a := by
  intro url hurl hcreates hws
  cases a with
  | connect url' token =>
    obtain rfl : url' = url := Option.some.inj hurl
    obtain ⟨i, j, hne, hi, hj⟩ := two_live_connectHook token hcreates hws
    exact hne (h.live i j hi hj)
  | fire t =>
    obtain ⟨timer, ht, rfl⟩ := Option.map_eq_some_iff.mp hurl
    have hlive := h.live
    have hnext : ((watchedHook site).next s (.fire t)).hook = (fireTimer site s.hook t).1 := rfl
    rw [hnext] at hlive
    unfold fireTimer at hlive
    rw [ht] at hlive
    cases timer with
    | closed url =>
      obtain ⟨i, j, hne, hi, hj⟩ :=
        two_live_connectHook (s := s.hook.clearTimer t) (some s.hook.authToken) hcreates hws
      exact hne (hlive i j hi hj)
    | delayed =>
      obtain ⟨i, j, hne, hi, hj⟩ :=
        two_live_connectHook (s := s.hook.clearTimer t) (some s.hook.authToken) hcreates hws
      exact hne (hlive i j hi hj)
  | disconnect => exact nomatch hurl
  | reconnect => exact nomatch hurl
  | opened i => exact nomatch hurl
  | message i frame => exact nomatch hurl
  | errored i => exact nomatch hurl
  | closed i => exact nomatch hurl
  | ping => exact nomatch hurl

theorem WatchedHook.Sound.initial : WatchedHook.initial.Sound where
  live _ hi := hi.elim nofun nofun
  handshake h := absurd h nofun

/-- **At most one socket is alive all along a run**, and the handshake that is noted is its
own, exactly where no call and no timer finds the socket in the ref still connecting. -/
theorem webSocketHook_oneLive_iff (site : HookSite) (as : List HookAction) :
    (watchedHook site).Always WatchedHook.OneLive .initial as
      ↔ (watchedHook site).EachStep (WatchedHook.Unhurried site) .initial as :=
  (watchedHook site).always_iff_eachStep_of_stronger WatchedHook.Sound.initial
    (fun _ h => h.oneLive) (fun _ _ h ha => h.next ha) (fun _ _ _ h => h.unhurried) as

/-- **Two calls of `connect`**, the second before the socket of the first has opened, leave
two sockets connecting. -/
theorem not_oneLive_sampleConnects :
    ¬ ∀ (site : HookSite) (as : List HookAction),
      (watchedHook site).Always WatchedHook.OneLive .initial as := by
  intro h
  have hlive := (h sampleHookSite [.connect "ws://localhost:18789" none,
    .connect "ws://localhost:18789" none] _ (List.prefix_refl _)).live
  exact absurd (hlive 1 2 (Or.inl (by decide +kernel)) (Or.inl (by decide +kernel)))
    (by decide)

end MissionControl
