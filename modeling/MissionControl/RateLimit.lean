import Mathlib.Algebra.Order.Floor.Semiring
import Mathlib.Algebra.Order.Ring.Rat
import Mathlib.Data.Rat.Floor
import Mathlib.Tactic.Linarith
import Mathlib.Tactic.NormNum
import MissionControl.Environment
import MissionControl.Library.FixedWindow
import MissionControl.Library.Machine
import MissionControl.Tasks

/-!
# The rate limiter

`createRateLimiter` keeps one counter for each client: it opens a window with the
first request, counts the requests up to the end of the window, and refuses those
beyond the limit. A cleanup that runs beside it deletes the counters of expired
windows.

The counter of one client is a fixed window of the library, with the requests of
the other clients left out (`answers_trace`). So the bounds are those of the
library, and the cleanup changes no decision. Where `MC_DISABLE_RATE_LIMIT` is
`1`, a limiter that is not critical counts nothing, and nothing is bounded.
-/

namespace MissionControl

/-! ## The limiter -/

structure RateLimiterOptions where
  windowMs : ℚ
  maxRequests : ℚ
  message : Option String
  critical : Bool

abbrev RateLimitEntry := Window ℚ

abbrev RateLimitStore := String → Option RateLimitEntry

/-- The parts of a list that is separated by commas, trimmed. -/
def splitList (s : String) : List String :=
  (s.toList.splitOn ',').map fun part => trim (String.ofList part)

/-- The fallback of `extractClientIp`. -/
def realIp (headers : String → Option String) : String :=
  orElse (((headers "x-real-ip").map trim).getD "") "unknown"

def extractClientIp (trusted : List String) (headers : String → Option String) : String :=
  match headers "x-forwarded-for" with
  | none => realIp headers
  | some forwarded =>
    if forwarded ≠ "" ∧ trusted ≠ [] then
      ((splitList forwarded).reverse.find? fun ip => ip ∉ trusted).getD (realIp headers)
    else realIp headers

/-- The answer to a request beyond the limit. -/
def RateLimiterOptions.refusal (options : RateLimiterOptions) : ApiResponse :=
  .error 429 (orElse (options.message.getD "") "Too many requests. Please try again later.")

/-- **`checkRateLimit`**, behind the bypass: there is no answer to a request that is
accepted. -/
def checkRateLimit (options : RateLimiterOptions) (store : RateLimitStore) (ip : String)
    (now : ℚ) : RateLimitStore × Option ApiResponse :=
  match store ip with
  | none => (Function.update store ip (some ⟨1, now + options.windowMs⟩), none)
  | some entry =>
    if entry.resetAt < now then
      (Function.update store ip (some ⟨1, now + options.windowMs⟩), none)
    else
      (Function.update store ip (some ⟨entry.count + 1, entry.resetAt⟩),
        if options.maxRequests < (entry.count + 1 : ℕ) then some options.refusal else none)

def cleanupRateLimits (store : RateLimitStore) (now : ℚ) : RateLimitStore :=
  fun ip => Window.clean now (store ip)

/-- What the limiter is called for: a request, with whether `MC_DISABLE_RATE_LIMIT`
is `1`, or the cleanup. -/
inductive LimiterAction where
  | check (headers : String → Option String) (disabled : Bool) (now : ℚ)
  | cleanup (now : ℚ)

def LimiterAction.now : LimiterAction → ℚ
  | check _ _ now => now
  | cleanup now => now

def LimiterAction.isCheck : LimiterAction → Bool
  | check _ _ _ => true
  | cleanup _ => false

/-- **A decision**: the client, the time, whether the limiter was bypassed, and the
answer, if the request is refused. -/
structure LimiterDecision where
  ip : String
  now : ℚ
  bypassed : Bool
  answer : Option ApiResponse

/-- **The limiter** that `createRateLimiter` returns, with its cleanup. -/
def rateLimiter (options : RateLimiterOptions) (trusted : List String) :
    Machine RateLimitStore LimiterAction LimiterDecision where
  step store
    | .check headers disabled now =>
      let ip := extractClientIp trusted headers
      if disabled = true ∧ options.critical = false then (store, [⟨ip, now, true, none⟩])
      else
        let checked := checkRateLimit options store ip now
        (checked.1, [⟨ip, now, false, checked.2⟩])
    | .cleanup now => (cleanupRateLimits store now, [])

def RateLimitStore.empty : RateLimitStore := fun _ => none

/-! ## The counter of one client -/

section Client

variable {options : RateLimiterOptions} {trusted : List String}

/-- How many requests of a window are accepted. -/
def RateLimiterOptions.limit (options : RateLimiterOptions) : ℕ := ⌊options.maxRequests⌋₊

/-- **A check is a request in the fixed window of the client.** -/
theorem checkRateLimit_eq (hmax : 1 ≤ options.maxRequests) (store : RateLimitStore)
    (ip : String) (now : ℚ) :
    (checkRateLimit options store ip now).1
        = Function.update store ip
          (Window.request options.windowMs options.limit now (store ip)).1
      ∧ (checkRateLimit options store ip now).2.isNone
        = (Window.request options.windowMs options.limit now (store ip)).2 := by
  have hlimit : ∀ n : ℕ, options.maxRequests < (n : ℚ) ↔ ¬ n ≤ options.limit := by
    intro n
    unfold RateLimiterOptions.limit
    rw [Nat.le_floor_iff (zero_le_one.trans hmax), not_le]
  unfold checkRateLimit Window.request
  cases store ip with
  | none => exact ⟨rfl, rfl⟩
  | some entry =>
    dsimp only
    split
    · exact ⟨rfl, rfl⟩
    · refine ⟨rfl, ?_⟩
      by_cases hle : entry.count + 1 ≤ options.limit
      · rw [if_neg (not_not.mpr hle ∘ (hlimit _).mp), decide_eq_true hle]
        rfl
      · rw [if_pos ((hlimit _).mpr hle), decide_eq_false hle]
        rfl

/-- What a call is in the window of a client, if it is anything there. -/
def clientEvent (options : RateLimiterOptions) (trusted : List String) (ip : String) :
    LimiterAction → Option (WindowEvent ℚ)
  | .check headers disabled now =>
    if ¬ (disabled = true ∧ options.critical = false) ∧ extractClientIp trusted headers = ip
    then some (.request now) else none
  | .cleanup now => some (.cleanup now)

/-- The events in the window of a client: its requests that are checked, and the
cleanups. -/
def clientEvents (options : RateLimiterOptions) (trusted : List String) (ip : String)
    (actions : List LimiterAction) : List (WindowEvent ℚ) :=
  actions.filterMap (clientEvent options trusted ip)

/-- A decision about a client that was not bypassed. -/
def LimiterDecision.checks (ip : String) (d : LimiterDecision) : Bool :=
  d.ip = ip ∧ d.bypassed = false

theorem step_check (store : RateLimitStore) (headers : String → Option String)
    {disabled : Bool} (now : ℚ) (h : ¬ (disabled = true ∧ options.critical = false)) :
    (rateLimiter options trusted).step store (.check headers disabled now)
      = ((checkRateLimit options store (extractClientIp trusted headers) now).1,
        [⟨extractClientIp trusted headers, now, false,
          (checkRateLimit options store (extractClientIp trusted headers) now).2⟩]) :=
  if_neg h

/-- **The decisions about a client are those of its window.** -/
theorem answers_trace (hmax : 1 ≤ options.maxRequests) (ip : String)
    (store : RateLimitStore) (actions : List LimiterAction) :
    (((rateLimiter options trusted).trace store actions).filter
          (LimiterDecision.checks ip)).map (fun d => (d.now, d.answer.isNone))
      = Window.answers options.windowMs options.limit (store ip)
        (clientEvents options trusted ip actions) := by
  induction actions generalizing store with
  | nil => rfl
  | cons a actions ih =>
    rw [Machine.trace_cons, List.filter_append, List.map_append, ih]
    cases a with
    | cleanup now => rfl
    | check headers disabled now =>
      by_cases hbypass : disabled = true ∧ options.critical = false
      · have hstep : (rateLimiter options trusted).step store (.check headers disabled now)
            = (store, [⟨extractClientIp trusted headers, now, true, none⟩]) :=
          if_pos hbypass
        have hevents : clientEvents options trusted ip (.check headers disabled now :: actions)
            = clientEvents options trusted ip actions :=
          List.filterMap_cons_none (if_neg fun h => h.1 hbypass)
        rw [Machine.emits, Machine.next, hstep, hevents, List.filter_cons_of_neg]
        · rfl
        · simp [LimiterDecision.checks]
      · have hstep := @step_check options trusted store headers disabled now hbypass
        obtain ⟨hnext, hanswer⟩ := checkRateLimit_eq hmax store
          (extractClientIp trusted headers) now
        rw [Machine.emits, Machine.next, hstep, hnext]
        by_cases hip : extractClientIp trusted headers = ip
        · have hevents : clientEvents options trusted ip
                (.check headers disabled now :: actions)
              = .request now :: clientEvents options trusted ip actions :=
            List.filterMap_cons_some (if_pos ⟨hbypass, hip⟩)
          subst hip
          rw [hevents, Window.answers, List.filter_cons_of_pos]
          · rw [Function.update_self, ← hanswer]
            rfl
          · simp [LimiterDecision.checks]
        · have hevents : clientEvents options trusted ip
                (.check headers disabled now :: actions)
              = clientEvents options trusted ip actions :=
            List.filterMap_cons_none (if_neg fun h => hip h.2)
          rw [hevents, Function.update_of_ne (Ne.symm hip), List.filter_cons_of_neg]
          · rfl
          · simp [LimiterDecision.checks, hip]

/-- How many requests of a client are accepted at times of some kind, by a limiter
that was not bypassed. -/
def admittedAt (ip : String) (p : ℚ → Bool) (ds : List LimiterDecision) : ℕ :=
  ds.countP fun d => d.checks ip && d.answer.isNone && p d.now

/-- **What is accepted of a client is what its window admits.** -/
theorem admittedAt_trace (hmax : 1 ≤ options.maxRequests) (ip : String) (p : ℚ → Bool)
    (store : RateLimitStore) (actions : List LimiterAction) :
    admittedAt ip p ((rateLimiter options trusted).trace store actions)
      = (Window.admitted options.windowMs options.limit (store ip)
        (clientEvents options trusted ip actions)).countP p := by
  unfold Window.admitted admittedAt
  rw [← answers_trace hmax, List.countP_map, List.countP_filter, List.countP_map,
    List.countP_filter]
  refine List.countP_congr fun d _ => ?_
  simp only [Function.comp_apply, Bool.and_eq_true]
  tauto

theorem now_of_clientEvent {ip : String} {a : LimiterAction} {e : WindowEvent ℚ}
    (h : clientEvent options trusted ip a = some e) : e.now = a.now := by
  cases a with
  | cleanup now =>
    obtain rfl := Option.some.inj h
    rfl
  | check headers disabled now =>
    rw [clientEvent] at h
    split at h
    · obtain rfl := Option.some.inj h
      rfl
    · exact nomatch h

/-- The events of a client are in the order of time, as the calls are. -/
theorem ordered_clientEvents {ip : String} {actions : List LimiterAction}
    (h : actions.Pairwise fun a b => a.now ≤ b.now) :
    Window.Ordered (clientEvents options trusted ip actions) := by
  refine List.pairwise_filterMap.mpr (h.imp ?_)
  intro a b hab e he e' he'
  rw [now_of_clientEvent he, now_of_clientEvent he']
  exact hab

theorem cast_le_maxRequests (hmax : 1 ≤ options.maxRequests) {n : ℕ}
    (h : n ≤ options.limit) : (n : ℚ) ≤ options.maxRequests :=
  (Nat.le_floor_iff (zero_le_one.trans hmax)).mp h

theorem one_le_limit (hmax : 1 ≤ options.maxRequests) : 1 ≤ options.limit :=
  Nat.le_floor (by exact_mod_cast hmax)

/-! ## The cleanup changes no decision -/

theorem checkRateLimit_of_not_live {store : RateLimitStore} {ip : String} {now : ℚ}
    (h : ¬ Window.Live (store ip) now) :
    checkRateLimit options store ip now
      = (Function.update store ip (some ⟨1, now + options.windowMs⟩), none) := by
  unfold checkRateLimit
  cases hentry : store ip with
  | none => rfl
  | some entry =>
    dsimp only
    rw [if_pos (lt_of_not_ge fun hle => h ⟨entry, hentry, hle⟩)]

/-- **Counters that agree answer alike**, and agree afterwards. -/
theorem checkRateLimit_of_agree {store store' : RateLimitStore} {ip : String} {now : ℚ}
    (h : Window.Agree now (store ip) (store' ip)) :
    (checkRateLimit options store ip now).2 = (checkRateLimit options store' ip now).2
      ∧ (checkRateLimit options store ip now).1 ip
        = (checkRateLimit options store' ip now).1 ip := by
  rcases h with h | ⟨h, h'⟩
  · unfold checkRateLimit
    rw [← h]
    cases store ip with
    | none => simp
    | some entry =>
      dsimp only
      split <;> simp
  · rw [checkRateLimit_of_not_live h, checkRateLimit_of_not_live h']
    simp

theorem checkRateLimit_of_ne {store : RateLimitStore} {ip other : String} {now : ℚ}
    (h : other ≠ ip) : (checkRateLimit options store ip now).1 other = store other := by
  unfold checkRateLimit
  cases store ip with
  | none => exact Function.update_of_ne h _ _
  | some entry =>
    dsimp only
    split <;> exact Function.update_of_ne h _ _

/-- **Without the cleanups the decisions are the same.** -/
theorem trace_filter_isCheck {store store' : RateLimitStore} {lo : ℚ}
    {actions : List LimiterAction} (h : actions.Pairwise fun a b => a.now ≤ b.now)
    (hlo : ∀ a ∈ actions, lo ≤ a.now)
    (hagree : ∀ ip, Window.Agree lo (store ip) (store' ip)) :
    (rateLimiter options trusted).trace store actions
      = (rateLimiter options trusted).trace store'
        (actions.filter LimiterAction.isCheck) := by
  induction actions generalizing store store' lo with
  | nil => rfl
  | cons a actions ih =>
    obtain ⟨hfirst, htail⟩ := List.pairwise_cons.mp h
    have hnow : ∀ ip, Window.Agree a.now (store ip) (store' ip) :=
      fun ip => Window.agree_mono (hagree ip) (hlo a List.mem_cons_self)
    rw [Machine.trace_cons]
    cases a with
    | cleanup now =>
      exact ih htail hfirst fun ip => Window.agree_clean (hnow ip)
    | check headers disabled now =>
      rw [List.filter_cons_of_pos rfl, Machine.trace_cons]
      by_cases hbypass : disabled = true ∧ options.critical = false
      · have hstep : ∀ store, (rateLimiter options trusted).step store
              (.check headers disabled now)
            = (store, [⟨extractClientIp trusted headers, now, true, none⟩]) :=
          fun _ => if_pos hbypass
        rw [Machine.emits, Machine.emits, Machine.next, Machine.next, hstep, hstep]
        rw [ih htail hfirst hnow]
      · have hclient : Window.Agree now (store (extractClientIp trusted headers))
            (store' (extractClientIp trusted headers)) := hnow _
        have hcheck : (checkRateLimit options store _ now).2
              = (checkRateLimit options store' _ now).2
            ∧ (checkRateLimit options store _ now).1 _
              = (checkRateLimit options store' _ now).1 _ :=
          checkRateLimit_of_agree hclient
        obtain ⟨hanswer, hself⟩ := hcheck
        have hnext : ∀ ip, Window.Agree now
            ((checkRateLimit options store (extractClientIp trusted headers) now).1 ip)
            ((checkRateLimit options store' (extractClientIp trusted headers) now).1 ip) := by
          intro ip
          by_cases hip : ip = extractClientIp trusted headers
          · subst hip
            exact .inl hself
          · rw [checkRateLimit_of_ne hip, checkRateLimit_of_ne hip]
            exact hnow ip
        rw [Machine.emits, Machine.emits, Machine.next, Machine.next,
          step_check store headers now hbypass, step_check store' headers now hbypass]
        dsimp only
        rw [hanswer, ih htail hfirst hnext]

/-! ## The bounds -/

/-- A call that opens a window of a client: a request that is checked and finds no
live one. -/
def Opens (options : RateLimiterOptions) (trusted : List String) (ip : String)
    (store : RateLimitStore) : LimiterAction → Prop
  | .check headers disabled now =>
    ¬ (disabled = true ∧ options.critical = false) ∧ extractClientIp trusted headers = ip
      ∧ ¬ Window.Live (store ip) now
  | .cleanup _ => False

/-- **In a window** at most `maxRequests` requests of a client are accepted, from its
opening on. -/
theorem admittedAt_window (hmax : 1 ≤ options.maxRequests) {ip : String}
    {store : RateLimitStore} {a : LimiterAction} {actions : List LimiterAction}
    (h : (a :: actions).Pairwise fun a b => a.now ≤ b.now)
    (hopens : Opens options trusted ip store a) :
    (admittedAt ip (· ≤ a.now + options.windowMs)
      ((rateLimiter options trusted).trace store (a :: actions)) : ℚ)
      ≤ options.maxRequests := by
  cases a with
  | cleanup now => exact hopens.elim
  | check headers disabled now =>
    obtain ⟨hbypass, hip, hlive⟩ := hopens
    have hevents : clientEvents options trusted ip (.check headers disabled now :: actions)
        = .request now :: clientEvents options trusted ip actions :=
      List.filterMap_cons_some (if_pos ⟨hbypass, hip⟩)
    have hordered := @ordered_clientEvents options trusted ip _ h
    rw [hevents] at hordered
    refine cast_le_maxRequests hmax ?_
    rw [admittedAt_trace hmax, hevents]
    exact Window.countP_le_of_opens (one_le_limit hmax) hlive hordered

/-- **In any interval as long as a window** at most twice as many are. -/
theorem admittedAt_interval (hmax : 1 ≤ options.maxRequests) {ip : String}
    {store : RateLimitStore} {actions : List LimiterAction} {lo hi : ℚ}
    (h : actions.Pairwise fun a b => a.now ≤ b.now) (hhi : hi ≤ lo + options.windowMs) :
    (admittedAt ip (fun t => lo ≤ t ∧ t ≤ hi)
      ((rateLimiter options trusted).trace store actions) : ℚ)
      ≤ 2 * options.maxRequests := by
  have hcount : admittedAt ip (fun t => lo ≤ t ∧ t ≤ hi)
      ((rateLimiter options trusted).trace store actions) ≤ 2 * options.limit := by
    rw [admittedAt_trace hmax]
    exact Window.countP_interval_le (one_le_limit hmax) (ordered_clientEvents h) hhi
  have hlimit : (options.limit : ℚ) ≤ options.maxRequests := cast_le_maxRequests hmax le_rfl
  calc (admittedAt ip (fun t => lo ≤ t ∧ t ≤ hi)
        ((rateLimiter options trusted).trace store actions) : ℚ)
      ≤ ((2 * options.limit : ℕ) : ℚ) := by exact_mod_cast hcount
    _ = 2 * (options.limit : ℚ) := by push_cast; ring
    _ ≤ 2 * options.maxRequests := by linarith

end Client

/-- **What the rate limiter guarantees**, of any calls in the order of time: the
cleanups change no decision; from the opening of a window to its end at most
`maxRequests` requests of a client are accepted; and at most twice as many in any
interval as long as a window. Requests that bypass the limiter are not counted. -/
theorem rateLimiter_bounds (options : RateLimiterOptions) (trusted : List String)
    (actions : List LimiterAction) (hmax : 1 ≤ options.maxRequests)
    (htimes : actions.Pairwise fun a b => a.now ≤ b.now) :
    (rateLimiter options trusted).trace .empty actions
        = (rateLimiter options trusted).trace .empty (actions.filter LimiterAction.isCheck)
      ∧ (∀ ip before a after, actions = before ++ a :: after →
        Opens options trusted ip ((rateLimiter options trusted).state .empty before) a →
        (admittedAt ip (· ≤ a.now + options.windowMs)
          ((rateLimiter options trusted).trace
            ((rateLimiter options trusted).state .empty before) (a :: after)) : ℚ)
          ≤ options.maxRequests)
      ∧ ∀ ip lo hi, hi ≤ lo + options.windowMs →
        (admittedAt ip (fun t => lo ≤ t ∧ t ≤ hi)
          ((rateLimiter options trusted).trace .empty actions) : ℚ)
          ≤ 2 * options.maxRequests := by
  refine ⟨?_, ?_, fun ip lo hi hhi => admittedAt_interval hmax htimes hhi⟩
  · cases actions with
    | nil => rfl
    | cons a actions =>
      have hfirst : ∀ b ∈ a :: actions, a.now ≤ b.now := by
        intro b hb
        rcases List.mem_cons.mp hb with rfl | hb
        · exact le_rfl
        · exact (List.pairwise_cons.mp htimes).1 b hb
      exact trace_filter_isCheck htimes hfirst fun ip => .inl rfl
  · rintro ip before a after rfl hopens
    exact admittedAt_window hmax (List.pairwise_append.mp htimes).2.1 hopens

/-- A limiter that is not critical: one request in a second. -/
def sampleLimiterOptions : RateLimiterOptions := ⟨1000, 1, none, false⟩

/-- Requests of one client, without proxies. -/
def sampleCheck (disabled : Bool) (now : ℚ) : LimiterAction :=
  .check (fun name => if name = "x-real-ip" then some "10.0.0.1" else none) disabled now

/-- Two requests in a window and one after it, with a cleanup before it. -/
theorem rateLimiter_bounds_sample :
    (admittedAt "10.0.0.1" (fun t => 0 ≤ t ∧ t ≤ 1000)
      ((rateLimiter sampleLimiterOptions []).trace .empty
        [sampleCheck false 0, sampleCheck false 1000, .cleanup 1001, sampleCheck false 1001])
      : ℚ) ≤ 2 * 1 :=
  (rateLimiter_bounds sampleLimiterOptions []
    [sampleCheck false 0, sampleCheck false 1000, .cleanup 1001, sampleCheck false 1001]
    (by decide) (by decide)).2.2 "10.0.0.1" 0 1000 (by norm_num [sampleLimiterOptions])

/-- How many requests of a client are accepted in an interval, bypassed or not. -/
def acceptedIn (ip : String) (lo hi : ℚ) (ds : List LimiterDecision) : ℕ :=
  ds.countP fun d => d.ip = ip ∧ d.answer.isNone ∧ lo ≤ d.now ∧ d.now ≤ hi

/-- **With `MC_DISABLE_RATE_LIMIT` nothing is bounded.** -/
theorem not_bounded_sampleDisabled :
    ¬ (acceptedIn "10.0.0.1" 0 1000
        ((rateLimiter sampleLimiterOptions []).trace .empty
          [sampleCheck true 0, sampleCheck true 1, sampleCheck true 2]) : ℚ)
      ≤ 2 * sampleLimiterOptions.maxRequests := by
  have hall : acceptedIn "10.0.0.1" 0 1000
      ((rateLimiter sampleLimiterOptions []).trace .empty
        [sampleCheck true 0, sampleCheck true 1, sampleCheck true 2]) = 3 := by
    decide +kernel
  rw [hall]
  norm_num [sampleLimiterOptions]

end MissionControl
