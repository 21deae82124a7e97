import MissionControl.Environment
import MissionControl.Library.Machine
import MissionControl.Library.Utf8
import MissionControl.Webhooks

/-!
# Deliveries and retries of webhooks

A delivery is sent and waits for its response; when it has come the delivery
is recorded in `webhook_deliveries`. A failed automatic delivery is recorded
with the time of its next attempt, and counts towards the circuit breaker of
its webhook. A retry pass takes up to fifty rows whose time has come, clears
their times, and sends them one after the other, each waiting for the one
before it. Manual retries and tests are sent once.

Between sending and recording, and between two deliveries of a pass, anything
else may happen: what waits is a row of `sendings` or of `passes`, and the
rest of it is an action of its own. A pass holds the rows of its batch as it
has read them, each with the row of its webhook.
-/

namespace MissionControl

/-! ## Rows -/

/-- A row of `webhooks`, with the count of the circuit breaker. -/
structure WebhookRow extends Webhook where
  consecutiveFailures : ℕ

/-- A row of `webhook_deliveries`. -/
structure DeliveryRow where
  webhookId : ℕ
  eventType : String
  payload : String
  statusCode : Option ℕ
  responseBody : Option String
  error : Option String
  attempt : ℕ
  isRetry : Bool
  parentDeliveryId : Option ℕ
  nextRetryAt : Option ℤ
  createdAt : ℕ

structure DeliverOpts where
  attempt : ℕ := 0
  parentDeliveryId : Option ℕ := none
  allowRetry : Bool := true

/-- **A delivery that has been sent** and waits for its response. -/
structure Sending where
  webhookId : ℕ
  eventType : String
  body : String
  opts : DeliverOpts

/-- What comes of a request: a response, with its text if that could be read,
or an error. -/
inductive Outcome where
  | response (status : ℕ) (text : Option String)
  | error (message : String)

/-- A row of a batch: a delivery that is due, and its webhook, as they were
read. -/
structure RetryRow where
  id : ℕ
  webhookId : ℕ
  eventType : String
  payload : String
  attempt : ℕ
  webhook : Webhook

/-- **A retry pass**: the delivery it waits for, and the rows it has still to
send. -/
structure RetryPass where
  waiting : Option ℕ
  batch : List RetryRow

/-- The tables, what has been sent, and the passes under way. -/
structure EngineState where
  webhooks : Table WebhookRow
  deliveries : Table DeliveryRow
  sendings : Table Sending
  passes : Table RetryPass

def EngineState.initial : EngineState := ⟨.empty, .empty, .empty, .empty⟩

/-! ## The site -/

/-- **What the webhooks run with**: the runtime, SQLite, the environment, HMAC
and the URL parser. -/
structure WebhookSite where
  rt : Runtime
  sq : Sqlite
  web : Process
  /-- `createHmac('sha256', secret).update(body).digest('hex')`. -/
  hmac : String → String → String
  /-- Whether `new URL(text)` takes the text. -/
  isUrl : String → Bool

/-- `parseInt(s, 10)`. -/
def parseDecimal (s : String) : Option ℤ :=
  match s.toList.dropWhile isWhiteSpace with
  | '-' :: s => (readDigits 10 s).map (fun n => -(n : ℤ))
  | '+' :: s => (readDigits 10 s).map (fun n => (n : ℤ))
  | s => (readDigits 10 s).map (fun n => (n : ℤ))

def WebhookSite.maxRetries (site : WebhookSite) : ℤ :=
  match parseDecimal (site.web.get "MC_WEBHOOK_MAX_RETRIES" "5") with
  | none => 5
  | some n => if n = 0 then 5 else n

/-- `BACKOFF_SECONDS`. -/
def BACKOFF_SECONDS : List ℕ := [30, 300, 1800, 7200, 28800]

/-- `nextRetryDelay`, with what `Math.random()` gives. -/
def nextRetryDelay (attempt : ℕ) (random : ℚ) : ℤ :=
  let base : ℚ := BACKOFF_SECONDS.getD (min attempt (BACKOFF_SECONDS.length - 1)) 0
  let jitter := base * (1 / 5) * (2 * random - 1)
  (base + jitter + 1 / 2).floor

/-! ## Signatures -/

def WebhookSite.signature (site : WebhookSite) (secret body : String) : String :=
  "sha256=" ++ site.hmac secret body

/-- **`verifyWebhookSignature`.** Texts are compared by their UTF-8 octets. -/
def verifyWebhookSignature (site : WebhookSite) (secret rawBody : String)
    (signatureHeader : Option String) : Bool :=
  match signatureHeader with
  | none => false
  | some header =>
    if header = "" ∨ secret = "" then false
    else
      let sigBuf := Utf8.encode header.toList
      let expectedBuf := Utf8.encode (site.signature secret rawBody).toList
      if sigBuf.length ≠ expectedBuf.length then false
      else sigBuf = expectedBuf

def deliveryHeaders (site : WebhookSite) (secret : Option String)
    (eventType body : String) : List (String × String) :=
  [("Content-Type", "application/json"),
    ("User-Agent", "MissionControl-Webhook/1.0"), ("X-MC-Event", eventType)]
  ++ match secret with
    | none => []
    | some secret =>
      if secret = "" then [] else [("X-MC-Signature", site.signature secret body)]

/-! ## Bodies -/

def deliveryValue (eventType : String) (timestamp : ℕ) (payload : Json) : Json :=
  .obj [("event", .str eventType), ("timestamp", .ofNat timestamp),
    ("data", payload)]

def deliveryBody (rt : Runtime) (eventType : String) (timestamp : ℕ)
    (payload : Json) : String :=
  jsonText rt (deliveryValue eventType timestamp payload)

/-- The payload of a stored body: `parsed.data ?? parsed`, and an empty object
where it cannot be read. -/
def storedPayload (rt : Runtime) (body : String) : Json :=
  match Json.parse rt body.toList with
  | none => .obj []
  | some .null => .obj []
  | some parsed =>
    match Json.get? (some parsed) "data" with
    | none => parsed
    | some .null => parsed
    | some data => data

/-! ## Calls, and what is shown -/

inductive DeliveryCaller where
  | live
  | retryPass
  /-- `POST /api/webhooks/retry`. -/
  | manual
  /-- `POST /api/webhooks/test`. -/
  | test
  deriving DecidableEq

/-- **A call of `deliverWebhook`.** -/
structure Dispatch where
  caller : DeliveryCaller
  webhookId : ℕ
  webhook : Webhook
  eventType : String
  payload : Json
  opts : DeliverOpts

inductive WebhookEvent where
  | answered (response : ApiResponse)
  /-- The circuit breaker of a webhook was reset. -/
  | circuitReset (webhookId : ℕ)
  | sent (sending : ℕ) (d : Dispatch) (timestamp : ℕ) (url : String)
    (headers : List (String × String)) (body : String)
  | recorded (sending deliveryId : ℕ) (d : Sending) (success : Bool)
  | unrecorded (sending : ℕ)
  | disabled (webhookId : ℕ)
  | picked (deliveryIds : List ℕ)
  | passEnded (pass : ℕ)

/-! ## Sending -/

namespace EngineState

/-- **`deliverWebhook`**, up to where it waits. -/
def send (site : WebhookSite) (now : ℕ) (s : EngineState) (d : Dispatch) :
    EngineState × WebhookEvent :=
  let body := deliveryBody site.rt d.eventType now d.payload
  ({ s with sendings := s.sendings.insert ⟨d.webhookId, d.eventType, body, d.opts⟩ },
    .sent s.sendings.next d now d.webhook.url
      (deliveryHeaders site d.webhook.secret d.eventType body) body)

/-- Several calls of `deliverWebhook`. -/
def sendAll (site : WebhookSite) (now : ℕ) (s : EngineState) :
    List Dispatch → EngineState × List WebhookEvent
  | [] => (s, [])
  | d :: ds =>
    let (s, e) := s.send site now d
    let (s, es) := s.sendAll site now ds
    (s, e :: es)

/-- **`fireWebhooksAsync`.** -/
def fire (site : WebhookSite) (s : EngineState) (eventType : String)
    (payload : Json) (now : ℕ) : EngineState × List WebhookEvent :=
  let matching := s.webhooks.rows.filter fun r =>
    r.2.enabled && r.2.subscribed site.rt eventType
  s.sendAll site now <| matching.map fun r =>
    ⟨.live, r.1, r.2.toWebhook, eventType, payload, ⟨0, none, true⟩⟩

end EngineState

/-! ## Recording -/

def Outcome.statusCode : Outcome → Option ℕ
  | response status _ => some status
  | error _ => none

/-- A response in the range from 200 to 299 is a success. -/
def Outcome.success (outcome : Outcome) : Bool :=
  outcome.statusCode.any fun status => 200 ≤ status && status < 300

/-- The first thousand UTF-16 code units of a response, with dots behind them
if there are more. -/
def responseExcerpt (text : String) : String :=
  if 1000 < utf16Length text then String.ofList (sliceUnits 1000 text.toList) ++ "..."
  else text

/-- The row a delivery is recorded as, before a retry is scheduled. -/
def Sending.row (d : Sending) (outcome : Outcome) (now : ℕ) : DeliveryRow where
  webhookId := d.webhookId
  eventType := d.eventType
  payload := d.body
  statusCode := outcome.statusCode
  responseBody :=
    match outcome with
    | .response _ text => text.map responseExcerpt
    | .error _ => none
  error :=
    match outcome with
    | .response _ _ => none
    | .error message => some message
  attempt := d.opts.attempt
  isRetry := 0 < d.opts.attempt
  parentDeliveryId := d.opts.parentDeliveryId
  nextRetryAt := none
  createdAt := now

/-- Whether a delivery counts as a failure of its webhook. -/
def Sending.fails (d : Sending) (outcome : Outcome) : Bool :=
  d.opts.allowRetry && !outcome.success

/-- Whether an attempt may be followed by another one. -/
def Sending.mayRetry (site : WebhookSite) (d : Sending) : Bool :=
  (d.opts.attempt : ℤ) < site.maxRetries - 1

/-- When a delivery is attempted again, if it is. -/
def Sending.retryAt (site : WebhookSite) (d : Sending) (outcome : Outcome)
    (now : ℕ) (random : ℚ) : Option ℤ :=
  if d.fails outcome && d.mayRetry site then
    some (now + nextRetryDelay d.opts.attempt random)
  else none

/-- Whether a failure of a webhook with a count trips the circuit breaker. -/
def Sending.trips (site : WebhookSite) (d : Sending) (outcome : Outcome)
    (w : WebhookRow) : Bool :=
  d.fails outcome && !d.mayRetry site
    && site.maxRetries ≤ (w.consecutiveFailures + 1 : ℕ)

def Sending.count (site : WebhookSite) (d : Sending) (outcome : Outcome)
    (w : WebhookRow) : WebhookRow :=
  { w with
    consecutiveFailures :=
      if d.opts.allowRetry then
        if outcome.success then 0 else w.consecutiveFailures + 1
      else w.consecutiveFailures
    enabled := w.enabled && !d.trips site outcome w }

/-- The rows of a webhook that pruning keeps: the last two hundred. -/
def keptDeliveries (order : Descending (fun r : ℕ × DeliveryRow => r.2.createdAt))
    (webhookId : ℕ) (deliveries : Table DeliveryRow) : List (ℕ × DeliveryRow) :=
  order.first 200 (deliveries.rows.filter (fun r => r.2.webhookId = webhookId))

def pruneDeliveries (order : Descending (fun r : ℕ × DeliveryRow => r.2.createdAt))
    (webhookId : ℕ) (deliveries : Table DeliveryRow) : Table DeliveryRow :=
  deliveries.deleteWhere fun id r =>
    r.webhookId = webhookId
      && id ∉ (keptDeliveries order webhookId deliveries).map Prod.fst

namespace EngineState

/-- The deliveries with one that is recorded, before pruning. -/
def recordedDeliveries (site : WebhookSite) (s : EngineState) (d : Sending)
    (outcome : Outcome) (now : ℕ) (random : ℚ) : Table DeliveryRow :=
  s.deliveries.insert
    { d.row outcome now with nextRetryAt := d.retryAt site outcome now random }

/-- **The rest of `deliverWebhook`**, when the response has come. The insertion
fails where the webhook is gone, and nothing else is written then. -/
def respond (site : WebhookSite) (s : EngineState) (sending : ℕ)
    (outcome : Outcome) (now : ℕ) (random : ℚ)
    (order : Descending (fun r : ℕ × DeliveryRow => r.2.createdAt)) :
    EngineState × List WebhookEvent :=
  match s.sendings.row sending with
  | none => (s, [])
  | some d =>
    let settled := { s with sendings := s.sendings.deleteWhere (fun i _ => i = sending) }
    match s.webhooks.row d.webhookId with
    | none => (settled, [.unrecorded sending])
    | some w =>
      ({ settled with
          webhooks := s.webhooks.update d.webhookId (d.count site outcome)
          deliveries := pruneDeliveries order d.webhookId
            (s.recordedDeliveries site d outcome now random) },
        .recorded sending s.deliveries.next d outcome.success ::
          if d.trips site outcome w then [.disabled d.webhookId] else [])

/-! ## Retry passes -/

/-- A delivery of an enabled webhook whose time has come, as a pass reads it. -/
def due (s : EngineState) (now : ℕ) (r : ℕ × DeliveryRow) : Option RetryRow :=
  match s.webhooks.row r.2.webhookId with
  | none => none
  | some w =>
    if w.enabled && r.2.nextRetryAt.any (· ≤ (now : ℤ)) then
      some ⟨r.1, r.2.webhookId, r.2.eventType, r.2.payload, r.2.attempt, w.toWebhook⟩
    else none

/-- **What a pass reads**: up to fifty deliveries that are due. -/
def pendingRetries (s : EngineState) (now : ℕ)
    (order : Descending (fun _ : RetryRow => 0)) : List RetryRow :=
  order.first 50 (s.deliveries.rows.filterMap (s.due now))

/-- `UPDATE webhook_deliveries SET next_retry_at = NULL WHERE id = ?`, for
each row of a batch. -/
def clearRetries (deliveries : Table DeliveryRow) (batch : List RetryRow) :
    Table DeliveryRow :=
  batch.foldl
    (fun t row => t.update row.id (fun r => { r with nextRetryAt := none })) deliveries

/-- The call of `deliverWebhook` for a row of a batch. -/
def retryDispatch (site : WebhookSite) (row : RetryRow) : Dispatch :=
  ⟨.retryPass, row.webhookId, row.webhook, row.eventType,
    storedPayload site.rt row.payload, ⟨row.attempt + 1, some row.id, true⟩⟩

/-- A pass goes on: it sends its next row, or ends. -/
def advance (site : WebhookSite) (s : EngineState) (pass now : ℕ) :
    List RetryRow → EngineState × List WebhookEvent
  | [] =>
    ({ s with passes := s.passes.deleteWhere (fun i _ => i = pass) },
      [.passEnded pass])
  | row :: rest =>
    let waiting := some s.sendings.next
    let (s, e) := s.send site now (retryDispatch site row)
    ({ s with passes := s.passes.update pass (fun _ => ⟨waiting, rest⟩) }, [e])

/-- **`processWebhookRetries`**, up to where it waits for its first delivery. -/
def startPass (site : WebhookSite) (s : EngineState) (now : ℕ)
    (order : Descending (fun _ : RetryRow => 0)) : EngineState × List WebhookEvent :=
  match s.pendingRetries now order with
  | [] => (s, [])
  | batch =>
    let started := { s with
      deliveries := clearRetries s.deliveries batch
      passes := s.passes.insert ⟨none, batch⟩ }
    let (s', es) := started.advance site s.passes.next now batch
    (s', .picked (batch.map (·.id)) :: es)

/-- **A pass goes on** when the delivery it waits for is done. -/
def resumePass (site : WebhookSite) (s : EngineState) (pass now : ℕ) :
    EngineState × List WebhookEvent :=
  match s.passes.row pass with
  | none => (s, [])
  | some p =>
    if p.waiting.any (fun i => (s.sendings.row i).isSome) then (s, [])
    else s.advance site pass now p.batch

end EngineState

end MissionControl
