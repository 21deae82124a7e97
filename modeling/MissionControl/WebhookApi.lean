import MissionControl.WebhookEngine

/-!
# The requests of the webhooks API

Creating, updating and deleting webhooks, testing one, and retrying a delivery
by hand. The bodies are read without a schema, but for creation: an id may be
any JSON value that the database finds a row by. With these requests and the
pieces of deliveries and retry passes the webhooks are a machine.
-/

namespace MissionControl

/-- The id a body has under a key, with the texts of the answers where it has
none and where the request fails. -/
def namedId (sq : Sqlite) (body : Option Json) (key missing failure : String) :
    Except ApiResponse (Option ℕ) :=
  match Json.get body key with
  | .error _ => .error (.error 500 failure)
  | .ok id =>
    if Json.truthy id then
      match sqlId sq id with
      | .error _ => .error (.error 500 failure)
      | .ok n => .ok n
    else .error (.error 400 missing)

/-- The texts that columns are assigned, by name. No column takes `null`. -/
def textColumns (sq : Sqlite) (given : List (String × Option Json)) :
    Except Exception (List (String × String)) := do
  let given := given.filter (fun g => g.2.isSome)
  let values ← SqlValue.bindAll given.length (given.map Prod.snd)
  let texts ← values.mapM fun v =>
    match v.asText sq with
    | .text s => .ok s
    | _ => .error .typeError
  .ok ((given.map Prod.fst).zip texts)

/-! ## Creating -/

/-- A parsed body of `POST /api/webhooks`. -/
structure WebhookFields where
  name : String
  url : String
  events : Option (List String)
  generateSecret : Option Bool

def WebhookFields.row (rt : Runtime) (fields : WebhookFields)
    (randomSecret : String) : WebhookRow where
  name := fields.name
  url := fields.url
  secret := if fields.generateSecret = some false then none else some randomSecret
  events := jsonText rt (.arr ((fields.events.getD ["*"]).map .str))
  enabled := true
  consecutiveFailures := 0

/-- **`POST /api/webhooks`**, with its parsed body. -/
def createWebhook (site : WebhookSite) (s : EngineState) (fields : WebhookFields)
    (randomSecret : String) : EngineState × List WebhookEvent :=
  let row := fields.row site.rt randomSecret
  ({ s with webhooks := s.webhooks.insert row },
    [.answered (.json 200 (.obj [("id", .ofNat s.webhooks.next),
      ("name", .str fields.name), ("url", .str fields.url),
      ("secret", .ofText row.secret),
      ("events", .arr ((fields.events.getD ["*"]).map .str)),
      ("enabled", .bool true),
      ("message", .str
        "Webhook created. Save the secret - it won't be shown again in full.")]))])

/-! ## Updating -/

structure WebhookUpdate where
  id : ℕ
  name : Option String
  url : Option String
  events : Option String
  enabled : Option Bool
  resetCircuit : Bool
  secret : Option String

/-- Whether the URL of an update is refused. -/
def badUrl (site : WebhookSite) (url : Option Json) : Bool :=
  Json.truthy url &&
    match Json.toStrUndefined site.rt url with
    | .error _ => true
    | .ok text => !site.isUrl text

/-- What a body of `PUT /api/webhooks` asks for. -/
def readWebhookUpdate (site : WebhookSite) (webhooks : Table WebhookRow)
    (body : Option Json) (randomSecret : String) : Except ApiResponse WebhookUpdate := do
  match ← namedId site.sq body "id" "Webhook ID is required"
      "Failed to update webhook" with
  | none => .error (.error 404 "Webhook not found")
  | some id =>
    if (webhooks.row id).isNone then .error (.error 404 "Webhook not found")
    else
      let url := Json.get? body "url"
      if badUrl site url then .error (.error 400 "Invalid URL")
      else
        match textColumns site.sq [("name", Json.get? body "name"), ("url", url)] with
        | .error _ => .error (.error 500 "Failed to update webhook")
        | .ok texts =>
          .ok
            { id
              name := texts.lookup "name"
              url := texts.lookup "url"
              events := (Json.get? body "events").map (jsonText site.rt)
              enabled := (Json.get? body "enabled").map (fun j => Json.truthy (some j))
              resetCircuit := Json.truthy (Json.get? body "reset_circuit")
              secret :=
                if Json.truthy (Json.get? body "regenerate_secret") then some randomSecret
                else none }

/-- An updated row. Of two assignments to a column the last one counts. -/
def WebhookUpdate.apply (u : WebhookUpdate) (w : WebhookRow) : WebhookRow where
  name := u.name.getD w.name
  url := u.url.getD w.url
  secret := u.secret.or w.secret
  events := u.events.getD w.events
  enabled := if u.resetCircuit then true else u.enabled.getD w.enabled
  consecutiveFailures := if u.resetCircuit then 0 else w.consecutiveFailures

/-- **`PUT /api/webhooks`.** -/
def updateWebhook (site : WebhookSite) (s : EngineState) (body : Option Json)
    (randomSecret : String) : EngineState × List WebhookEvent :=
  match readWebhookUpdate site s.webhooks body randomSecret with
  | .error response => (s, [.answered response])
  | .ok u =>
    ({ s with webhooks := s.webhooks.update u.id u.apply },
      (if u.resetCircuit then [.circuitReset u.id] else [])
      ++ [.answered (.json 200 (.object [("success", some (.bool true)),
        ("secret", u.secret.map .str),
        ("message", u.secret.map fun _ =>
          .str "New secret generated. Save it now.")]))])

/-! ## Deleting -/

def EngineState.deleteWebhook (s : EngineState) (id : ℕ) : EngineState :=
  { s with
    webhooks := s.webhooks.deleteWhere (fun i _ => i = id)
    deliveries := s.deliveries.deleteWhere (fun _ r => r.webhookId = id) }

/-- **`DELETE /api/webhooks`.** -/
def deleteWebhook (site : WebhookSite) (s : EngineState) (body : Option Json) :
    EngineState × List WebhookEvent :=
  match body with
  | none => (s, [.answered (.error 400 "Request body required")])
  | some _ =>
    match namedId site.sq body "id" "Webhook ID is required"
        "Failed to delete webhook" with
    | .error response => (s, [.answered response])
    | .ok none => (s, [.answered (.error 404 "Webhook not found")])
    | .ok (some id) =>
      (s.deleteWebhook id,
        [.answered <|
          if (s.webhooks.row id).isSome then
            .json 200 (.obj [("success", .bool true), ("deleted", .ofNat 1)])
          else .error 404 "Webhook not found"])

/-! ## Testing and retrying -/

/-- **`POST /api/webhooks/test`**, up to where it waits for the delivery. -/
def testWebhook (site : WebhookSite) (s : EngineState) (body : Option Json)
    (username : String) (now : ℕ) : EngineState × List WebhookEvent :=
  match namedId site.sq body "id" "Webhook ID is required"
      "Failed to test webhook" with
  | .error response => (s, [.answered response])
  | .ok id =>
    match id.bind (fun id => (s.webhooks.row id).map (fun w => (id, w))) with
    | none => (s, [.answered (.error 404 "Webhook not found")])
    | some (id, w) =>
      s.sendAll site now [⟨.test, id, w.toWebhook, "test.ping",
        .obj [("message", .str "This is a test webhook from JAIS Command Ops"),
          ("webhook_id", .ofNat id), ("webhook_name", .str w.name),
          ("triggered_by", .str username)],
        ⟨0, none, false⟩⟩]

def EngineState.delivery (s : EngineState) (id : ℕ) :
    Option (ℕ × DeliveryRow × WebhookRow) :=
  (s.deliveries.row id).bind fun r =>
    (s.webhooks.row r.webhookId).map fun w => (id, r, w)

/-- The call of `deliverWebhook` for a manual retry. -/
def manualDispatch (site : WebhookSite) (id : ℕ) (r : DeliveryRow)
    (w : WebhookRow) : Dispatch :=
  ⟨.manual, r.webhookId, w.toWebhook, r.eventType, storedPayload site.rt r.payload,
    ⟨r.attempt + 1, some id, false⟩⟩

/-- **`POST /api/webhooks/retry`**, up to where it waits for the delivery. -/
def retryDelivery (site : WebhookSite) (s : EngineState) (body : Option Json)
    (now : ℕ) : EngineState × List WebhookEvent :=
  match namedId site.sq body "delivery_id" "delivery_id is required"
      "Failed to retry delivery" with
  | .error response => (s, [.answered response])
  | .ok id =>
    match id.bind s.delivery with
    | none => (s, [.answered (.error 404 "Delivery not found")])
    | some (id, r, w) => s.sendAll site now [manualDispatch site id r w]

/-! ## The machine -/

/-- **What happens**: a request, an event on the bus, the response to a
delivery, or a retry pass that starts or goes on. The times, the random
numbers and the orders in which the database returns rows come with it. -/
inductive WebhookAction where
  | create (fields : WebhookFields) (randomSecret : String)
  | update (body : Option Json) (randomSecret : String)
  | delete (body : Option Json)
  | fire (eventType : String) (payload : Json) (now : ℕ)
  | test (body : Option Json) (username : String) (now : ℕ)
  | retry (body : Option Json) (now : ℕ)
  | respond (sending : ℕ) (outcome : Outcome) (now : ℕ) (random : ℚ)
    (order : Descending (fun r : ℕ × DeliveryRow => r.2.createdAt))
  | startPass (now : ℕ) (order : Descending (fun _ : RetryRow => 0))
  | resumePass (pass now : ℕ)

/-- **The webhooks.** -/
def webhookEngine (site : WebhookSite) :
    Machine EngineState WebhookAction WebhookEvent where
  step s
    | .create fields randomSecret => createWebhook site s fields randomSecret
    | .update body randomSecret => updateWebhook site s body randomSecret
    | .delete body => deleteWebhook site s body
    | .fire eventType payload now => s.fire site eventType payload now
    | .test body username now => testWebhook site s body username now
    | .retry body now => retryDelivery site s body now
    | .respond sending outcome now random order =>
      s.respond site sending outcome now random order
    | .startPass now order => s.startPass site now order
    | .resumePass pass now => s.resumePass site pass now

/-- A site for concrete runs. -/
def sampleWebhookSite : WebhookSite where
  rt := sampleRuntime
  sq := sampleSqlite
  web := sampleProcess
  hmac _ body := toString (utf16Length body)
  isUrl text := text ≠ ""

/-- A webhook and an event, and a retry pass after the delivery has failed. -/
def sampleRetry : List WebhookAction :=
  [.create ⟨"hook", "http://hook", none, none⟩ "secret",
    .fire "activity" (.obj [("title", .str "Fix login")]) 0,
    .respond 1 (.error "refused") 0 0 (.insertion _), .startPass 40 (.insertion _)]

end MissionControl
