import MissionControl.JsonRoundTrip
import MissionControl.RetryChains

/-!
# What retries send

The body of a delivery holds the event, the time and the payload. It is stored
as a text, from which a retry – by a pass or by hand – takes the payload out
again and puts it into a new body. A payload that is a JSON value, and not
`null`, comes out as it went in, so that all attempts say the same.

A body is signed with the secret the webhook has when it is sent. A signature
is accepted exactly if it is the expected one: texts with the same octets are
equal.
-/

namespace MissionControl

open Relation

variable {site : WebhookSite} {rt : Runtime}

/-! ## Bodies -/

/-- **A body is read back as what it says.** -/
theorem parse_deliveryBody {eventType : String} {now : ℕ} {payload : Json}
    (hpayload : payload.readBack = payload)
    (hnumbers : Json.NumbersRead rt payload.numbers)
    (hnow : Json.NumbersRead rt [(now : ℚ)]) :
    Json.parse rt (deliveryBody rt eventType now payload).toList
      = some (deliveryValue eventType now payload) := by
  have hread : Json.NumbersRead rt (deliveryValue eventType now payload).numbers := by
    intro q hq
    rcases List.mem_cons.mp hq with hq | hq
    · exact hnow q (List.mem_singleton.mpr hq)
    · exact hnumbers q (List.append_nil payload.numbers ▸ hq)
  have hvalue : (deliveryValue eventType now payload).readBack
      = deliveryValue eventType now payload := by
    show Json.obj [("event", .str eventType), ("timestamp", .num (.finite now)),
      ("data", payload.readBack)] = _
    rw [hpayload]
    rfl
  unfold deliveryBody jsonText
  rw [String.toList_ofList, Json.parse_stringify hread, hvalue]

/-- **A retry sends the payload of the body it repeats.** -/
theorem storedPayload_deliveryBody {eventType : String} {now : ℕ} {payload : Json}
    (hpayload : payload.readBack = payload) (hnull : payload ≠ .null)
    (hnumbers : Json.NumbersRead rt payload.numbers)
    (hnow : Json.NumbersRead rt [(now : ℚ)]) :
    storedPayload rt (deliveryBody rt eventType now payload) = payload := by
  unfold storedPayload
  rw [parse_deliveryBody hpayload hnumbers hnow]
  cases payload with
  | null => exact absurd rfl hnull
  | _ => rfl

/-! ## Chains -/

/-- **A delivery repeats another one**, by a retry pass or by hand. -/
def Repeats (es : List WebhookEvent) (i j : ℕ) : Prop :=
  ∃ id x ok d, WebhookEvent.recorded i id x ok ∈ es ∧ Sent es j d
    ∧ d.opts.parentDeliveryId = some id

def timestamps (es : List WebhookEvent) : List ℚ :=
  es.filterMap fun
    | .sent _ _ now _ _ _ => some (now : ℚ)
    | _ => none

/-- **What repeats a delivery has its event type and payload.** -/
theorem History.repeats {es : List WebhookEvent} {s : EngineState}
    (h : History site es s) (htimes : Json.NumbersRead site.rt (timestamps es)) {i j : ℕ}
    {d d' : Dispatch} (hd : Sent es i d) (hd' : Sent es j d')
    (hpayload : d.payload.readBack = d.payload) (hnull : d.payload ≠ .null)
    (hnumbers : Json.NumbersRead site.rt d.payload.numbers) (hrepeats : Repeats es i j) :
    d'.eventType = d.eventType ∧ d'.payload = d.payload := by
  obtain ⟨id, x, ok, d'', hrec, hd'', hparent⟩ := hrepeats
  obtain rfl := h.sent_unique hd' hd''
  have hstored : ∀ {i' x' ok'}, WebhookEvent.recorded i' id x' ok' ∈ es →
      x'.eventType = d.eventType ∧ storedPayload site.rt x'.body = d.payload := by
    intro i' x' ok' hrec'
    obtain rfl := h.delivery_once hrec' hrec
    obtain ⟨-, d₁, now, hd₁, rfl⟩ := h.recorded hrec'
    obtain rfl := h.sent_unique hd ⟨now, _, _, _, hd₁⟩
    refine ⟨rfl, storedPayload_deliveryBody hpayload hnull hnumbers fun q hq => htimes q ?_⟩
    exact List.mem_filterMap.mpr ⟨_, hd₁, congrArg some (List.mem_singleton.mp hq).symm⟩
  cases h.sent_origin hd' with
  | live => exact nomatch hparent
  | test => exact nomatch hparent
  | manual hr =>
    obtain rfl := Option.some.inj hparent
    exact hstored hr
  | retryPass hr hx =>
    obtain rfl := Option.some.inj hparent
    exact hstored hr

/-- **Along a chain of retries the event type and the payload stay.** -/
theorem History.chain_repeats {es : List WebhookEvent} {s : EngineState}
    (h : History site es s) (htimes : Json.NumbersRead site.rt (timestamps es)) {i j : ℕ}
    {d : Dispatch} (hd : Sent es i d) (hpayload : d.payload.readBack = d.payload)
    (hnull : d.payload ≠ .null) (hnumbers : Json.NumbersRead site.rt d.payload.numbers)
    (hchain : ReflTransGen (Repeats es) i j) :
    ∃ d', Sent es j d' ∧ d'.eventType = d.eventType ∧ d'.payload = d.payload := by
  induction hchain with
  | refl => exact ⟨d, hd, rfl, rfl⟩
  | tail _ hrepeats ih =>
    obtain ⟨d₁, hd₁, htype₁, hpayload₁⟩ := ih
    obtain ⟨id, x, ok, d', hrec, hd', hparent⟩ := hrepeats
    obtain ⟨htype, heq⟩ := h.repeats htimes hd₁ hd' (hpayload₁ ▸ hpayload)
      (hpayload₁ ▸ hnull) (hpayload₁ ▸ hnumbers) ⟨id, x, ok, d', hrec, hd', hparent⟩
    exact ⟨d', hd', htype.trans htype₁, heq.trans hpayload₁⟩

/-! ## Signatures -/

/-- **Exactly the expected signature is accepted.** -/
theorem verifyWebhookSignature_iff {secret : String} (hsecret : secret ≠ "")
    (rawBody : String) (signatureHeader : Option String) :
    verifyWebhookSignature site secret rawBody signatureHeader = true
      ↔ signatureHeader = some (site.signature secret rawBody) := by
  have hexpected : site.signature secret rawBody ≠ "" := by
    intro hempty
    have := congrArg String.toList hempty
    rw [WebhookSite.signature, String.toList_append] at this
    exact nomatch List.append_eq_nil_iff.mp this
  unfold verifyWebhookSignature
  cases signatureHeader with
  | none => exact ⟨fun h => (nomatch h), fun h => (nomatch h)⟩
  | some header =>
    dsimp only
    rw [Option.some.injEq]
    constructor
    · intro h
      split at h
      · exact nomatch h
      · split at h
        · exact nomatch h
        · exact String.toList_inj.mp (Utf8.encode_injective (of_decide_eq_true h))
    · rintro rfl
      rw [if_neg (not_or.mpr ⟨hexpected, hsecret⟩), if_neg (not_not.mpr rfl)]
      exact decide_eq_true rfl

theorem lookup_deliveryHeaders {secret : String} (hsecret : secret ≠ "")
    (eventType body : String) :
    (deliveryHeaders site (some secret) eventType body).lookup "X-MC-Signature"
      = some (site.signature secret body) := by
  unfold deliveryHeaders
  dsimp only
  rw [if_neg hsecret]
  rfl

/-! ## Runs -/

/-- **Retries say what was said first, and are signed.** In every run, where the
runtime reads the numbers of a payload and the times back: whatever repeats the
delivery of a JSON payload that is not `null`, by passes or by hand, sends a body
that is parsed as an object with the event type and the payload of that
delivery. The signature sent with a body is accepted for it, and no other. -/
theorem webhookEngine_fidelity (site : WebhookSite) (as : List WebhookAction)
    (htimes : Json.NumbersRead site.rt
      (timestamps ((webhookEngine site).trace .initial as))) :
    (∀ i d, Sent ((webhookEngine site).trace .initial as) i d →
        d.payload.readBack = d.payload → d.payload ≠ .null →
        Json.NumbersRead site.rt d.payload.numbers →
        ∀ j, ReflTransGen (Repeats ((webhookEngine site).trace .initial as)) i j →
        ∀ d' now url headers body, .sent j d' now url headers body
            ∈ (webhookEngine site).trace .initial as →
          ∃ v, Json.parse site.rt body.toList = some v
            ∧ Json.get? (some v) "event" = some (.str d.eventType)
            ∧ Json.get? (some v) "data" = some d.payload)
    ∧ (∀ i d now url headers body, .sent i d now url headers body
            ∈ (webhookEngine site).trace .initial as →
        ∀ secret, d.webhook.secret = some secret → secret ≠ "" →
          ∃ header, headers.lookup "X-MC-Signature" = some header
            ∧ verifyWebhookSignature site secret body (some header) = true)
    ∧ (∀ secret body header, secret ≠ "" →
        header ≠ some ("sha256=" ++ site.hmac secret body) →
        verifyWebhookSignature site secret body header = false) := by
  have h : History site _ _ := webhookEngine_history as
  refine ⟨?_, ?_, ?_⟩
  · intro i d hd hpayload hnull hnumbers j hchain d' now url headers body hsent
    obtain ⟨d₁, hd₁, htype, heq⟩ := h.chain_repeats htimes hd hpayload hnull hnumbers hchain
    obtain rfl := h.sent_unique ⟨now, url, headers, body, hsent⟩ hd₁
    obtain ⟨-, -, -, -, -, rfl⟩ := WebhookEvent.sent.inj (h.event_eq hsent)
    rw [htype, heq]
    refine ⟨_, parse_deliveryBody hpayload hnumbers fun q hq => htimes q ?_, rfl, rfl⟩
    exact List.mem_filterMap.mpr ⟨_, hsent, congrArg some (List.mem_singleton.mp hq).symm⟩
  · intro i d now url headers body hsent secret hsecret hne
    obtain ⟨-, -, -, -, hheaders, rfl⟩ := WebhookEvent.sent.inj (h.event_eq hsent)
    rw [hheaders, hsecret]
    exact ⟨_, lookup_deliveryHeaders hne _ _,
      (verifyWebhookSignature_iff hne _ _).mpr rfl⟩
  · intro secret body header hsecret hne
    exact Bool.eq_false_iff.mpr fun hok =>
      hne ((verifyWebhookSignature_iff hsecret body header).mp hok)

/-- The secret of the webhook of a delivery that is sent. -/
def WebhookEvent.sentSecret : WebhookEvent → Option (Option String)
  | sent _ d _ _ _ _ => some d.webhook.secret
  | _ => none

/-- A retry says what the delivery of an event has said, and its signature is accepted for it and
not for another body. -/
theorem webhookEngine_fidelity_sample :
    (∃ d now url headers body, .sent 2 d now url headers body
        ∈ (webhookEngine sampleWebhookSite).trace .initial sampleRetry
      ∧ (∃ v, Json.parse sampleRuntime body.toList = some v
        ∧ Json.get? (some v) "event" = some (.str "activity")
        ∧ Json.get? (some v) "data" = some (.obj [("title", .str "Fix login")]))
      ∧ ∃ header, headers.lookup "X-MC-Signature" = some header
        ∧ verifyWebhookSignature sampleWebhookSite "secret" body (some header) = true)
    ∧ verifyWebhookSignature sampleWebhookSite "secret" "[]" (some "sha256=60") = false := by
  have htimes : Json.NumbersRead sampleRuntime
      (timestamps ((webhookEngine sampleWebhookSite).trace .initial sampleRetry)) := by
    rw [show timestamps _ = [0, 40] by decide +kernel]
    intro q hq
    rcases List.mem_cons.mp hq with rfl | hq
    · exact ⟨by decide +kernel, List.all_eq_true.mp (by decide +kernel), by decide +kernel⟩
    · obtain rfl := List.mem_singleton.mp hq
      exact ⟨by decide +kernel, List.all_eq_true.mp (by decide +kernel), by decide +kernel⟩
  obtain ⟨hfidelity, hsigned, hforged⟩ :=
    webhookEngine_fidelity sampleWebhookSite sampleRetry htimes
  have hfirst : Sent ((webhookEngine sampleWebhookSite).trace .initial sampleRetry) 1
      ⟨.live, 1, _, "activity", .obj [("title", .str "Fix login")], ⟨0, none, true⟩⟩ :=
    ⟨_, _, _, _, List.mem_of_getElem? (i := 1) rfl⟩
  have hrecorded : .recorded 1 1 _ false
      ∈ (webhookEngine sampleWebhookSite).trace .initial sampleRetry :=
    List.mem_of_getElem? (i := 2) rfl
  obtain ⟨d, ⟨now, url, headers, body, hretry⟩, -, hparent⟩ := mem_retries.mp
    (show (2, 1) ∈ retries ((webhookEngine sampleWebhookSite).trace .initial sampleRetry) by
      decide +kernel)
  have hsecret : d.webhook.secret = some "secret" := by
    have hall : ((webhookEngine sampleWebhookSite).trace .initial sampleRetry).filterMap
        WebhookEvent.sentSecret = [some "secret", some "secret"] := by decide +kernel
    have hmem : d.webhook.secret ∈ ((webhookEngine sampleWebhookSite).trace .initial
        sampleRetry).filterMap WebhookEvent.sentSecret :=
      List.mem_filterMap.mpr ⟨_, hretry, rfl⟩
    rw [hall] at hmem
    simpa using hmem
  refine ⟨⟨d, now, url, headers, body, hretry, ?_, hsigned 2 d now url headers body hretry
    "secret" hsecret (by decide)⟩, hforged "secret" "[]" _ (by decide) (by decide)⟩
  exact hfidelity 1 _ hfirst rfl nofun (fun q hq => nomatch hq) 2
    (.single ⟨1, _, _, _, hrecorded, ⟨_, _, _, _, hretry⟩, hparent⟩) _ _ _ _ _ hretry

end MissionControl
