import Mathlib.Data.Nat.Bitwise
import MissionControl.Environment
import MissionControl.Library.Utf8

/-!
# The middleware, and where a request comes from

Every request goes through `middleware` first. It refuses hosts that are not allowed, then
requests that write and come from a page of another host, and then those with neither a
session nor the API key.

Whether a page is of another host is told by its `Origin`: the host of that URL is compared
with the one of the request. Where there is nothing to compare – the origin is opaque, or no
URL at all – the request goes through, which is how far the check is from the rule that an
origin is the host or is refused.
-/

namespace MissionControl

/-! ## Requests -/

/-- What the middleware reads of a request: the method, its headers, the session cookie,
and path and host of `nextUrl`. -/
structure WebRequest where
  method : String
  origin : Option String
  host : Option String
  forwardedHost : Option String
  apiKey : Option String
  sessionToken : Option String
  pathname : String
  urlHost : String

/-- **What the middleware runs in**: the environment, and what it uses of the platform. -/
structure MiddlewareSite where
  env : String → Option String
  toLowerCase : String → String
  toUpperCase : String → String
  /-- `new URL(text).host`, `none` where the text is no URL. -/
  hostOf : String → Option String

/-- **What the middleware answers.** -/
inductive MiddlewareResponse where
  | next
  | redirect
  | text (status : ℕ) (body : String)
  | json (status : ℕ) (error : String)
  deriving DecidableEq

def MiddlewareResponse.status : MiddlewareResponse → ℕ
  | next => 200
  | redirect => 307
  | text status _ => status
  | json status _ => status

namespace Middleware

/-- `safeCompare` of the middleware: the octets are compared without a way out. -/
def safeCompare (a b : String) : Bool :=
  let bufA := Utf8.encode a.toList
  let bufB := Utf8.encode b.toList
  if bufA.length ≠ bufB.length then false
  else (List.zipWith Nat.xor bufA bufB).foldl Nat.lor 0 = 0

def envFlag (site : MiddlewareSite) (name : String) : Bool :=
  match site.env name with
  | none => false
  | some raw => site.toLowerCase (trim raw) ∈ ["1", "true", "yes", "on"]

/-- `s.split(c)[0] || ''`. -/
def beforeFirst (c : Char) (s : String) : String := String.ofList (s.toList.takeWhile (· ≠ c))

def getRequestHostname (r : WebRequest) : String :=
  let raw := orElse (r.forwardedHost.getD "") (r.host.getD "")
  beforeFirst ':' (trim (beforeFirst ',' raw))

/-- `hostMatches`: a pattern may leave its beginning or its end open. -/
def hostMatches (site : MiddlewareSite) (pattern hostname : String) : Bool :=
  let p := (site.toLowerCase (trim pattern)).toList
  let h := (site.toLowerCase (trim hostname)).toList
  if p = [] ∨ h = [] then false
  else if ['*', '.'] <+: p then '.' :: p.drop 2 <:+ h
  else if ['.', '*'] <:+ p then p.dropLast <+: h
  else h = p

/-- `MC_ALLOWED_HOSTS`. -/
def allowedPatterns (site : MiddlewareSite) : List String :=
  ((((site.env "MC_ALLOWED_HOSTS").getD "").toList.splitOn ',').map fun s =>
    trim (String.ofList s)).filter (· ≠ "")

def isAllowedHost (site : MiddlewareSite) (r : WebRequest) : Bool :=
  envFlag site "MC_ALLOW_ANY_HOST" || site.env "NODE_ENV" ≠ some "production"
    || (allowedPatterns site).any fun p => hostMatches site p (getRequestHostname r)

def mutates (site : MiddlewareSite) (r : WebRequest) : Bool :=
  site.toUpperCase r.method ∈ ["POST", "PUT", "DELETE", "PATCH"]

def requestHost (r : WebRequest) : String :=
  orElse (trim (beforeFirst ',' (r.host.getD ""))) r.urlHost

def originMismatch (site : MiddlewareSite) (r : WebRequest) (origin : String) : Bool :=
  let originHost := (site.hostOf origin).getD ""
  originHost ≠ "" && requestHost r ≠ "" && originHost ≠ requestHost r

def hasApiKey (site : MiddlewareSite) (r : WebRequest) : Bool :=
  let apiKey := r.apiKey.getD ""
  apiKey ≠ "" && safeCompare apiKey ((site.env "API_KEY").getD "")

/-- What follows the check of the origin: pages and requests need a session, or the key. -/
def authorize (site : MiddlewareSite) (r : WebRequest) : MiddlewareResponse :=
  let hasSession : Bool := r.sessionToken.getD "" ≠ ""
  if r.pathname = "/login" ∨ "/api/auth/".toList <+: r.pathname.toList
      ∨ r.pathname = "/api/docs" ∨ r.pathname = "/docs" then .next
  else if "/api/".toList <+: r.pathname.toList then
    if hasSession || hasApiKey site r then .next else .json 401 "Unauthorized"
  else if hasSession then .next
  else .redirect

/-- **`middleware`.** -/
def middleware (site : MiddlewareSite) (r : WebRequest) : MiddlewareResponse :=
  if ¬ isAllowedHost site r then .text 403 "Forbidden"
  else if mutates site r ∧ r.origin.getD "" ≠ "" ∧ originMismatch site r (r.origin.getD "") then
    .json 403 "CSRF origin mismatch"
  else authorize site r

/-! ## The origin of a request -/

/-- **An origin is the host of the request, or the request is refused.** -/
def ChecksOrigin (site : MiddlewareSite) (r : WebRequest) (origin : String) : Prop :=
  (middleware site r = .next → site.hostOf origin = some (requestHost r))
    ∧ (site.hostOf origin ≠ some (requestHost r) → (middleware site r).status = 403)

/-- Who is not known is not refused with the status of a refused origin. -/
theorem status_authorize (site : MiddlewareSite) (r : WebRequest) :
    (authorize site r).status ≠ 403 := by
  unfold authorize
  dsimp only
  split
  · decide
  · split
    · split <;> decide
    · split <;> decide

/-- **When the origin is checked**: it is the host of the request, it has a host at all and
so has the request, or the host of the request is not allowed. -/
theorem checksOrigin_iff (site : MiddlewareSite) (r : WebRequest) {origin : String}
    (hmutates : mutates site r = true) (horigin : r.origin = some origin) (hne : origin ≠ "") :
    ChecksOrigin site r origin
      ↔ site.hostOf origin = some (requestHost r)
        ∨ ((∃ h, h ≠ "" ∧ site.hostOf origin = some h) ∧ requestHost r ≠ "")
        ∨ isAllowedHost site r = false := by
  have horigin' : r.origin.getD "" = origin := by rw [horigin, Option.getD_some]
  constructor
  · rintro ⟨-, hrefused⟩
    by_cases heq : site.hostOf origin = some (requestHost r)
    · exact .inl heq
    · by_cases hallowed : isAllowedHost site r = true
      · by_cases hmismatch : originMismatch site r origin = true
        · -- what does not match is a host
          refine .inr (.inl ?_)
          unfold originMismatch at hmismatch
          simp only [ne_eq, Bool.and_eq_true, decide_eq_true_eq] at hmismatch
          obtain ⟨⟨hhost, hrequest⟩, -⟩ := hmismatch
          cases hparsed : site.hostOf origin with
          | none => exact absurd (by rw [hparsed]; rfl) hhost
          | some h =>
            rw [hparsed, Option.getD_some] at hhost
            exact ⟨⟨h, hhost, rfl⟩, hrequest⟩
        · -- the request goes through to the session
          have hstatus := hrefused heq
          unfold middleware at hstatus
          rw [horigin', if_neg (by simpa using hallowed),
            if_neg fun h => hmismatch h.2.2] at hstatus
          exact absurd hstatus (status_authorize site r)
      · exact .inr (.inr (by simpa using hallowed))
  · intro hcondition
    have hrefused : site.hostOf origin ≠ some (requestHost r) →
        (middleware site r).status = 403 := by
      intro hforeign
      unfold middleware
      rcases hcondition with heq | ⟨⟨h, hhost, hparsed⟩, hrequest⟩ | hallowed
      · exact absurd heq hforeign
      · split
        · rfl
        · have hmismatch : originMismatch site r origin = true := by
            unfold originMismatch
            rw [hparsed] at hforeign ⊢
            have hdiffer : h ≠ requestHost r := fun heq => hforeign (congrArg some heq)
            simp [hhost, hrequest, hdiffer]
          rw [horigin', if_pos ⟨hmutates, hne, hmismatch⟩]
          rfl
      · rw [if_pos (by simp [hallowed])]
        rfl
    refine ⟨fun hnext => ?_, hrefused⟩
    by_contra hforeign
    have hstatus := hrefused hforeign
    rw [hnext] at hstatus
    exact absurd hstatus (by decide)

/-- A site in development, with a key. Of the URLs it reads those with `http://` in front,
and nothing behind the host. -/
def sampleMiddlewareSite : MiddlewareSite where
  env name := List.lookup name [("API_KEY", "key")]
  toLowerCase s := String.ofList (s.toList.map Char.toLower)
  toUpperCase s := String.ofList (s.toList.map Char.toUpper)
  hostOf text :=
    if "http://".toList <+: text.toList then some (String.ofList (text.toList.drop 7)) else none

/-- A task is created by a page with the given origin, in a browser that has a session. -/
def sampleWrite (origin : String) : WebRequest where
  method := "POST"
  origin := some origin
  host := some "localhost:3000"
  forwardedHost := none
  apiKey := none
  sessionToken := some "token"
  pathname := "/api/tasks"
  urlHost := "localhost:3000"

/-- **A request of an opaque origin goes through.** -/
theorem not_checksOrigin_sampleWrite :
    ¬ ChecksOrigin sampleMiddlewareSite (sampleWrite "null") "null" := by
  rintro ⟨hnext, -⟩
  exact absurd (hnext (by decide)) (by decide)

/-- A page of another host. -/
theorem checksOrigin_iff_sampleWrite :
    ChecksOrigin sampleMiddlewareSite (sampleWrite "http://evil") "http://evil"
      ↔ sampleMiddlewareSite.hostOf "http://evil"
          = some (requestHost (sampleWrite "http://evil"))
        ∨ ((∃ h, h ≠ "" ∧ sampleMiddlewareSite.hostOf "http://evil" = some h)
          ∧ requestHost (sampleWrite "http://evil") ≠ "")
        ∨ isAllowedHost sampleMiddlewareSite (sampleWrite "http://evil") = false :=
  checksOrigin_iff sampleMiddlewareSite (sampleWrite "http://evil") (by decide) rfl (by decide)

end Middleware

end MissionControl
