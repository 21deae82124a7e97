import MissionControl.AuthApi
import MissionControl.Library.Percent

/-!
# Who sends a request, and what they may do

`getUserFromRequest` reads the cookie `mc-session` out of the header, and the API key only if
no session has been found. `requireRole` compares levels that it looks up by the name of a
role.

Neither is safe for every input. The value of the cookie is percent-decoded, which throws
where it is not encoded well – before the key is looked at, and in front of the handlers'
own handling of errors. And the levels are the properties of an object, which has more of
them than its three own: a role by the name of an inherited one has no number for a level,
and is below no other.
-/

namespace MissionControl

/-! ## The cookie -/

/-- The headers that say who sends a request. -/
structure AuthHeaders where
  cookie : Option String
  apiKey : Option String

/-- The name of the cookie of the session, in front of its value. -/
def sessionCookiePrefix : List Char := "mc-session=".toList

/-- What follows the name of the cookie, if that stands at the beginning: all to the next
semicolon. -/
def valueBehindName (s : List Char) : Option (List Char) :=
  if sessionCookiePrefix <+: s then
    some ((s.drop sessionCookiePrefix.length).takeWhile (· ≠ ';'))
  else none

/-- A match of `;\s*mc-session=([^;]*)`, at the first place where there is one. -/
def matchBehindSemicolon : List Char → Option (List Char)
  | [] => none
  | c :: s =>
    match if c = ';' then valueBehindName (s.dropWhile isWhiteSpace) else none with
    | some value => some value
    | none => matchBehindSemicolon s

/-- `cookieHeader.match(…)`: the value of the cookie, as it is encoded. -/
def sessionCookieMatch (cookieHeader : List Char) : Option (List Char) :=
  match valueBehindName cookieHeader with
  | some value => some value
  | none => matchBehindSemicolon cookieHeader

/-- `parseCookie(cookieHeader, 'mc-session')`. -/
def parseCookie (cookieHeader : String) : Except Exception (Option String) :=
  match sessionCookieMatch cookieHeader.toList with
  | none => .ok none
  | some value =>
    match Percent.decode value with
    | none => .error (.error "URI malformed")
    | some text => .ok (some (String.ofList text))

/-! ## Roles -/

/-- The level of a role that a request may ask for. -/
def UserRole.level : UserRole → ℤ
  | viewer => 0
  | operator => 1
  | admin => 2

/-- `ROLE_LEVELS[role] ?? -1`; none where that is no number. -/
def roleLevel (role : String) : Option ℤ :=
  if role = "viewer" then some 0
  else if role = "operator" then some 1
  else if role = "admin" then some 2
  else if role ∈ objectPrototype then none
  else some (-1)

/-- Whether the level of a role is below one; what is no number is not. -/
def belowRole (role : String) (minRole : UserRole) : Bool :=
  match roleLevel role with
  | some level => level < minRole.level
  | none => false

/-- What `requireRole` returns. -/
inductive RoleAnswer where
  | user (user : User)
  | refused (error : String) (status : ℕ)

/-- **`getUserFromRequest`**, from the headers on. -/
def AuthHeaders.getUserFromRequest (site : AuthSite) (s : UserStore) (h : AuthHeaders) :
    Except Exception (Option User) := do
  let sessionToken ← parseCookie (h.cookie.getD "")
  return MissionControl.getUserFromRequest site s ⟨sessionToken, h.apiKey⟩

/-- **`requireRole`.** -/
def requireRole (site : AuthSite) (s : UserStore) (h : AuthHeaders) (minRole : UserRole) :
    Except Exception RoleAnswer := do
  match ← h.getUserFromRequest site s with
  | none => return .refused "Authentication required" 401
  | some user =>
    if belowRole user.role minRole then
      return .refused ("Requires " ++ minRole.text ++ " role or higher") 403
    else return .user user

/-! ## What is promised -/

/-- The role is one of the three, and high enough. -/
def Suffices (role : String) (minRole : UserRole) : Prop :=
  ∃ r : UserRole, r.text = role ∧ minRole.level ≤ r.level

/-- **The answer is proper**: a user whose role suffices, or an error with its status. -/
def RoleAnswer.Proper (minRole : UserRole) : RoleAnswer → Prop
  | user u => Suffices u.role minRole
  | refused _ status => status = 401 ∨ status = 403

/-- The request presents the API key that is configured. -/
def AuthHeaders.PresentsKey (site : AuthSite) (h : AuthHeaders) : Prop :=
  ∃ key, key ≠ "" ∧ site.web.env "API_KEY" = some key ∧ h.apiKey = some key

/-- **Authentication never throws**, and the API key is enough. -/
structure Authenticates (site : AuthSite) (s : UserStore) (h : AuthHeaders) : Prop where
  answers : ∀ minRole, ∃ answer, requireRole site s h minRole = .ok answer
    ∧ answer.Proper minRole
  key : h.PresentsKey site → ∃ user, h.getUserFromRequest site s = .ok (some user)

/-- **The cookie can be read**: its value, where the header has one, is encoded well. -/
def AuthHeaders.CookieDecodes (h : AuthHeaders) : Prop :=
  ∀ value, sessionCookieMatch (h.cookie.getD "").toList = some value →
    (Percent.decode value).isSome = true

/-- **The role of the session is no inherited name.** -/
def AuthHeaders.RoleListed (s : UserStore) (h : AuthHeaders) : Prop :=
  ∀ token user, parseCookie (h.cookie.getD "") = .ok (some token) →
    validateSession s token = some user → user.role ∉ objectPrototype

/-! ## Levels -/

/-- **A role suffices where it is not below**, unless its name is inherited. -/
theorem suffices_of_not_below {role : String} (hrole : role ∉ objectPrototype)
    {minRole : UserRole} (h : belowRole role minRole = false) : Suffices role minRole := by
  unfold belowRole roleLevel at h
  have hlevel : 0 ≤ minRole.level := by cases minRole <;> decide
  by_cases hviewer : role = "viewer"
  · rw [if_pos hviewer] at h
    exact ⟨.viewer, hviewer.symm, Int.not_lt.mp (of_decide_eq_false h)⟩
  rw [if_neg hviewer] at h
  by_cases hoperator : role = "operator"
  · rw [if_pos hoperator] at h
    exact ⟨.operator, hoperator.symm, Int.not_lt.mp (of_decide_eq_false h)⟩
  rw [if_neg hoperator] at h
  by_cases hadmin : role = "admin"
  · rw [if_pos hadmin] at h
    exact ⟨.admin, hadmin.symm, Int.not_lt.mp (of_decide_eq_false h)⟩
  rw [if_neg hadmin, if_neg hrole] at h
  -- an unknown role is below all of them
  have hnot : ¬ (-1 : ℤ) < minRole.level := of_decide_eq_false h
  omega

theorem notMem_objectPrototype (r : UserRole) : r.text ∉ objectPrototype := by
  cases r <;> decide

theorem not_below_of_mem {role : String} (hrole : role ∈ objectPrototype) (minRole : UserRole) :
    belowRole role minRole = false := by
  have hne : ∀ r : UserRole, role ≠ r.text := fun r heq =>
    notMem_objectPrototype r (heq ▸ hrole)
  have hviewer : role ≠ "viewer" := hne .viewer
  have hoperator : role ≠ "operator" := hne .operator
  have hadmin : role ≠ "admin" := hne .admin
  unfold belowRole roleLevel
  rw [if_neg hviewer, if_neg hoperator, if_neg hadmin, if_pos hrole]

/-! ## Requests -/

section Requests

variable {site : AuthSite} {s : UserStore} {h : AuthHeaders}

/-- **The cookie is read exactly if its value decodes.** -/
theorem cookieDecodes_iff :
    h.CookieDecodes ↔ ∃ token, parseCookie (h.cookie.getD "") = .ok token := by
  unfold AuthHeaders.CookieDecodes parseCookie
  cases sessionCookieMatch (h.cookie.getD "").toList with
  | none => exact iff_of_true (fun _ hvalue => nomatch hvalue) ⟨none, rfl⟩
  | some value =>
    dsimp only
    cases hdecode : Percent.decode value with
    | none =>
      refine iff_of_false (fun hall => ?_) fun ⟨token, htoken⟩ => nomatch htoken
      have hsome := hall value rfl
      rw [hdecode] at hsome
      exact nomatch hsome
    | some text =>
      refine iff_of_true (fun value' hvalue' => ?_) ⟨some (String.ofList text), rfl⟩
      obtain rfl := Option.some.inj hvalue'
      rw [hdecode]
      rfl

theorem getUserFromRequest_of_cookie (site : AuthSite) (s : UserStore) {token : Option String}
    (htoken : parseCookie (h.cookie.getD "") = .ok token) :
    h.getUserFromRequest site s = .ok (getUserFromRequest site s ⟨token, h.apiKey⟩) := by
  unfold AuthHeaders.getUserFromRequest
  rw [htoken]
  rfl

/-- **Who a request comes from**: the user of the session, or of the key. -/
theorem getUserFromRequest_cases {c : Credentials} {user : User}
    (huser : getUserFromRequest site s c = some user) :
    (∃ token, c.session = some token ∧ validateSession s token = some user)
      ∨ user = apiUser := by
  unfold getUserFromRequest at huser
  cases hvalid : validateSession s (c.session.getD "") with
  | some found =>
    rw [hvalid] at huser
    obtain rfl := Option.some.inj huser
    cases hsession : c.session with
    | none =>
      rw [hsession] at hvalid
      exact absurd hvalid (by simp [validateSession])
    | some token =>
      rw [hsession] at hvalid
      exact .inl ⟨token, rfl, hvalid⟩
  | none =>
    rw [hvalid] at huser
    obtain ⟨-, heq⟩ := Option.ite_none_right_eq_some.mp huser
    exact .inr (Option.some.inj heq).symm

/-- **The key is enough** where there is no session. -/
theorem getUserFromRequest_of_key (hkey : h.PresentsKey site) (session : Option String) :
    ∃ user, getUserFromRequest site s ⟨session, h.apiKey⟩ = some user := by
  obtain ⟨key, hne, henv, hpresented⟩ := hkey
  have hget : site.web.get "API_KEY" "" = key := by
    unfold Process.get orElse
    rw [henv, Option.getD_some, if_neg hne]
  have hsame : safeCompare key key = true := by
    unfold safeCompare
    simp
  unfold getUserFromRequest
  cases validateSession s ((⟨session, h.apiKey⟩ : Credentials).session.getD "") with
  | some user => exact ⟨user, rfl⟩
  | none =>
    refine ⟨apiUser, if_pos ?_⟩
    rw [hpresented, Option.getD_some, hget]
    exact ⟨hne, hsame⟩

/-- **When authentication keeps its promise**: the cookie can be read, and the user of the
session has no role by an inherited name. -/
theorem authenticates_iff (site : AuthSite) (s : UserStore) (h : AuthHeaders) :
    Authenticates site s h ↔ h.CookieDecodes ∧ h.RoleListed s := by
  constructor
  · rintro ⟨hanswers, -⟩
    have hdecodes : ∃ token, parseCookie (h.cookie.getD "") = .ok token := by
      obtain ⟨answer, hanswer, -⟩ := hanswers .viewer
      obtain ⟨found, hfound, -⟩ := bind_eq_ok.mp hanswer
      obtain ⟨token, htoken, -⟩ := bind_eq_ok.mp hfound
      exact ⟨token, htoken⟩
    refine ⟨cookieDecodes_iff.mpr hdecodes, fun token user htoken huser hrole => ?_⟩
    -- such a user passes for a viewer
    obtain ⟨answer, hanswer, hproper⟩ := hanswers .viewer
    have hfound : getUserFromRequest site s ⟨some token, h.apiKey⟩ = some user := by
      unfold getUserFromRequest
      rw [show (⟨some token, h.apiKey⟩ : Credentials).session.getD "" = token from rfl, huser]
    unfold requireRole at hanswer
    rw [getUserFromRequest_of_cookie site s htoken, hfound, ok_bind] at hanswer
    dsimp only at hanswer
    rw [not_below_of_mem hrole, if_neg Bool.false_ne_true] at hanswer
    obtain rfl := Except.ok.inj hanswer
    obtain ⟨r, heq, -⟩ := hproper
    exact notMem_objectPrototype r (heq ▸ hrole)
  · rintro ⟨hdecodes, hlisted⟩
    obtain ⟨token, htoken⟩ := cookieDecodes_iff.mp hdecodes
    have hfound := getUserFromRequest_of_cookie site s htoken
    refine ⟨fun minRole => ?_, fun hkey => ?_⟩
    · unfold requireRole
      rw [hfound, ok_bind]
      cases huser : getUserFromRequest site s ⟨token, h.apiKey⟩ with
      | none => exact ⟨_, rfl, .inl rfl⟩
      | some user =>
        have hrole : user.role ∉ objectPrototype := by
          rcases getUserFromRequest_cases huser with ⟨text, htext, hvalid⟩ | rfl
          · exact hlisted text user (htoken.trans (congrArg _ htext)) hvalid
          · exact notMem_objectPrototype .admin
        dsimp only
        by_cases hbelow : belowRole user.role minRole = true
        · rw [if_pos hbelow]
          exact ⟨_, rfl, .inr rfl⟩
        · rw [if_neg hbelow]
          exact ⟨_, rfl, suffices_of_not_below hrole (Bool.not_eq_true _ ▸ hbelow)⟩
    · obtain ⟨user, huser⟩ := getUserFromRequest_of_key (s := s) hkey token
      exact ⟨user, hfound.trans (congrArg _ huser)⟩

end Requests

/-- A site with an API key. -/
def sampleKeySite : AuthSite :=
  { sampleAuthSite with web := ⟨fun name => List.lookup name [("API_KEY", "key")], "/srv"⟩ }

/-- A request with the key, and a cookie that is not encoded well. -/
def sampleBrokenCookie : AuthHeaders := ⟨some "mc-session=%", some "key"⟩

/-- **The key is not looked at**: reading the cookie throws. -/
theorem not_authenticates_sampleBrokenCookie :
    ¬ Authenticates sampleKeySite ⟨.empty, .empty, 0⟩ sampleBrokenCookie := by
  rintro ⟨-, hkey⟩
  obtain ⟨user, huser⟩ := hkey ⟨"key", by decide, rfl, rfl⟩
  exact nomatch huser

end MissionControl
