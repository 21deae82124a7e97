import MissionControl.Users

/-!
# Logging in, and the user administration

The requests that write users and sessions. A request of the administration
finds out who sends it, waits for its body, and then does the rest of its work
at once: what the sender was when the request came may have changed until then.
A login reads the tables only after the last of its waits. Together with the
logout, and with time that passes, these requests are a machine.

Each request is read first, to what it writes or to the answer that refuses it.
-/

namespace MissionControl

/-- What a request shows: its answer, the session that was created, or that it
threw. -/
inductive AuthEvent where
  | answered (response : ApiResponse)
  | loggedIn (userId : ℕ) (token : SessionToken)
  | authenticated (user : User)
  | crashed

def AuthState.put (s : AuthState) (w : AuthWrite) : AuthState :=
  { s with toUserStore := s.toUserStore.write w }

/-- A salt and a password that are drawn at random. -/
structure Randomness where
  salt : String
  password : String

/-! ## Creating users -/

/-- `z.enum` of the roles. -/
def userRoleReader : Reader UserRole :=
  .enum (options UserRole.text [.admin, .operator, .viewer])

/-- A parsed body of `POST /api/auth/users`. -/
structure CreateUserFields where
  username : String
  password : String
  displayName : Option String
  role : UserRole
  provider : UserProvider
  email : Option String

def createUserSchema : Reader CreateUserFields :=
  .object fun fields =>
    (((((Checked.ap (.ok CreateUserFields.mk)
      ((Reader.string.minLength 1 (some "Username is required")).field "username"
        fields)).ap
      ((Reader.string.minLength 12
        (some "Password must be at least 12 characters")).field "password"
        fields)).ap
      ((Schema.optional (.required .string)).field "display_name" fields)).ap
      (userRoleReader.fieldOr .operator "role" fields)).ap
      ((Reader.enum (options UserProvider.text [.local, .google])).fieldOr .local
        "provider" fields)).ap
      ((Schema.optional (.required .string)).field "email" fields)

/-- **The row that a `POST` inserts**, or the answer that refuses it. -/
def readNewUser (site : AuthSite) (users : Table UserRow) (body : Option Json)
    (random : Randomness) : Except ApiResponse UserRow := do
  let data ← validateBody createUserSchema body
  match createUser site users data.username data.password random.salt
      (orElse (data.displayName.getD "") data.username) data.role
      { provider := data.provider, email := data.email } with
  | .ok row => .ok row
  | .error (.error message) =>
    if "UNIQUE constraint failed".toList <:+: message.toList then
      .error (.error 409 "Username already exists")
    else .error (.error 500 "Failed to create user")
  | .error .typeError => .error (.error 500 "Failed to create user")

/-- **`POST /api/auth/users`**, with its body. -/
def createUserRequest (site : AuthSite) (s : AuthState) (body : Option Json)
    (random : Randomness) : AuthState × List AuthEvent :=
  match readNewUser site s.users body random with
  | .error response => (s, [.answered response])
  | .ok row =>
    (s.put (.createUser row),
      [.answered (.json 201 (.obj [("user", (row.toUser s.users.next).json)]))])

/-! ## Updating users -/

/-- The properties of a body of `PUT /api/auth/users`. -/
def userProperties (body : Option Json) : UserProperties where
  displayName := Json.get? body "display_name"
  role := Json.get? body "role"
  password := (Json.get? body "password").filter (fun j => Json.truthy (some j))
  email := Json.get? body "email"
  avatarUrl := Json.get? body "avatar_url"
  isApproved := Json.get? body "is_approved"

/-- **What a `PUT` writes**, or the answer that refuses it. -/
def readUserUpdate (site : AuthSite) (s : UserStore) (currentUser : User)
    (body : Option Json) (random : Randomness) :
    Except ApiResponse (Option (ℕ × UserUpdate)) :=
  match Json.get body "id" with
  | .error _ => .error (.error 500 "Failed to update user")
  | .ok id =>
    let role := Json.get? body "role"
    if ¬ Json.truthy id then .error (.error 400 "User ID is required")
    else if Json.truthy role ∧ ¬ ["admin", "operator", "viewer"].any (Json.equalsText role) then
      .error (.error 400 "Invalid role")
    -- an id that is no number is never the own one
    else if Json.equalsNumber id currentUser.id ∧ Json.truthy role
        ∧ ¬ Json.equalsText role currentUser.role then
      .error (.error 400 "Cannot change your own role")
    else
      match updateUser site s.users id (userProperties body) random.salt s.clock with
      | .error _ => .error (.error 500 "Failed to update user")
      | .ok write => .ok write

def updateWrite : Option (ℕ × UserUpdate) → AuthWrite
  | none => .nothing
  | some (id, update) => .updateUser id update

/-- **`PUT /api/auth/users`**, with its body. -/
def updateUserRequest (site : AuthSite) (s : AuthState) (currentUser : User)
    (body : Option Json) (random : Randomness) : AuthState × List AuthEvent :=
  match readUserUpdate site s.toUserStore currentUser body random with
  | .error response => (s, [.answered response])
  | .ok update =>
    let s' := s.put (updateWrite update)
    (s', [.answered <|
        match getUserById site s'.users (Json.get? body "id") with
        | .error _ => .error 500 "Failed to update user"
        | .ok none => .error 404 "User not found"
        | .ok (some user) => .json 200 (.obj [("user", user.json)])])

/-! ## Deleting users -/

/-- **The user that a `DELETE` names**, or the answer that refuses it; it
throws where the id cannot be read. -/
def readDeletedUser (site : AuthSite) (currentUser : User) (body : Option Json) :
    Except Exception (Except ApiResponse (Option ℕ)) :=
  match body with
  | none => .ok (.error (.error 400 "Request body required"))
  | some _ => do
    let id ← Json.get body "id"
    if ¬ Json.truthy id then .ok (.error (.error 400 "User ID is required"))
    else do
      let userId := parseInt (← Json.toStrUndefined site.rt id)
      if userId = some (currentUser.id : ℤ) then
        .ok (.error (.error 400 "Cannot delete your own account"))
      else .ok (.ok (userId.bind fun n => if 0 ≤ n then some n.toNat else none))

def deleteWrite : Option ℕ → AuthWrite
  | none => .nothing
  | some id => .deleteUser id

/-- **`DELETE /api/auth/users`**, with its body. -/
def deleteUserRequest (site : AuthSite) (s : AuthState) (currentUser : User)
    (body : Option Json) : AuthState × List AuthEvent :=
  match readDeletedUser site currentUser body with
  | .error _ => (s, [.crashed])
  | .ok (.error response) => (s, [.answered response])
  | .ok (.ok id) =>
    (s.put (deleteWrite id),
      [.answered <|
        if (id.bind s.users.row).isSome then .json 200 (.obj [("success", .bool true)])
        else .error 404 "User not found"])

/-! ## The own profile -/

/-- `x.length < 8`. -/
def isShort (rt : Runtime) (x : Json) : Except Exception Bool := do
  let length ← match x with
    | .str s => .ok (.finite (utf16Length s))
    | .arr elements => .ok (.finite elements.length)
    | .obj fields => Json.toNumber rt (fields.lookup "length")
    | _ => .ok .nan
  .ok (match length with
    | .finite q => q < 8
    | .infinity negative => negative
    | .nan => false)

/-- The new password of a body of `PATCH /api/auth/me`, if it brings one. -/
def newPassword (site : AuthSite) (users : Table UserRow) (userId : ℕ)
    (body : Option Json) : Except Exception (Except ApiResponse (Option Json)) :=
  match (Json.get? body "new_password").filter (fun j => Json.truthy (some j)) with
  | none => .ok (.ok none)
  | some password => do
    let current := Json.get? body "current_password"
    if ¬ Json.truthy current then
      .ok (.error (.error 400 "Current password is required"))
    else if ← isShort site.rt password then
      .ok (.error (.error 400 "New password must be at least 8 characters"))
    else
      match users.row userId with
      | none => .ok (.error (.error 403 "Current password is incorrect"))
      | some u => do
        if ← verifyPassword site (current.getD .null) u.passwordHash then
          .ok (.ok (some password))
        else .ok (.error (.error 403 "Current password is incorrect"))

/-- The new display name of a body, if it brings one. -/
def newDisplayName (body : Option Json) :
    Except Exception (Except ApiResponse (Option Json)) :=
  match Json.get? body "display_name" with
  | none => .ok (.ok none)
  | some name => do
    let name := trim (← name.asString)
    if name = "" then .ok (.error (.error 400 "Display name cannot be empty"))
    else .ok (.ok (some (.str name)))

/-- What a `PATCH` writes, or the answer that refuses it. -/
def readProfileUpdate (site : AuthSite) (s : UserStore) (userId : ℕ)
    (body : Option Json) (random : Randomness) :
    Except Exception (Except ApiResponse (Option (ℕ × UserUpdate))) := do
  let _ ← Json.get body "current_password"
  match ← newPassword site s.users userId body with
  | .error response => .ok (.error response)
  | .ok password =>
    match ← newDisplayName body with
    | .error response => .ok (.error response)
    | .ok displayName =>
      if password.isNone ∧ displayName.isNone then
        .ok (.error (.error 400 "No updates provided"))
      else do
        let write ← updateUser site s.users (some (.ofNat userId))
          ⟨displayName, none, password, none, none, none⟩ random.salt s.clock
        .ok (.ok write)

/-- **`PATCH /api/auth/me`**, with its body. -/
def updateProfile (site : AuthSite) (s : AuthState) (currentUser : User)
    (body : Option Json) (random : Randomness) : AuthState × List AuthEvent :=
  match readProfileUpdate site s.toUserStore currentUser.id body random with
  | .error _ => (s, [.answered (.error 500 "Failed to update profile")])
  | .ok (.error response) => (s, [.answered response])
  | .ok (.ok update) =>
    let s' := s.put (updateWrite update)
    (s', [.answered <|
        match s'.users.row currentUser.id with
        | none => .error 404 "User not found"
        | some u => .json 200 (.obj [("success", .bool true),
            ("user", .obj (u.toUser currentUser.id).profile)])])

/-! ## Access requests -/

inductive AccessRequestAction where
  | approve | reject
  deriving DecidableEq

def AccessRequestAction.text : AccessRequestAction → String
  | approve => "approve"
  | reject => "reject"

/-- A parsed body of `POST /api/auth/access-requests`. -/
structure AccessRequestFields where
  requestId : JsNumber
  action : AccessRequestAction
  role : UserRole
  note : Option String

def accessRequestActionSchema : Reader AccessRequestFields :=
  .object fun fields =>
    (((Checked.ap (.ok AccessRequestFields.mk)
      (Reader.number.field "request_id" fields)).ap
      ((Reader.enum (options AccessRequestAction.text [.approve, .reject])).field
        "action" fields)).ap
      (userRoleReader.fieldOr .viewer "role" fields)).ap
      ((Schema.optional (.required .string)).field "note" fields)

/-- `s.split('@')[0]`. -/
def beforeAt (s : String) : String := String.ofList (s.toList.takeWhile (· ≠ '@'))

/-- Whether a character may stand in a username. -/
def isUsernameChar (c : Char) : Bool :=
  c.isAlphanum || c ∈ ['.', '_', '-']

def makeUsernameFromEmail (rt : Runtime) (email : String) : String :=
  let base := rt.toLowerCase
    (String.ofList ((beforeAt email).toList.filter isUsernameChar))
  String.ofList ((orElse base "user").toList.take 28)

/-- The `i`-th name that is tried. -/
def usernameCandidate (base : String) (i : ℕ) : String :=
  if i = 0 then base
  else String.ofList (base.toList.take 24) ++ "-" ++ toString i

/-- **`ensureUniqueUsername`**: the first name that no user has. There are more
names to try than users. -/
def ensureUniqueUsername (users : Table UserRow) (base : String) : String :=
  (((List.range (users.next + 2)).map (usernameCandidate base)).find? fun name =>
    !users.any (fun u => u.username = name)).getD base

/-- Whether a user is the one with a Google identity: by its subject, or by its
address. -/
def UserRow.matchesIdentity (u : UserRow) (sub email : String) : Bool :=
  (u.provider = "google" ∧ u.providerUserId = some sub)
    ∨ u.email.map sqlLower = some email

/-- The address that an access request is approved for. -/
def AccessRequest.approvedEmail (r : AccessRequest) (rt : Runtime) : String :=
  rt.toLowerCase r.email

/-- The subject that an access request is approved for, if it has one. -/
def AccessRequest.approvedSub (r : AccessRequest) : Option String :=
  if r.providerUserId = "" then none else some r.providerUserId

/-- The user that an approval takes the access request for. -/
def AccessRequest.existing (r : AccessRequest) (rt : Runtime)
    (users : Table UserRow) : Option (ℕ × UserRow) :=
  users.first fun u =>
    u.matchesIdentity (r.approvedSub.getD "") (r.approvedEmail rt)

def AccessRequest.approvedId (r : AccessRequest) (rt : Runtime)
    (users : Table UserRow) : ℕ :=
  ((r.existing rt users).map Prod.fst).getD users.next

/-- **What an approval writes**: into the row of the user it takes the request
for, or a new row. -/
def approveUser (site : AuthSite) (users : Table UserRow) (r : AccessRequest)
    (role : UserRole) (random : Randomness) : Except Exception AuthWrite :=
  let email := r.approvedEmail site.rt
  let avatarUrl := r.avatarUrl.filter (· ≠ "")
  match r.existing site.rt users with
  | some (id, _) => .ok (.approveUser id r.approvedSub email avatarUrl role)
  | none => do
    let row ← createUser site users
      (ensureUniqueUsername users (makeUsernameFromEmail site.rt email))
      random.password random.salt
      (orElse r.displayName (orElse (beforeAt email) "Google User")) role
      { provider := .google, providerUserId := r.approvedSub
        email := some email, avatarUrl }
    .ok (.createUser row)

/-- The access request that a body names, with what becomes of it. -/
def readReview (site : AuthSite) (s : AuthState) (body : Option Json) :
    Except ApiResponse (AccessRequestFields × AccessRequest) := do
  let data ← validateBody accessRequestActionSchema body
  match ((SqlValue.number data.requestId).rowId site.sq).bind
      s.accessRequests.row with
  | none => .error (.error 404 "Request not found")
  | some r => .ok (data, r)

def approveAccessRequest (site : AuthSite) (s : AuthState) (r : AccessRequest)
    (role : UserRole) (random : Randomness) : AuthState × List AuthEvent :=
  match approveUser site s.users r role random with
  | .error _ => (s, [.crashed])
  | .ok write =>
    let s' := s.put write
    let id := r.approvedId site.rt s.users
    (s', [.answered (.json 200 (.object [("ok", some (.bool true)),
      ("user", (s'.users.row id).map fun u => .obj
        [("id", .ofNat id), ("username", .str u.username),
          ("display_name", .str u.displayName), ("role", .str u.role),
          ("provider", .str u.provider), ("email", .ofText u.email),
          ("avatar_url", .ofText u.avatarUrl),
          ("is_approved", u.isApproved.json)])]))])

/-- **`POST /api/auth/access-requests`**, with its body. -/
def reviewAccessRequest (site : AuthSite) (s : AuthState) (body : Option Json)
    (random : Randomness) : AuthState × List AuthEvent :=
  match readReview site s body with
  | .error response => (s, [.answered response])
  | .ok (data, r) =>
    match data.action with
    | .reject => (s, [.answered (.json 200 (.obj [("ok", .bool true)]))])
    | .approve => approveAccessRequest site s r data.role random

/-! ## Logging in -/

/-- **The user that logs in**, or the answer that refuses it. -/
def readLogin (site : AuthSite) (users : Table UserRow) (body : Option Json) :
    Except ApiResponse User :=
  match Json.get body "username" with
  | .error _ => .error (.error 500 "Internal server error")
  | .ok username =>
    let password := Json.get? body "password"
    if ¬ Json.truthy username ∨ ¬ Json.truthy password then
      .error (.error 400 "Username and password are required")
    else
      match authenticateUser site users (username.getD .null) (password.getD .null) with
      | .error _ => .error (.error 500 "Internal server error")
      | .ok none => .error (.error 401 "Invalid credentials")
      | .ok (some user) => .ok user

/-- **`POST /api/auth/login`.** -/
def login (site : AuthSite) (s : AuthState) (body : Option Json)
    (token : SessionToken) : AuthState × List AuthEvent :=
  match readLogin site s.users body with
  | .error response => (s, [.answered response])
  | .ok user =>
    (s.put (.createSession user.id token),
      match createSession s.toUserStore user.id token with
      | .error _ => [.answered (.error 500 "Internal server error")]
      | .ok _ => [.loggedIn user.id token,
          .answered (.json 200 (.obj [("user", .obj user.profile)]))])

/-! ## Logging in with Google -/

/-- What comes of asking Google about a token: an error, a refusal, or what the
token says. -/
inductive TokenInfo where
  | failed (message : String)
  | refused
  | payload (j : Json)

/-- **`verifyGoogleIdToken`.** -/
def verifyGoogleIdToken (site : AuthSite) (idToken : String) (info : TokenInfo) :
    Except Exception Json :=
  if trim idToken = "" then .error (.error "Missing Google credential")
  else
    match info with
    | .failed message => .error (.error message)
    | .refused => .error (.error "Invalid Google token")
    | .payload payload => do
      let audExpected := trim (site.web.get "GOOGLE_CLIENT_ID"
        (site.web.get "NEXT_PUBLIC_GOOGLE_CLIENT_ID" ""))
      if audExpected ≠ "" ∧ ¬ Json.equalsText (← Json.get (some payload) "aud") audExpected then
        .error (.error "Google token audience mismatch")
      else if ¬ Json.truthy (← Json.get (some payload) "email")
          ∨ ¬ Json.truthy (Json.get? (some payload) "sub") then
        .error (.error "Google token missing required identity fields")
      else
        match Json.get? (some payload) "email_verified" with
        | some (.bool true) => .ok payload
        | some (.str "true") => .ok payload
        | _ => .error (.error "Google email is not verified")

/-- The identity of a login: what Google says of the token in the body. -/
def googleProfile (site : AuthSite) (body : Option Json) (info : TokenInfo) :
    Except Exception GoogleProfile := do
  let credential ← (Json.or (Json.get? body "credential") (.str "")).toStr site.rt
  let profile ← verifyGoogleIdToken site credential info
  let property := Json.get? (some profile)
  let email ← (Json.or (property "email") (.str "")).toStr site.rt
  let email := trim (site.rt.toLowerCase email)
  let sub ← (Json.or (property "sub") (.str "")).toStr site.rt
  let name ← (Json.or (property "name")
    (.str (orElse (beforeAt email) "Google User"))).toStr site.rt
  let avatar ← ((property "picture").filter (fun j => Json.truthy (some j))).mapM
    (fun j => j.toStr site.rt)
  .ok ⟨trim sub, email, trim name, avatar⟩

/-- `Number(is_approved) === 1`. -/
def UserRow.admitted (u : UserRow) (rt : Runtime) : Bool :=
  match u.isApproved with
  | .number n => n = .finite 1
  | .text s => rt.stringToNumber s = .finite 1

def upsertAccessRequest (rt : Runtime) (requests : Table AccessRequest)
    (p : GoogleProfile) : Table AccessRequest :=
  let r : AccessRequest :=
    ⟨rt.toLowerCase p.email, p.sub, p.displayName, p.avatar.filter (· ≠ "")⟩
  match requests.first (fun old => old.email = r.email) with
  | some (id, _) => requests.update id (fun _ => r)
  | none => requests.insert r

/-- The user that a Google login takes for its own. -/
def googleUser (users : Table UserRow) (p : GoogleProfile) : Option (ℕ × UserRow) :=
  users.first (fun u => u.matchesIdentity p.sub p.email)

/-- The text of an answer to what was thrown. -/
def AuthSite.message (site : AuthSite) : Exception → String
  | .error message => orElse message "Google login failed"
  | .typeError => orElse site.typeErrorText "Google login failed"

def loginGoogle (site : AuthSite) (s : AuthState) (p : GoogleProfile)
    (token : SessionToken) : AuthState × List AuthEvent :=
  match (googleUser s.users p).filter (fun r => r.2.admitted site.rt) with
  | none =>
    ({ s with accessRequests := upsertAccessRequest site.rt s.accessRequests p },
      [.answered (.json 403 (.obj
        [("error", .str "Access request pending admin approval"),
          ("code", .str "PENDING_APPROVAL")]))])
  | some (id, u) =>
    (s.put (.bindGoogle id p token),
      match createSession s.toUserStore id token with
      | .error e => [.answered (.error 400 (site.message e))]
      | .ok _ => [.loggedIn id token,
          .answered (.json 200 (.obj [("user", .obj
            [("id", .ofNat id), ("username", .str u.username),
              ("display_name", .str u.displayName), ("role", .str u.role),
              ("provider", .str "google"), ("email", .str p.email),
              ("avatar_url", .ofText p.avatar)])]))])

/-- **`POST /api/auth/google`.** -/
def googleLogin (site : AuthSite) (s : AuthState) (body : Option Json)
    (info : TokenInfo) (token : SessionToken) : AuthState × List AuthEvent :=
  match googleProfile site body info with
  | .error e =>
    (s, [.answered (.error 400 (site.message e))])
  | .ok p => loginGoogle site s p token

/-! ## The machine -/

def logoutWrite (c : Credentials) : AuthWrite :=
  match c.session with
  | none => .nothing
  | some token => if token = "" then .nothing else .destroySession token

/-- `POST /api/auth/logout`. -/
def logout (s : AuthState) (c : Credentials) : AuthState × List AuthEvent :=
  (s.put (logoutWrite c), [.answered (.json 200 (.obj [("ok", .bool true)]))])

/-- Whether a user may send a request, or the answer that refuses it. -/
def mayBegin (operation : UserOperation) (user : Option User) :
    Except ApiResponse User :=
  match operation, user with
  | .profile, none => .error (.error 401 "Not authenticated")
  | .profile, some user =>
    if user.id = 0 then .error (.error 403 "API key users cannot change passwords")
    else .ok user
  | _, none => .error (.error 403 "Admin access required")
  | _, some user =>
    if user.role = "admin" then .ok user
    else .error (.error 403 "Admin access required")

/-- A request of the user administration, up to where it waits for its body. -/
def beginCall (site : AuthSite) (s : AuthState) (operation : UserOperation)
    (c : Credentials) : AuthState × List AuthEvent :=
  match mayBegin operation (getUserFromRequest site s.toUserStore c) with
  | .error response => (s, [.answered response])
  | .ok user => ({ s with calls := s.calls.insert ⟨operation, user⟩ }, [])

/-- The rest of a request, with its body. -/
def UserCall.proceed (site : AuthSite) (call : UserCall) (s : AuthState)
    (body : Option Json) (random : Randomness) : AuthState × List AuthEvent :=
  match call.operation with
  | .create => createUserRequest site s body random
  | .update => updateUserRequest site s call.currentUser body random
  | .delete => deleteUserRequest site s call.currentUser body
  | .review => reviewAccessRequest site s body random
  | .profile => updateProfile site s call.currentUser body random

/-- The state without a request that has its body. -/
def AuthState.answering (s : AuthState) (id : ℕ) : AuthState :=
  { s with calls := s.calls.deleteWhere (fun i _ => i = id) }

/-- **What happens**: time passes, a request of any kind is recognized, a
request of the user administration begins or gets its body, or somebody logs in
or out. -/
inductive AuthAction where
  | wait (seconds : ℕ)
  | request (c : Credentials)
  | «begin» (operation : UserOperation) (c : Credentials)
  | receive (call : ℕ) (body : Option Json) (random : Randomness)
  | login (body : Option Json) (token : SessionToken)
  | googleLogin (body : Option Json) (info : TokenInfo) (token : SessionToken)
  | logout (c : Credentials)

/-- **The users and their sessions.** -/
def authMachine (site : AuthSite) : Machine AuthState AuthAction AuthEvent where
  step s
    | .wait seconds => (s.put (.wait seconds), [])
    | .request c => (s, ((getUserFromRequest site s.toUserStore c).map .authenticated).toList)
    | .begin operation c => beginCall site s operation c
    | .receive id body random =>
      match s.calls.row id with
      | none => (s, [])
      | some call => call.proceed site (s.answering id) body random
    | .login body token => MissionControl.login site s body token
    | .googleLogin body info token => MissionControl.googleLogin site s body info token
    | .logout c => MissionControl.logout s c

/-! ## A new database -/

/-- `seedAdminUserFromEnv`: the user of a new database. -/
def seedAdminUser (site : AuthSite) (salt : String) : UserRow :=
  let username := site.web.get "AUTH_USER" "admin"
  { username
    displayName := site.toUpperCase (String.ofList (username.toList.take 1))
      ++ String.ofList (username.toList.drop 1)
    passwordHash := hashPassword site (site.web.get "AUTH_PASS" "admin") salt
    role := "admin"
    provider := "local"
    providerUserId := none
    email := none
    avatarUrl := none
    isApproved := .number (.finite 1) }

/-- **A new database**, at some time. -/
def AuthState.initial (site : AuthSite) (salt : String) (now : ℕ) : AuthState where
  users := Table.empty.insert (seedAdminUser site salt)
  sessions := .empty
  accessRequests := .empty
  calls := .empty
  clock := now

/-- A site for concrete runs. -/
def sampleAuthSite : AuthSite where
  rt := sampleRuntime
  sq := sampleSqlite
  web := sampleProcess
  scrypt password salt := (password ++ salt).toList.map (fun c => UInt8.ofNat c.toNat)
  toUpperCase s := String.ofList (s.toList.map Char.toUpper)
  typeErrorText := "TypeError"

/-- The token of a session for concrete runs. -/
def sampleToken : SessionToken := ⟨"token", by decide⟩

end MissionControl
