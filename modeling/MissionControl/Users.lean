import MissionControl.Environment
import MissionControl.Library.Machine
import MissionControl.Library.Utf8
import MissionControl.Tasks

/-!
# Users and their sessions

The tables `users`, `user_sessions` and `access_requests`, and what `auth.ts`
does with them: a password is checked where a session is created, and from then
on the cookie of the session says who sends a request, for seven days.

The columns of `users` have no checks of their own: `role` may hold any text,
and `is_approved` any number, or a text that SQLite takes for none.

All that a request writes here is one of a few things, an `AuthWrite`; what it
makes of the tables is `UserStore.write`.
-/

namespace MissionControl

/-! ## Rows -/

/-- The role of a user, as requests name it. -/
inductive UserRole where
  | admin | operator | viewer
  deriving DecidableEq

/-- The text of a role, as requests and the column `role` have it. -/
def UserRole.text : UserRole → String
  | admin => "admin"
  | operator => "operator"
  | viewer => "viewer"

inductive UserProvider where
  | local | google
  deriving DecidableEq

def UserProvider.text : UserProvider → String
  | «local» => "local"
  | google => "google"

/-- A value of a column `INTEGER NOT NULL`: a number, or a text that SQLite
takes for none. -/
inductive NotNullInteger where
  | number (n : JsNumber)
  | text (s : String)
  deriving DecidableEq

/-- The value as it is read from a row. -/
def NotNullInteger.json : NotNullInteger → Json
  | number n => .num n
  | text s => .str s

/-- A row of `users`. -/
structure UserRow where
  username : String
  displayName : String
  passwordHash : String
  role : String
  provider : String
  providerUserId : Option String
  email : Option String
  avatarUrl : Option String
  isApproved : NotNullInteger

@[ext] structure SessionToken where
  text : String
  nonempty : text ≠ ""
  deriving DecidableEq

/-- A row of `user_sessions`. -/
structure SessionRow where
  token : SessionToken
  userId : ℕ
  expiresAt : ℕ

/-- A row of `access_requests`, all of them of Google. -/
structure AccessRequest where
  email : String
  providerUserId : String
  displayName : String
  avatarUrl : Option String

/-- `User`: what the rest of the program sees of a user. -/
structure User where
  id : ℕ
  username : String
  displayName : String
  role : String
  provider : Option String
  email : Option String
  avatarUrl : Option String
  isApproved : Option NotNullInteger

/-- A request that waits for its body, by what it will do with it. -/
inductive UserOperation where
  | create | update | delete | review | profile
  deriving DecidableEq

/-- **A request that waits for its body**, and the user it was found to come
from before it began to wait. -/
structure UserCall where
  operation : UserOperation
  currentUser : User

/-- **The users and their sessions**, and the time in seconds. -/
structure UserStore where
  users : Table UserRow
  sessions : Table SessionRow
  clock : ℕ

structure AuthState extends UserStore where
  accessRequests : Table AccessRequest
  calls : Table UserCall

/-- **What the users are kept with**: the runtime, SQLite, the environment, and
the key derivation of passwords. -/
structure AuthSite where
  rt : Runtime
  sq : Sqlite
  web : Process
  /-- `scryptSync(password, salt, 32)`. -/
  scrypt : String → String → List UInt8
  /-- `String.prototype.toUpperCase`. -/
  toUpperCase : String → String
  /-- The text of a `TypeError`. -/
  typeErrorText : String

/-! ## Passwords -/

/-- `bytes.toString('hex')`. -/
def toHex (bytes : List UInt8) : String :=
  String.ofList (bytes.flatMap fun b =>
    [Nat.digitChar (b.toNat / 16), Nat.digitChar (b.toNat % 16)])

/-- `Buffer.from(s, 'hex')`, up to the first pair of characters that is no
octet. -/
def fromHex : List Char → List UInt8
  | a :: b :: s =>
    match digitValue 16 a, digitValue 16 b with
    | some x, some y => UInt8.ofNat (16 * x + y) :: fromHex s
    | _, _ => []
  | _ => []

/-- `hashPassword`, with its random salt. -/
def hashPassword (site : AuthSite) (password salt : String) : String :=
  salt ++ ":" ++ toHex (site.scrypt password salt)

/-- `verifyPassword`. A password that is no text throws. -/
def verifyPassword (site : AuthSite) (password : Json) (stored : String) :
    Except Exception Bool :=
  match stored.toList.splitOn ':' with
  | salt :: hash :: _ =>
    if salt = [] ∨ hash = [] then .ok false
    else do
      let password ← password.asString
      .ok (site.scrypt password (String.ofList salt) = fromHex hash)
  | _ => .ok false

/-- `safeCompare`. Texts are compared by their UTF-8 octets. -/
def safeCompare (a b : String) : Bool :=
  let bufA := Utf8.encode a.toList
  let bufB := Utf8.encode b.toList
  if bufA.length ≠ bufB.length then false else bufA = bufB

/-! ## Sessions -/

/-- `SESSION_DURATION`: seven days. -/
def SESSION_DURATION : ℕ := 7 * 24 * 60 * 60

/-- **`createSession`.** Sessions that have expired are cleaned up. -/
def createSession (s : UserStore) (userId : ℕ) (token : SessionToken) :
    Except Exception UserStore :=
  if s.sessions.any (fun r => r.token = token) then
    .error (.error "UNIQUE constraint failed: user_sessions.token")
  else
    .ok { s with
      sessions :=
        (s.sessions.insert ⟨token, userId, s.clock + SESSION_DURATION⟩).deleteWhere
          (fun _ r => r.expiresAt < s.clock) }

/-- The user of a row, as a session shows it. -/
def UserRow.sessionUser (u : UserRow) (id : ℕ) : User where
  id := id
  username := u.username
  displayName := u.displayName
  role := u.role
  provider := some (orElse u.provider "local")
  email := u.email
  avatarUrl := u.avatarUrl
  isApproved :=
    match u.isApproved with
    | .number n => some (.number n)
    | _ => some (.number (.finite 1))

/-- Whether a session is the one of a token, and has not expired. -/
def SessionRow.live (r : SessionRow) (token : String) (now : ℕ) : Bool :=
  r.token.text = token ∧ now < r.expiresAt

/-- **`validateSession`**: the user of the session that a token names. -/
def validateSession (s : UserStore) (token : String) : Option User :=
  if token = "" then none
  else
    (s.sessions.rows.filter (fun r => r.2.live token s.clock)).findSome? fun r =>
      (s.users.row r.2.userId).map (fun u => u.sessionUser r.2.userId)

def destroySession (s : UserStore) (token : String) : UserStore :=
  { s with sessions := s.sessions.deleteWhere (fun _ r => r.token.text = token) }

def destroyAllUserSessions (s : UserStore) (userId : ℕ) : UserStore :=
  { s with sessions := s.sessions.deleteWhere (fun _ r => r.userId = userId) }

/-- What a request is recognized by: the cookie `mc-session` and the header
`x-api-key`. -/
structure Credentials where
  session : Option String
  apiKey : Option String

def apiUser : User where
  id := 0
  username := "api"
  displayName := "API Access"
  role := "admin"
  provider := none
  email := none
  avatarUrl := none
  isApproved := none

/-- **`getUserFromRequest`**: the user of the session, or of the API key. -/
def getUserFromRequest (site : AuthSite) (s : UserStore) (c : Credentials) :
    Option User :=
  match validateSession s (c.session.getD "") with
  | some user => some user
  | none =>
    let apiKey := c.apiKey.getD ""
    if apiKey ≠ "" ∧ safeCompare apiKey (site.web.get "API_KEY" "") then some apiUser
    else none

/-! ## Users -/

/-- The user of a row, as `getUserById` reads it. -/
def UserRow.toUser (u : UserRow) (id : ℕ) : User where
  id := id
  username := u.username
  displayName := u.displayName
  role := u.role
  provider := some u.provider
  email := u.email
  avatarUrl := u.avatarUrl
  isApproved := some u.isApproved

/-- The columns of a user that answers show, to the avatar. -/
def User.profile (u : User) : List (String × Json) :=
  [("id", .ofNat u.id), ("username", .str u.username),
    ("display_name", .str u.displayName), ("role", .str u.role),
    ("provider", .str (orElse (u.provider.getD "") "local")),
    ("email", .ofText (u.email.filter (· ≠ ""))),
    ("avatar_url", .ofText (u.avatarUrl.filter (· ≠ "")))]

/-- A user as the user administration answers it. -/
def User.json (u : User) : Json :=
  .obj (u.profile ++ [("is_approved",
    (u.isApproved.map NotNullInteger.json).getD (.num (.finite 1)))])

/-- `getUserById`, with an id of any type. -/
def getUserById (site : AuthSite) (users : Table UserRow) (id : Option Json) :
    Except Exception (Option User) := do
  let id ← sqlId site.sq id
  .ok (id.bind fun id => (users.row id).map (fun u => u.toUser id))

/-- **`authenticateUser`**: the password of a local user who is approved. -/
def authenticateUser (site : AuthSite) (users : Table UserRow)
    (username password : Json) :
    Except Exception (Option User) := do
  let name ← SqlValue.bindAll 1 [some username]
  match users.first (fun u => name.map (·.asText site.sq) = [.text u.username]) with
  | none => .ok none
  | some (id, u) =>
    if orElse u.provider "local" ≠ "local" then .ok none
    else if u.isApproved ≠ .number (.finite 1) then .ok none
    else if ← verifyPassword site password u.passwordHash then
      .ok (some { u.toUser id with provider := some (orElse u.provider "local") })
    else .ok none

/-- The options of `createUser`. -/
structure CreateUserOptions where
  provider : UserProvider := .local
  providerUserId : Option String := none
  email : Option String := none
  avatarUrl : Option String := none

/-- **The row that `createUser` inserts.** A new user is approved. -/
def createUser (site : AuthSite) (users : Table UserRow) (username password salt
    displayName : String) (role : UserRole) (opts : CreateUserOptions) :
    Except Exception UserRow :=
  if utf16Length password < 12 then
    .error (.error "Password must be at least 12 characters")
  else if users.any (fun u => u.username = username) then
    .error (.error "UNIQUE constraint failed: users.username")
  else
    .ok
      { username
        displayName
        passwordHash := hashPassword site password salt
        role := role.text
        provider := opts.provider.text
        providerUserId := opts.providerUserId.filter (· ≠ "")
        email := opts.email.filter (· ≠ "")
        avatarUrl := opts.avatarUrl.filter (· ≠ "")
        isApproved := .number (.finite 1) }

/-- `deleteUser`, without its result. -/
def deleteUser (s : UserStore) (id : ℕ) : UserStore :=
  { destroyAllUserSessions s id with
    users := s.users.deleteWhere (fun i _ => i = id) }

/-! ## Updates -/

/-- **What an update writes** into the columns of a user. -/
structure UserUpdate where
  displayName : Option String
  role : Option String
  passwordHash : Option String
  email : Option (Option String)
  avatarUrl : Option (Option String)
  isApproved : Option NotNullInteger

def UserUpdate.apply (w : UserUpdate) (u : UserRow) : UserRow :=
  { u with
    displayName := w.displayName.getD u.displayName
    role := w.role.getD u.role
    passwordHash := w.passwordHash.getD u.passwordHash
    email := w.email.getD u.email
    avatarUrl := w.avatarUrl.getD u.avatarUrl
    isApproved := w.isApproved.getD u.isApproved }

/-- What a `TEXT` column keeps of a bound value. -/
def SqlValue.columnText (sq : Sqlite) (v : SqlValue) : Option String :=
  match v.asText sq with
  | .text s => some s
  | _ => none

/-- The text for a column that takes no `null`. -/
def notNullText (sq : Sqlite) (v : SqlValue) : Except Exception String :=
  match v.columnText sq with
  | some s => .ok s
  | none => .error (.error "NOT NULL constraint failed")

/-- The value for an `INTEGER` column that takes no `null`. -/
def notNullInteger (sq : Sqlite) (v : SqlValue) : Except Exception NotNullInteger :=
  match v.asInteger sq with
  | .null => .error (.error "NOT NULL constraint failed")
  | .number n => .ok (.number n)
  | .text s => .ok (.text s)

/-- **The columns an `UPDATE` of a user assigns**, with the values bound. -/
def assignedColumns (sq : Sqlite) (columns : List (String × SqlValue)) :
    Except Exception UserUpdate := do
  let displayName ← (columns.lookup "display_name").mapM (notNullText sq)
  let role ← (columns.lookup "role").mapM (notNullText sq)
  let passwordHash ← (columns.lookup "password_hash").mapM (notNullText sq)
  let isApproved ← (columns.lookup "is_approved").mapM (notNullInteger sq)
  let _ ← (columns.lookup "updated_at").mapM (notNullInteger sq)
  .ok
    { displayName, role, passwordHash
      email := (columns.lookup "email").map (SqlValue.columnText sq)
      avatarUrl := (columns.lookup "avatar_url").map (SqlValue.columnText sq)
      isApproved }

/-- The properties `updateUser` is called with; `none` is `undefined`. -/
structure UserProperties where
  displayName : Option Json
  role : Option Json
  password : Option Json
  email : Option Json
  avatarUrl : Option Json
  isApproved : Option Json

/-- The hash of the password an update sets. -/
def UserProperties.passwordHash (site : AuthSite) (p : UserProperties)
    (salt : String) : Except Exception (Option Json) :=
  match p.password with
  | none => .ok none
  | some password => do
    let password ← password.asString
    .ok (some (.str (hashPassword site password salt)))

/-- The columns that `updateUser` assigns values to. -/
def UserProperties.columns (p : UserProperties) (passwordHash : Option Json) :
    List (String × Option Json) :=
  [("display_name", p.displayName), ("role", p.role),
    ("password_hash", passwordHash), ("email", p.email),
    ("avatar_url", p.avatarUrl), ("is_approved", p.isApproved)].filter
    (fun column => column.2.isSome)

/-- **What `updateUser` writes**, and in which row. Nothing is written where
there is nothing to write, or no such row. -/
def updateUser (site : AuthSite) (users : Table UserRow) (id : Option Json)
    (p : UserProperties) (salt : String) (now : ℕ) :
    Except Exception (Option (ℕ × UserUpdate)) := do
  let passwordHash ← p.passwordHash site salt
  let columns := p.columns passwordHash
  if columns = [] then .ok none
  else
    let names := columns.map Prod.fst ++ ["updated_at"]
    let values ← SqlValue.bindAll (names.length + 1)
      (columns.map Prod.snd ++ [some (.ofNat now), id])
    match (values.getLast?).bind (SqlValue.rowId site.sq) with
    | none => .ok none
    | some id =>
      if (users.row id).isNone then .ok none
      else do
        let update ← assignedColumns site.sq (names.zip values)
        .ok (some (id, update))

/-! ## What requests write -/

def UserRow.approve (u : UserRow) (providerUserId : Option String) (email : String)
    (avatarUrl : Option String) (role : UserRole) : UserRow :=
  { u with
    provider := "google"
    providerUserId
    email := some email
    avatarUrl := avatarUrl.or u.avatarUrl
    isApproved := .number (.finite 1)
    role := role.text }

/-- **A verified Google identity.** -/
structure GoogleProfile where
  sub : String
  email : String
  displayName : String
  avatar : Option String

def UserRow.bindGoogle (u : UserRow) (p : GoogleProfile) : UserRow :=
  { u with
    provider := "google"
    providerUserId := some p.sub
    email := some p.email
    avatarUrl := p.avatar.or u.avatarUrl }

/-- **What a request writes** into the tables of users and sessions. -/
inductive AuthWrite where
  | nothing
  | wait (seconds : ℕ)
  | createUser (row : UserRow)
  | updateUser (id : ℕ) (update : UserUpdate)
  | deleteUser (id : ℕ)
  | approveUser (id : ℕ) (providerUserId : Option String) (email : String)
    (avatarUrl : Option String) (role : UserRole)
  | createSession (userId : ℕ) (token : SessionToken)
  | bindGoogle (userId : ℕ) (p : GoogleProfile) (token : SessionToken)
  | destroySession (token : String)

/-- What a session that is created leaves; it is not created where the token is
taken. -/
def openSession (s : UserStore) (userId : ℕ) (token : SessionToken) : UserStore :=
  match createSession s userId token with
  | .ok s' => s'
  | .error _ => s

/-- **The tables after a request.** -/
def UserStore.write (s : UserStore) : AuthWrite → UserStore
  | .nothing => s
  | .wait seconds => { s with clock := s.clock + seconds }
  | .createUser row => { s with users := s.users.insert row }
  | .updateUser id update => { s with users := s.users.update id update.apply }
  | .deleteUser id => MissionControl.deleteUser s id
  | .approveUser id providerUserId email avatarUrl role =>
    { s with users := s.users.update id (fun u =>
        u.approve providerUserId email avatarUrl role) }
  | .createSession userId token => openSession s userId token
  | .bindGoogle userId p token =>
    openSession { s with users := s.users.update userId (fun u => u.bindGoogle p) }
      userId token
  | .destroySession token => MissionControl.destroySession s token

@[simp] theorem users_openSession (s : UserStore) (userId : ℕ) (token : SessionToken) :
    (openSession s userId token).users = s.users := by
  unfold openSession createSession
  split
  · next h =>
    split at h
    · exact nomatch h
    · obtain rfl := Except.ok.inj h
      rfl
  · rfl

@[simp] theorem clock_openSession (s : UserStore) (userId : ℕ) (token : SessionToken) :
    (openSession s userId token).clock = s.clock := by
  unfold openSession createSession
  split
  · next h =>
    split at h
    · exact nomatch h
    · obtain rfl := Except.ok.inj h
      rfl
  · rfl

/-- Whether a token is the one of a session. -/
def UserStore.TokenTaken (s : UserStore) (token : SessionToken) : Prop :=
  s.sessions.any (fun r => r.token = token) = true

theorem openSession_of_not_taken {s : UserStore} {userId : ℕ} {token : SessionToken}
    (h : ¬ s.TokenTaken token) :
    openSession s userId token = { s with
      sessions :=
        (s.sessions.insert ⟨token, userId, s.clock + SESSION_DURATION⟩).deleteWhere
          (fun _ r => r.expiresAt < s.clock) } := by
  unfold UserStore.TokenTaken at h
  unfold openSession createSession
  rw [if_neg h]

theorem openSession_of_taken {s : UserStore} {userId : ℕ} {token : SessionToken}
    (h : s.TokenTaken token) : openSession s userId token = s := by
  unfold UserStore.TokenTaken at h
  unfold openSession createSession
  rw [if_pos h]

end MissionControl
