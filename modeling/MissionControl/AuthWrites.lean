import MissionControl.AuthApi
import MissionControl.Library.Search

/-!
# What requests write to users and sessions

`authWrite` gathers what the actions of the machine write. A step leaves what it
writes (`toUserStore_next`), and a write comes with what the request has checked
before it (`allows_authWrite`): a session is created for an approved user only,
and Google logins and approvals write into the first user that their identity
matches. What runs keep follows from these two.

A request of the administration checks who sends it before it waits for its body, and
writes after it: what it has checked first may be gone. So `UserStore.Allows` lists only
what is checked at once with the write, of the tables as they are then.
-/

namespace MissionControl

/-- What the review of an access request writes. -/
def reviewWrite (site : AuthSite) (users : Table UserRow) (data : AccessRequestFields)
    (r : AccessRequest) (random : Randomness) : AuthWrite :=
  match data.action with
  | .reject => .nothing
  | .approve =>
    match approveUser site users r data.role random with
    | .ok write => write
    | .error _ => .nothing

/-- What a request of the user administration writes. -/
def UserCall.write (site : AuthSite) (call : UserCall) (s : AuthState)
    (body : Option Json) (random : Randomness) : AuthWrite :=
  match call.operation with
  | .create =>
    match readNewUser site s.users body random with
    | .ok row => .createUser row
    | .error _ => .nothing
  | .update =>
    match readUserUpdate site s.toUserStore call.currentUser body random with
    | .ok update => updateWrite update
    | .error _ => .nothing
  | .delete =>
    match readDeletedUser site call.currentUser body with
    | .ok (.ok id) => deleteWrite id
    | _ => .nothing
  | .review =>
    match readReview site s body with
    | .ok (data, r) => reviewWrite site s.users data r random
    | .error _ => .nothing
  | .profile =>
    match readProfileUpdate site s.toUserStore call.currentUser.id body random with
    | .ok (.ok update) => updateWrite update
    | _ => .nothing

/-- **What an action writes.** -/
def authWrite (site : AuthSite) (s : AuthState) : AuthAction → AuthWrite
  | .wait seconds => .wait seconds
  | .request _ => .nothing
  | .begin _ _ => .nothing
  | .receive id body random =>
    match s.calls.row id with
    | none => .nothing
    | some call => call.write site s body random
  | .login body token =>
    match readLogin site s.users body with
    | .ok user => .createSession user.id token
    | .error _ => .nothing
  | .googleLogin body info token =>
    match googleProfile site body info with
    | .error _ => .nothing
    | .ok p =>
      match (googleUser s.users p).filter (fun r => r.2.admitted site.rt) with
      | none => .nothing
      | some (id, _) => .bindGoogle id p token
  | .logout c => logoutWrite c

theorem toUserStore_proceed (site : AuthSite) (call : UserCall) (s : AuthState)
    (body : Option Json) (random : Randomness) :
    (call.proceed site s body random).1.toUserStore
      = s.toUserStore.write (call.write site s body random) := by
  unfold UserCall.proceed UserCall.write
  cases call.operation with
  | create =>
    simp only [createUserRequest]
    cases readNewUser site s.users body random with
    | error response => rfl
    | ok row => rfl
  | update =>
    simp only [updateUserRequest]
    cases readUserUpdate site s.toUserStore call.currentUser body random with
    | error response => rfl
    | ok update => rfl
  | delete =>
    simp only [deleteUserRequest]
    cases readDeletedUser site call.currentUser body with
    | error e => rfl
    | ok read =>
      cases read with
      | error response => rfl
      | ok id => rfl
  | review =>
    simp only [reviewAccessRequest]
    cases readReview site s body with
    | error response => rfl
    | ok review =>
      obtain ⟨data, r⟩ := review
      simp only [reviewWrite]
      cases data.action with
      | reject => rfl
      | approve =>
        simp only [approveAccessRequest]
        cases approveUser site s.users r data.role random with
        | error e => rfl
        | ok write => rfl
  | profile =>
    simp only [updateProfile]
    cases readProfileUpdate site s.toUserStore call.currentUser.id body random with
    | error e => rfl
    | ok read =>
      cases read with
      | error response => rfl
      | ok update => rfl

/-- **A step leaves what it writes.** -/
theorem toUserStore_next (site : AuthSite) (s : AuthState) (a : AuthAction) :
    ((authMachine site).next s a).toUserStore = s.toUserStore.write (authWrite site s a) := by
  cases a with
  | wait seconds => rfl
  | request c => rfl
  | «begin» operation c =>
    simp only [Machine.next, authMachine, beginCall, authWrite]
    cases mayBegin operation (getUserFromRequest site s.toUserStore c) with
    | error response => rfl
    | ok user => rfl
  | receive id body random =>
    simp only [Machine.next, authMachine, authWrite]
    cases s.calls.row id with
    | none => rfl
    | some call => exact toUserStore_proceed site call (s.answering id) body random
  | login body token =>
    simp only [Machine.next, authMachine, login, authWrite]
    cases readLogin site s.users body with
    | error response => rfl
    | ok user => rfl
  | googleLogin body info token =>
    simp only [Machine.next, authMachine, googleLogin, authWrite]
    cases googleProfile site body info with
    | error e => rfl
    | ok p =>
      simp only [loginGoogle]
      cases (googleUser s.users p).filter (fun r => r.2.admitted site.rt) with
      | none => rfl
      | some r => rfl
  | logout c => rfl

/-! ## Names of new users -/

theorem usernameCandidate_inj {base : String} {i j : ℕ}
    (h : usernameCandidate base (i + 1) = usernameCandidate base (j + 1)) : i = j := by
  unfold usernameCandidate at h
  rw [if_neg (Nat.succ_ne_zero i), if_neg (Nat.succ_ne_zero j)] at h
  have hnumbers := repr_injective ((String.append_right_inj _).mp h)
  exact Nat.succ_injective hnumbers

theorem mem_usernames_of_any {users : Table UserRow} {name : String}
    (h : users.any (fun u => u.username = name) = true) :
    name ∈ users.rows.map (fun r => r.2.username) := by
  by_contra hnot
  have hfalse := (users.any_eq_false_iff (fun u => u.username = name)).mpr
    fun id u hu => decide_eq_false fun heq =>
      hnot (List.mem_map.mpr ⟨(id, u), users.mem_rows.mpr hu, heq⟩)
  rw [h] at hfalse
  exact nomatch hfalse

/-- **`ensureUniqueUsername` finds a free name** with two more trials than there are users:
the name itself may be tried twice. -/
theorem firstFree_username_isSome (users : Table UserRow) (base : String) :
    (Search.firstFree (fun name => users.any fun u => u.username = name)
      (usernameCandidate base) (users.rows.length + 2) 0).isSome = true := by
  refine Search.firstFree_isSome (users.rows.map fun r => r.2.username) 1
    (fun _ h => mem_usernames_of_any h) ?_ ?_
  · rw [List.length_map]
    omega
  · intro i j h
    have h : usernameCandidate base (0 + 1 + i) = usernameCandidate base (0 + 1 + j) := h
    rw [Nat.zero_add, Nat.add_comm 1 i, Nat.add_comm 1 j] at h
    exact usernameCandidate_inj h

theorem firstFree_username (users : Table UserRow) (base : String) :
    Search.firstFree (fun name => users.any fun u => u.username = name)
        (usernameCandidate base) (users.rows.length + 2) 0
      = some (ensureUniqueUsername users base) := by
  obtain ⟨name, hname⟩ := Option.isSome_iff_exists.mp (firstFree_username_isSome users base)
  have hmore := Search.firstFree_mono (Nat.add_le_add_right users.length_rows_le 2) hname
  rw [hname]
  unfold ensureUniqueUsername
  rw [List.range_eq_range', Search.find?_range_eq, hmore]
  rfl

/-- **The name that an approval gives a new user is free.** -/
theorem ensureUniqueUsername_free (users : Table UserRow) (base : String) :
    users.any (fun u => u.username = ensureUniqueUsername users base) = false :=
  (Search.firstFree_spec (firstFree_username users base)).1

/-! ## What has been checked -/

/-- **What a request has checked** of the tables before it writes. -/
def UserStore.Allows (s : UserStore) (rt : Runtime) : AuthWrite → Prop
  | .createUser row =>
    row.isApproved = .number (.finite 1)
      ∧ (row.providerUserId = none ∨ ∃ sub email, row.providerUserId = some sub
        ∧ s.users.first (fun u => u.matchesIdentity sub email) = none)
  | .createSession id _ =>
    ∃ u, s.users.row id = some u ∧ u.isApproved = .number (.finite 1)
  | .bindGoogle id p _ => ∃ u, googleUser s.users p = some (id, u) ∧ u.admitted rt
  | .approveUser id sub email _ _ =>
    ∃ u, s.users.first (fun u => u.matchesIdentity (sub.getD "") email) = some (id, u)
  | _ => True

theorem createUser_eq_ok {site : AuthSite} {users : Table UserRow}
    {username password salt displayName : String} {role : UserRole}
    {opts : CreateUserOptions} {row : UserRow}
    (h : createUser site users username password salt displayName role opts = .ok row) :
    row.isApproved = .number (.finite 1)
      ∧ row.providerUserId = opts.providerUserId.filter (· ≠ "") := by
  unfold createUser at h
  split at h
  · exact nomatch h
  · split at h
    · exact nomatch h
    · obtain rfl := Except.ok.inj h
      exact ⟨rfl, rfl⟩

theorem authenticateUser_eq_some {site : AuthSite} {users : Table UserRow}
    {username password : Json} {user : User}
    (h : authenticateUser site users username password = .ok (some user)) :
    ∃ u, users.row user.id = some u ∧ u.isApproved = .number (.finite 1) := by
  unfold authenticateUser at h
  obtain ⟨name, -, h⟩ := bind_eq_ok.mp h
  split at h
  · exact nomatch h
  · next id u hfirst =>
    have hrow := ((users.first_eq_some).mp hfirst).1
    split at h
    · exact nomatch h
    · split at h
      · exact nomatch h
      · next happroved =>
        obtain ⟨verified, -, h⟩ := bind_eq_ok.mp h
        split at h
        · obtain rfl := Option.some.inj (Except.ok.inj h)
          exact ⟨u, hrow, by simpa using happroved⟩
        · exact nomatch h

theorem readLogin_eq_ok {site : AuthSite} {users : Table UserRow}
    {body : Option Json} {user : User} (h : readLogin site users body = .ok user) :
    ∃ u, users.row user.id = some u ∧ u.isApproved = .number (.finite 1) := by
  unfold readLogin at h
  split at h
  · exact nomatch h
  · dsimp only at h
    split at h
    · exact nomatch h
    · split at h
      · exact nomatch h
      · exact nomatch h
      · next hauth =>
        obtain rfl := Except.ok.inj h
        exact authenticateUser_eq_some hauth

theorem AccessRequest.approvedSub_filter (r : AccessRequest) :
    r.approvedSub.filter (· ≠ "") = r.approvedSub := by
  unfold approvedSub
  split
  · rfl
  · next h => simp [h]

theorem allows_approveUser {site : AuthSite} {s : UserStore} {r : AccessRequest}
    {role : UserRole} {random : Randomness} {w : AuthWrite}
    (h : approveUser site s.users r role random = .ok w) : s.Allows site.rt w := by
  unfold approveUser at h
  dsimp only at h
  split at h
  · next id u hexisting =>
    obtain rfl := Except.ok.inj h
    exact ⟨u, hexisting⟩
  · next hnone =>
    obtain ⟨row, hrow, h⟩ := bind_eq_ok.mp h
    obtain rfl := Except.ok.inj h
    obtain ⟨happroved, hsub⟩ := createUser_eq_ok hrow
    rw [AccessRequest.approvedSub_filter] at hsub
    refine ⟨happroved, ?_⟩
    cases hs : r.approvedSub with
    | none => exact .inl (hsub.trans hs)
    | some sub =>
      refine .inr ⟨sub, r.approvedEmail site.rt, hsub.trans hs, ?_⟩
      unfold AccessRequest.existing at hnone
      rw [hs] at hnone
      exact hnone

theorem allows_updateWrite (s : UserStore) (rt : Runtime)
    (update : Option (ℕ × UserUpdate)) : s.Allows rt (updateWrite update) := by
  cases update with
  | none => trivial
  | some update => trivial

theorem createUser_of_readNewUser {site : AuthSite} {users : Table UserRow} {body : Option Json}
    {random : Randomness} {row : UserRow}
    (h : readNewUser site users body random = .ok row) :
    ∃ data : CreateUserFields, createUser site users data.username data.password random.salt
      (orElse (data.displayName.getD "") data.username) data.role
      { provider := data.provider, email := data.email } = .ok row := by
  unfold readNewUser at h
  cases hbody : validateBody createUserSchema body with
  | error response =>
    rw [hbody] at h
    exact nomatch h
  | ok data =>
    rw [hbody] at h
    simp only [bind, Except.bind] at h
    split at h
    · next hrow =>
      obtain rfl := Except.ok.inj h
      exact ⟨data, hrow⟩
    · split at h
      · exact nomatch h
      · exact nomatch h
    · exact nomatch h

theorem allows_readNewUser {site : AuthSite} {s : UserStore} {body : Option Json}
    {random : Randomness} {row : UserRow}
    (h : readNewUser site s.users body random = .ok row) :
    s.Allows site.rt (.createUser row) := by
  obtain ⟨data, hrow⟩ := createUser_of_readNewUser h
  obtain ⟨happroved, hsub⟩ := createUser_eq_ok hrow
  exact ⟨happroved, .inl hsub⟩

theorem allows_write (site : AuthSite) (call : UserCall) (s : AuthState)
    (body : Option Json) (random : Randomness) :
    s.toUserStore.Allows site.rt (call.write site s body random) := by
  unfold UserCall.write
  cases call.operation with
  | create =>
    dsimp only
    split
    · next hrow => exact allows_readNewUser hrow
    · trivial
  | update =>
    dsimp only
    split
    · exact allows_updateWrite _ _ _
    · trivial
  | delete =>
    dsimp only
    split
    · next id _ => cases id <;> trivial
    · trivial
  | review =>
    dsimp only
    split
    · next data r _ =>
      unfold reviewWrite
      split
      · trivial
      · split
        · next happrove => exact allows_approveUser happrove
        · trivial
    · trivial
  | profile =>
    dsimp only
    split
    · exact allows_updateWrite _ _ _
    · trivial

/-- **Every write has been checked.** -/
theorem allows_authWrite (site : AuthSite) (s : AuthState) (a : AuthAction) :
    s.toUserStore.Allows site.rt (authWrite site s a) := by
  cases a with
  | wait seconds => trivial
  | request c => trivial
  | «begin» operation c => trivial
  | receive id body random =>
    unfold authWrite
    dsimp only
    split
    · trivial
    · exact allows_write site _ s body random
  | login body token =>
    unfold authWrite
    dsimp only
    split
    · next hlogin => exact readLogin_eq_ok hlogin
    · trivial
  | googleLogin body info token =>
    unfold authWrite
    dsimp only
    split
    · trivial
    · split
      · trivial
      · next id u hfilter =>
        obtain ⟨hfirst, hadmitted⟩ := Option.filter_eq_some_iff.mp hfilter
        exact ⟨u, hfirst, hadmitted⟩
  | logout c =>
    unfold authWrite logoutWrite
    dsimp only
    split
    · trivial
    · split <;> trivial

end MissionControl
