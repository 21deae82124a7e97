import MissionControl.AuthWrites

/-!
# Sessions of users whose approval is gone

Both logins check that a user is approved; the cookie of a session is then
taken without that check. Deleting a user ends the sessions of the user, taking
the approval away does not. So a request is authenticated only as an approved
user exactly as long as the approval of nobody is taken away who has a session
(`authMachine_lawful_iff`).

A login with Google reads `is_approved` as a number where the column may hold a
text: a user of approval `'0x1'` is let in by it.
-/

namespace MissionControl

/-! ## Sessions and their users -/

def UserStore.Live (s : UserStore) (r : SessionRow) : Prop :=
  (∃ id, s.sessions.row id = some r) ∧ s.clock < r.expiresAt

/-- **Whom a session cookie speaks for**: a request that is authenticated by it
as a user has a session that has not expired, and the user is approved. -/
def Lawful (s : UserStore) : Prop :=
  ∀ token user, validateSession s token = some user →
    (∃ u, s.users.row user.id = some u ∧ u.isApproved = .number (.finite 1))
      ∧ ∃ r, s.Live r ∧ r.token.text = token ∧ r.userId = user.id

/-- **No two sessions have one token**, and each has a user. -/
structure SessionsOwned (s : UserStore) : Prop where
  token_inj : ∀ {i j : ℕ} {r r' : SessionRow}, s.sessions.row i = some r →
    s.sessions.row j = some r' → r.token = r'.token → i = j
  owner : ∀ {i : ℕ} {r : SessionRow}, s.sessions.row i = some r →
    ∃ u, s.users.row r.userId = some u

theorem validateSession_sound {s : UserStore} {token : String} {user : User}
    (h : validateSession s token = some user) :
    ∃ r u, s.Live r ∧ r.token.text = token ∧ s.users.row r.userId = some u
      ∧ user = u.sessionUser r.userId := by
  unfold validateSession at h
  split at h
  · exact nomatch h
  · obtain ⟨⟨id, r⟩, hmem, hr⟩ := List.exists_of_findSome?_eq_some h
    obtain ⟨hrow, hlive⟩ := List.mem_filter.mp hmem
    obtain ⟨u, hu, rfl⟩ := Option.map_eq_some_iff.mp hr
    obtain ⟨htoken, hexpires⟩ := of_decide_eq_true hlive
    exact ⟨r, u, ⟨⟨id, s.sessions.mem_rows.mp hrow⟩, hexpires⟩, htoken, hu, rfl⟩

theorem validateSession_live {s : UserStore} (h : SessionsOwned s) {r : SessionRow}
    (hr : s.Live r) {u : UserRow} (hu : s.users.row r.userId = some u) :
    validateSession s r.token.text = some (u.sessionUser r.userId) := by
  obtain ⟨⟨id, hrow⟩, hexpires⟩ := hr
  cases hvalid : validateSession s r.token.text with
  | some user =>
    obtain ⟨r', u', ⟨⟨id', hrow'⟩, -⟩, htoken, hu', rfl⟩ := validateSession_sound hvalid
    obtain rfl := h.token_inj hrow' hrow (SessionToken.ext htoken)
    obtain rfl := Option.some.inj (hrow.symm.trans hrow')
    obtain rfl := Option.some.inj (hu.symm.trans hu')
    rfl
  | none =>
    -- the session itself is among those that are looked through
    unfold validateSession at hvalid
    rw [if_neg r.token.nonempty, List.findSome?_eq_none_iff] at hvalid
    have hnone := hvalid (id, r) (List.mem_filter.mpr
      ⟨s.sessions.mem_rows.mpr hrow, decide_eq_true ⟨rfl, hexpires⟩⟩)
    rw [hu] at hnone
    exact nomatch hnone

/-- Whoever has a session that has not expired is approved. -/
def LiveApproved (s : UserStore) : Prop :=
  ∀ r u, s.Live r → s.users.row r.userId = some u → u.isApproved = .number (.finite 1)

theorem lawful_iff {s : UserStore} (h : SessionsOwned s) : Lawful s ↔ LiveApproved s := by
  constructor
  · intro hlawful r u hr hu
    obtain ⟨⟨u', hu', happroved⟩, -⟩ :=
      hlawful r.token.text _ (validateSession_live h hr hu)
    obtain rfl := Option.some.inj (hu.symm.trans hu')
    exact happroved
  · intro happroved token user hvalid
    obtain ⟨r, u, hr, htoken, hu, rfl⟩ := validateSession_sound hvalid
    exact ⟨⟨u, hu, happroved r u hr hu⟩, r, hr, htoken, rfl⟩

/-! ## What a write does to sessions -/

/-- **The sessions after a login**: those there were, and a new one under a
token that none of them has. -/
theorem row_openSession {s : UserStore} {userId : ℕ} {token : SessionToken} {id : ℕ}
    {r : SessionRow} (h : (openSession s userId token).sessions.row id = some r) :
    s.sessions.row id = some r
      ∨ (id = s.sessions.next ∧ r = ⟨token, userId, s.clock + SESSION_DURATION⟩
        ∧ ¬ s.TokenTaken token) := by
  by_cases htaken : s.TokenTaken token
  · rw [openSession_of_taken htaken] at h
    exact .inl h
  · rw [openSession_of_not_taken htaken] at h
    have hrow := (Table.row_deleteWhere_eq_some _ _).mp h
    rcases (Table.row_insert_eq_some _ _).mp hrow.1 with ⟨hid, hr⟩ | hold
    · exact .inr ⟨hid, hr, htaken⟩
    · exact .inl hold

theorem token_ne_of_not_taken {s : UserStore} {token : SessionToken}
    (h : ¬ s.TokenTaken token) {id : ℕ} {r : SessionRow}
    (hr : s.sessions.row id = some r) : r.token ≠ token := by
  unfold UserStore.TokenTaken at h
  have hnone := (s.sessions.any_eq_false_iff _).mp (Bool.not_eq_true _ ▸ h) id r hr
  simpa using hnone

theorem SessionsOwned.mono {s s' : UserStore} (h : SessionsOwned s)
    (hsessions : ∀ {id : ℕ} {r : SessionRow}, s'.sessions.row id = some r →
      s.sessions.row id = some r)
    (husers : ∀ {id : ℕ} {r : SessionRow}, s'.sessions.row id = some r →
      ∀ {u : UserRow}, s.users.row r.userId = some u →
      ∃ u', s'.users.row r.userId = some u') : SessionsOwned s' where
  token_inj hr hr' heq := h.token_inj (hsessions hr) (hsessions hr') heq
  owner hr := by
    obtain ⟨u, hu⟩ := h.owner (hsessions hr)
    exact husers hr hu

theorem row_update_isSome (t : Table UserRow) (id : ℕ) (f : UserRow → UserRow) {id' : ℕ}
    {u : UserRow} (h : t.row id' = some u) : ∃ u', (t.update id f).row id' = some u' := by
  rw [Table.row_update]
  split
  · next hid =>
    subst hid
    exact ⟨f u, by rw [h]; rfl⟩
  · exact ⟨u, h⟩

theorem SessionsOwned.openSession {s : UserStore} (h : SessionsOwned s) {userId : ℕ}
    {u : UserRow} (hu : s.users.row userId = some u) (token : SessionToken) :
    SessionsOwned (openSession s userId token) where
  token_inj hr hr' heq := by
    rcases row_openSession hr with hold | ⟨hid, rfl, hfree⟩ <;>
      rcases row_openSession hr' with hold' | ⟨hid', rfl, hfree'⟩
    · exact h.token_inj hold hold' heq
    · exact absurd heq (token_ne_of_not_taken hfree' hold)
    · exact absurd heq.symm (token_ne_of_not_taken hfree hold')
    · exact hid.trans hid'.symm
  owner hr := by
    rw [users_openSession]
    rcases row_openSession hr with hold | ⟨-, rfl, -⟩
    · exact h.owner hold
    · exact ⟨u, hu⟩

/-- **Every write keeps the sessions owned.** -/
theorem SessionsOwned.write {s : UserStore} (h : SessionsOwned s) {rt : Runtime}
    {w : AuthWrite} (ha : s.Allows rt w) : SessionsOwned (s.write w) := by
  cases w with
  | nothing => exact h
  | wait seconds => exact h.mono id (fun _ _ hu => ⟨_, hu⟩)
  | createUser row =>
    exact h.mono id (fun _ _ hu => ⟨_, s.users.row_insert_of_some row hu⟩)
  | updateUser userId update =>
    exact h.mono id (fun _ _ hu => row_update_isSome s.users userId _ hu)
  | deleteUser userId =>
    refine h.mono (fun hr => ((s.sessions.row_deleteWhere_eq_some _).mp hr).1) ?_
    intro i r hr u hu
    obtain ⟨-, hother⟩ := (s.sessions.row_deleteWhere_eq_some _).mp hr
    exact ⟨u, (s.users.row_deleteWhere_eq_some _).mpr ⟨hu, hother⟩⟩
  | approveUser userId sub email avatarUrl role =>
    exact h.mono id (fun _ _ hu => row_update_isSome s.users userId _ hu)
  | createSession userId token =>
    obtain ⟨u, hu, -⟩ := ha
    exact h.openSession hu token
  | bindGoogle userId p token =>
    obtain ⟨u, hfirst, -⟩ := ha
    obtain ⟨u', hu'⟩ := row_update_isSome s.users userId (fun u => u.bindGoogle p)
      ((s.users.first_eq_some).mp hfirst).1
    refine SessionsOwned.openSession ?_ hu' token
    exact h.mono id (fun _ _ hu => row_update_isSome s.users userId _ hu)
  | destroySession token =>
    exact h.mono (fun hr => ((s.sessions.row_deleteWhere_eq_some _).mp hr).1)
      (fun _ _ hu => ⟨_, hu⟩)

/-! ## What a write does to approvals -/

/-- **A write that takes the approval of nobody who has a session, and creates
none for anybody unapproved.** -/
def UserStore.KeepsApproval (s : UserStore) : AuthWrite → Prop
  | .updateUser id update =>
    ∀ v, update.isApproved = some v → v ≠ .number (.finite 1) →
      ∀ r, s.Live r → r.userId ≠ id
  | .bindGoogle id _ token =>
    ¬ s.TokenTaken token →
      ∀ u, s.users.row id = some u → u.isApproved = .number (.finite 1)
  | _ => True

/-- A session that is live after a login was so before, or is the new one. -/
theorem live_openSession {s : UserStore} {userId : ℕ} {token : SessionToken}
    {r : SessionRow} (h : (openSession s userId token).Live r) :
    s.Live r ∨ (r.userId = userId ∧ ¬ s.TokenTaken token) := by
  obtain ⟨⟨id, hrow⟩, hexpires⟩ := h
  rw [clock_openSession] at hexpires
  rcases row_openSession hrow with hold | ⟨-, rfl, hfree⟩
  · exact .inl ⟨⟨id, hold⟩, hexpires⟩
  · exact .inr ⟨rfl, hfree⟩

theorem live_openSession_new {s : UserStore} {token : SessionToken}
    (h : ¬ s.TokenTaken token) (userId : ℕ) :
    (openSession s userId token).Live ⟨token, userId, s.clock + SESSION_DURATION⟩ := by
  have hpos : 0 < SESSION_DURATION := by decide
  refine ⟨⟨s.sessions.next, ?_⟩, ?_⟩
  · rw [openSession_of_not_taken h]
    refine (Table.row_deleteWhere_eq_some _ _).mpr ⟨Table.row_insert_next _ _, ?_⟩
    simp
  · rw [clock_openSession]
    exact Nat.lt_add_of_pos_right hpos

/-- The users of a login stay approved, and the one who logs in is approved. -/
theorem LiveApproved.openSession {s : UserStore} (h : LiveApproved s) {userId : ℕ}
    {token : SessionToken}
    (hu : ¬ s.TokenTaken token →
      ∀ u, s.users.row userId = some u → u.isApproved = .number (.finite 1)) :
    LiveApproved (openSession s userId token) := by
  intro r u hr hrow
  rw [users_openSession] at hrow
  rcases live_openSession hr with hlive | ⟨rfl, hfree⟩
  · exact h r u hlive hrow
  · exact hu hfree u hrow

/-- Whoever has a session stays approved where the users stay so and no session
is added. -/
theorem LiveApproved.mono {s s' : UserStore} (h : LiveApproved s)
    (hlive : ∀ {r : SessionRow}, s'.Live r → s.Live r)
    (husers : ∀ {r : SessionRow} {u' : UserRow}, s'.Live r →
      s'.users.row r.userId = some u' → u'.isApproved = .number (.finite 1)
        ∨ ∃ u, s.users.row r.userId = some u ∧ u'.isApproved = u.isApproved) :
    LiveApproved s' := by
  intro r u' hr hu'
  rcases husers hr hu' with happroved | ⟨u, hu, heq⟩
  · exact happroved
  · rw [heq]
    exact h r u (hlive hr) hu

theorem row_update_approved {t : Table UserRow} {userId : ℕ} {f : UserRow → UserRow}
    (hf : ∀ u, (f u).isApproved = .number (.finite 1) ∨ (f u).isApproved = u.isApproved)
    {id : ℕ} {u' : UserRow} (h : (t.update userId f).row id = some u') :
    u'.isApproved = .number (.finite 1)
      ∨ ∃ u, t.row id = some u ∧ u'.isApproved = u.isApproved := by
  rw [Table.row_update] at h
  split at h
  · next hid =>
    subst hid
    obtain ⟨u, hu, rfl⟩ := Option.map_eq_some_iff.mp h
    rcases hf u with happroved | heq
    · exact .inl happroved
    · exact .inr ⟨u, hu, heq⟩
  · exact .inr ⟨u', h, rfl⟩

/-- An update keeps the approval of whoever has a session exactly if it sets
none of them to another value. -/
theorem liveApproved_updateUser_iff {s : UserStore} (h : SessionsOwned s)
    (hl : LiveApproved s) (userId : ℕ) (update : UserUpdate) :
    LiveApproved (s.write (.updateUser userId update))
      ↔ s.KeepsApproval (.updateUser userId update) := by
  constructor
  · rintro hafter v hv hne r hr rfl
    obtain ⟨⟨id, hrow⟩, hexpires⟩ := hr
    obtain ⟨u, hu⟩ := h.owner hrow
    have hrow' : (s.users.update r.userId update.apply).row r.userId
        = some (update.apply u) := by
      rw [Table.row_update_self, hu]
      rfl
    have happroved := hafter r _ ⟨⟨id, hrow⟩, hexpires⟩ hrow'
    rw [UserUpdate.apply, hv] at happroved
    exact hne happroved
  · intro hkeeps r u' hr hu'
    have hold : s.Live r := hr
    rw [UserStore.write, Table.row_update] at hu'
    split at hu'
    · next hid =>
      obtain ⟨u, hu, rfl⟩ := Option.map_eq_some_iff.mp hu'
      cases hv : update.isApproved with
      | none =>
        rw [UserUpdate.apply, hv]
        exact hl r u hold (hid ▸ hu)
      | some v =>
        rw [UserUpdate.apply, hv]
        by_contra hne
        exact hkeeps v hv hne r hold hid
    · exact hl r u' hold hu'

/-- A Google login creates a session exactly of the user it takes for its own. -/
theorem liveApproved_bindGoogle_iff {s : UserStore} (hl : LiveApproved s) (userId : ℕ)
    (p : GoogleProfile) (token : SessionToken) :
    LiveApproved (s.write (.bindGoogle userId p token))
      ↔ s.KeepsApproval (.bindGoogle userId p token) := by
  have hbound : LiveApproved
      { s with users := s.users.update userId (fun u => u.bindGoogle p) } :=
    hl.mono id (fun _ hu' =>
      row_update_approved (f := fun u => u.bindGoogle p) (fun _ => .inr rfl) hu')
  constructor
  · intro hafter hfree u hu
    refine hafter ⟨token, userId, s.clock + SESSION_DURATION⟩ (u.bindGoogle p)
      (live_openSession_new
        (s := { s with users := s.users.update userId (fun u => u.bindGoogle p) })
        hfree userId) ?_
    rw [UserStore.write, users_openSession, Table.row_update_self, hu]
    rfl
  · intro hkeeps
    refine hbound.openSession ?_
    intro hfree u' hu'
    rw [Table.row_update_self] at hu'
    obtain ⟨u, hu, rfl⟩ := Option.map_eq_some_iff.mp hu'
    exact hkeeps hfree u hu

/-- **A write keeps whoever has a session approved exactly under the
condition.** -/
theorem liveApproved_write_iff {s : UserStore} (h : SessionsOwned s)
    (hl : LiveApproved s) {rt : Runtime} {w : AuthWrite} (ha : s.Allows rt w) :
    LiveApproved (s.write w) ↔ s.KeepsApproval w := by
  cases w with
  | nothing => exact iff_of_true hl trivial
  | wait seconds =>
    refine iff_of_true (hl.mono ?_ (fun _ hu => .inr ⟨_, hu, rfl⟩)) trivial
    exact fun hr => ⟨hr.1, Nat.lt_of_le_of_lt (Nat.le_add_right _ _) hr.2⟩
  | createUser row =>
    refine iff_of_true (hl.mono id ?_) trivial
    intro r u' _ hu'
    rcases (Table.row_insert_eq_some _ _).mp hu' with ⟨-, rfl⟩ | hold
    · exact .inl ha.1
    · exact .inr ⟨u', hold, rfl⟩
  | updateUser userId update => exact liveApproved_updateUser_iff h hl userId update
  | deleteUser userId =>
    refine iff_of_true (hl.mono ?_ ?_) trivial
    · rintro r ⟨⟨id, hr⟩, hexpires⟩
      exact ⟨⟨id, ((s.sessions.row_deleteWhere_eq_some _).mp hr).1⟩, hexpires⟩
    · intro r u' _ hu'
      exact .inr ⟨u', ((s.users.row_deleteWhere_eq_some _).mp hu').1, rfl⟩
  | approveUser userId sub email avatarUrl role =>
    refine iff_of_true (hl.mono id ?_) trivial
    exact fun _ hu' => row_update_approved (fun _ => .inl rfl) hu'
  | createSession userId token =>
    obtain ⟨u, hu, happroved⟩ := ha
    refine iff_of_true (hl.openSession fun _ u' hu' => ?_) trivial
    obtain rfl := Option.some.inj (hu.symm.trans hu')
    exact happroved
  | bindGoogle userId p token => exact liveApproved_bindGoogle_iff hl userId p token
  | destroySession token =>
    refine iff_of_true (hl.mono ?_ (fun _ hu => .inr ⟨_, hu, rfl⟩)) trivial
    rintro r ⟨⟨id, hr⟩, hexpires⟩
    exact ⟨⟨id, ((s.sessions.row_deleteWhere_eq_some _).mp hr).1⟩, hexpires⟩

/-! ## Runs -/

theorem sessionsOwned_initial (site : AuthSite) (salt : String) (now : ℕ) :
    SessionsOwned (AuthState.initial site salt now).toUserStore where
  token_inj hr := nomatch hr
  owner hr := nomatch hr

theorem sessionsOwned_next {site : AuthSite} {s : AuthState}
    (h : SessionsOwned s.toUserStore) (a : AuthAction) :
    SessionsOwned ((authMachine site).next s a).toUserStore := by
  rw [toUserStore_next]
  exact h.write (allows_authWrite site s a)

/-- **Requests are authenticated only as approved users, by sessions that have
not expired, exactly as long as nobody who has a session loses the approval**,
and every Google login is one of a user whose approval is the number 1. -/
theorem authMachine_lawful_iff (site : AuthSite) (salt : String) (now : ℕ)
    (as : List AuthAction) :
    (authMachine site).Always (fun s => Lawful s.toUserStore)
        (AuthState.initial site salt now) as
      ↔ (authMachine site).EachStep
        (fun s a => s.toUserStore.KeepsApproval (authWrite site s a))
        (AuthState.initial site salt now) as := by
  refine (authMachine site).always_iff_eachStep
    (J := fun s => SessionsOwned s.toUserStore) (sessionsOwned_initial site salt now)
    (fun s a h => sessionsOwned_next h a) ?_ ?_ as
  · rw [lawful_iff (sessionsOwned_initial site salt now)]
    exact fun r _ hr => nomatch hr.1.choose_spec
  · intro s a h hlawful
    rw [lawful_iff (sessionsOwned_next h a), toUserStore_next]
    exact liveApproved_write_iff h ((lawful_iff h).mp hlawful) (allows_authWrite site s a)

/-- The user `bob` logs in, and then his approval is taken away. -/
def sampleRevocation : List AuthAction :=
  let admin : Credentials := ⟨some sampleToken.text, none⟩
  [.login (some (.obj [("username", .str "admin"), ("password", .str "admin")]))
      sampleToken,
    .begin .create admin,
    .receive 1 (some (.obj [("username", .str "bob"),
      ("password", .str "correct horse")])) ⟨"salt", ""⟩,
    .login (some (.obj [("username", .str "bob"), ("password", .str "correct horse")]))
      ⟨"bob", by decide⟩,
    .begin .update admin,
    .receive 2 (some (.obj [("id", .ofNat 2), ("is_approved", .ofNat 0)])) ⟨"", ""⟩]

/-- **Bob's requests go on being served**: taking the approval away does not end
a session. -/
theorem not_lawful_sampleRevocation :
    ¬ (authMachine sampleAuthSite).Always (fun s => Lawful s.toUserStore)
      (AuthState.initial sampleAuthSite "salt" 0) sampleRevocation := by
  intro h
  have hlawful := h sampleRevocation (List.prefix_refl _)
  have hvalid : ((validateSession ((authMachine sampleAuthSite).state
      (AuthState.initial sampleAuthSite "salt" 0) sampleRevocation).toUserStore
      "bob").map User.id) = some 2 := by decide +kernel
  obtain ⟨user, huser, hid⟩ := Option.map_eq_some_iff.mp hvalid
  obtain ⟨⟨u, hu, happroved⟩, -⟩ := hlawful "bob" user huser
  rw [hid] at hu
  have hrow := congrArg (Option.map UserRow.isApproved) hu
  rw [Option.map_some, happroved] at hrow
  exact absurd hrow (by decide +kernel)

end MissionControl
