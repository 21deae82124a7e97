import MissionControl.AuthWrites

/-!
# Users and their Google accounts

A Google login and the approval of an access request both look for a user by
the subject of the account **or** by its address, take the one of lowest id, and
bind that one to the subject. The user whom the subject is bound to already is
taken only if no user before it has the address: otherwise the login is one of
somebody else, and two users are bound to one subject.

So no two users share a subject, and every login is one of the user its subject
is bound to, exactly as long as the first match is that user
(`authMachine_binding_iff`).
-/

namespace MissionControl

/-! ## Bindings -/

/-- The user is bound to a Google account. -/
def Bound (users : Table UserRow) (sub : String) (id : ℕ) : Prop :=
  ∃ u, users.row id = some u ∧ u.provider = "google" ∧ u.providerUserId = some sub

/-- **No two users are bound to one Google account.** -/
def UniquelyBound (users : Table UserRow) : Prop :=
  ∀ sub id id', Bound users sub id → Bound users sub id' → id = id'

/-- **A write that binds nobody to the account of another**: the user it takes
is the one that is bound to it, if there is one. -/
def BindsBound (users : Table UserRow) : AuthWrite → Prop
  | .approveUser id sub _ _ _ => ∀ subject, sub = some subject →
      ∀ id', Bound users subject id' → id' = id
  | .bindGoogle id p _ => ∀ id', Bound users p.sub id' → id' = id
  | _ => True

theorem matchesIdentity_of_bound {u : UserRow} {sub : String}
    (hprovider : u.provider = "google") (hsub : u.providerUserId = some sub)
    (email : String) : u.matchesIdentity sub email = true := by
  unfold UserRow.matchesIdentity
  simp [hprovider, hsub]

theorem UniquelyBound.mono {users users' : Table UserRow} (h : UniquelyBound users)
    (hbound : ∀ {sub : String} {id : ℕ}, Bound users' sub id → Bound users sub id) :
    UniquelyBound users' :=
  fun sub id id' hid hid' => h sub id id' (hbound hid) (hbound hid')

theorem bound_of_bound_update {users : Table UserRow} {id : ℕ} {f : UserRow → UserRow}
    (hf : ∀ u, (f u).provider = u.provider ∧ (f u).providerUserId = u.providerUserId)
    {sub : String} {id' : ℕ} (h : Bound (users.update id f) sub id') :
    Bound users sub id' := by
  obtain ⟨u', hu', hprovider, hsub⟩ := h
  rw [Table.row_update] at hu'
  split at hu'
  · next hid =>
    subst hid
    obtain ⟨u, hu, rfl⟩ := Option.map_eq_some_iff.mp hu'
    exact ⟨u, hu, (hf u).1 ▸ hprovider, (hf u).2 ▸ hsub⟩
  · exact ⟨u', hu', hprovider, hsub⟩

/-- **Binding a user to an account keeps the bindings unique exactly if nobody
else is bound to it.** -/
theorem uniquelyBound_update_iff {users : Table UserRow} (h : UniquelyBound users)
    {id : ℕ} {u : UserRow} (hu : users.row id = some u) {f : UserRow → UserRow}
    {sub : Option String}
    (hf : ∀ u, (f u).provider = "google" ∧ (f u).providerUserId = sub) :
    UniquelyBound (users.update id f)
      ↔ ∀ subject, sub = some subject → ∀ id', Bound users subject id' → id' = id := by
  have hself : ∀ subject, sub = some subject → Bound (users.update id f) subject id :=
    fun subject hsub =>
      ⟨f u, by rw [Table.row_update_self, hu]; rfl, (hf u).1, (hf u).2.trans hsub⟩
  have hother : ∀ {subject id'}, id' ≠ id →
      (Bound (users.update id f) subject id' ↔ Bound users subject id') := by
    intro subject id' hne
    unfold Bound
    rw [Table.row_update_of_ne _ _ hne]
  have hsubject : ∀ {subject}, Bound (users.update id f) subject id →
      sub = some subject := by
    rintro subject ⟨u', hu', -, hsub⟩
    rw [Table.row_update_self, hu] at hu'
    obtain rfl := Option.some.inj hu'
    exact (hf u).2.symm.trans hsub
  constructor
  · intro hunique subject hsub id' hid'
    by_contra hne
    exact hne (hunique subject id' id ((hother hne).mpr hid') (hself subject hsub))
  · intro honly subject i j hi hj
    by_cases hid : i = id <;> by_cases hjd : j = id
    · exact hid.trans hjd.symm
    · subst hid
      exact absurd (honly subject (hsubject hi) j ((hother hjd).mp hj)) hjd
    · subst hjd
      exact absurd (honly subject (hsubject hj) i ((hother hid).mp hi)) hid
    · exact h subject i j ((hother hid).mp hi) ((hother hjd).mp hj)

/-- **A write keeps the bindings unique exactly under the condition.** -/
theorem uniquelyBound_write_iff {s : UserStore} (h : UniquelyBound s.users)
    {rt : Runtime} {w : AuthWrite} (ha : s.Allows rt w) :
    UniquelyBound (s.write w).users ↔ BindsBound s.users w := by
  cases w with
  | nothing => exact iff_of_true h trivial
  | wait seconds => exact iff_of_true h trivial
  | createUser row =>
    refine iff_of_true ?_ trivial
    obtain ⟨-, hsub⟩ := ha
    -- a user who is bound to the account of the new one would have been found
    have hfresh : ∀ {subject}, row.providerUserId = some subject → ∀ id,
        ¬ Bound s.users subject id := by
      rintro subject hrow id ⟨u, hu, hprovider, hbound⟩
      rcases hsub with hnone | ⟨sub, email, hsome, hfirst⟩
      · exact nomatch hnone.symm.trans hrow
      · obtain rfl := Option.some.inj (hsome.symm.trans hrow)
        have hmiss := (s.users.first_eq_none.mp hfirst) id u hu
        rw [matchesIdentity_of_bound hprovider hbound] at hmiss
        exact nomatch hmiss
    rintro subject i j ⟨u, hu, hprovider, hi⟩ ⟨u', hu', hprovider', hj⟩
    rcases (Table.row_insert_eq_some _ _).mp hu with ⟨hid, rfl⟩ | hold <;>
      rcases (Table.row_insert_eq_some _ _).mp hu' with ⟨hid', rfl⟩ | hold'
    · exact hid.trans hid'.symm
    · exact absurd ⟨u', hold', hprovider', hj⟩ (hfresh hi j)
    · exact absurd ⟨u, hold, hprovider, hi⟩ (hfresh hj i)
    · exact h subject i j ⟨u, hold, hprovider, hi⟩ ⟨u', hold', hprovider', hj⟩
  | updateUser id update =>
    exact iff_of_true
      (h.mono (bound_of_bound_update (f := update.apply) fun _ => ⟨rfl, rfl⟩)) trivial
  | deleteUser id =>
    refine iff_of_true (h.mono ?_) trivial
    rintro sub id' ⟨u, hu, hbound⟩
    exact ⟨u, ((s.users.row_deleteWhere_eq_some _).mp hu).1, hbound⟩
  | approveUser id sub email avatarUrl role =>
    obtain ⟨u, hfirst⟩ := ha
    exact uniquelyBound_update_iff h (s.users.first_eq_some.mp hfirst).1
      (fun _ => ⟨rfl, rfl⟩)
  | createSession userId token =>
    refine iff_of_true ?_ trivial
    rw [UserStore.write, users_openSession]
    exact h
  | bindGoogle userId p token =>
    obtain ⟨u, hfirst, -⟩ := ha
    rw [UserStore.write, users_openSession]
    refine (uniquelyBound_update_iff h (s.users.first_eq_some.mp hfirst).1
      (f := fun u => u.bindGoogle p) (fun _ => ⟨rfl, rfl⟩)).trans ?_
    exact ⟨fun honly => honly p.sub rfl, fun honly _ hsub => Option.some.inj hsub ▸ honly⟩
  | destroySession token => exact iff_of_true h trivial

/-! ## Logins -/

/-- Whether a user may log in with Google: the user is approved, and the token
for the session is not the one of another. -/
def MayLogIn (rt : Runtime) (s : UserStore) (id : ℕ) (token : SessionToken) : Prop :=
  (∃ u, s.users.row id = some u ∧ u.admitted rt) ∧ ¬ s.TokenTaken token

def AuthEvent.loggedInId : AuthEvent → Option ℕ
  | .loggedIn id _ => some id
  | _ => none

def loggedIn (site : AuthSite) (s : AuthState) (a : AuthAction) : List ℕ :=
  ((authMachine site).emits s a).filterMap AuthEvent.loggedInId

/-- **A Google login authenticates the user that its subject is bound to**, if
there is one: nobody else, and that user if the user may log in. -/
def LogsInBound (site : AuthSite) (s : AuthState) : AuthAction → Prop
  | .googleLogin body info token =>
    ∀ p id, googleProfile site body info = .ok p → Bound s.users p.sub id →
      (∀ id' ∈ loggedIn site s (.googleLogin body info token), id' = id)
        ∧ (MayLogIn site.rt s.toUserStore id token →
          id ∈ loggedIn site s (.googleLogin body info token))
  | _ => True

/-- Where a Google login finds a user who is not approved, the one that its
subject is bound to may not log in either. -/
def RefusesBound (site : AuthSite) (s : AuthState) : AuthAction → Prop
  | .googleLogin body info token =>
    ∀ p found, googleProfile site body info = .ok p → googleUser s.users p = some found →
      found.2.admitted site.rt = false →
      ∀ id, Bound s.users p.sub id → ¬ MayLogIn site.rt s.toUserStore id token
  | _ => True

/-- **The first match of an identity is the user its subject is bound to.** -/
def TakesBound (site : AuthSite) (s : AuthState) (a : AuthAction) : Prop :=
  BindsBound s.users (authWrite site s a) ∧ RefusesBound site s a

theorem googleUser_isSome {users : Table UserRow} {p : GoogleProfile} {id : ℕ}
    (h : Bound users p.sub id) : ∃ found, googleUser users p = some found := by
  obtain ⟨u, hu, hprovider, hsub⟩ := h
  cases hfirst : googleUser users p with
  | some found => exact ⟨found, rfl⟩
  | none =>
    have hmiss := users.first_eq_none.mp hfirst id u hu
    rw [matchesIdentity_of_bound hprovider hsub] at hmiss
    exact nomatch hmiss

/-- A login that finds an approved user logs that one in, unless the token is
taken. -/
theorem loggedIn_of_admitted {site : AuthSite} {s : AuthState} {body : Option Json}
    {info : TokenInfo} {token : SessionToken} {p : GoogleProfile} {id : ℕ} {u : UserRow}
    (hp : googleProfile site body info = .ok p) (hfound : googleUser s.users p = some (id, u))
    (hu : u.admitted site.rt = true) :
    loggedIn site s (.googleLogin body info token)
      = if s.sessions.any (fun r => r.token = token) then [] else [id] := by
  have hfilter : (googleUser s.users p).filter (fun r => r.2.admitted site.rt)
      = some (id, u) := Option.filter_eq_some_iff.mpr ⟨hfound, hu⟩
  simp only [loggedIn, Machine.emits, authMachine, googleLogin, hp, loginGoogle, hfilter,
    createSession]
  cases s.sessions.any (fun r => r.token = token) with
  | false => rfl
  | true => rfl

theorem loggedIn_of_refused {site : AuthSite} {s : AuthState} {body : Option Json}
    {info : TokenInfo} {token : SessionToken} {p : GoogleProfile} {found : ℕ × UserRow}
    (hp : googleProfile site body info = .ok p) (hfound : googleUser s.users p = some found)
    (hu : found.2.admitted site.rt = false) :
    loggedIn site s (.googleLogin body info token) = [] := by
  have hfilter : (googleUser s.users p).filter (fun r => r.2.admitted site.rt) = none := by
    rw [hfound]
    simp [hu]
  simp only [loggedIn, Machine.emits, authMachine, googleLogin, hp, loginGoogle, hfilter]
  rfl

theorem authWrite_googleLogin {site : AuthSite} {s : AuthState} {body : Option Json}
    {info : TokenInfo} {token : SessionToken} {p : GoogleProfile} {id : ℕ} {u : UserRow}
    (hp : googleProfile site body info = .ok p) (hfound : googleUser s.users p = some (id, u))
    (hu : u.admitted site.rt = true) :
    authWrite site s (.googleLogin body info token) = .bindGoogle id p token := by
  have hfilter : (googleUser s.users p).filter (fun r => r.2.admitted site.rt)
      = some (id, u) := Option.filter_eq_some_iff.mpr ⟨hfound, hu⟩
  simp only [authWrite, hp, hfilter]

/-- **A Google login is the one of the bound user exactly if the bound user is
the first match**, as far as it binds at all. -/
theorem logsInBound_googleLogin_iff {site : AuthSite} {s : AuthState}
    {body : Option Json} {info : TokenInfo} {token : SessionToken}
    (hbinds : BindsBound s.users (authWrite site s (.googleLogin body info token))) :
    LogsInBound site s (.googleLogin body info token)
      ↔ RefusesBound site s (.googleLogin body info token) := by
  constructor
  · intro hlogs p found hp hfound hrefused id hid hmay
    have hmem := (hlogs p id hp hid).2 hmay
    rw [loggedIn_of_refused hp hfound hrefused] at hmem
    exact absurd hmem List.not_mem_nil
  · intro hrefuses p id hp hid
    obtain ⟨⟨id', u'⟩, hfound⟩ := googleUser_isSome hid
    cases hu' : u'.admitted site.rt with
    | false =>
      rw [loggedIn_of_refused hp hfound hu']
      exact ⟨fun _ hmem => absurd hmem List.not_mem_nil,
        fun hmay => absurd hmay (hrefuses p (id', u') hp hfound hu' id hid)⟩
    | true =>
      rw [authWrite_googleLogin hp hfound hu'] at hbinds
      obtain rfl := hbinds id hid
      rw [loggedIn_of_admitted hp hfound hu']
      refine ⟨?_, fun hmay => ?_⟩
      · split <;> simp
      · have hfree := hmay.2
        unfold UserStore.TokenTaken at hfree
        rw [if_neg hfree]
        exact List.mem_singleton_self _

theorem binding_step_iff {site : AuthSite} {s : AuthState} (h : UniquelyBound s.users)
    (a : AuthAction) :
    UniquelyBound ((authMachine site).next s a).users ∧ LogsInBound site s a
      ↔ TakesBound site s a := by
  have hnext := congrArg UserStore.users (toUserStore_next site s a)
  rw [hnext, uniquelyBound_write_iff h (allows_authWrite site s a)]
  refine and_congr_right fun hbinds => ?_
  cases a with
  | googleLogin body info token => exact logsInBound_googleLogin_iff hbinds
  | wait | request | «begin» | receive | login | logout => exact Iff.rfl

/-- **No two users share a Google account, and every Google login is one of the
user the account is bound to, exactly as long as that user is the first match**
of every login and every approval. -/
theorem authMachine_binding_iff (site : AuthSite) (salt : String) (now : ℕ)
    (as : List AuthAction) :
    (authMachine site).Always (fun s => UniquelyBound s.users)
          (AuthState.initial site salt now) as
        ∧ (authMachine site).EachStep (LogsInBound site) (AuthState.initial site salt now) as
      ↔ (authMachine site).EachStep (TakesBound site)
        (AuthState.initial site salt now) as := by
  refine (authMachine site).always_and_eachStep_iff (J := fun _ => True) trivial
    (fun _ _ _ => trivial) ?_ (fun s a _ h => binding_step_iff h a) as
  rintro sub id id' ⟨u, hu, hprovider, -⟩ -
  rcases (Table.row_insert_eq_some _ _).mp hu with ⟨-, rfl⟩ | hold
  · have hlocal : "local" = "google" := hprovider
    exact absurd hlocal (by decide)
  · exact nomatch hold

/-- What Google says of the account `S1`. -/
def sampleInfo : TokenInfo :=
  .payload (.obj [("sub", .str "S1"), ("email", .str "bob@example.com"),
    ("email_verified", .bool true)])

/-- A login with that account. -/
def sampleGoogleLogin (token : SessionToken) : AuthAction :=
  .googleLogin (some (.obj [("credential", .str "jwt")])) sampleInfo token

/-- The account `S1` is bound to the user 2, whose address the user 1 is then
given, too. -/
def sampleTakeover : List AuthAction :=
  let admin : Credentials := ⟨some sampleToken.text, none⟩
  [.login (some (.obj [("username", .str "admin"), ("password", .str "admin")]))
      sampleToken,
    sampleGoogleLogin ⟨"first", by decide⟩,
    .begin .review admin,
    .receive 1 (some (.obj [("request_id", .ofNat 1), ("action", .str "approve")]))
      ⟨"salt", "correct horse battery"⟩,
    .begin .update admin,
    .receive 2 (some (.obj [("id", .ofNat 1), ("email", .str "bob@example.com")]))
      ⟨"", ""⟩]

/-- **The login of the user 2 is one of the administrator**, who is then bound
to the account as well. -/
theorem not_binding_sampleTakeover :
    ¬ (authMachine sampleAuthSite).Always (fun s => UniquelyBound s.users)
        (AuthState.initial sampleAuthSite "salt" 0)
        (sampleTakeover ++ [sampleGoogleLogin ⟨"second", by decide⟩])
      ∧ ¬ (authMachine sampleAuthSite).EachStep (LogsInBound sampleAuthSite)
        (AuthState.initial sampleAuthSite "salt" 0)
        (sampleTakeover ++ [sampleGoogleLogin ⟨"second", by decide⟩]) := by
  -- whom the account is bound to, before the last login and after it
  have hbound : ∀ {as : List AuthAction} {id : ℕ},
      ((((authMachine sampleAuthSite).state
        (AuthState.initial sampleAuthSite "salt" 0) as).users.row id).map
        fun u => (u.provider, u.providerUserId)) = some ("google", some "S1") →
      Bound ((authMachine sampleAuthSite).state
        (AuthState.initial sampleAuthSite "salt" 0) as).users "S1" id := by
    intro as id hrow
    obtain ⟨u, hu, heq⟩ := Option.map_eq_some_iff.mp hrow
    obtain ⟨hprovider, hsub⟩ := Prod.mk.inj heq
    exact ⟨u, hu, hprovider, hsub⟩
  constructor
  · intro h
    have hunique := h _ (List.prefix_refl _)
    have hsame := hunique "S1" 1 2 (hbound (by decide +kernel)) (hbound (by decide +kernel))
    exact absurd hsame (by decide)
  · intro h
    have hstep := h sampleTakeover _ (List.prefix_refl _)
    have hlogs := hstep ⟨"S1", "bob@example.com", "bob", none⟩ 2 (by rfl)
      (hbound (by decide +kernel))
    have hadmin := hlogs.1 1 (by decide +kernel)
    exact absurd hadmin (by decide)

end MissionControl
