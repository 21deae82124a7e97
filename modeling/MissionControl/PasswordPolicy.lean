import MissionControl.AuthWrites

/-!
# The password policy

`createUser` takes no password of fewer than 12 characters, and every new user goes through
it. `updateUser` hashes whatever it is given: the own profile asks for 8 characters, and the
user administration for none (`not_followsPolicy_sampleChange`). The administration also
binds the display name unchecked, in front of the hash: a list there moves another value
into its column.

As long as neither happens, every stored hash is the hash of 12 characters or more
(`authMachine_followsPolicy`).
-/

namespace MissionControl

/-- **A hash that follows the policy**: it was computed from at least 12 characters. -/
def PolicyHash (site : AuthSite) (hash : String) : Prop :=
  ∃ password salt, 12 ≤ utf16Length password ∧ hash = hashPassword site password salt

/-- **Every stored hash follows the policy.** -/
def FollowsPolicy (site : AuthSite) (users : Table UserRow) : Prop :=
  ∀ id u, users.row id = some u → PolicyHash site u.passwordHash

/-- The value is bound as one parameter, if it is bound at all: it is no object, and no list
but of one element. -/
def BoundAsOne (x : Option Json) : Prop :=
  ∀ values, SqlValue.bindParameter x = .ok values → values.length = 1

/-- **A password that is set is long enough**, and bound in its place: the display name in
front of it is one value. -/
def SetsLongPassword (body : Option Json) (key : String) : Prop :=
  (∀ password, Json.get? body key = some (.str password) → 12 ≤ utf16Length password)
    ∧ ∀ name, Json.get? body "display_name" = some name → BoundAsOne (some name)

/-- **An action that follows the policy**: if it is an update that sets a hash, the password
is long enough. -/
def WithinPolicy (site : AuthSite) (s : AuthState) : AuthAction → Prop
  | .receive id body random =>
    ∀ call, s.calls.row id = some call →
      ∀ i update hash, call.write site s body random = .updateUser i update →
        update.passwordHash = some hash →
          match call.operation with
          | .update => SetsLongPassword body "password"
          | .profile => SetsLongPassword body "new_password"
          | _ => True
  | _ => True

/-! ## What is written -/

/-- **A write that follows the policy.** -/
def AuthWrite.KeepsPolicy (site : AuthSite) : AuthWrite → Prop
  | .createUser row => PolicyHash site row.passwordHash
  | .updateUser _ update => ∀ hash, update.passwordHash = some hash → PolicyHash site hash
  | _ => True

/-- **What follows the policy keeps it.** -/
theorem followsPolicy_write {site : AuthSite} {s : UserStore} {w : AuthWrite}
    (h : FollowsPolicy site s.users) (hw : w.KeepsPolicy site) :
    FollowsPolicy site (s.write w).users := by
  have hupdate : ∀ (id : ℕ) (f : UserRow → UserRow),
      (∀ u, s.users.row id = some u → PolicyHash site (f u).passwordHash) →
      FollowsPolicy site (s.users.update id f) := by
    intro id f hf id' u hu
    rw [Table.row_update] at hu
    split at hu
    · obtain ⟨u', hu', rfl⟩ := Option.map_eq_some_iff.mp hu
      exact hf u' hu'
    · exact h id' u hu
  cases w with
  | nothing => exact h
  | wait seconds => exact h
  | createUser row =>
    intro id u hu
    obtain ⟨-, rfl⟩ | hu := (s.users.row_insert_eq_some row).mp hu
    · exact hw
    · exact h id u hu
  | updateUser id update =>
    refine hupdate id update.apply fun u hu => ?_
    show PolicyHash site (update.passwordHash.getD u.passwordHash)
    cases hhash : update.passwordHash with
    | none => exact h id u hu
    | some hash => exact hw hash hhash
  | deleteUser id =>
    intro id' u hu
    exact h id' u ((s.users.row_deleteWhere_eq_some _).mp hu).1
  | approveUser id sub email avatarUrl role =>
    exact hupdate id _ fun u hu => h id u hu
  | createSession userId token =>
    rw [UserStore.write, users_openSession]
    exact h
  | bindGoogle userId p token =>
    rw [UserStore.write, users_openSession]
    exact hupdate userId _ fun u hu => h userId u hu
  | destroySession token => exact h

/-- **A user is created with a password of 12 characters or more.** -/
theorem policyHash_createUser {site : AuthSite} {users : Table UserRow}
    {username password salt displayName : String} {role : UserRole}
    {opts : CreateUserOptions} {row : UserRow}
    (h : createUser site users username password salt displayName role opts = .ok row) :
    PolicyHash site row.passwordHash := by
  unfold createUser at h
  split at h
  · exact nomatch h
  · next hlength =>
    split at h
    · exact nomatch h
    · obtain rfl := Except.ok.inj h
      exact ⟨password, salt, Nat.not_lt.mp hlength, rfl⟩

/-! ## Bound values -/

/-- What is bound in its place, if the values in front of it are one each. -/
theorem flatten_of_mapM {before after : List (Option Json)} {x : Option Json} {v : SqlValue}
    {lists : List (List SqlValue)}
    (h : (before ++ x :: after).mapM SqlValue.bindParameter = .ok lists)
    (hbefore : ∀ y ∈ before, BoundAsOne y) (hx : SqlValue.bindParameter x = .ok [v]) :
    lists.flatten[before.length]? = some v := by
  induction before generalizing lists with
  | nil =>
    rw [List.nil_append, List.mapM_cons] at h
    obtain ⟨vs, hvs, h⟩ := bind_eq_ok.mp h
    obtain ⟨rest, -, h⟩ := bind_eq_ok.mp h
    cases h
    obtain rfl := Except.ok.inj (hx.symm.trans hvs)
    rfl
  | cons y before ih =>
    rw [List.cons_append, List.mapM_cons] at h
    obtain ⟨vs, hvs, h⟩ := bind_eq_ok.mp h
    obtain ⟨rest, hrest, h⟩ := bind_eq_ok.mp h
    cases h
    obtain ⟨w, rfl⟩ := List.length_eq_one_iff.mp (hbefore y List.mem_cons_self vs hvs)
    exact ih hrest fun z hz => hbefore z (List.mem_cons_of_mem y hz)

theorem bindAll_eq_ok {n : ℕ} {before after : List (Option Json)} {x : Option Json}
    {v : SqlValue} {values : List SqlValue}
    (h : SqlValue.bindAll n (before ++ x :: after) = .ok values)
    (hbefore : ∀ y ∈ before, BoundAsOne y) (hx : SqlValue.bindParameter x = .ok [v]) :
    values[before.length]? = some v := by
  obtain ⟨lists, hlists, h⟩ := bind_eq_ok.mp h
  split at h
  · cases h
    exact flatten_of_mapM hlists hbefore hx
  · exact nomatch h

theorem lookup_zip_append {before after : List String} {key : String} (h : key ∉ before)
    (values : List SqlValue) :
    ((before ++ key :: after).zip values).lookup key = values[before.length]? := by
  induction before generalizing values with
  | nil =>
    cases values with
    | nil => rfl
    | cons v values => simp
  | cons name before ih =>
    rw [List.mem_cons, not_or] at h
    cases values with
    | nil => rfl
    | cons v values =>
      rw [List.cons_append, List.zip_cons_cons, List.lookup_cons, beq_false_of_ne h.1]
      exact ih h.2 values

theorem lookup_zip_of_notMem {names : List String} {key : String} (h : key ∉ names)
    (values : List SqlValue) : (names.zip values).lookup key = none := by
  induction names generalizing values with
  | nil => rfl
  | cons name names ih =>
    rw [List.mem_cons, not_or] at h
    cases values with
    | nil => rfl
    | cons v values =>
      rw [List.zip_cons_cons, List.lookup_cons, beq_false_of_ne h.1]
      exact ih h.2 values

theorem assignedColumns_passwordHash {sq : Sqlite} {columns : List (String × SqlValue)}
    {update : UserUpdate} (h : assignedColumns sq columns = .ok update) :
    (columns.lookup "password_hash").mapM (notNullText sq) = .ok update.passwordHash := by
  obtain ⟨_, -, h⟩ := bind_eq_ok.mp h
  obtain ⟨_, -, h⟩ := bind_eq_ok.mp h
  obtain ⟨passwordHash, hhash, h⟩ := bind_eq_ok.mp h
  obtain ⟨_, -, h⟩ := bind_eq_ok.mp h
  obtain ⟨_, -, h⟩ := bind_eq_ok.mp h
  cases h
  exact hhash

/-- **The columns that are assigned**, with a hash: only the display name and the role
stand in front of it. -/
theorem UserProperties.columns_eq (p : UserProperties) (hash : String) :
    ∃ front after, p.columns (some (.str hash))
        = front ++ ("password_hash", some (.str hash)) :: after
      ∧ ∀ column ∈ front, column.1 = "display_name" ∧ (∃ x, p.displayName = some x
          ∧ column.2 = some x)
        ∨ column.1 = "role" ∧ ∃ x, p.role = some x ∧ column.2 = some x := by
  refine ⟨[("display_name", p.displayName), ("role", p.role)].filter (fun c => c.2.isSome),
    [("email", p.email), ("avatar_url", p.avatarUrl), ("is_approved", p.isApproved)].filter
      (fun c => c.2.isSome), ?_, ?_⟩
  · show List.filter _ ([_, _] ++ _ :: [_, _, _]) = _
    rw [List.filter_append]
    exact congrArg (_ ++ ·) (List.filter_cons_of_pos rfl)
  · intro column hcolumn
    obtain ⟨hmem, hsome⟩ := List.mem_filter.mp hcolumn
    obtain ⟨x, hx⟩ := Option.isSome_iff_exists.mp hsome
    obtain rfl | hmem := List.mem_cons.mp hmem
    · exact Or.inl ⟨rfl, x, hx, hx⟩
    · obtain rfl := List.mem_singleton.mp hmem
      exact Or.inr ⟨rfl, x, hx, hx⟩

/-- **The hash that an update sets** is that of its password, if what is bound in front of
it is one value each. -/
theorem updateUser_passwordHash {site : AuthSite} {users : Table UserRow} {id : Option Json}
    {p : UserProperties} {salt : String} {now i : ℕ} {update : UserUpdate} {hash : String}
    (h : updateUser site users id p salt now = .ok (some (i, update)))
    (hhash : update.passwordHash = some hash)
    (hname : ∀ x, p.displayName = some x → BoundAsOne (some x))
    (hrole : ∀ x, p.role = some x → BoundAsOne (some x)) :
    ∃ password, p.password = some (.str password)
      ∧ hash = hashPassword site password salt := by
  obtain ⟨passwordHash, hpassword, h⟩ := bind_eq_ok.mp h
  dsimp only at h
  split at h
  · exact nomatch h
  · obtain ⟨values, hvalues, h⟩ := bind_eq_ok.mp h
    split at h
    · exact nomatch h
    · split at h
      · exact nomatch h
      · obtain ⟨update', hupdate, h⟩ := bind_eq_ok.mp h
        obtain ⟨-, rfl⟩ := Prod.mk.inj (Option.some.inj (Except.ok.inj h))
        have hassigned := assignedColumns_passwordHash hupdate
        rw [hhash] at hassigned
        unfold UserProperties.passwordHash at hpassword
        cases hp : p.password with
        | none =>
          rw [hp] at hpassword
          obtain rfl := Except.ok.inj hpassword
          have hnot : "password_hash" ∉ (p.columns none).map Prod.fst ++ ["updated_at"] := by
            simp [UserProperties.columns]
          rw [lookup_zip_of_notMem hnot] at hassigned
          exact nomatch hassigned
        | some password =>
          rw [hp] at hpassword
          obtain ⟨text, htext, hpassword⟩ := bind_eq_ok.mp hpassword
          obtain rfl := Except.ok.inj hpassword
          have hstr : password = .str text := by
            cases password with
            | str s => rw [Except.ok.inj htext]
            | null | bool b | num n | arr xs | obj fields => exact nomatch htext
          refine ⟨text, congrArg some hstr, ?_⟩
          obtain ⟨front, after, hcolumns, hfront⟩ :=
            UserProperties.columns_eq p (hashPassword site text salt)
          simp only [hcolumns, List.map_append, List.map_cons, List.append_assoc,
            List.cons_append] at hvalues hassigned
          -- what stands before the hash is bound as one value each, so nothing is moved
          have hone : ∀ y ∈ front.map Prod.snd, BoundAsOne y := by
            intro y hy
            obtain ⟨column, hcolumn, rfl⟩ := List.mem_map.mp hy
            obtain ⟨-, name, hvalue, hbound⟩ | ⟨-, role, hvalue, hbound⟩ := hfront column hcolumn
            · rw [hbound]
              exact hname name hvalue
            · rw [hbound]
              exact hrole role hvalue
          have hbound := bindAll_eq_ok hvalues hone
            (v := .text (hashPassword site text salt)) rfl
          have hfresh : "password_hash" ∉ front.map Prod.fst := by
            intro hmem
            obtain ⟨column, hcolumn, hkey⟩ := List.mem_map.mp hmem
            obtain ⟨hkey', -⟩ | ⟨hkey', -⟩ := hfront column hcolumn
            · exact absurd (hkey.symm.trans hkey') (by decide)
            · exact absurd (hkey.symm.trans hkey') (by decide)
          rw [List.length_map] at hbound
          rw [lookup_zip_append hfresh, List.length_map, hbound] at hassigned
          exact (Option.some.inj (Except.ok.inj hassigned)).symm

/-! ## Requests -/

/-- A role that is no object and no list is bound as one value. -/
theorem boundAsOne_role {role : Json}
    (h : ¬ (Json.truthy (some role) = true
      ∧ ¬ ["admin", "operator", "viewer"].any (Json.equalsText (some role)) = true)) :
    BoundAsOne (some role) := by
  intro values hvalues
  match role with
  | .null | .num .nan | .num (.infinity _) | .num (.finite _) | .str _ =>
    cases hvalues
    rfl
  | .bool b => exact nomatch hvalues
  | .arr elements => exact absurd ⟨rfl, by simp [Json.equalsText]⟩ h
  | .obj fields => exact absurd ⟨rfl, by simp [Json.equalsText]⟩ h

theorem readUserUpdate_eq_ok {site : AuthSite} {s : UserStore} {currentUser : User}
    {body : Option Json} {random : Randomness} {i : ℕ} {update : UserUpdate}
    (h : readUserUpdate site s currentUser body random = .ok (some (i, update))) :
    (∃ id, updateUser site s.users id (userProperties body) random.salt s.clock
        = .ok (some (i, update)))
      ∧ ∀ role, Json.get? body "role" = some role → BoundAsOne (some role) := by
  unfold readUserUpdate at h
  split at h
  · exact nomatch h
  · dsimp only at h
    split at h
    · exact nomatch h
    · split at h
      · exact nomatch h
      · next hrole =>
        split at h
        · exact nomatch h
        · split at h
          · exact nomatch h
          · next hupdate =>
            obtain rfl := Except.ok.inj h
            refine ⟨⟨_, hupdate⟩, fun role hsome => boundAsOne_role ?_⟩
            rwa [hsome] at hrole

theorem readProfileUpdate_eq_ok {site : AuthSite} {s : UserStore} {userId : ℕ}
    {body : Option Json} {random : Randomness} {i : ℕ} {update : UserUpdate}
    (h : readProfileUpdate site s userId body random = .ok (.ok (some (i, update)))) :
    ∃ displayName password,
      newPassword site s.users userId body = .ok (.ok password)
        ∧ newDisplayName body = .ok (.ok displayName)
        ∧ updateUser site s.users (some (.ofNat userId))
          ⟨displayName, none, password, none, none, none⟩ random.salt s.clock
          = .ok (some (i, update)) := by
  obtain ⟨_, -, h⟩ := bind_eq_ok.mp h
  obtain ⟨password, hpassword, h⟩ := bind_eq_ok.mp h
  split at h
  · exact nomatch Except.ok.inj h
  · obtain ⟨displayName, hname, h⟩ := bind_eq_ok.mp h
    split at h
    · exact nomatch Except.ok.inj h
    · split at h
      · exact nomatch Except.ok.inj h
      · obtain ⟨write, hwrite, h⟩ := bind_eq_ok.mp h
        obtain rfl := Except.ok.inj (Except.ok.inj h)
        exact ⟨_, _, hpassword, hname, hwrite⟩

theorem newDisplayName_eq_ok {body : Option Json} {name : Json}
    (h : newDisplayName body = .ok (.ok (some name))) : ∃ s, name = .str s := by
  unfold newDisplayName at h
  split at h
  · exact nomatch Except.ok.inj h
  · obtain ⟨s, -, h⟩ := bind_eq_ok.mp h
    dsimp only at h
    split at h
    · exact nomatch Except.ok.inj h
    · exact ⟨_, (Option.some.inj (Except.ok.inj (Except.ok.inj h))).symm⟩

theorem newPassword_eq_ok {site : AuthSite} {users : Table UserRow} {userId : ℕ}
    {body : Option Json} {password : Json}
    (h : newPassword site users userId body = .ok (.ok (some password))) :
    Json.get? body "new_password" = some password := by
  unfold newPassword at h
  split at h
  · exact nomatch Except.ok.inj h
  · next found hfound =>
    dsimp only at h
    split at h
    · exact nomatch Except.ok.inj h
    · obtain ⟨short, -, h⟩ := bind_eq_ok.mp h
      split at h
      · exact nomatch Except.ok.inj h
      · split at h
        · exact nomatch Except.ok.inj h
        · obtain ⟨verified, -, h⟩ := bind_eq_ok.mp h
          split at h
          · obtain rfl := Option.some.inj (Except.ok.inj (Except.ok.inj h))
            exact (Option.filter_eq_some_iff.mp hfound).1
          · exact nomatch Except.ok.inj h

theorem policyHash_readNewUser {site : AuthSite} {users : Table UserRow} {body : Option Json}
    {random : Randomness} {row : UserRow}
    (h : readNewUser site users body random = .ok row) :
    PolicyHash site row.passwordHash := by
  obtain ⟨data, hrow⟩ := createUser_of_readNewUser h
  exact policyHash_createUser hrow

theorem keepsPolicy_reviewWrite (site : AuthSite) (users : Table UserRow)
    (data : AccessRequestFields) (r : AccessRequest) (random : Randomness) :
    (reviewWrite site users data r random).KeepsPolicy site := by
  unfold reviewWrite
  split
  · trivial
  · split
    · next write happrove =>
      unfold approveUser at happrove
      dsimp only at happrove
      split at happrove
      · obtain rfl := Except.ok.inj happrove
        trivial
      · obtain ⟨row, hrow, happrove⟩ := bind_eq_ok.mp happrove
        obtain rfl := Except.ok.inj happrove
        exact policyHash_createUser hrow
    · trivial

/-- **A request that follows the policy** writes what follows it. -/
theorem keepsPolicy_write {site : AuthSite} {call : UserCall} {s : AuthState}
    {body : Option Json} {random : Randomness}
    (h : ∀ i update hash, call.write site s body random = .updateUser i update →
      update.passwordHash = some hash →
        match call.operation with
        | .update => SetsLongPassword body "password"
        | .profile => SetsLongPassword body "new_password"
        | _ => True) : (call.write site s body random).KeepsPolicy site := by
  unfold UserCall.write at h ⊢
  cases hoperation : call.operation with
  | create =>
    dsimp only
    split
    · next row hrow => exact policyHash_readNewUser hrow
    · trivial
  | delete =>
    dsimp only
    split
    · next id _ => cases id <;> trivial
    · trivial
  | review =>
    dsimp only
    split
    · next data r _ => exact keepsPolicy_reviewWrite site s.users data r random
    · trivial
  | update =>
    rw [hoperation] at h
    dsimp only at h ⊢
    split
    · next update hupdate =>
      match update with
      | none => trivial
      | some (i, update) =>
        intro hash hhash
        rw [hupdate] at h
        obtain ⟨hlong, hname⟩ := h i update hash rfl hhash
        obtain ⟨⟨id, hwrite⟩, hrole⟩ := readUserUpdate_eq_ok hupdate
        obtain ⟨password, hpassword, rfl⟩ := updateUser_passwordHash hwrite hhash hname hrole
        exact ⟨password, random.salt, hlong password (Option.filter_eq_some_iff.mp hpassword).1,
          rfl⟩
    · trivial
  | profile =>
    rw [hoperation] at h
    dsimp only at h ⊢
    split
    · next update hupdate =>
      match update with
      | none => trivial
      | some (i, update) =>
        intro hash hhash
        rw [hupdate] at h
        obtain ⟨hlong, -⟩ := h i update hash rfl hhash
        obtain ⟨displayName, password, hnew, hname, hwrite⟩ := readProfileUpdate_eq_ok hupdate
        have hone : ∀ x, displayName = some x → BoundAsOne (some x) := by
          -- the own display name is a text
          rintro x rfl values hvalues
          obtain ⟨name, rfl⟩ := newDisplayName_eq_ok hname
          cases hvalues
          rfl
        obtain ⟨text, hpassword, rfl⟩ := updateUser_passwordHash hwrite hhash hone nofun
        obtain rfl : password = some (.str text) := hpassword
        exact ⟨text, random.salt, hlong text (newPassword_eq_ok hnew), rfl⟩
    · trivial

/-- **As long as every password that is set is long enough**, every stored hash was computed
from 12 characters or more. -/
theorem authMachine_followsPolicy (site : AuthSite) {s₀ : AuthState}
    (h₀ : FollowsPolicy site s₀.users) (as : List AuthAction)
    (has : (authMachine site).EachStep (WithinPolicy site) s₀ as) :
    (authMachine site).Always (fun s => FollowsPolicy site s.users) s₀ as := by
  intro p hp
  refine Machine.Throughout.invariant (authMachine site)
    (I := fun _ s => FollowsPolicy site s.users) (C := fun _ => WithinPolicy site) h₀
    (fun _ s a hs ha => ?_) (fun q b hq => has q b (hq.trans hp))
  have hnext := congrArg UserStore.users (toUserStore_next site s a)
  rw [hnext]
  refine followsPolicy_write hs ?_
  cases a with
  | wait seconds | request c | «begin» operation c => trivial
  | receive id body random =>
    unfold authWrite
    dsimp only
    split
    · trivial
    · next call hcall => exact keepsPolicy_write (ha call hcall)
  | login body token =>
    unfold authWrite
    dsimp only
    split <;> trivial
  | googleLogin body info token =>
    unfold authWrite
    dsimp only
    split
    · trivial
    · split <;> trivial
  | logout c =>
    unfold authWrite logoutWrite
    dsimp only
    split
    · trivial
    · split <;> trivial

/-! ## A change of the own password -/

/-- A site whose key derivation tells short passwords from long ones. -/
def policySite : AuthSite :=
  { sampleAuthSite with
    scrypt := fun password salt => sampleAuthSite.scrypt password salt
      ++ [if utf16Length password < 12 then 1 else 0] }

/-- A database whose administrator has a password of 19 characters. -/
def policyState : AuthState where
  users := Table.empty.insert
    { seedAdminUser policySite "salt" with
      passwordHash := hashPassword policySite "correct horse stapl" "salt" }
  sessions := .empty
  accessRequests := .empty
  calls := .empty
  clock := 0

/-- The administrator logs in, and changes the own password. -/
def sampleChange (password : String) : List AuthAction :=
  [.login (some (.obj [("username", .str "admin"),
      ("password", .str "correct horse stapl")])) sampleToken,
    .begin .profile ⟨some sampleToken.text, none⟩,
    .receive 1 (some (.obj [("current_password", .str "correct horse stapl"),
      ("new_password", .str password)])) ⟨"salt", ""⟩]

theorem followsPolicy_policyState : FollowsPolicy policySite policyState.users := by
  intro id u hu
  obtain ⟨-, rfl⟩ | hnone := (Table.row_insert_eq_some _ _).mp hu
  · exact ⟨"correct horse stapl", "salt", by decide, rfl⟩
  · exact nomatch hnone

theorem getLast?_policyHash {hash : String} (h : PolicyHash policySite hash) :
    hash.toList.getLast? = some '0' := by
  obtain ⟨password, salt, hlength, rfl⟩ := h
  unfold hashPassword
  have hbytes : policySite.scrypt password salt
      = sampleAuthSite.scrypt password salt ++ [0] := by
    show _ ++ [if utf16Length password < 12 then 1 else 0] = _
    rw [if_neg (Nat.not_lt.mpr hlength)]
  rw [hbytes, String.toList_append, toHex, String.toList_ofList, List.flatMap_append]
  show (_ ++ (_ ++ ['0', '0'])).getLast? = _
  rw [← List.append_assoc, List.getLast?_append]
  rfl

/-- The own password is changed for another long one. -/
theorem authMachine_followsPolicy_sampleChange :
    (authMachine policySite).Always (fun s => FollowsPolicy policySite s.users) policyState
      (sampleChange "battery staple") := by
  refine authMachine_followsPolicy policySite followsPolicy_policyState _ ?_
  refine .cons _ trivial (.cons _ trivial (.cons _ ?_ (Machine.eachStep_nil _ _ _)))
  intro call hcall i update hash _ _
  have hwaiting : (((authMachine policySite).state policyState
      ((sampleChange "battery staple").take 2)).calls.row 1).map UserCall.operation
        = some .profile := by
    decide +kernel
  have hprofile : call.operation = .profile :=
    Option.some.inj ((congrArg (Option.map UserCall.operation) hcall).symm.trans hwaiting)
  rw [hprofile]
  refine ⟨fun password hpassword => ?_, nofun⟩
  obtain rfl := Json.str.inj (Option.some.inj hpassword)
  decide

/-- **A password of 8 characters is stored**, although the policy held before. -/
theorem not_followsPolicy_sampleChange :
    FollowsPolicy policySite policyState.users
      ∧ ¬ (authMachine policySite).Always (fun s => FollowsPolicy policySite s.users)
        policyState (sampleChange "12345678") := by
  refine ⟨followsPolicy_policyState, fun h => ?_⟩
  have hstate := h (sampleChange "12345678") (List.prefix_refl _)
  have hrow : (((authMachine policySite).state policyState (sampleChange "12345678")).users.row
      1).map (fun u => u.passwordHash.toList.getLast?) = some (some '1') := by
    decide +kernel
  obtain ⟨u, hu, hlast⟩ := Option.map_eq_some_iff.mp hrow
  have := (getLast?_policyHash (hstate 1 u hu)).symm.trans hlast
  exact nomatch this

end MissionControl
