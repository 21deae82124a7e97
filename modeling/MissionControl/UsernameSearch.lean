import MissionControl.AuthWrites

/-!
# The name of an approved user

An approval makes a user of an address: the name is what stands before the `@`, of the
characters that a name may have, and where some user has it a number is appended. The loop
that looks for a free name has no bound of its own. It ends because no numbered name is tried
twice (`usernameCandidate_inj`); the name without a number may be, where it is cut off to
the same as with one, and so two more names are tried than there are users at most
(`usernameSearch`).
-/

namespace MissionControl

/-- **ASCII text in lower case**, as the language defines it. -/
def LowersAscii (rt : Runtime) : Prop :=
  ∀ s, (∀ c ∈ s.toList, c.toNat < 0x80) →
    rt.toLowerCase s = String.ofList (s.toList.map Char.toLower)

/-- Whether a character may stand in the name of an approved user: a letter in lower case, a
digit, or one of `.`, `_` and `-`. -/
def isLowerUsernameChar (c : Char) : Bool :=
  c.isLower || c.isDigit || c ∈ ['.', '_', '-']

/-- **A name of an approved user.** -/
def IsUsername (name : String) : Prop :=
  name ≠ "" ∧ ∀ c ∈ name.toList, isLowerUsernameChar c = true

/-- **The loop of `ensureUniqueUsername`**, with a bound on its lookups: the name of the
address first, then the numbered ones. -/
def searchUsername (users : Table UserRow) (base : String) (lookups : ℕ) : Option String :=
  Search.firstFree (fun name => users.any fun u => u.username = name)
    (usernameCandidate base) lookups 0

section Names

variable {rt : Runtime} {base : String}

theorem toNat_lt_of_isUsernameChar {c : Char} (h : isUsernameChar c = true) :
    c.toNat < 0x80 := by
  unfold isUsernameChar Char.isAlphanum Char.isAlpha Char.isUpper Char.isLower
    Char.isDigit at h
  simp only [Bool.or_eq_true, Bool.and_eq_true, decide_eq_true_eq, ge_iff_le,
    UInt32.le_iff_toNat_le, List.mem_cons, List.not_mem_nil, or_false] at h
  rcases h with ((⟨-, h⟩ | ⟨-, h⟩) | ⟨-, h⟩) | rfl | rfl | rfl
  · exact h.trans_lt (by decide)
  · exact h.trans_lt (by decide)
  · exact h.trans_lt (by decide)
  · decide
  · decide
  · decide

theorem isLowerUsernameChar_toLower {c : Char} (h : isUsernameChar c = true) :
    isLowerUsernameChar c.toLower = true := by
  unfold isLowerUsernameChar Char.toLower
  split
  · next hupper =>
    have hlower : (97 : UInt32) ≤ c.val + 32 ∧ c.val + 32 ≤ 122 := by
      rw [UInt32.le_iff_toNat_le, UInt32.le_iff_toNat_le, UInt32.toNat_add]
      have hlow : 65 ≤ c.val.toNat := UInt32.le_iff_toNat_le.mp hupper.1
      have hhigh : c.val.toNat ≤ 90 := UInt32.le_iff_toNat_le.mp hupper.2
      show 97 ≤ (c.val.toNat + 32) % 2 ^ 32 ∧ (c.val.toNat + 32) % 2 ^ 32 ≤ 122
      omega
    rw [Bool.or_eq_true, Bool.or_eq_true]
    exact .inl (.inl (Bool.and_eq_true_iff.mpr
      ⟨decide_eq_true hlower.1, decide_eq_true hlower.2⟩))
  · next hnot =>
    have hupper : c.isUpper = false := by
      unfold Char.isUpper
      exact decide_eq_false hnot
    unfold isUsernameChar Char.isAlphanum Char.isAlpha at h
    rwa [hupper, Bool.false_or] at h

/-- **The name that is made of an address.** -/
theorem isUsername_makeUsernameFromEmail (hlower : LowersAscii rt) (email : String) :
    IsUsername (makeUsernameFromEmail rt email) := by
  have hbase : ∀ c ∈ (rt.toLowerCase (String.ofList
      ((beforeAt email).toList.filter isUsernameChar))).toList,
      isLowerUsernameChar c = true := by
    intro c hc
    rw [hlower _ fun c hc => ?_, String.toList_ofList, String.toList_ofList] at hc
    · obtain ⟨d, hd, rfl⟩ := List.mem_map.mp hc
      exact isLowerUsernameChar_toLower (List.mem_filter.mp hd).2
    · rw [String.toList_ofList] at hc
      exact toNat_lt_of_isUsernameChar (List.mem_filter.mp hc).2
  unfold makeUsernameFromEmail orElse
  dsimp only
  split
  · exact ⟨by decide, List.all_eq_true.mp (by decide)⟩
  · next hne =>
    refine ⟨fun hempty => hne ?_, fun c hc => ?_⟩
    · have hnil := congrArg String.toList hempty
      rw [String.toList_ofList] at hnil
      rcases List.take_eq_nil_iff.mp hnil with h | h
      · cases h
      · exact String.toList_eq_nil_iff.mp h
    · rw [String.toList_ofList] at hc
      exact hbase c (List.mem_of_mem_take hc)

theorem isUsername_usernameCandidate (h : IsUsername base) (i : ℕ) :
    IsUsername (usernameCandidate base i) := by
  unfold usernameCandidate
  split
  · exact h
  · refine ⟨fun hempty => ?_, fun c hc => ?_⟩
    · have hnil := congrArg String.toList hempty
      rw [String.toList_append, String.toList_append] at hnil
      cases (List.append_eq_nil_iff.mp (List.append_eq_nil_iff.mp hnil).1).2
    · rw [String.toList_append, String.toList_append, String.toList_ofList, List.mem_append,
        List.mem_append] at hc
      rcases hc with (hc | hc) | hc
      · exact h.2 c (List.mem_of_mem_take hc)
      · rw [List.mem_singleton.mp hc]
        rfl
      · unfold isLowerUsernameChar
        rw [isDigit_of_mem_repr hc, Bool.or_true, Bool.true_or]

end Names

/-- **The search for a name ends**, after two more lookups than there are users at most, with
one that no user has, and no approval fails for it. -/
theorem usernameSearch {site : AuthSite} (hlower : LowersAscii site.rt)
    (users : Table UserRow) :
    (∀ email, ∃ name,
      searchUsername users (makeUsernameFromEmail site.rt email) (users.rows.length + 2)
          = some name
        ∧ ensureUniqueUsername users (makeUsernameFromEmail site.rt email) = name
        ∧ IsUsername name ∧ users.any (fun u => u.username = name) = false)
      ∧ ∀ (r : AccessRequest) (role : UserRole) (random : Randomness),
        approveUser site users r role random
          ≠ .error (.error "UNIQUE constraint failed: users.username") := by
  refine ⟨fun email => ?_, fun r role random h => ?_⟩
  · have hfound := firstFree_username users (makeUsernameFromEmail site.rt email)
    obtain ⟨hfree, i, -, -, hname⟩ := Search.firstFree_spec hfound
    refine ⟨_, hfound, rfl, ?_, hfree⟩
    rw [hname]
    exact isUsername_usernameCandidate (isUsername_makeUsernameFromEmail hlower email) i
  · unfold approveUser at h
    dsimp only at h
    split at h
    · cases h
    · unfold createUser at h
      rw [ensureUniqueUsername_free] at h
      split at h
      · exact absurd (Exception.error.inj (Except.error.inj h)) (by decide)
      · cases h

/-- A user whose name is that of an address. -/
def sampleNamesake : UserRow where
  username := "ada"
  displayName := "Ada"
  passwordHash := ""
  role := "viewer"
  provider := "local"
  providerUserId := none
  email := none
  avatarUrl := none
  isApproved := .number (.finite 1)

/-- The name of the address is taken, and another one is found. -/
theorem usernameSearch_sampleNamesake : ∃ name,
    searchUsername (Table.empty.insert sampleNamesake)
        (makeUsernameFromEmail sampleAuthSite.rt "Ada@example.org") 3 = some name
      ∧ name ≠ "ada" := by
  obtain ⟨name, hfound, -, -, hfree⟩ :=
    (@usernameSearch sampleAuthSite (fun _ _ => rfl)
      (Table.empty.insert sampleNamesake)).1 "Ada@example.org"
  refine ⟨name, hfound, ?_⟩
  rintro rfl
  exact absurd hfree (by decide)

end MissionControl
