import MissionControl.AgentApi
import MissionControl.ChatStore

/-!
# Mentions

A name is mentioned in a text by an `@` in front of it. `parseMentions` takes the
letters, digits and underscores behind an `@` for the name; an agent may be created
with any other character in its name. What is read of a mention is the part of the
name in front of the first such character, so that the mentions of some agents come
back just if none of them has one.
-/

namespace MissionControl

/-! ## `parseMentions` -/

/-- The matches of `/@(\w+)/g` in a text, of which so many characters belong to the
match before. -/
def mentionsFrom : ℕ → List Char → List String
  | _, [] => []
  | k + 1, _ :: s => mentionsFrom k s
  | 0, c :: s =>
    if c = '@' then
      match s.takeWhile isWordChar with
      | [] => mentionsFrom 0 s
      | name => String.ofList name :: mentionsFrom name.length s
    else mentionsFrom 0 s

/-- **`db_helpers.parseMentions`.** -/
def parseMentions (text : String) : List String := mentionsFrom 0 text.toList

theorem mentionsFrom_eq_drop (k : ℕ) (s : List Char) :
    mentionsFrom k s = mentionsFrom 0 (s.drop k) := by
  induction k generalizing s with
  | zero => rw [List.drop_zero]
  | succ k ih =>
    cases s with
    | nil => rfl
    | cons c s => exact ih s

theorem mentionsFrom_append {s : List Char} (h : '@' ∉ s) (t : List Char) :
    mentionsFrom 0 (s ++ t) = mentionsFrom 0 t := by
  induction s with
  | nil => rfl
  | cons c s ih =>
    rw [List.mem_cons, not_or] at h
    rw [List.cons_append, mentionsFrom, if_neg (Ne.symm h.1)]
    exact ih h.2

/-! ## Mentions of agents -/

/-- What is read of the mention of a name. -/
def readMention (name : String) : Option String :=
  match name.toList.takeWhile isWordChar with
  | [] => none
  | word => some (String.ofList word)

/-- **A mention is read up to the first character that is no word character.** -/
theorem mentionsFrom_mention {name : String} (h : '@' ∉ name.toList) {t : List Char}
    (ht : ∀ c ∈ t.head?, isWordChar c = false) :
    mentionsFrom 0 ('@' :: name.toList ++ t)
      = (readMention name).toList ++ mentionsFrom 0 t := by
  have hword : (name.toList ++ t).takeWhile isWordChar = name.toList.takeWhile isWordChar := by
    have hnone : t.takeWhile isWordChar = [] := by
      cases t with
      | nil => rfl
      | cons c t =>
        rw [List.takeWhile_cons_of_neg]
        rw [ht c rfl]
        exact Bool.false_ne_true
    rw [List.takeWhile_append]
    split
    · next hlen =>
      rw [hnone, List.append_nil]
      exact ((List.takeWhile_prefix _).eq_of_length hlen).symm
    · rfl
  have hdrop : (name.toList ++ t).drop (name.toList.takeWhile isWordChar).length
      = name.toList.dropWhile isWordChar ++ t := by
    conv_lhs =>
      rw [← List.takeWhile_append_dropWhile (p := isWordChar) (l := name.toList)]
    rw [List.append_assoc]
    simp
  have hrest : '@' ∉ name.toList.dropWhile isWordChar := fun hin =>
    h ((List.dropWhile_suffix _).subset hin)
  rw [List.cons_append, mentionsFrom, if_pos rfl, hword]
  unfold readMention
  cases hname : name.toList.takeWhile isWordChar with
  | nil => exact mentionsFrom_append h t
  | cons c word =>
    dsimp only
    rw [← hname, mentionsFrom_eq_drop, hdrop, mentionsFrom_append hrest]
    rfl

/-- The text that mentions some names, each on a line. -/
def mentionText (names : List String) : String :=
  "\n".intercalate (names.map ("@" ++ ·))

/-- **What is read of a text of mentions.** -/
theorem parseMentions_mentionText {names : List String}
    (h : ∀ name ∈ names, '@' ∉ name.toList) :
    parseMentions (mentionText names) = names.filterMap readMention := by
  unfold parseMentions mentionText
  rw [toList_intercalate, List.map_map]
  have hmention : ∀ name : String, ("@" ++ name).toList = '@' :: name.toList := fun name =>
    String.toList_append
  induction names with
  | nil => rfl
  | cons name names ih =>
    have hname := h name List.mem_cons_self
    have hnames := ih fun name' hname' => h name' (List.mem_cons_of_mem _ hname')
    have hread : (name :: names).filterMap readMention
        = (readMention name).toList ++ names.filterMap readMention := by
      cases hr : readMention name with
      | none => rw [List.filterMap_cons_none hr]; rfl
      | some word => rw [List.filterMap_cons_some hr]; rfl
    rw [hread, ← hnames, List.map_cons, Function.comp_apply, hmention]
    cases names with
    | nil =>
      have := mentionsFrom_mention hname (t := []) (fun c hc => absurd hc (by simp))
      simpa using this
    | cons name' names =>
      rw [List.map_cons, List.intercalate_cons_cons, ← List.map_cons, List.append_assoc]
      -- the line break ends the name
      refine (mentionsFrom_mention hname fun c hc => ?_).trans (congrArg _ rfl)
      obtain rfl : '\n' = c := Option.some.inj hc
      rfl

/-! ## Which mentions come back -/

/-- A name is read as it is mentioned, if all its characters are word characters. -/
theorem readMention_eq_some_iff {name : String} (hne : name ≠ "") :
    readMention name = some name ↔ ∀ c ∈ name.toList, isWordChar c = true := by
  rw [← List.takeWhile_eq_self_iff]
  unfold readMention
  cases hword : name.toList.takeWhile isWordChar with
  | nil =>
    refine iff_of_false (Option.some_ne_none _).symm fun hnil => hne ?_
    exact String.toList_eq_nil_iff.mp hnil.symm
  | cons c word =>
    dsimp only
    rw [Option.some.injEq, ← String.toList_inj, String.toList_ofList]

/-- All of a list come back from it just if each of them does. -/
theorem filterMap_eq_self_iff {α : Type} {f : α → Option α} {xs : List α} :
    xs.filterMap f = xs ↔ ∀ x ∈ xs, f x = some x := by
  constructor
  · intro h
    induction xs with
    | nil => exact fun x hx => absurd hx List.not_mem_nil
    | cons x xs ih =>
      cases hx : f x with
      | none =>
        -- too few come back
        rw [List.filterMap_cons_none hx] at h
        have hlen := List.length_filterMap_le f xs
        rw [h, List.length_cons] at hlen
        exact absurd hlen (Nat.not_succ_le_self _)
      | some y =>
        rw [List.filterMap_cons_some hx] at h
        obtain ⟨rfl, htail⟩ := List.cons.inj h
        exact List.forall_mem_cons.mpr ⟨hx, ih htail⟩
  · intro h
    induction xs with
    | nil => rfl
    | cons x xs ih =>
      obtain ⟨hx, hxs⟩ := List.forall_mem_cons.mp h
      rw [List.filterMap_cons_some hx, ih hxs]

/-- **A name that an agent may be created with**, without `@` and without blanks at its
ends. -/
structure PlainName (name : String) : Prop where
  accepted : ∃ body data, createAgentSchema.read body = .ok data ∧ data.name = name
  at_notMem : '@' ∉ name.toList
  trimmed : trim name = name

theorem read_check_eq_ok {α : Type} {r : Reader α} {test : α → Bool} {code : IssueCode}
    {message : Option String} {j : Json} {a : α} :
    (r.check test code message).read j = .ok a ↔ r.read j = .ok a ∧ test a = true := by
  unfold Reader.check
  dsimp only
  cases r.read j with
  | error issues => simp
  | ok b =>
    dsimp only
    split
    · next htest =>
      refine ⟨fun h => ⟨h, ?_⟩, fun h => h.1⟩
      rw [← Except.ok.inj h]
      exact htest
    · next htest =>
      refine iff_of_false (fun h => by cases h) fun h => htest ?_
      rw [Except.ok.inj h.1]
      exact h.2

theorem name_ne_empty {body : Json} {data : AgentFields}
    (h : createAgentSchema.read body = .ok data) : data.name ≠ "" := by
  obtain ⟨fields, -, hparse⟩ := Reader.object_read_eq_ok.mp h
  simp only [Checked.ap_eq_ok] at hparse
  obtain ⟨_, _, ⟨_, _, ⟨_, _, ⟨_, _, ⟨_, _, ⟨_, _, ⟨_, _, ⟨_, _, ⟨_, name, hmk, hname, rfl⟩,
    -, rfl⟩, -, rfl⟩, -, rfl⟩, -, rfl⟩, -, rfl⟩, -, rfl⟩, -, rfl⟩, -, rfl⟩ := hparse
  cases hmk
  unfold Reader.field at hname
  rw [Checked.under_eq_ok] at hname
  split at hname
  · obtain ⟨hmin, -⟩ := read_check_eq_ok.mp hname
    obtain ⟨-, hlength⟩ := read_check_eq_ok.mp hmin
    show name ≠ ""
    rintro rfl
    exact absurd hlength (by decide)
  · cases hname

/-- **The mentions of some agents are parsed back just if the names of all of them are made
of letters, digits and underscores.** -/
theorem parseMentions_iff {names : List String} (h : ∀ name ∈ names, PlainName name) :
    parseMentions (mentionText names) = names
      ↔ ∀ name ∈ names, ∀ c ∈ name.toList, isWordChar c = true := by
  rw [parseMentions_mentionText fun name hname => (h name hname).at_notMem,
    filterMap_eq_self_iff]
  refine forall₂_congr fun name hname => readMention_eq_some_iff ?_
  obtain ⟨body, data, hread, rfl⟩ := (h name hname).accepted
  exact name_ne_empty hread

theorem accepted_of_length {name : String} (hmin : 1 ≤ utf16Length name)
    (hmax : utf16Length name ≤ 100) :
    ∃ body data, createAgentSchema.read body = .ok data ∧ data.name = name := by
  have hread : ((Reader.string.minLength 1 (some "Name is required")).maxLength 100).read
      (.str name) = .ok name :=
    read_check_eq_ok.mpr ⟨read_check_eq_ok.mpr ⟨rfl, decide_eq_true hmin⟩, decide_eq_true hmax⟩
  have hfield : ((Reader.string.minLength 1 (some "Name is required")).maxLength 100).field
      "name" [("name", .str name)] = .ok name := Checked.under_eq_ok.mpr hread
  refine ⟨.obj [("name", .str name)], ⟨name, none, none, none, .offline, [], none, none, none⟩,
    Reader.object_read_eq_ok.mpr ⟨_, rfl, ?_⟩, rfl⟩
  rw [hfield]
  rfl

/-- Two names are parsed back. -/
theorem parseMentions_iff_sample :
    parseMentions (mentionText ["alice", "bob_2"]) = ["alice", "bob_2"]
      ↔ ∀ name ∈ ["alice", "bob_2"], ∀ c ∈ name.toList, isWordChar c = true := by
  refine parseMentions_iff fun name hname => ?_
  rcases List.mem_cons.mp hname with rfl | hname
  · exact ⟨accepted_of_length (by decide) (by decide), by decide, by decide⟩
  · obtain rfl := List.mem_singleton.mp hname
    exact ⟨accepted_of_length (by decide) (by decide), by decide, by decide⟩

/-- **A mention of `agent-1` is read as one of `agent`.** -/
theorem not_parseMentions_agent :
    ¬ ∀ names : List String, (∀ name ∈ names, PlainName name) →
      parseMentions (mentionText names) = names := by
  intro h
  have hread := h ["agent-1"] fun name hname => by
    obtain rfl := List.mem_singleton.mp hname
    exact ⟨accepted_of_length (by decide) (by decide), by decide, by decide⟩
  have hagent : parseMentions (mentionText ["agent-1"]) = ["agent"] := by decide
  rw [hagent] at hread
  exact absurd hread (by decide)

end MissionControl
