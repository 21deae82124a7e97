import Mathlib.Data.List.MinMax
import MissionControl.Library.Posix

/-!
# File systems with symbolic links

What is stored in a file system has a **physical path**: the names of the
directories above it, none of them a link, and its own. A path that a program
gives to the system is a text. The system walks along its segments: `.` stays,
`..` goes up in the physical path, a link goes on with the text it holds, from
the root if that text is absolute, and only so many links are followed.

So `..` behind a link does not lead back to where the link is, and a text that is
normalized first may name another place. Two walks are the same only where the
text of one is the text of the other with a name behind it
(`FileSystem.locate_append`): then the longer one ends in the directory where the
shorter one does.
-/

abbrev FileName := List Char

inductive FileNode (α : Type*) where
  | directory
  | file (content : α)
  | link (target : List Char)
  | special

def FileNode.IsLink {α : Type*} : FileNode α → Prop
  | .link _ => True
  | _ => False

/-- **A file system**, by its physical paths. -/
structure FileSystem (α : Type*) where
  node : List FileName → Option (FileNode α)
  /-- The names in a directory, in the order in which it is listed. -/
  names : List FileName → List FileName
  depth : ℕ
  node_root : node [] = some .directory
  mem_names : ∀ {p : List FileName} {n : FileName},
    n ∈ names p ↔ (node (p ++ [n])).isSome
  node_parent : ∀ {p : List FileName} {n : FileName},
    (node (p ++ [n])).isSome → node p = some .directory
  ordinary : ∀ {p : List FileName} {n : FileName},
    (node (p ++ [n])).isSome → Posix.Ordinary n
  length_le : ∀ {p : List FileName}, (node p).isSome → p.length ≤ depth

inductive PathError where
  | noEntry | notDirectory | tooManyLinks | invalid
  deriving DecidableEq

/-- **Where a walk ends**: at what is stored, or at a name that is free in its
directory. -/
inductive Located where
  | found (p : List FileName)
  | missing (p : List FileName)
  | failed (e : PathError)
  deriving DecidableEq

/-- A walk up to the next link: its end, or the directory and the text of the
link, with the segments behind it. -/
inductive Advance where
  | ends (l : Located)
  | follows (directory : List FileName) (target : List Char) (rest : List (List Char))

namespace FileSystem

variable {α : Type*} (fs : FileSystem α)

/-- Whether a directory is stored under a physical path. -/
def IsDirectory (p : List FileName) : Prop :=
  match fs.node p with
  | some .directory => True
  | _ => False

instance (p : List FileName) : Decidable (fs.IsDirectory p) := by
  unfold IsDirectory
  split
  · exact instDecidableTrue
  · exact instDecidableFalse

/-- The walk along the segments of a path, as far as it follows no link. A link
at its end is followed only on demand. -/
def advance (follow : Bool) : List FileName → List (List Char) → Advance
  | p, [] => .ends (.found p)
  | p, seg :: rest =>
    if ¬ fs.IsDirectory p then .ends (.failed .notDirectory)
    else if seg = [] ∨ seg = ['.'] then advance follow p rest
    else if seg = ['.', '.'] then advance follow p.dropLast rest
    else
      match fs.node (p ++ [seg]) with
      | none =>
        if rest = [] then .ends (.missing (p ++ [seg])) else .ends (.failed .noEntry)
      | some (.link target) =>
        if rest = [] ∧ follow = false then .ends (.found (p ++ [seg]))
        else .follows p target rest
      | some _ => advance follow (p ++ [seg]) rest

/-- Where a walk ends, or which link comes next, with a name behind its path. -/
def nameBehind (follow : Bool) (seg : List Char) : Advance → Advance
  | .ends (.found q) => fs.advance follow q [seg]
  | .ends (.missing _) => .ends (.failed .noEntry)
  | .ends (.failed e) => .ends (.failed e)
  | .follows directory target rest => .follows directory target (rest ++ [seg])

/-- Where a path begins: at the root, or in a directory. -/
def start (p : List FileName) (path : List Char) : List FileName :=
  if path.head? = some '/' then [] else p

/-- The walk along segments, with the number of links it may follow. -/
def walk (follow : Bool) : ℕ → List FileName → List (List Char) → Located
  | links, p, segs =>
    match fs.advance follow p segs with
    | .ends l => l
    | .follows directory target rest =>
      match links with
      | 0 => .failed .tooManyLinks
      | links + 1 =>
        walk follow links (start directory target) (target.splitOn '/' ++ rest)

def maxLinks : ℕ := 40

/-- **Where a path leads**, from the working directory. -/
def locate (cwd : List FileName) (follow : Bool) (path : List Char) : Located :=
  if path = [] then .failed .noEntry
  else if '\x00' ∈ path then .failed .invalid
  else fs.walk follow maxLinks (start cwd path) (path.splitOn '/')

/-- `realpath`: the physical path of what a path leads to. -/
def realpath (cwd : List FileName) (path : List Char) : Except PathError (List FileName) :=
  match fs.locate cwd true path with
  | .found p => .ok p
  | .missing _ => .error .noEntry
  | .failed e => .error e

/-! ## Directories -/

variable {fs}

theorem isDirectory_root : fs.IsDirectory [] := by
  unfold IsDirectory
  rw [fs.node_root]
  trivial

theorem isDirectory_iff {p : List FileName} :
    fs.IsDirectory p ↔ fs.node p = some .directory := by
  unfold IsDirectory
  split
  · next h => exact iff_of_true trivial h
  · next h => exact iff_of_false id h

theorem isDirectory_of_node {p : List FileName} {n : FileName} {k : FileNode α}
    (h : fs.node (p ++ [n]) = some k) : fs.IsDirectory p :=
  isDirectory_iff.mpr (fs.node_parent (by rw [h]; rfl))

/-! ## Walks with a name behind them -/

/-- **A walk up to a link, with a name behind it.** -/
theorem advance_concat (follow : Bool) (p : List FileName) (segs : List (List Char))
    (seg : List Char) :
    fs.advance follow p (segs ++ [seg])
      = fs.nameBehind follow seg (fs.advance true p segs) := by
  induction segs generalizing p with
  | nil => rfl
  | cons s rest ih =>
    have hrest : rest ++ [seg] ≠ [] := List.append_ne_nil_of_right_ne_nil _ (List.cons_ne_nil _ _)
    rw [List.cons_append, advance, advance.eq_def fs true]
    dsimp only
    split
    · rfl
    · split
      · exact ih p
      · split
        · exact ih p.dropLast
        · cases fs.node (p ++ [s]) with
          | none =>
            dsimp only
            split <;> rfl
          | some k =>
            cases k with
            | link target =>
              dsimp only
              rw [if_neg fun h => hrest h.1, if_neg fun h => nomatch h.2]
              rfl
            | directory => exact ih (p ++ [s])
            | file content => exact ih (p ++ [s])
            | special => exact ih (p ++ [s])

/-- **A walk that arrives, with a name behind it**, is the walk of the name from
there, with the links that are left. -/
theorem walk_concat {links : ℕ} {p q : List FileName} {segs : List (List Char)}
    (h : fs.walk true links p segs = .found q) (follow : Bool) (seg : List Char) :
    ∃ left, fs.walk follow links p (segs ++ [seg]) = fs.walk follow left q [seg] := by
  induction links generalizing p segs with
  | zero =>
    rw [walk] at h
    split at h
    · next l hl =>
      subst h
      refine ⟨0, ?_⟩
      rw [walk, walk, advance_concat, hl]
      rfl
    · exact nomatch h
  | succ links ih =>
    rw [walk] at h
    split at h
    · next l hl =>
      subst h
      refine ⟨links + 1, ?_⟩
      rw [walk, walk, advance_concat, hl]
      rfl
    · next d target rest hl =>
      obtain ⟨left, hleft⟩ := ih h
      refine ⟨left, ?_⟩
      rw [walk, advance_concat, hl]
      dsimp only [nameBehind]
      rw [← List.append_assoc]
      exact hleft

theorem walk_nil_cons {p : List FileName} (h : fs.IsDirectory p) (follow : Bool)
    (links : ℕ) (segs : List (List Char)) :
    fs.walk follow links p ([] :: segs) = fs.walk follow links p segs := by
  have hadvance : fs.advance follow p ([] :: segs) = fs.advance follow p segs := by
    rw [advance, if_neg (not_not.mpr h), if_pos (Or.inl rfl)]
  cases links <;> rw [walk, walk, hadvance]

/-! ## The walk of one name -/

section Name

variable {p : List FileName} {seg : List Char} (follow : Bool) (links : ℕ)

theorem walk_name_of_not_directory (h : ¬ fs.IsDirectory p) :
    fs.walk follow links p [seg] = .failed .notDirectory := by
  have hadvance : fs.advance follow p [seg] = .ends (.failed .notDirectory) := by
    rw [advance, if_pos h]
  cases links <;> rw [walk, hadvance]

variable (hseg : Posix.Ordinary seg)

include hseg

theorem walk_name_missing (hdir : fs.IsDirectory p) (h : fs.node (p ++ [seg]) = none) :
    fs.walk follow links p [seg] = .missing (p ++ [seg]) := by
  have hadvance : fs.advance follow p [seg] = .ends (.missing (p ++ [seg])) := by
    rw [advance, if_neg (not_not.mpr hdir), if_neg (not_or.mpr ⟨hseg.1, hseg.2.2.1⟩),
      if_neg hseg.2.2.2, h]
    rfl
  cases links <;> rw [walk, hadvance]

/-- **A name of anything but a link that is followed.** -/
theorem walk_name_found {k : FileNode α} (h : fs.node (p ++ [seg]) = some k)
    (hlink : follow = false ∨ ∀ target, k ≠ .link target) :
    fs.walk follow links p [seg] = .found (p ++ [seg]) := by
  have hadvance : fs.advance follow p [seg] = .ends (.found (p ++ [seg])) := by
    rw [advance, if_neg (not_not.mpr (isDirectory_of_node h)),
      if_neg (not_or.mpr ⟨hseg.1, hseg.2.2.1⟩), if_neg hseg.2.2.2, h]
    cases k with
    | link target =>
      rcases hlink with rfl | hlink
      · simp
      · exact absurd rfl (hlink target)
    | directory => rfl
    | file content => rfl
    | special => rfl
  cases links <;> rw [walk, hadvance]

end Name

/-- **The walk of a name that is no link ends at the name**, if it does not
fail. -/
theorem eq_of_walk_name {p q : List FileName} {seg : List Char} (hseg : Posix.Ordinary seg)
    (hlink : ∀ target, fs.node (p ++ [seg]) ≠ some (.link target)) {follow : Bool}
    {links : ℕ} (h : fs.walk follow links p [seg] = .found q
      ∨ fs.walk follow links p [seg] = .missing q) : q = p ++ [seg] := by
  by_cases hdir : fs.IsDirectory p
  · cases hnode : fs.node (p ++ [seg]) with
    | none =>
      rw [walk_name_missing follow links hseg hdir hnode] at h
      simpa [eq_comm] using h
    | some k =>
      rw [walk_name_found follow links hseg hnode
        (.inr fun target hk => hlink target (hk ▸ hnode))] at h
      simpa [eq_comm] using h
  · rw [walk_name_of_not_directory follow links hdir] at h
    simp at h

/-! ## What a walk finds is stored -/

theorem isSome_node_dropLast {p : List FileName} (h : (fs.node p).isSome) :
    (fs.node p.dropLast).isSome := by
  rcases List.eq_nil_or_concat p with rfl | ⟨init, n, rfl⟩
  · exact h
  · rw [List.concat_eq_append] at h ⊢
    rw [List.dropLast_concat, fs.node_parent h]
    rfl

/-- **The names of a physical path are ordinary.** -/
theorem ordinary_of_node {p : List FileName} (h : (fs.node p).isSome) :
    ∀ n ∈ p, Posix.Ordinary n := by
  induction p using List.reverseRecOn with
  | nil => exact fun n hn => absurd hn List.not_mem_nil
  | append_singleton p n ih =>
    intro m hm
    rcases List.mem_append.mp hm with hm | hm
    · exact ih (by rw [fs.node_parent h]; rfl) m hm
    · rw [List.mem_singleton.mp hm]
      exact fs.ordinary h

theorem isSome_of_advance {follow : Bool} {p q : List FileName} {segs : List (List Char)}
    (h : fs.advance follow p segs = .ends (.found q)) (hp : (fs.node p).isSome) :
    (fs.node q).isSome := by
  induction segs generalizing p with
  | nil =>
    obtain rfl : p = q := by simpa [advance] using h
    exact hp
  | cons seg rest ih =>
    rw [advance] at h
    split at h
    · cases h
    · split at h
      · exact ih h hp
      · split at h
        · exact ih h (isSome_node_dropLast hp)
        · split at h
          · split at h <;> cases h
          · next target hnode =>
            split at h
            · obtain rfl : p ++ [seg] = q := by simpa using h
              rw [hnode]
              rfl
            · cases h
          · next hnode => exact ih h (by rw [hnode]; rfl)

/-- **What a walk finds is stored.** -/
theorem isSome_of_walk {follow : Bool} {links : ℕ} {p q : List FileName}
    {segs : List (List Char)} (h : fs.walk follow links p segs = .found q)
    (hsegs : segs ≠ []) : (fs.node q).isSome := by
  have hends : ∀ {p segs}, segs ≠ [] → fs.advance follow p segs = .ends (.found q) →
      (fs.node q).isSome := by
    intro p segs hsegs hl
    refine isSome_of_advance hl ?_
    cases segs with
    | nil => exact absurd rfl hsegs
    | cons seg rest =>
      rw [advance] at hl
      split at hl
      · cases hl
      · next hdir =>
        rw [isDirectory_iff.mp (not_not.mp hdir)]
        rfl
  induction links generalizing p segs with
  | zero =>
    rw [walk] at h
    split at h
    · next l hl =>
      subst h
      exact hends hsegs hl
    · exact nomatch h
  | succ links ih =>
    rw [walk] at h
    split at h
    · next l hl =>
      subst h
      exact hends hsegs hl
    · exact ih h (List.append_ne_nil_of_left_ne_nil (List.splitOn_ne_nil _ _) _)

/-! ## Where paths lead -/

theorem locate_of_nul {cwd : List FileName} {follow : Bool} {path : List Char}
    (hne : path ≠ []) (h : '\x00' ∈ path) :
    fs.locate cwd follow path = .failed .invalid := by
  unfold locate
  rw [if_neg hne, if_pos h]

theorem locate_eq_walk {cwd : List FileName} {follow : Bool} {path : List Char}
    (hne : path ≠ []) (h : '\x00' ∉ path) :
    fs.locate cwd follow path
      = fs.walk follow maxLinks (start cwd path) (path.splitOn '/') := by
  unfold locate
  rw [if_neg hne, if_neg h]

theorem walk_of_locate {cwd q : List FileName} {follow : Bool} {path : List Char}
    (h : fs.locate cwd follow path = .found q) :
    path ≠ [] ∧ fs.walk follow maxLinks (start cwd path) (path.splitOn '/') = .found q := by
  unfold locate at h
  split at h
  · exact nomatch h
  · next hne =>
    split at h
    · exact nomatch h
    · exact ⟨hne, h⟩

/-- **The path of a name in a place that another path leads to** leads to the
name there. -/
theorem locate_append {cwd q : List FileName} {path seg : List Char}
    (h : fs.locate cwd true path = .found q) (hseg : '/' ∉ seg) :
    (∀ follow, fs.locate cwd follow (path ++ '/' :: seg) = .failed .invalid)
      ∨ ∀ follow, ∃ links,
        fs.locate cwd follow (path ++ '/' :: seg) = fs.walk follow links q [seg] := by
  obtain ⟨hne, hwalk⟩ := walk_of_locate h
  have hne' := List.append_ne_nil_of_left_ne_nil hne ('/' :: seg)
  by_cases hnul : '\x00' ∈ path ++ '/' :: seg
  · exact .inl fun follow => locate_of_nul hne' hnul
  · refine .inr fun follow => ?_
    have hstart : start cwd (path ++ '/' :: seg) = start cwd path := by
      unfold start
      rw [List.head?_append_of_ne_nil path hne]
    rw [locate_eq_walk hne' hnul, hstart, List.splitOn_append_cons_self,
      List.splitOn_eq_singleton hseg]
    exact walk_concat hwalk follow seg

theorem locate_root (cwd : List FileName) : fs.locate cwd true ['/'] = .found [] := by
  have hsplit : ['/'].splitOn '/' = [[], []] := by decide
  unfold locate
  rw [if_neg (by decide), if_neg (by decide), hsplit]
  show fs.walk true maxLinks [] [[], []] = _
  rw [walk_nil_cons isDirectory_root, walk_nil_cons isDirectory_root]
  rfl

/-- **The absolute path of a name below another one.** -/
theorem locate_absolute {cwd q : List FileName} {segs : List (List Char)} {seg : List Char}
    (h : fs.locate cwd true (Posix.absolute segs) = .found q) (hseg : Posix.Ordinary seg) :
    (∀ follow, fs.locate cwd follow (Posix.absolute (segs ++ [seg])) = .failed .invalid)
      ∨ ∀ follow, ∃ links, fs.locate cwd follow (Posix.absolute (segs ++ [seg]))
        = fs.walk follow links q [seg] := by
  by_cases hs : segs = []
  · subst hs
    have hroot : fs.locate cwd true ['/'] = .found q := h
    rw [locate_root] at hroot
    obtain rfl := Located.found.inj hroot
    have hne : Posix.absolute ([] ++ [seg]) ≠ [] := List.cons_ne_nil _ _
    have hsplit : (Posix.absolute ([] ++ [seg])).splitOn '/' = [[], seg] := by
      rw [List.nil_append]
      exact Posix.splitOn_absolute (List.cons_ne_nil _ _) (by simpa using hseg)
    by_cases hnul : '\x00' ∈ Posix.absolute ([] ++ [seg])
    · exact .inl fun follow => locate_of_nul hne hnul
    · refine .inr fun follow => ⟨maxLinks, ?_⟩
      rw [locate_eq_walk hne hnul, hsplit]
      exact walk_nil_cons isDirectory_root follow maxLinks [seg]
  · rw [Posix.absolute_concat hs]
    exact locate_append h hseg.2.1

/-- **What a path leads to is stored.** -/
theorem isSome_of_locate {cwd q : List FileName} {follow : Bool} {path : List Char}
    (h : fs.locate cwd follow path = .found q) : (fs.node q).isSome := by
  exact isSome_of_walk (walk_of_locate h).2 (List.splitOn_ne_nil _ _)

theorem locate_nil (cwd : List FileName) (follow : Bool) :
    fs.locate cwd follow [] = .failed .noEntry := by
  unfold locate
  rw [if_pos rfl]

theorem realpath_eq_ok {cwd p : List FileName} {path : List Char} :
    fs.realpath cwd path = .ok p ↔ fs.locate cwd true path = .found p := by
  unfold realpath
  cases fs.locate cwd true path with
  | found q => simp
  | missing q => simp
  | failed e => simp

/-! ## Finite file systems -/

section OfEntries

variable (entries : List (List FileName × FileNode α))

/-- What a list of entries stores under a path. The root is a directory. -/
def nodeOf (p : List FileName) : Option (FileNode α) :=
  if p = [] then some .directory else entries.lookup p

/-- The names that a list of entries has in a directory. -/
def namesOf (p : List FileName) : List FileName :=
  entries.filterMap fun e => if e.1.dropLast = p then e.1.getLast? else none

/-- Every entry has an ordinary name, in a directory. -/
def WellFormed : Prop :=
  ∀ e ∈ entries, (∀ n ∈ e.1.getLast?, Posix.Ordinary n)
    ∧ match nodeOf entries e.1.dropLast with
      | some .directory => True
      | _ => False

instance (node : Option (FileNode α)) :
    Decidable (match node with | some .directory => True | _ => False) := by
  split
  · exact instDecidableTrue
  · exact instDecidableFalse

instance : Decidable (WellFormed entries) :=
  inferInstanceAs (Decidable (∀ e ∈ entries, _ ∧ _))

variable {entries}

theorem isSome_nodeOf_concat {p : List FileName} {n : FileName} :
    (nodeOf entries (p ++ [n])).isSome ↔ ∃ e ∈ entries, e.1 = p ++ [n] := by
  unfold nodeOf
  rw [if_neg (by simp), List.lookup_isSome_iff]
  refine exists_congr fun e => and_congr_right fun _ => ?_
  rw [beq_iff_eq, eq_comm]

theorem mem_namesOf {p : List FileName} {n : FileName} :
    n ∈ namesOf entries p ↔ (nodeOf entries (p ++ [n])).isSome := by
  rw [isSome_nodeOf_concat]
  unfold namesOf
  rw [List.mem_filterMap]
  refine exists_congr fun e => and_congr_right fun _ => ?_
  constructor
  · intro h
    split at h
    · next hp =>
      rw [← hp]
      exact (List.dropLast_append_getLast? n h).symm
    · exact nomatch h
  · intro h
    rw [h, List.dropLast_concat, if_pos rfl, List.getLast?_concat]

/-- **The file system of a list of entries.** -/
def ofEntries (h : WellFormed entries) : FileSystem α where
  node := nodeOf entries
  names := namesOf entries
  depth := (entries.map fun e => e.1.length).foldr max 0
  node_root := rfl
  mem_names := mem_namesOf
  node_parent := by
    intro p n hn
    obtain ⟨e, he, hpath⟩ := isSome_nodeOf_concat.mp hn
    obtain ⟨-, hdir⟩ := h e he
    rw [hpath, List.dropLast_concat] at hdir
    split at hdir
    · assumption
    · exact hdir.elim
  ordinary := by
    intro p n hn
    obtain ⟨e, he, hpath⟩ := isSome_nodeOf_concat.mp hn
    refine (h e he).1 n ?_
    rw [hpath, List.getLast?_concat]
    rfl
  length_le := by
    intro p hp
    rcases List.eq_nil_or_concat p with rfl | ⟨init, n, rfl⟩
    · exact Nat.zero_le _
    · rw [List.concat_eq_append] at hp ⊢
      obtain ⟨e, he, hpath⟩ := isSome_nodeOf_concat.mp hp
      have hlength : e.1.length ∈ entries.map fun e => e.1.length :=
        List.mem_map_of_mem he
      rw [← hpath]
      exact List.le_max_of_le' 0 hlength (Nat.le_refl _)

end OfEntries

end FileSystem
