import Mathlib.Data.List.DropRight
import Mathlib.Tactic.Common
import MissionControl.Library.Lines

/-!
# POSIX paths

Paths are texts, and what they mean is the list of their segments. The
operations are the ones of a POSIX path library: `Posix.normalize` resolves
the segments `.` and `..` and repeated slashes on a stack, `Posix.join`
puts texts together and normalizes.

An **ordinary** segment is one that normalization keeps as it is. A path
whose segments are ordinary is `Posix.absolute` of them, joining ordinary
segments to it appends them (`Posix.join_absolute`), and two such paths are
compared segment by segment (`Posix.segments_absolute`) – so containment of
one path in another is containment of lists, not of texts.
-/

namespace Posix

/-- **An ordinary segment**: not empty, without a slash, and neither of the
two dot segments. -/
def Ordinary (seg : List Char) : Prop :=
  seg ≠ [] ∧ '/' ∉ seg ∧ seg ≠ ['.'] ∧ seg ≠ ['.', '.']

instance : DecidablePred Ordinary :=
  fun _ => inferInstanceAs (Decidable (_ ∧ _ ∧ _ ∧ _))

/-- One segment put on the stack of segments, latest first. `above` says
whether the path may climb above where it starts. -/
def push (above : Bool) (stack : List (List Char)) (seg : List Char) :
    List (List Char) :=
  if seg = [] ∨ seg = ['.'] then stack
  else if seg = ['.', '.'] then
    match stack with
    | [] => if above then [seg] else []
    | top :: rest => if top = ['.', '.'] then seg :: stack else rest
  else seg :: stack

/-- The segments of a path with the dot segments resolved. -/
def resolve (above : Bool) (segs : List (List Char)) : List (List Char) :=
  (segs.foldl (push above) []).reverse

/-- **Normalization.** -/
def normalize (p : List Char) : List Char :=
  if p = [] then ['.']
  else
    let isAbsolute := p.head? = some '/'
    let trailing := p.getLast? = some '/'
    let body := ['/'].intercalate (resolve (!isAbsolute) (p.splitOn '/'))
    if body = [] then
      if isAbsolute then ['/'] else if trailing then ['.', '/'] else ['.']
    else
      (if isAbsolute then ['/'] else []) ++ body
        ++ (if trailing then ['/'] else [])

/-- **Joining**: the non-empty parts with a slash between, normalized. -/
def join (parts : List (List Char)) : List Char :=
  match parts.filter (· ≠ []) with
  | [] => ['.']
  | args => normalize (['/'].intercalate args)

/-- A text without the slashes at its end. -/
def stripSlashes (p : List Char) : List Char := p.rdropWhile (· = '/')

def absolute (segs : List (List Char)) : List Char :=
  '/' :: ['/'].intercalate segs

/-- **The segments of a path**, the empty ones dropped. -/
def segments (p : List Char) : List (List Char) :=
  (p.splitOn '/').filter (· ≠ [])

/-- An absolute path that normalization keeps, other than the root. -/
structure IsNormalAbsolute (p : List Char) : Prop where
  head : p.head? = some '/'
  normal : normalize p = p
  ne_root : p ≠ ['/']

instance : DecidablePred IsNormalAbsolute := fun p =>
  decidable_of_iff (p.head? = some '/' ∧ normalize p = p ∧ p ≠ ['/'])
    ⟨fun h => ⟨h.1, h.2.1, h.2.2⟩, fun h => ⟨h.head, h.normal, h.ne_root⟩⟩

/-- **One path contains another**: its segments are the first ones of the
other. -/
def Contains (p q : List Char) : Prop := segments p <+: segments q

instance (p q : List Char) : Decidable (Contains p q) :=
  inferInstanceAs (Decidable (_ <+: _))

/-! ## Splitting at the slashes -/

theorem absolute_eq_intercalate {segs : List (List Char)} (h : segs ≠ []) :
    absolute segs = ['/'].intercalate ([] :: segs) := by
  rw [absolute, List.intercalate_cons_of_ne_nil h]
  rfl

theorem splitOn_absolute {segs : List (List Char)} (h : segs ≠ [])
    (hsegs : ∀ seg ∈ segs, Ordinary seg) :
    (absolute segs).splitOn '/' = [] :: segs := by
  rw [absolute_eq_intercalate h]
  refine List.splitOn_intercalate '/' ?_ (List.cons_ne_nil _ _)
  intro seg hseg
  rcases List.mem_cons.mp hseg with rfl | hseg
  · exact List.not_mem_nil
  · exact (hsegs seg hseg).2.1

/-- **The segments of a path of ordinary segments are those.** -/
theorem segments_absolute {segs : List (List Char)} (h : segs ≠ [])
    (hsegs : ∀ seg ∈ segs, Ordinary seg) : segments (absolute segs) = segs := by
  unfold segments
  rw [splitOn_absolute h hsegs, List.filter_cons_of_neg (by simp)]
  exact List.filter_eq_self.mpr (fun seg hseg => by simpa using (hsegs seg hseg).1)

theorem intercalate_append {l more : List (List Char)} (hl : l ≠ [])
    (hmore : more ≠ []) : ['/'].intercalate (l ++ more)
      = ['/'].intercalate l ++ '/' :: ['/'].intercalate more := by
  induction l with
  | nil => exact absurd rfl hl
  | cons a l ih =>
    by_cases hl' : l = []
    · subst hl'
      rw [List.singleton_append, List.intercalate_cons_of_ne_nil hmore,
        List.intercalate_singleton, List.append_assoc, List.singleton_append]
    · rw [List.cons_append, List.intercalate_cons_of_ne_nil
          (List.append_ne_nil_of_left_ne_nil hl' more), ih hl',
        List.intercalate_cons_of_ne_nil hl']
      simp only [List.append_assoc]

/-- A character of a path is a slash or stands in one of the segments. -/
theorem mem_intercalate {l : List (List Char)} {c : Char}
    (h : c ∈ ['/'].intercalate l) : c = '/' ∨ ∃ seg ∈ l, c ∈ seg := by
  induction l with
  | nil => exact absurd h List.not_mem_nil
  | cons seg l ih =>
    by_cases hl : l = []
    · subst hl
      rw [List.intercalate_singleton] at h
      exact Or.inr ⟨seg, List.mem_singleton_self seg, h⟩
    · rw [List.intercalate_cons_of_ne_nil hl, List.mem_append,
        List.mem_append, List.mem_singleton] at h
      rcases h with (h | h) | h
      · exact Or.inr ⟨seg, List.mem_cons_self, h⟩
      · exact Or.inl h
      · rcases ih h with h | ⟨s, hs, hc⟩
        · exact Or.inl h
        · exact Or.inr ⟨s, List.mem_cons_of_mem _ hs, hc⟩

theorem absolute_append {segs more : List (List Char)} (h : segs ≠ [])
    (hmore : more ≠ []) :
    absolute (segs ++ more) = ['/'].intercalate (absolute segs :: more) := by
  rw [absolute, intercalate_append h hmore,
    List.intercalate_cons_of_ne_nil hmore, absolute, List.append_assoc,
    List.singleton_append, List.cons_append]

theorem absolute_concat {segs : List (List Char)} (h : segs ≠ [])
    (seg : List Char) : absolute (segs ++ [seg]) = absolute segs ++ '/' :: seg := by
  rw [absolute_append h (List.cons_ne_nil _ _),
    List.intercalate_cons_of_ne_nil (List.cons_ne_nil _ _),
    List.intercalate_singleton, List.append_assoc, List.singleton_append]

/-- A path whose last segment has no slash and is not empty does not end in
a slash. -/
theorem getLast?_append_ne_slash (p : List Char) {seg : List Char}
    (hne : seg ≠ []) (hslash : '/' ∉ seg) :
    (p ++ seg).getLast? ≠ some '/' := by
  rw [List.getLast?_append_of_ne_nil p hne, List.getLast?_eq_getLast_of_ne_nil hne]
  intro h
  exact hslash (Option.some.inj h ▸ List.getLast_mem hne)

theorem exists_absolute_eq_append {segs : List (List Char)} (h : segs ≠ []) :
    ∃ p, absolute segs = p ++ segs.getLast h := by
  by_cases hinit : segs.dropLast = []
  · refine ⟨['/'], ?_⟩
    have hseg : segs = [segs.getLast h] := by
      conv_lhs => rw [← List.dropLast_append_getLast h, hinit, List.nil_append]
    conv_lhs => rw [hseg]
    rw [absolute, List.intercalate_singleton]
    rfl
  · refine ⟨absolute segs.dropLast ++ ['/'], ?_⟩
    conv_lhs => rw [← List.dropLast_append_getLast h]
    rw [absolute_concat hinit, List.append_assoc, List.singleton_append]

theorem getLast?_absolute_ne_slash {segs : List (List Char)} (h : segs ≠ [])
    (hsegs : ∀ seg ∈ segs, Ordinary seg) :
    (absolute segs).getLast? ≠ some '/' := by
  obtain ⟨p, hp⟩ := exists_absolute_eq_append h
  have hlast := hsegs _ (List.getLast_mem h)
  rw [hp]
  exact getLast?_append_ne_slash p hlast.1 hlast.2.1

/-! ## Resolving ordinary segments -/

theorem push_ordinary (above : Bool) (stack : List (List Char))
    {seg : List Char} (h : Ordinary seg) : push above stack seg = seg :: stack := by
  unfold push
  rw [if_neg (not_or.mpr ⟨h.1, h.2.2.1⟩), if_neg h.2.2.2]

theorem foldl_push_ordinary (above : Bool) (stack : List (List Char))
    {segs : List (List Char)} (h : ∀ seg ∈ segs, Ordinary seg) :
    segs.foldl (push above) stack = segs.reverse ++ stack := by
  induction segs generalizing stack with
  | nil => rfl
  | cons seg segs ih =>
    rw [List.foldl_cons, push_ordinary above stack (h seg (by simp)),
      ih _ (fun s hs => h s (List.mem_cons_of_mem _ hs)),
      List.reverse_cons, List.append_assoc, List.singleton_append]

/-- **What an absolute path resolves to is ordinary.** -/
theorem ordinary_of_mem_resolve {segs : List (List Char)}
    (h : ∀ seg ∈ segs, '/' ∉ seg) :
    ∀ seg ∈ resolve false segs, Ordinary seg := by
  have hstack : ∀ stack : List (List Char), (∀ s ∈ stack, Ordinary s) →
      ∀ s ∈ segs.foldl (push false) stack, Ordinary s := by
    induction segs with
    | nil => exact fun stack hs => hs
    | cons seg segs ih =>
      intro stack hs
      refine ih (fun s hs' => h s (List.mem_cons_of_mem _ hs')) _ ?_
      unfold push
      split
      · exact hs
      · next hdot =>
        split
        · cases stack with
          | nil => simp
          | cons top rest =>
            -- the stack holds ordinary segments, so its top is not `..`
            have htop : top ≠ ['.', '.'] := (hs top (by simp)).2.2.2
            simp only [htop, if_false]
            exact fun s hs' => hs s (List.mem_cons_of_mem _ hs')
        · next hdots =>
          intro s hs'
          rcases List.mem_cons.mp hs' with rfl | hs'
          · rw [not_or] at hdot
            exact ⟨hdot.1, h s (by simp), hdot.2, hdots⟩
          · exact hs s hs'
  intro seg hseg
  exact hstack [] (by simp) seg (List.mem_reverse.mp hseg)

/-! ## Normalization and joining -/

theorem intercalate_ne_nil {segs : List (List Char)} (h : segs ≠ [])
    (hsegs : ∀ seg ∈ segs, Ordinary seg) : ['/'].intercalate segs ≠ [] := by
  cases segs with
  | nil => exact absurd rfl h
  | cons seg segs =>
    have hseg : seg ≠ [] := (hsegs seg (by simp)).1
    by_cases hs : segs = []
    · subst hs
      rwa [List.intercalate_singleton]
    · rw [List.intercalate_cons_of_ne_nil hs]
      exact List.append_ne_nil_of_left_ne_nil
        (List.append_ne_nil_of_left_ne_nil hseg _) _

/-- **Normalization keeps an absolute path of ordinary segments.** -/
theorem normalize_absolute {segs : List (List Char)} (h : segs ≠ [])
    (hsegs : ∀ seg ∈ segs, Ordinary seg) :
    normalize (absolute segs) = absolute segs := by
  have hhead : (absolute segs).head? = some '/' := rfl
  have hresolve : resolve false ([] :: segs) = segs := by
    unfold resolve
    rw [List.foldl_cons, show push false [] [] = [] from rfl,
      foldl_push_ordinary false [] hsegs, List.append_nil, List.reverse_reverse]
  unfold normalize
  rw [if_neg (show absolute segs ≠ [] from List.cons_ne_nil _ _),
    splitOn_absolute h hsegs]
  simp only [hhead, decide_true, Bool.not_true, hresolve,
    intercalate_ne_nil h hsegs, getLast?_absolute_ne_slash h hsegs, if_true,
    if_false, List.append_nil]
  rfl

/-- **The segments of a normal absolute path**: without the slashes at its
end it is the absolute path of one or more ordinary segments. -/
theorem IsNormalAbsolute.exists_segments {p : List Char}
    (h : IsNormalAbsolute p) :
    ∃ segs, segs ≠ [] ∧ (∀ seg ∈ segs, Ordinary seg)
      ∧ stripSlashes p = absolute segs := by
  have hne : p ≠ [] := by
    intro hp
    have := h.head
    simp [hp] at this
  have hsegs : ∀ seg ∈ resolve false (p.splitOn '/'), Ordinary seg :=
    ordinary_of_mem_resolve (Lines.notMem_of_mem_splitOn '/' p)
  have hnormal := h.normal
  unfold normalize at hnormal
  simp only [hne, h.head, decide_true, Bool.not_true, if_true, if_false] at hnormal
  generalize hs : resolve false (p.splitOn '/') = segs at hsegs hnormal
  have hsegs_ne : segs ≠ [] := by
    rintro rfl
    rw [List.intercalate_nil, if_pos rfl] at hnormal
    exact h.ne_root hnormal.symm
  rw [if_neg (intercalate_ne_nil hsegs_ne hsegs)] at hnormal
  refine ⟨segs, hsegs_ne, hsegs, ?_⟩
  have hkeep : stripSlashes (absolute segs) = absolute segs := by
    refine List.rdropWhile_eq_self_iff.mpr (fun hl => ?_)
    have hlast := getLast?_absolute_ne_slash hsegs_ne hsegs
    rw [List.getLast?_eq_getLast_of_ne_nil hl] at hlast
    simpa using hlast
  rw [← hnormal]
  show stripSlashes (absolute segs ++ _) = _
  split
  · unfold stripSlashes at hkeep ⊢
    rw [List.rdropWhile_concat_pos _ _ _ (by simp)]
    exact hkeep
  · rw [List.append_nil]
    exact hkeep

theorem stripSlashes_ordinary {seg : List Char} (h : '/' ∉ seg) :
    stripSlashes seg = seg := by
  refine List.rdropWhile_eq_self_iff.mpr (fun hl => ?_)
  have hmem := List.getLast_mem hl
  simp only [decide_eq_true_eq]
  exact fun heq => h (heq ▸ hmem)

/-- **Joining ordinary segments to an absolute path appends them.** -/
theorem join_absolute {segs more : List (List Char)} (h : segs ≠ [])
    (hsegs : ∀ seg ∈ segs, Ordinary seg) (hmore : ∀ seg ∈ more, Ordinary seg) :
    join (absolute segs :: more) = absolute (segs ++ more) := by
  have hfilter : (absolute segs :: more).filter (· ≠ []) = absolute segs :: more := by
    refine List.filter_eq_self.mpr (fun seg hseg => ?_)
    rcases List.mem_cons.mp hseg with rfl | hseg
    · simp [absolute]
    · simpa using (hmore seg hseg).1
  have hall : ∀ seg ∈ segs ++ more, Ordinary seg := by
    intro seg hseg
    rcases List.mem_append.mp hseg with hseg | hseg
    · exact hsegs seg hseg
    · exact hmore seg hseg
  unfold join
  rw [hfilter]
  show normalize (['/'].intercalate (absolute segs :: more)) = _
  by_cases hm : more = []
  · subst hm
    rw [List.intercalate_singleton, List.append_nil]
    exact normalize_absolute h hsegs
  · rw [← absolute_append h hm]
    exact normalize_absolute (List.append_ne_nil_of_left_ne_nil h more) hall

/-- **An ordinary segment after an ordinary segment**: normalizing the longer
text is normalizing the shorter one and appending, whatever comes before. -/
theorem normalize_append_ordinary {q a b : List Char}
    (hq : ∃ init, q.splitOn '/' = init ++ [a]) (ha : Ordinary a)
    (hb : Ordinary b) : normalize (q ++ '/' :: b) = normalize q ++ '/' :: b := by
  obtain ⟨init, hinit⟩ := hq
  have hq : q = ['/'].intercalate (init ++ [a]) := by
    rw [← hinit, List.intercalate_splitOn]
  -- the last segment is ordinary, so nothing of `q` but its segments counts
  have hqa : ∃ p, q = p ++ a := by
    by_cases hi : init = []
    · refine ⟨[], ?_⟩
      rw [hq, hi, List.nil_append, List.intercalate_singleton, List.nil_append]
    · refine ⟨['/'].intercalate init ++ ['/'], ?_⟩
      rw [hq, intercalate_append hi (List.cons_ne_nil _ _),
        List.intercalate_singleton, List.append_assoc, List.singleton_append]
  obtain ⟨p, hp⟩ := hqa
  have hqne : q ≠ [] := by
    rw [hp]
    exact List.append_ne_nil_of_right_ne_nil p ha.1
  have hlast : q.getLast? ≠ some '/' := by
    rw [hp]
    exact getLast?_append_ne_slash p ha.1 ha.2.1
  have hlast' : (q ++ '/' :: b).getLast? ≠ some '/' := by
    rw [show q ++ '/' :: b = (q ++ ['/']) ++ b by simp]
    exact getLast?_append_ne_slash _ hb.1 hb.2.1
  have hhead : (q ++ '/' :: b).head? = q.head? := by
    rw [List.head?_append_of_ne_nil q hqne]
  have hsplit : (q ++ '/' :: b).splitOn '/' = init ++ [a] ++ [b] := by
    rw [List.splitOn_append_cons_self, hinit,
      List.splitOn_eq_singleton hb.2.1]
  have hresolve : ∀ above, resolve above (init ++ [a])
      = (init.foldl (push above) []).reverse ++ [a] := by
    intro above
    unfold resolve
    rw [List.foldl_append, List.foldl_cons, List.foldl_nil,
      push_ordinary above _ ha, List.reverse_cons]
  have hresolve' : ∀ above, resolve above (init ++ [a] ++ [b])
      = resolve above (init ++ [a]) ++ [b] := by
    intro above
    unfold resolve
    rw [List.foldl_append, List.foldl_cons, List.foldl_nil,
      push_ordinary above _ hb, List.reverse_cons]
  have hcat : ∀ l : List (List Char), ['/'].intercalate (l ++ [a] ++ [b])
      = ['/'].intercalate (l ++ [a]) ++ '/' :: b := by
    intro l
    rw [intercalate_append (by simp) (List.cons_ne_nil _ _),
      List.intercalate_singleton]
  have hbody : ∀ l : List (List Char), ['/'].intercalate (l ++ [a]) ≠ [] := by
    intro l
    cases l with
    | nil =>
      rw [List.nil_append, List.intercalate_singleton]
      exact ha.1
    | cons x l =>
      rw [List.cons_append, List.intercalate_cons_of_ne_nil (by simp)]
      simp
  unfold normalize
  rw [if_neg (List.append_ne_nil_of_left_ne_nil hqne _), if_neg hqne]
  simp only [hhead, hsplit, hinit, hresolve', hlast, hlast', if_false,
    List.append_nil]
  rw [hresolve, hcat, if_neg (hbody _), if_neg (by simp), List.append_assoc]

/-- **Joining one more ordinary segment appends it**, whatever the parts
before the last two are. -/
theorem join_append_ordinary (parts : List (List Char)) {a b : List Char}
    (ha : Ordinary a) (hb : Ordinary b) :
    join (parts ++ [a, b]) = join (parts ++ [a]) ++ '/' :: b := by
  have haf : [a].filter (· ≠ []) = [a] := by simpa using ha.1
  have hbf : [b].filter (· ≠ []) = [b] := by simpa using hb.1
  have hjoin : ∀ more : List (List Char), more ≠ [] →
      more.filter (· ≠ []) = more → join (parts ++ more)
        = normalize (['/'].intercalate (parts.filter (· ≠ []) ++ more)) := by
    intro more hmore hf
    unfold join
    rw [List.filter_append, hf]
    split
    · next h => exact absurd (List.append_eq_nil_iff.mp h).2 hmore
    · rfl
  have hcat : parts.filter (· ≠ []) ++ [a, b]
      = (parts.filter (· ≠ []) ++ [a]) ++ [b] := by
    rw [List.append_assoc, List.singleton_append]
  rw [hjoin [a, b] (List.cons_ne_nil _ _)
      (by rw [← List.singleton_append, List.filter_append, haf, hbf]),
    hjoin [a] (List.cons_ne_nil _ _) haf, hcat,
    intercalate_append (List.append_ne_nil_of_right_ne_nil _
      (List.cons_ne_nil _ _)) (List.cons_ne_nil _ _),
    List.intercalate_singleton]
  refine normalize_append_ordinary ?_ ha hb
  by_cases hl : parts.filter (· ≠ []) = []
  · refine ⟨[], ?_⟩
    rw [hl, List.nil_append, List.intercalate_singleton,
      List.splitOn_eq_singleton ha.2.1]
  · refine ⟨(['/'].intercalate (parts.filter (· ≠ []))).splitOn '/', ?_⟩
    rw [intercalate_append hl (List.cons_ne_nil _ _),
      List.intercalate_singleton, List.splitOn_append_cons_self,
      List.splitOn_eq_singleton ha.2.1]

/-! ## Paths that are normal already -/

/-- **The segments of a normal path**: ordinary ones, behind some `..` if the
path may climb. -/
def Resolved (above : Bool) (segs : List (List Char)) : Prop :=
  ∃ k more, segs = List.replicate k ['.', '.'] ++ more ∧ (∀ seg ∈ more, Ordinary seg)
    ∧ (above = false → k = 0)

theorem resolved_push {above : Bool} {stack : List (List Char)} {seg : List Char}
    (h : Resolved above stack.reverse) (hseg : '/' ∉ seg) :
    Resolved above (push above stack seg).reverse := by
  unfold push
  split
  · exact h
  · next hdot =>
    obtain ⟨k, more, heq, hmore, hk⟩ := h
    split
    · next hdots =>
      subst hdots
      cases stack with
      | nil =>
        cases above with
        | false => exact ⟨0, [], rfl, by simp, fun _ => rfl⟩
        | true => exact ⟨1, [], rfl, by simp, nofun⟩
      | cons top rest =>
        rw [List.reverse_cons] at heq
        rcases List.eq_nil_or_concat more with rfl | ⟨init, last, rfl⟩
        · -- only `..` on the stack: one more of them
          rw [List.append_nil] at heq
          have htop : top = ['.', '.'] :=
            List.eq_of_mem_replicate (heq ▸ List.mem_append_right _ (List.mem_singleton_self _))
          dsimp only
          rw [if_pos htop]
          refine ⟨k + 1, [], ?_, by simp, fun ha => ?_⟩
          · rw [List.reverse_cons, List.reverse_cons, heq, List.append_nil,
              List.replicate_succ']
          · rw [hk ha] at heq
            simp at heq
        · -- an ordinary segment on top: it is taken back
          rw [List.concat_eq_append, ← List.append_assoc] at heq
          obtain ⟨hrest, hlast⟩ := List.append_inj' heq rfl
          obtain rfl : top = last := by simpa using hlast
          have htop := hmore top (by simp)
          dsimp only
          rw [if_neg htop.2.2.2, hrest]
          exact ⟨k, init, rfl, fun s hs => hmore s (by simp [hs]), hk⟩
    · next hdots =>
      rw [not_or] at hdot
      refine ⟨k, more ++ [seg], ?_, ?_, hk⟩
      · rw [List.reverse_cons, heq, List.append_assoc]
      · intro s hs
        rcases List.mem_append.mp hs with hs | hs
        · exact hmore s hs
        · rw [List.mem_singleton.mp hs]
          exact ⟨hdot.1, hseg, hdot.2, hdots⟩

/-- **What a path resolves to is normal.** -/
theorem resolved_resolve (above : Bool) {segs : List (List Char)}
    (h : ∀ seg ∈ segs, '/' ∉ seg) : Resolved above (resolve above segs) := by
  have hstack : ∀ stack : List (List Char), Resolved above stack.reverse →
      Resolved above (segs.foldl (push above) stack).reverse := by
    induction segs with
    | nil => exact fun stack hs => hs
    | cons seg segs ih =>
      intro stack hs
      exact ih (fun s hs' => h s (List.mem_cons_of_mem _ hs')) _
        (resolved_push hs (h seg List.mem_cons_self))
  exact hstack [] ⟨0, [], rfl, by simp, fun _ => rfl⟩

/-- **A normal path resolves to itself.** -/
theorem resolve_of_resolved {above : Bool} {segs : List (List Char)}
    (h : Resolved above segs) : resolve above segs = segs := by
  obtain ⟨k, more, rfl, hmore, hk⟩ := h
  have hdots : (List.replicate k ['.', '.']).foldl (push above) []
      = List.replicate k ['.', '.'] := by
    cases above with
    | false => rw [hk rfl]; rfl
    | true =>
      clear hk
      induction k with
      | zero => rfl
      | succ k ih =>
        rw [List.replicate_succ', List.foldl_append, ih, List.foldl_cons, List.foldl_nil]
        cases k with
        | zero => rfl
        | succ k =>
          rw [← List.replicate_succ']
          rfl
  unfold resolve
  rw [List.foldl_append, hdots, foldl_push_ordinary above _ hmore, List.reverse_append,
    List.reverse_reverse, List.reverse_replicate]

/-- **A normal path that ends with a name.** -/
structure EndsNormal (p : List Char) : Prop where
  normal : normalize p = p
  last : ∃ init seg, Ordinary seg ∧ p.splitOn '/' = init ++ [seg]

theorem EndsNormal.ne_nil {p : List Char} (h : EndsNormal p) : p ≠ [] := by
  rintro rfl
  obtain ⟨init, seg, hseg, hsplit⟩ := h.last
  have hlast := congrArg List.getLast? hsplit
  rw [List.splitOn_nil, List.getLast?_singleton, List.getLast?_concat] at hlast
  exact hseg.1 (Option.some.inj hlast).symm

/-- **A name is joined to a normal path by a slash.** -/
theorem EndsNormal.join_eq {p : List Char} (h : EndsNormal p) {b : List Char}
    (hb : Ordinary b) : join [p, b] = p ++ '/' :: b := by
  obtain ⟨init, seg, hseg, hsplit⟩ := h.last
  have hparts : [p, b].filter (· ≠ []) = [p, b] := by simp [h.ne_nil, hb.1]
  unfold join
  rw [hparts]
  show normalize (['/'].intercalate [p, b]) = _
  rw [List.intercalate_cons_of_ne_nil (List.cons_ne_nil _ _), List.intercalate_singleton,
    List.append_assoc, List.singleton_append,
    normalize_append_ordinary ⟨init, hsplit⟩ hseg hb, h.normal]

theorem EndsNormal.append {p : List Char} (h : EndsNormal p) {b : List Char}
    (hb : Ordinary b) : EndsNormal (p ++ '/' :: b) := by
  obtain ⟨init, seg, hseg, hsplit⟩ := h.last
  refine ⟨?_, p.splitOn '/', b, hb, ?_⟩
  · rw [normalize_append_ordinary ⟨init, hsplit⟩ hseg hb, h.normal]
  · rw [List.splitOn_append_cons_self, List.splitOn_eq_singleton hb.2.1]

theorem EndsNormal.join {p : List Char} (h : EndsNormal p) {b : List Char}
    (hb : Ordinary b) : EndsNormal (Posix.join [p, b]) := by
  rw [h.join_eq hb]
  exact h.append hb

theorem Resolved.slash_notMem {above : Bool} {segs : List (List Char)}
    (h : Resolved above segs) : ∀ seg ∈ segs, '/' ∉ seg := by
  obtain ⟨k, more, rfl, hmore, -⟩ := h
  intro seg hseg
  rcases List.mem_append.mp hseg with hdots | hseg
  · rw [List.eq_of_mem_replicate hdots]
    decide
  · exact (hmore seg hseg).2.1

theorem Resolved.ne_nil {above : Bool} {segs : List (List Char)}
    (h : Resolved above segs) : ∀ seg ∈ segs, seg ≠ [] := by
  obtain ⟨k, more, rfl, hmore, -⟩ := h
  intro seg hseg
  rcases List.mem_append.mp hseg with hdots | hseg
  · rw [List.eq_of_mem_replicate hdots]
    decide
  · exact (hmore seg hseg).1

/-- A text of segments that are not empty does not begin with a slash. -/
theorem head?_intercalate {segs : List (List Char)} (hne : segs ≠ [])
    (h : ∀ seg ∈ segs, seg ≠ []) (hslash : ∀ seg ∈ segs, '/' ∉ seg) :
    ∃ c, c ≠ '/' ∧ (['/'].intercalate segs).head? = some c := by
  cases segs with
  | nil => exact absurd rfl hne
  | cons seg segs =>
    cases seg with
    | nil => exact absurd rfl (h [] List.mem_cons_self)
    | cons c seg =>
      have hc : c ≠ '/' := by
        rintro rfl
        exact hslash _ List.mem_cons_self List.mem_cons_self
      refine ⟨c, hc, ?_⟩
      by_cases hs : segs = []
      · rw [hs, List.intercalate_singleton]
        rfl
      · rw [List.intercalate_cons_of_ne_nil hs]
        rfl

/-- **A relative path of normal segments is normal.** -/
theorem normalize_relative {init : List (List Char)} {a : List Char} (ha : Ordinary a)
    (h : Resolved true (init ++ [a])) :
    normalize (['/'].intercalate (init ++ [a])) = ['/'].intercalate (init ++ [a])
      ∧ (['/'].intercalate (init ++ [a])).splitOn '/' = init ++ [a] := by
  have hne : init ++ [a] ≠ [] := by simp
  have hsplit : (['/'].intercalate (init ++ [a])).splitOn '/' = init ++ [a] :=
    List.splitOn_intercalate '/' h.slash_notMem hne
  refine ⟨?_, hsplit⟩
  obtain ⟨c, hc, hhead⟩ := head?_intercalate hne h.ne_nil h.slash_notMem
  have hbody : ['/'].intercalate (init ++ [a]) ≠ [] := by
    intro hnil
    rw [hnil] at hhead
    exact nomatch hhead
  have hlast : (['/'].intercalate (init ++ [a])).getLast? ≠ some '/' := by
    by_cases hi : init = []
    · rw [hi, List.nil_append, List.intercalate_singleton]
      simpa using getLast?_append_ne_slash [] ha.1 ha.2.1
    · rw [intercalate_append hi (List.cons_ne_nil _ _), List.intercalate_singleton]
      simpa using
        getLast?_append_ne_slash (['/'].intercalate init ++ ['/']) ha.1 ha.2.1
  have habove : (['/'].intercalate (init ++ [a])).head? ≠ some '/' := by
    rw [hhead]
    exact fun heq => hc (Option.some.inj heq)
  unfold normalize
  rw [if_neg hbody, hsplit]
  simp only [habove, decide_false, Bool.not_false, resolve_of_resolved h, hbody, hlast,
    if_false, List.nil_append, List.append_nil]

/-- **A name that is joined to any path leaves a normal one.** -/
theorem endsNormal_join {base a : List Char} (hbase : base ≠ []) (ha : Ordinary a) :
    EndsNormal (join [base, a]) := by
  have hparts : [base, a].filter (· ≠ []) = [base, a] := by simp [hbase, ha.1]
  have hsplit : (base ++ '/' :: a).splitOn '/' = base.splitOn '/' ++ [a] := by
    rw [List.splitOn_append_cons_self, List.splitOn_eq_singleton ha.2.1]
  have hlast : (base ++ '/' :: a).getLast? ≠ some '/' := by
    rw [show base ++ '/' :: a = (base ++ ['/']) ++ a by simp]
    exact getLast?_append_ne_slash _ ha.1 ha.2.1
  have hjoin : join [base, a] = normalize (base ++ '/' :: a) := by
    unfold join
    rw [hparts]
    show normalize (['/'].intercalate [base, a]) = _
    rw [List.intercalate_cons_of_ne_nil (List.cons_ne_nil _ _), List.intercalate_singleton,
      List.append_assoc, List.singleton_append]
  rw [hjoin]
  have hne : base ++ '/' :: a ≠ [] := by simp
  -- the segments of the path, the name last
  have hsegs : ∀ above, ∃ init, resolve above ((base ++ '/' :: a).splitOn '/')
      = init ++ [a] := by
    intro above
    refine ⟨((base.splitOn '/').foldl (push above) []).reverse, ?_⟩
    unfold resolve
    rw [hsplit, List.foldl_append, List.foldl_cons, List.foldl_nil,
      push_ordinary above _ ha, List.reverse_cons]
  have hslash := Lines.notMem_of_mem_splitOn '/' (base ++ '/' :: a)
  by_cases habs : (base ++ '/' :: a).head? = some '/'
  · obtain ⟨init, hinit⟩ := hsegs false
    have hord := ordinary_of_mem_resolve hslash
    rw [hinit] at hord
    have hseg : init ++ [a] ≠ [] := by simp
    have hnormal : normalize (base ++ '/' :: a) = absolute (init ++ [a]) := by
      unfold normalize
      rw [if_neg hne]
      simp only [habs, decide_true, Bool.not_true, hinit, intercalate_ne_nil hseg hord,
        hlast, if_true, if_false, List.append_nil]
      rfl
    rw [hnormal]
    exact ⟨normalize_absolute hseg hord, [] :: init, a, ha, splitOn_absolute hseg hord⟩
  · obtain ⟨init, hinit⟩ := hsegs true
    have hres := resolved_resolve true hslash
    rw [hinit] at hres
    obtain ⟨hkeep, hsplit'⟩ := normalize_relative ha hres
    have hbody : ['/'].intercalate (init ++ [a]) ≠ [] := by
      obtain ⟨c, -, hhead⟩ := head?_intercalate (by simp) hres.ne_nil hres.slash_notMem
      intro hnil
      rw [hnil] at hhead
      exact nomatch hhead
    have hnormal : normalize (base ++ '/' :: a) = ['/'].intercalate (init ++ [a]) := by
      unfold normalize
      rw [if_neg hne]
      simp only [habs, decide_false, Bool.not_false, hinit, hbody, hlast, if_false,
        List.nil_append, List.append_nil]
    rw [hnormal]
    exact ⟨hkeep, init, a, ha, hsplit'⟩

/-! ## Containment of texts -/

theorem segments_absolute_of_ordinary {segs : List (List Char)} (h : ∀ seg ∈ segs, Ordinary seg) :
    segments (absolute segs) = segs := by
  by_cases hs : segs = []
  · subst hs
    decide
  · exact segments_absolute hs h

theorem segments_append (p q : List Char) :
    segments (p ++ '/' :: q) = segments p ++ segments q := by
  unfold segments
  rw [List.splitOn_append_cons_self, List.filter_append]

/-- **A text that goes on with a slash contains the longer path.** -/
theorem prefix_of_absolute_prefix {segs more : List (List Char)}
    (hsegs : ∀ seg ∈ segs, Ordinary seg) (hmore : ∀ seg ∈ more, Ordinary seg)
    (h : absolute more = absolute segs ∨ absolute segs ++ ['/'] <+: absolute more) :
    segs <+: more := by
  rcases h with heq | ⟨rest, hrest⟩
  · have hsame := congrArg segments heq
    rw [segments_absolute_of_ordinary hsegs, segments_absolute_of_ordinary hmore] at hsame
    subst hsame
    exact List.prefix_refl _
  · have hsame := congrArg segments hrest
    rw [List.append_assoc, List.singleton_append, segments_append,
      segments_absolute_of_ordinary hsegs, segments_absolute_of_ordinary hmore] at hsame
    exact ⟨_, hsame⟩

/-! ## Resolving, and the directory of a path -/

/-- **`path.resolve`**: the last absolute part and the parts behind it, or all of
them behind the working directory, made normal. -/
def resolveFrom (cwd : List Char) (parts : List (List Char)) : List Char :=
  let text := parts.foldl
    (fun text p =>
      if p = [] then text else if p.head? = some '/' then p else text ++ '/' :: p) cwd
  absolute (resolve false (text.splitOn '/'))

/-- `path.dirname`: what stands before the last slash that a name follows. -/
def dirname (p : List Char) : List Char :=
  let root := if p.head? = some '/' then ['/'] else ['.']
  let before := (stripSlashes p).rdropWhile (· ≠ '/')
  if before.length ≤ 1 then root
  else if p.head? = some '/' ∧ before.length = 2 then ['/', '/']
  else before.dropLast

theorem exists_resolveFrom (cwd : List Char) (parts : List (List Char)) :
    ∃ segs, (∀ seg ∈ segs, Ordinary seg) ∧ resolveFrom cwd parts = absolute segs :=
  ⟨_, ordinary_of_mem_resolve (Lines.notMem_of_mem_splitOn '/' _), rfl⟩

theorem stripSlashes_absolute {segs : List (List Char)} (h : segs ≠ [])
    (hsegs : ∀ seg ∈ segs, Ordinary seg) : stripSlashes (absolute segs) = absolute segs := by
  refine List.rdropWhile_eq_self_iff.mpr (fun hl => ?_)
  have hlast := getLast?_absolute_ne_slash h hsegs
  rw [List.getLast?_eq_getLast_of_ne_nil hl] at hlast
  simpa using hlast

theorem rdropWhile_name (p : List Char) {seg : List Char} (h : '/' ∉ seg) :
    (p ++ '/' :: seg).rdropWhile (· ≠ '/') = p ++ ['/'] := by
  unfold List.rdropWhile
  rw [List.reverse_append, List.reverse_cons, List.append_assoc, List.singleton_append,
    List.dropWhile_append_of_pos, List.dropWhile_cons_of_neg (by simp), List.reverse_cons,
    List.reverse_reverse]
  intro c hc
  rw [List.mem_reverse] at hc
  exact decide_eq_true fun heq => h (heq ▸ hc)

/-- **The directory of an absolute path of ordinary segments** is the path
without the last of them. -/
theorem dirname_absolute {segs : List (List Char)} {seg : List Char}
    (h : ∀ s ∈ segs ++ [seg], Ordinary s) :
    dirname (absolute (segs ++ [seg])) = absolute segs := by
  have hslash : '/' ∉ seg := (h seg (by simp)).2.1
  have hstrip := stripSlashes_absolute
    (List.append_ne_nil_of_right_ne_nil segs (List.cons_ne_nil seg [])) h
  have hhead : ∀ l, (absolute l).head? = some '/' := fun _ => rfl
  unfold dirname
  rw [hstrip, hhead]
  by_cases hs : segs = []
  · subst hs
    have htext : absolute ([] ++ [seg]) = [] ++ '/' :: seg := by
      rw [List.nil_append, absolute, List.intercalate_singleton, List.nil_append]
    rw [htext, rdropWhile_name [] hslash]
    rfl
  · rw [absolute_concat hs, rdropWhile_name _ hslash]
    have hlong : 2 ≤ (absolute segs).length := by
      have hne := intercalate_ne_nil hs (fun s hs' => h s (List.mem_append_left _ hs'))
      have hpos := List.length_pos_iff.mpr hne
      rw [absolute, List.length_cons]
      omega
    have hlength : (absolute segs ++ ['/']).length = (absolute segs).length + 1 := by
      rw [List.length_append, List.length_singleton]
    dsimp only
    rw [hlength, if_neg (by omega), if_neg (fun hroot => by have := hroot.2; omega),
      List.dropLast_concat]

end Posix
