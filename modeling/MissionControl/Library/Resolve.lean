import MissionControl.Library.Posix

/-!
# Walking through directories

What a path leads to, told without its text: from a directory, which is the list of the
names on the way to it, each segment of the path goes one step (`Posix.descend`). The empty
segment and `.` stay, `..` goes up, and any other one goes down. `Posix.resolveFrom` takes
these steps on a stack; `Posix.resolveFrom_eq` says that it gives the text of the directory
that the walk ends in.
-/

namespace Posix

def descend (dir : List (List Char)) (seg : List Char) : List (List Char) :=
  if seg = [] ∨ seg = ['.'] then dir
  else if seg = ['.', '.'] then dir.dropLast
  else dir ++ [seg]

/-- **The directory a path leads to** from another one. -/
def against (dir : List (List Char)) (p : List Char) : List (List Char) :=
  (p.splitOn '/').foldl descend (if p.head? = some '/' then [] else dir)

/-- The walk is the one of the stack, which has the last name on top. -/
theorem reverse_foldl_push {stack : List (List Char)} (h : ['.', '.'] ∉ stack)
    (segs : List (List Char)) :
    (segs.foldl (push false) stack).reverse = segs.foldl descend stack.reverse := by
  induction segs generalizing stack with
  | nil => rfl
  | cons seg segs ih =>
    rw [List.foldl_cons, List.foldl_cons]
    unfold push descend
    by_cases hstay : seg = [] ∨ seg = ['.']
    · rw [if_pos hstay, if_pos hstay]
      exact ih h
    · rw [if_neg hstay, if_neg hstay]
      by_cases hup : seg = ['.', '.']
      · rw [if_pos hup, if_pos hup]
        cases stack with
        | nil => exact ih h
        | cons top rest =>
          have htop : top ≠ ['.', '.'] := fun heq => h (heq ▸ List.mem_cons_self)
          rw [List.reverse_cons, List.dropLast_concat]
          dsimp only
          rw [if_neg htop]
          exact ih fun hmem => h (List.mem_cons_of_mem top hmem)
      · rw [if_neg hup, if_neg hup, ← List.reverse_cons]
        refine ih fun hmem => ?_
        rcases List.mem_cons.mp hmem with heq | hmem
        · exact hup heq.symm
        · exact h hmem

/-- **What is resolved from the root is where the walk ends.** -/
theorem resolve_eq (segs : List (List Char)) : resolve false segs = segs.foldl descend [] :=
  reverse_foldl_push List.not_mem_nil segs

theorem ordinary_against_root (p : List Char) : ∀ seg ∈ against [] p, Ordinary seg := by
  have heq : against [] p = resolve false (p.splitOn '/') := by
    rw [resolve_eq]
    unfold against
    rw [ite_self]
  rw [heq]
  exact ordinary_of_mem_resolve (Lines.notMem_of_mem_splitOn '/' p)

theorem foldl_descend_ordinary (dir : List (List Char)) {segs : List (List Char)}
    (h : ∀ seg ∈ segs, Ordinary seg) : segs.foldl descend dir = dir ++ segs := by
  induction segs generalizing dir with
  | nil => exact (List.append_nil dir).symm
  | cons seg segs ih =>
    have hseg := h seg List.mem_cons_self
    have hstep : descend dir seg = dir ++ [seg] := by
      unfold descend
      rw [if_neg (not_or.mpr ⟨hseg.1, hseg.2.2.1⟩), if_neg hseg.2.2.2]
    rw [List.foldl_cons, hstep, ih _ fun s hs => h s (List.mem_cons_of_mem seg hs),
      List.append_assoc, List.singleton_append]

/-- **The text of a directory leads to it**, from wherever. -/
theorem against_absolute (dir : List (List Char)) {segs : List (List Char)}
    (h : ∀ seg ∈ segs, Ordinary seg) : against dir (absolute segs) = segs := by
  unfold against
  rw [if_pos (show (absolute segs).head? = some '/' from rfl)]
  by_cases hs : segs = []
  · subst hs
    decide
  · rw [splitOn_absolute hs h, List.foldl_cons]
    exact foldl_descend_ordinary [] h

theorem against_append (dir : List (List Char)) {p q : List Char} (hp : p ≠ [])
    (hq : q.head? ≠ some '/') : against dir (p ++ '/' :: q) = against (against dir p) q := by
  have hhead : (p ++ '/' :: q).head? = p.head? := List.head?_append_of_ne_nil p hp
  unfold against
  rw [List.splitOn_append_cons_self, List.foldl_append, hhead, if_neg hq]

theorem against_nil (dir : List (List Char)) : against dir [] = dir := rfl

/-- **A path is resolved by walking through its parts.** -/
theorem resolveFrom_eq (cwd : List Char) (parts : List (List Char)) :
    resolveFrom cwd parts = absolute (parts.foldl against (against [] cwd)) := by
  have hwalk : ∀ (parts : List (List Char)) (text : List Char),
      parts.foldl against (against [] text) = against [] (parts.foldl (fun text p =>
        if p = [] then text else if p.head? = some '/' then p else text ++ '/' :: p) text) := by
    intro parts
    induction parts with
    | nil => exact fun _ => rfl
    | cons p parts ih =>
      intro text
      rw [List.foldl_cons, List.foldl_cons, ← ih]
      refine congrArg (fun dir => parts.foldl against dir) ?_
      by_cases hp : p = []
      · rw [if_pos hp, hp, against_nil]
      · rw [if_neg hp]
        by_cases habs : p.head? = some '/'
        · -- where the walk came from does not matter
          rw [if_pos habs]
          unfold against
          rw [if_pos habs, if_pos habs]
        · rw [if_neg habs]
          by_cases htext : text = []
          · -- a slash in front of the part
            subst htext
            unfold against
            rw [if_neg habs, List.nil_append, List.head?_cons, if_pos rfl,
              ← List.nil_append ('/' :: p), List.splitOn_append_cons_self, List.foldl_append]
            rfl
          · exact (against_append [] htext habs).symm
  have hresolve : ∀ text : List Char, resolve false (text.splitOn '/') = against [] text := by
    intro text
    rw [resolve_eq]
    unfold against
    rw [ite_self]
  unfold resolveFrom
  rw [hwalk]
  exact congrArg absolute (hresolve _)

theorem ordinary_against {dir : List (List Char)} (h : ∀ seg ∈ dir, Ordinary seg)
    (p : List Char) : ∀ seg ∈ against dir p, Ordinary seg := by
  by_cases habs : p.head? = some '/'
  · have heq : against dir p = against [] p := by
      unfold against
      rw [if_pos habs, if_pos habs]
    rw [heq]
    exact ordinary_against_root p
  · by_cases hp : p = []
    · rw [hp, against_nil]
      exact h
    · have heq : against dir p = against [] (absolute dir ++ '/' :: p) := by
        have hne : absolute dir ≠ [] := List.cons_ne_nil _ _
        rw [against_append [] hne habs, against_absolute [] h]
      rw [heq]
      exact ordinary_against_root _

/-- **A text goes on with a slash, or is the same, exactly if the directory lies above.** -/
theorem absolute_prefix_iff {segs more : List (List Char)} (h : segs ≠ [])
    (hsegs : ∀ seg ∈ segs, Ordinary seg) (hmore : ∀ seg ∈ more, Ordinary seg) :
    absolute more = absolute segs ∨ absolute segs ++ ['/'] <+: absolute more
      ↔ segs <+: more := by
  refine ⟨fun h => prefix_of_absolute_prefix hsegs hmore h, ?_⟩
  rintro ⟨rest, rfl⟩
  by_cases hrest : rest = []
  · subst hrest
    rw [List.append_nil]
    exact .inl rfl
  · refine .inr ?_
    rw [absolute_append h hrest, List.intercalate_cons_of_ne_nil hrest]
    exact List.prefix_append _ _

end Posix
