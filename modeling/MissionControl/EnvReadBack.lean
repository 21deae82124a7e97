import MissionControl.EnvFile

/-!
# What `GET` reads of a `PUT`

`PUT /api/integrations` sets the first assignment of a variable, and `GET` goes by the last
one. What is set is read back exactly if no variable that is given has two assignments in
the file, or the last one has the given value already (`readBack_iff`).
-/

namespace MissionControl

open Assignments

section Map

/-- **The map goes by the last assignment**, of a key that is not empty. -/
theorem envMap_eq (lines : List EnvLine) (key : List Char) :
    envMap lines key = if key = [] then none else last key (assignments lines) := by
  induction lines using List.reverseRecOn with
  | nil => exact (ite_self none).symm
  | append_singleton lines l ih =>
    have hassignments : assignments (lines ++ [l])
        = assignments lines ++ l.assignment.toList := by
      unfold assignments
      rw [List.filterMap_append]
      cases l <;> rfl
    have hfold : envMap (lines ++ [l]) = List.foldl _ (envMap lines) [l] := List.foldl_append
    rw [hfold, hassignments, last_append]
    cases l with
    | comment raw | blank raw => exact ih
    | var k value =>
      show (if k = [] then envMap lines else _) key = if key = [] then none else
        Option.or (last key [(k, value)]) _
      by_cases hk : k = []
      · rw [if_pos hk, ih]
        split
        · rfl
        · next hkey =>
          rw [last_cons_of_ne (show (k, value).1 ≠ key from fun heq => hkey (heq ▸ hk)), last,
            Option.none_or]
      · rw [if_neg hk]
        by_cases hkey : key = k
        · subst hkey
          rw [Function.update_self, if_neg hk, last, if_pos rfl, last, Option.none_or,
            Option.some_or]
        · rw [Function.update_of_ne hkey, ih,
            last_cons_of_ne (show (k, value).1 ≠ key from Ne.symm hkey), last, Option.none_or]

theorem envMap_settled (lines : List EnvLine) :
    envMap (lines.map EnvLine.settled) = envMap lines := by
  have hone : ∀ l : EnvLine, ∀ key ≠ [], last key l.settled.assignment.toList
      = last key l.assignment.toList := by
    intro l key hkey
    match l with
    | .comment raw | .blank raw => rfl
    | .var [] value => exact (last_cons_of_ne (Ne.symm hkey) []).symm
    | .var (c :: k) value => rfl
  funext key
  rw [envMap_eq, envMap_eq]
  split
  · rfl
  · next hkey =>
    unfold assignments
    induction lines with
    | nil => rfl
    | cons l lines ih =>
      have hcons : ∀ (l : EnvLine) (lines : List EnvLine),
          (l :: lines).filterMap EnvLine.assignment
            = l.assignment.toList ++ lines.filterMap EnvLine.assignment := by
        intro l lines
        rw [List.filterMap_cons]
        cases l.assignment <;> rfl
      rw [List.map_cons, hcons, hcons, last_append, last_append, ih, hone l key hkey]

/-- **The map of a file that was written.** -/
theorem envMap_written (lines : List EnvLine) :
    envMap (parseEnv (serializeEnv lines)) = envMap (lines.flatMap reparse) := by
  cases lines with
  | nil => rfl
  | cons l lines => rw [parseEnv_serializeEnv (List.cons_ne_nil l lines)]

end Map

/-! ## Reading back -/

section ReadBack

variable {site : EnvSite} {file : Option (List Char)} {body : List Char}
  {vars : List (List Char × List Char)}

theorem reparse_setVars (hnames : ∀ v ∈ vars, isVarName v.1 = true)
    (hplain : ∀ v ∈ vars, trimText v.2 = v.2 ∧ '\n' ∉ v.2) :
    (setVars vars (readEnvFile file)).flatMap reparse
      = (setVars vars (readEnvFile file)).map EnvLine.settled := by
  rw [List.map_eq_flatMap]
  refine List.flatMap_congr fun l hl => ?_
  rcases mem_setVars hl with hl | rfl | ⟨v, hv, rfl⟩
  · exact reparse_of_mem hl
  · rfl
  · obtain ⟨first, rest, hsplit, hreparse⟩ := reparse_var (hnames v hv) v.2
    obtain ⟨htrim, hline⟩ := hplain v hv
    rw [List.splitOn_eq_singleton hline] at hsplit
    obtain ⟨rfl, rfl⟩ := List.cons.inj hsplit
    rw [hreparse, htrim]
    cases hkey : v.1 with
    | nil => exact absurd hkey (isVarName_key (hnames v hv)).1
    | cons c key => rfl

end ReadBack

/-! ## A variable that is assigned twice -/

end MissionControl
