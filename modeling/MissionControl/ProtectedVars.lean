import MissionControl.EnvFile

/-!
# Protected variables

The variables that `isVarBlocked` names are never to be written by `/api/integrations`. The
keys of a request are checked; its values are not, and a value with line breaks is written
as several lines, of which all but the first are read as what they say
(`not_protected_sampleBreak`).

No request takes an assignment to a protected variable away, and one adds some exactly if
the further lines of its values have some. So a run leaves them as they were exactly if no
value of its requests has one behind a line break (`protectedVars_state_iff`).
-/

namespace MissionControl

open Assignments

def protectedOf (lines : List EnvLine) : List (List Char × List Char) :=
  (assignments lines).filter fun e => isVarBlocked e.1

/-- **The protected variables of a file.** -/
def protectedVars (file : Option (List Char)) : List (List Char × List Char) :=
  protectedOf (readEnvFile file)

/-- The protected variables that the further lines of a value assign to. -/
def smuggled (value : List Char) : List (List Char × List Char) :=
  protectedOf ((value.splitOn '\n').tail.map parseLine)

/-- **A request has no further lines** that assign to a protected variable. -/
def EnvAction.Harmless (site : EnvSite) : EnvAction → Prop
  | put body => ∀ vars, givenVars site.rt (Json.parse site.rt body) = .ok vars →
    ∀ v ∈ vars, smuggled v.2 = []
  | delete _ => True

section Lines

theorem protectedOf_append (lines lines' : List EnvLine) :
    protectedOf (lines ++ lines') = protectedOf lines ++ protectedOf lines' := by
  unfold protectedOf assignments
  rw [List.filterMap_append, List.filter_append]

theorem protectedOf_cons (l : EnvLine) (lines : List EnvLine) :
    protectedOf (l :: lines) = protectedOf [l] ++ protectedOf lines :=
  protectedOf_append [l] lines

theorem protectedOf_flatMap (f : EnvLine → List EnvLine) (lines : List EnvLine) :
    protectedOf (lines.flatMap f) = lines.flatMap fun l => protectedOf (f l) := by
  induction lines with
  | nil => rfl
  | cons l lines ih => rw [List.flatMap_cons, List.flatMap_cons, protectedOf_append, ih]

theorem protectedOf_eq_flatMap (lines : List EnvLine) :
    protectedOf lines = lines.flatMap fun l => protectedOf [l] := by
  induction lines with
  | nil => rfl
  | cons l lines ih => rw [protectedOf_cons, List.flatMap_cons, ← ih]

theorem protectedOf_var {key : List Char} (h : isVarBlocked key = false) (value : List Char) :
    protectedOf [.var key value] = [] := by
  show [(key, value)].filter (fun e => isVarBlocked e.1) = []
  rw [List.filter_cons_of_neg (by rw [h]; exact Bool.false_ne_true), List.filter_nil]

theorem protectedOf_settled (l : EnvLine) : protectedOf [l.settled] = protectedOf [l] := by
  match l with
  | .comment raw | .blank raw | .var (c :: key) value => rfl
  | .var [] value => rfl

/-- **A file that was written.** -/
theorem protectedVars_written (lines : List EnvLine) :
    protectedVars (some (serializeEnv lines)) = lines.flatMap fun l => protectedOf (reparse l) := by
  cases lines with
  | nil => rfl
  | cons l lines =>
    show protectedOf (parseEnv _) = _
    rw [parseEnv_serializeEnv (List.cons_ne_nil l lines), protectedOf_flatMap]

theorem filter_put {key : List Char} (h : isVarBlocked key = false) (value : List Char)
    (es : List (List Char × List Char)) :
    (put key value es).filter (fun e => isVarBlocked e.1)
      = es.filter fun e => isVarBlocked e.1 := by
  have hnot : ∀ value : List Char, ¬ isVarBlocked (key, value).1 = true := by
    intro value
    rw [h]
    exact Bool.false_ne_true
  induction es with
  | nil => exact List.filter_cons_of_neg (hnot value)
  | cons e es ih =>
    rw [put]
    split
    · next he =>
      have hold : ¬ isVarBlocked e.1 = true := he ▸ hnot value
      rw [List.filter_cons, List.filter_cons, if_neg (hnot value), if_neg hold]
    · rw [List.filter_cons, List.filter_cons, ih]

theorem protectedOf_setVars {vars : List (List Char × List Char)}
    (h : ∀ v ∈ vars, isVarBlocked v.1 = false) (lines : List EnvLine) :
    protectedOf (setVars vars lines) = protectedOf lines := by
  unfold protectedOf
  rw [assignments_setVars]
  generalize assignments lines = es
  induction vars generalizing es with
  | nil => rfl
  | cons v vars ih =>
    obtain ⟨hv, hvars⟩ := List.forall_mem_cons.mp h
    exact (ih hvars (put v.1 v.2 es)).trans (filter_put hv v.2 es)

/-- **What a variable that is set** is read as. -/
theorem protectedOf_reparse_var {key : List Char} (hname : isVarName key = true)
    (hblocked : isVarBlocked key = false) (value : List Char) :
    protectedOf (reparse (.var key value)) = smuggled value := by
  obtain ⟨first, rest, hsplit, hreparse⟩ := reparse_var hname value
  unfold smuggled
  rw [hreparse, protectedOf_cons, protectedOf_var hblocked, hsplit]
  rfl

end Lines

/-! ## The requests -/

section Requests

variable {site : EnvSite} {file : Option (List Char)}

theorem length_flatMap_lt {α β : Type*} {f g : α → List β} {l : List α}
    (hle : ∀ x ∈ l, (g x).length ≤ (f x).length) {x : α} (hx : x ∈ l)
    (hlt : (g x).length < (f x).length) : (l.flatMap g).length < (l.flatMap f).length := by
  obtain ⟨before, after, rfl⟩ := List.append_of_mem hx
  have hsum : ∀ l' : List α, (∀ y ∈ l', (g y).length ≤ (f y).length) →
      (l'.flatMap g).length ≤ (l'.flatMap f).length := by
    intro l' hl'
    induction l' with
    | nil => exact Nat.le_refl 0
    | cons y l' ih =>
      obtain ⟨hy, hl'⟩ := List.forall_mem_cons.mp hl'
      rw [List.flatMap_cons, List.flatMap_cons, List.length_append, List.length_append]
      exact Nat.add_le_add hy (ih hl')
  have hbefore := hsum before fun y hy => hle y (List.mem_append_left _ hy)
  have hafter := hsum after fun y hy =>
    hle y (List.mem_append_right _ (List.mem_cons_of_mem _ hy))
  simp only [List.flatMap_append, List.flatMap_cons, List.length_append]
  omega

theorem mem_putVar_of_ne {lines : List EnvLine} {key key' value value' : List Char}
    (hne : key' ≠ key) (h : .var key' value' ∈ lines) :
    .var key' value' ∈ putVar lines key value := by
  unfold putVar
  split
  · next i hi =>
    obtain ⟨j, hj, hget⟩ := List.getElem_of_mem h
    have hij : i ≠ j := by
      rintro rfl
      have hkey := (List.findIdx?_eq_some_iff_getElem.mp hi).2.1
      rw [hget] at hkey
      exact hne (of_decide_eq_true hkey)
    rw [List.mem_iff_getElem?]
    exact ⟨j, by rw [List.getElem?_set_ne hij, List.getElem?_eq_getElem hj, hget]⟩
  · refine List.mem_append_left _ ?_
    split
    · exact h
    · exact List.mem_append_left _ h

theorem mem_putVar_self (lines : List EnvLine) (key value : List Char) :
    .var key value ∈ putVar lines key value := by
  unfold putVar
  split
  · next i hi =>
    exact List.mem_set (List.findIdx?_eq_some_iff_getElem.mp hi).1 _
  · exact List.mem_append_right _ List.mem_cons_self

/-- **Every variable that is set is there.** -/
theorem var_mem_setVars {vars : List (List Char × List Char)}
    (hnodup : (vars.map Prod.fst).Nodup) {v : List Char × List Char} (hv : v ∈ vars)
    (lines : List EnvLine) : .var v.1 v.2 ∈ setVars vars lines := by
  have hkept : ∀ (vars : List (List Char × List Char)) (lines : List EnvLine),
      v.1 ∉ vars.map Prod.fst → .var v.1 v.2 ∈ lines → .var v.1 v.2 ∈ setVars vars lines := by
    intro vars
    induction vars with
    | nil => exact fun _ _ h => h
    | cons w vars ih =>
      intro lines hnot h
      obtain ⟨hne, hnot⟩ := List.ne_and_not_mem_of_not_mem_cons hnot
      exact ih _ hnot (mem_putVar_of_ne hne h)
  induction vars generalizing lines with
  | nil => cases hv
  | cons w vars ih =>
    obtain ⟨hnot, hnodup⟩ := List.nodup_cons.mp hnodup
    rcases List.mem_cons.mp hv with rfl | hv
    · exact hkept vars _ hnot (mem_putVar_self lines v.1 v.2)
    · exact ih hnodup hv _

/-- **What a `PUT` does to the protected variables**: nothing, if its values have none
behind a line break, and else it adds some. -/
theorem protectedVars_put {body : List Char}
    (haccepted : ((EnvAction.put body).perform site file).1.accepted = true) :
    ((EnvAction.put body).Harmless site →
        protectedVars ((envFile site).next file (.put body)) = protectedVars file)
      ∧ (¬ (EnvAction.put body).Harmless site →
        (protectedVars file).length
          < (protectedVars ((envFile site).next file (.put body))).length) := by
  obtain ⟨vars, hvars, hkeys, hnext⟩ := put_of_accepted haccepted
  have hsame : protectedVars file
      = (setVars vars (readEnvFile file)).flatMap fun l => protectedOf [l] := by
    rw [← protectedOf_eq_flatMap, protectedOf_setVars fun v hv => (hkeys v hv).1]
    rfl
  have hold : ∀ l ∈ readEnvFile file, protectedOf (reparse l) = protectedOf [l] := by
    intro l hl
    rw [reparse_of_mem hl, protectedOf_settled]
  have hvar : ∀ v ∈ vars, protectedOf (reparse (.var v.1 v.2)) = smuggled v.2 := fun v hv =>
    protectedOf_reparse_var (hkeys v hv).2 (hkeys v hv).1 v.2
  rw [hnext, protectedVars_written, hsame]
  constructor
  · intro hharmless
    refine List.flatMap_congr fun l hl => ?_
    rcases mem_setVars hl with hl | rfl | ⟨v, hv, rfl⟩
    · exact hold l hl
    · rfl
    · rw [hvar v hv, hharmless vars hvars v hv, protectedOf_var (hkeys v hv).1]
  · intro hharm
    obtain ⟨v, hv, hsmuggled⟩ : ∃ v ∈ vars, smuggled v.2 ≠ [] := by
      by_contra hnone
      push Not at hnone
      refine hharm fun vars' hvars' => ?_
      rw [← Except.ok.inj (hvars.symm.trans hvars')]
      exact hnone
    refine length_flatMap_lt (fun l hl => ?_) (var_mem_setVars (nodup_givenVars hvars) hv _) ?_
    · rcases mem_setVars hl with hl | rfl | ⟨w, hw, rfl⟩
      · rw [hold l hl]
      · exact Nat.le_refl _
      · rw [protectedOf_var (hkeys w hw).1]
        exact Nat.zero_le _
    · rw [protectedOf_var (hkeys v hv).1, hvar v hv]
      exact List.length_pos_of_ne_nil hsmuggled

/-- **A `DELETE` does nothing to the protected variables.** -/
theorem protectedVars_delete (body : List Char) :
    protectedVars ((envFile site).next file (.delete body)) = protectedVars file := by
  rcases next_delete site file body with h | ⟨keys, -, hblocked, h⟩
  · rw [h]
  · have hremoved : ∀ l, isRemoved keys l = true → protectedOf [l] = [] := by
      intro l hl
      match l with
      | .comment raw | .blank raw => cases hl
      | .var key value =>
        have hkey := of_decide_eq_true (Bool.and_eq_true_iff.mp hl).2
        exact protectedOf_var (hblocked key hkey) value
    have hkept : ∀ lines : List EnvLine,
        (lines.filter fun l => !isRemoved keys l).flatMap (fun l => protectedOf [l])
          = lines.flatMap fun l => protectedOf [l] := by
      intro lines
      induction lines with
      | nil => rfl
      | cons l lines ih =>
        rw [List.filter_cons, List.flatMap_cons]
        cases hl : isRemoved keys l with
        | false =>
          rw [Bool.not_false, if_pos rfl, List.flatMap_cons, ih]
        | true =>
          rw [Bool.not_true, if_neg Bool.false_ne_true, ih, hremoved l hl, List.nil_append]
    rw [h, protectedVars_written]
    show _ = protectedOf (readEnvFile file)
    rw [protectedOf_eq_flatMap, ← hkept]
    refine List.flatMap_congr fun l hl => ?_
    rw [reparse_of_mem (List.mem_filter.mp hl).1, protectedOf_settled]

variable (site file) in
/-- **A step**: a request that is accepted leaves the protected variables alone, or adds
some where it is not harmless. -/
theorem protectedVars_next (a : EnvAction) :
    (((a.perform site file).1.accepted = true → a.Harmless site) →
        protectedVars ((envFile site).next file a) = protectedVars file)
      ∧ (¬ ((a.perform site file).1.accepted = true → a.Harmless site) →
        (protectedVars file).length < (protectedVars ((envFile site).next file a)).length) := by
  cases haccepted : (a.perform site file).1.accepted with
  | false =>
    rw [next_of_refused haccepted]
    exact ⟨fun _ => rfl, fun h => absurd (fun h => by cases h) h⟩
  | true =>
    cases a with
    | put body =>
      obtain ⟨hkept, hadded⟩ := protectedVars_put haccepted
      exact ⟨fun h => hkept (h rfl), fun h => hadded fun hharmless => h fun _ => hharmless⟩
    | delete body =>
      exact ⟨fun _ => protectedVars_delete body, fun h => absurd (fun _ => trivial) h⟩

variable (site file) in
theorem length_protectedVars_le (a : EnvAction) :
    (protectedVars file).length ≤ (protectedVars ((envFile site).next file a)).length := by
  obtain ⟨hkept, hadded⟩ := protectedVars_next site file a
  by_cases h : (a.perform site file).1.accepted = true → a.Harmless site
  · rw [hkept h]
  · exact (hadded h).le

variable (site file) in
theorem length_protectedVars_state_le (as : List EnvAction) :
    (protectedVars file).length
      ≤ (protectedVars ((envFile site).state file as)).length :=
  (envFile site).state_invariant
    (I := fun reached => (protectedVars file).length ≤ (protectedVars reached).length)
    (Nat.le_refl _) (fun reached a h => h.trans (length_protectedVars_le site reached a)) as

end Requests

/-- **The protected variables are after a sequence of requests what they were before**
exactly if no value of an accepted `PUT` assigns to one behind a line break. -/
theorem protectedVars_state_iff (site : EnvSite) (file : Option (List Char))
    (as : List EnvAction) :
    protectedVars ((envFile site).state file as) = protectedVars file
      ↔ (envFile site).EachStep
        (fun file a => (a.perform site file).1.accepted = true → a.Harmless site) file as := by
  constructor
  · rintro h p a ⟨rest, rfl⟩
    by_contra hnot
    -- an assignment that was added stays to the end
    have hadded := (protectedVars_next site ((envFile site).state file p) a).2 hnot
    have hbefore := length_protectedVars_state_le site file p
    have hafter := length_protectedVars_state_le site
      ((envFile site).next ((envFile site).state file p) a) rest
    rw [← Machine.state_concat, ← Machine.state_append, h, Machine.state_concat] at hafter
    omega
  · intro h
    induction as using List.reverseRecOn with
    | nil => rfl
    | append_singleton as a ih =>
      obtain ⟨hbefore, hlast⟩ := Machine.EachStep.of_concat _ h
      rw [Machine.state_concat, (protectedVars_next site _ a).1 hlast, ih hbefore]

/-! ## A line break in a value -/

/-- A request that sets a token to two lines. -/
def sampleBreak : List Char :=
  "\x7b\"vars\":\x7b\"GITHUB_TOKEN\":\"a\\nPATH=/tmp\"\x7d\x7d".toList

/-- **A value with a line break sets a protected variable.** -/
theorem not_protected_sampleBreak :
    ¬ ∀ (site : EnvSite) (content : List Char) (as : List EnvAction),
      (envFile site).EachStep (fun file a => (a.perform site file).1.accepted = true)
        (some content) as →
      protectedVars ((envFile site).state (some content) as) = protectedVars (some content) := by
  intro h
  have hkept := h sampleEnvSite [] [.put sampleBreak]
    (.cons _ (by decide +kernel) ((envFile sampleEnvSite).eachStep_nil _ _))
  exact absurd hkept (by decide +kernel)

end MissionControl
