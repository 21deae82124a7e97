import MissionControl.AgentApi
import MissionControl.GatewayConfig
import MissionControl.JsonAgreement
import MissionControl.Library.Assignments
import MissionControl.Library.Lines
import MissionControl.Library.Trim

/-!
# The file `.env` of the integrations

`/api/integrations` reads the variables of the integrations from the file `.env`, sets
some, and removes some. The file is split into lines, which are told apart by their trimmed
texts; comments, blank lines and malformed ones are kept as they are, and an assignment is
kept as its key and its value. A text is the list of its characters here.

What is written is read line by line: a line gives the lines that its own text has
(`parseEnv_serializeEnv`). That is one line, the same, for every line that was read, but
for an assignment without a key, which is read as malformed (`reparse_parseLine`); and it
is an assignment and the lines of the rest of the value for one that was set
(`reparse_var`).
-/

namespace MissionControl

open Assignments

/-! ## Lines -/

/-- A line of the file. A malformed line counts as a comment. -/
inductive EnvLine where
  | comment (raw : List Char)
  | blank (raw : List Char)
  | var (key value : List Char)
  deriving DecidableEq

namespace EnvLine

def hasKey (key : List Char) : EnvLine → Bool
  | var k _ => k = key
  | _ => false

/-- `l.type !== 'blank'`. -/
def isBlank : EnvLine → Bool
  | blank _ => true
  | _ => false

/-- The assignment of a line, if it is one. -/
def assignment : EnvLine → Option (List Char × List Char)
  | var key value => some (key, value)
  | _ => none

end EnvLine

/-- `s.trim()`. -/
def trimText (s : List Char) : List Char := Trim.trim isWhiteSpace s

/-- A line of `parseEnv`. -/
def parseLine (raw : List Char) : EnvLine :=
  if trimText raw = [] then .blank raw
  else if (trimText raw).head? = some '#' then .comment raw
  else
    match raw.dropWhile (· ≠ '=') with
    | _ :: value =>
      if 0 < (raw.takeWhile (· ≠ '=')).length then
        .var (trimText (raw.takeWhile (· ≠ '='))) (trimText value)
      else .comment raw
    | [] => .comment raw

/-- **`parseEnv`.** -/
def parseEnv (content : List Char) : List EnvLine := (content.splitOn '\n').map parseLine

/-- A line of `serializeEnv`. -/
def serializeLine : EnvLine → List Char
  | .var key value => key ++ '=' :: value
  | .comment raw | .blank raw => raw

/-- **`serializeEnv`.** -/
def serializeEnv (lines : List EnvLine) : List Char := ['\n'].intercalate (lines.map serializeLine)

/-- `readEnvFile`: a file that is not there has no lines. -/
def readEnvFile (file : Option (List Char)) : List EnvLine := file.elim [] parseEnv

def assignments (lines : List EnvLine) : List (List Char × List Char) :=
  lines.filterMap EnvLine.assignment

/-- The map that `GET` builds. -/
def envMap (lines : List EnvLine) : List Char → Option (List Char) :=
  lines.foldl (fun m l =>
    match l with
    | .var key value => if key = [] then m else Function.update m key (some value)
    | _ => m) fun _ => none

/-! ## Protected variables -/

def blockedVars : List String :=
  ["PATH", "HOME", "USER", "SHELL", "LANG", "TERM", "PWD", "LOGNAME", "HOSTNAME"]

def blockedPrefixes : List String := ["LD_", "DYLD_"]

/-- **`isVarBlocked`.** -/
def isVarBlocked (key : List Char) : Bool :=
  blockedVars.any (fun name => decide (name.toList = key))
    || blockedPrefixes.any fun name => name.toList.isPrefixOf key

/-- `[A-Z_]`, in both cases. -/
def varHead : List (Char × Char) := [('A', 'Z'), ('a', 'z'), ('_', '_')]

/-- `[A-Z0-9_]`, in both cases. -/
def varTail : List (Char × Char) := ('0', '9') :: varHead

/-- `/^[A-Z_][A-Z0-9_]*$/i.test(key)`. -/
def isVarName : List Char → Bool
  | [] => false
  | c :: key => Pattern.inClass varHead c && key.all (Pattern.inClass varTail)

/-! ## The requests -/

/-- What `/api/integrations` depends on: the runtime and `OPENCLAW_HOME`. -/
structure EnvSite where
  rt : Runtime
  openclawHome : String

/-- The answer of a request. An error that is not caught is left to the framework. -/
inductive EnvResponse where
  | answered (response : ApiResponse)
  | thrown (e : Exception)

namespace EnvResponse

def error (status : ℕ) (message : String) : EnvResponse := answered (.error status message)

def accepted : EnvResponse → Bool
  | answered response => response.status = 200
  | thrown _ => false

end EnvResponse

def keysAnswer (name : String) (keys : List (List Char)) : EnvResponse :=
  .answered (.json 200 (.obj [(name, .arr (keys.map fun key => .str (String.ofList key))),
    ("count", .ofNat keys.length)]))

/-- **What is written for a variable**: its first assignment gets the value, or there is a
new one at the end, behind a blank line. -/
def putVar (lines : List EnvLine) (key value : List Char) : List EnvLine :=
  match lines.findIdx? (EnvLine.hasKey key) with
  | some i => lines.set i (.var key value)
  | none =>
    (if lines.getLast?.all EnvLine.isBlank then lines else lines ++ [.blank []])
      ++ [.var key value]

/-- The variables set one after the other, each with `String(value)`. -/
def putVars (rt : Runtime) : List (String × Json) → List EnvLine →
    Except Exception (List EnvLine)
  | [], lines => .ok lines
  | (key, value) :: vars, lines => do
    let text ← value.toStr rt
    putVars rt vars (putVar lines key.toList text.toList)

/-- The variables of a body, if there is an object of them. -/
def bodyVars (body : Option Json) : Option (List (String × Json)) :=
  match Json.get? body "vars" with
  | some (.obj fields) => some fields
  | some (.arr elements) => some (Json.arr elements).ownProperties
  | _ => none

def refuseKey (key : String) : Option EnvResponse :=
  if isVarBlocked key.toList then some (.error 403 ("Cannot set protected variable: " ++ key))
  else if !isVarName key.toList then some (.error 400 ("Invalid variable name: " ++ key))
  else none

/-- **`PUT /api/integrations`**: the answer, and what is written. -/
def putIntegrations (site : EnvSite) (body : Option Json) (file : Option (List Char)) :
    EnvResponse × Option (List Char) :=
  match bodyVars body with
  | none => (.error 400 "vars object required", none)
  | some vars =>
    match vars.findSome? fun v => refuseKey v.1 with
    | some response => (response, none)
    | none =>
      if site.openclawHome = "" then (.error 404 "OPENCLAW_HOME not configured", none)
      else
        match putVars site.rt vars (readEnvFile file) with
        | .error e => (.thrown e, none)
        | .ok lines =>
          (keysAnswer "updated" (vars.map fun v => v.1.toList), some (serializeEnv lines))

/-- `body.keys`, with the keys of an array joined. -/
def keysParam (rt : Runtime) (body : Json) : Except Exception (Option Json) := do
  match ← Json.get (some body) "keys" with
  | some (.arr elements) => do
    let text ← Json.join rt "," elements
    .ok (some (.str text))
  | x => .ok x

/-- The keys of a text: trimmed, without empty ones and repetitions. -/
def splitKeys (text : List Char) : List (List Char) :=
  (((text.splitOn ',').map trimText).filter (· ≠ [])).eraseDups

/-- The keys that a body asks to remove, or what it is answered. -/
def keysToRemove (rt : Runtime) (body : Option Json) : Except EnvResponse (List (List Char)) :=
  match body with
  | none => .error (.error 400 "Request body required")
  -- an array has a method of this name, which is no text
  | some (.arr _) => .error (.thrown .typeError)
  | some body =>
    match keysParam rt body with
    | .error e => .error (.thrown e)
    | .ok param =>
      if Json.truthy param then
        match param with
        | some (.str text) =>
          if splitKeys text.toList = [] then .error (.error 400 "At least one key required")
          else .ok (splitKeys text.toList)
        | _ => .error (.thrown .typeError)
      else
        .error (.error 400 "keys parameter required (comma-separated string or array)")

def isRemoved (keys : List (List Char)) : EnvLine → Bool
  | .var key _ => key ≠ [] && decide (key ∈ keys)
  | _ => false

/-- **`DELETE /api/integrations`.** -/
def deleteIntegrations (site : EnvSite) (body : Option Json) (file : Option (List Char)) :
    EnvResponse × Option (List Char) :=
  match keysToRemove site.rt body with
  | .error response => (response, none)
  | .ok keys =>
    match keys.find? isVarBlocked with
    | some key =>
      (.error 403 ("Cannot remove protected variable: " ++ String.ofList key), none)
    | none =>
      if site.openclawHome = "" then (.error 404 "OPENCLAW_HOME not configured", none)
      else
        let lines := readEnvFile file
        let removed := (lines.filter (isRemoved keys)).filterMap fun l => l.assignment.map Prod.fst
        (keysAnswer "removed" removed,
          if removed = [] then none
          else some (serializeEnv (lines.filter fun l => !isRemoved keys l)))

/-- A request, with the text of its body. -/
inductive EnvAction where
  | put (body : List Char)
  | delete (body : List Char)

/-- The answer of a request, and what it writes. -/
def EnvAction.perform (site : EnvSite) (file : Option (List Char)) :
    EnvAction → EnvResponse × Option (List Char)
  | put body => putIntegrations site (Json.parse site.rt body) file
  | delete body => deleteIntegrations site (Json.parse site.rt body) file

/-- **The file under the requests**, as the text that it is read as. -/
def envFile (site : EnvSite) : Machine (Option (List Char)) EnvAction EnvResponse where
  step file a := ((a.perform site file).2.or file, [(a.perform site file).1])

/-! ## Reading a line -/

section Lines

theorem head?_trimText_append (key value : List Char) :
    (trimText (key ++ '=' :: value)).head? = (trimText key).head?.or (some '=') := by
  unfold trimText
  rw [Trim.head?_trim, Trim.head?_trim, List.find?_append]
  congr 1

/-- **What a line is read as**: what it is itself, or the assignment that it has. -/
theorem parseLine_cases (raw : List Char) :
    (parseLine raw = .blank raw ∨ parseLine raw = .comment raw)
      ∨ ∃ pre value, raw = pre ++ '=' :: value ∧ '=' ∉ pre ∧ (trimText pre).head? ≠ some '#'
        ∧ parseLine raw = .var (trimText pre) (trimText value) := by
  unfold parseLine
  split
  · exact .inl (.inl rfl)
  · split
    · exact .inl (.inr rfl)
    · next hhash =>
      split
      · next c value hdrop =>
        split
        · have hc : c = '=' := by
            have := List.head?_dropWhile_not (fun c : Char => decide (c ≠ '=')) raw
            rw [hdrop] at this
            simpa using this
          subst hc
          have hraw : raw = raw.takeWhile (· ≠ '=') ++ '=' :: value := by
            rw [← hdrop, List.takeWhile_append_dropWhile]
          refine .inr ⟨_, value, hraw, fun hmem => ?_, fun hhead => hhash ?_, rfl⟩
          · have := List.mem_takeWhile_imp hmem
            simp at this
          · rw [hraw, head?_trimText_append, hhead]
            rfl
        · exact .inl (.inr rfl)
      · exact .inl (.inr rfl)

/-- **A line that is an assignment** to a key, which is not empty, without `=` in it, and
does not begin a comment. -/
theorem parseLine_assignment {key : List Char} (value : List Char) (hkey : key ≠ [])
    (htrim : trimText key = key) (heq : '=' ∉ key) (hhash : key.head? ≠ some '#') :
    parseLine (key ++ '=' :: value) = .var key (trimText value) := by
  have hhead : (trimText (key ++ '=' :: value)).head? = key.head? := by
    rw [head?_trimText_append, htrim]
    cases key with
    | nil => exact absurd rfl hkey
    | cons c key => rfl
  have hpre : ∀ c ∈ key, decide (c ≠ '=') = true := by
    intro c hc
    refine decide_eq_true ?_
    rintro rfl
    exact heq hc
  have htake : (key ++ '=' :: value).takeWhile (· ≠ '=') = key := by
    rw [List.takeWhile_append_of_pos hpre, List.takeWhile_cons_of_neg (by simp), List.append_nil]
  have hdrop : (key ++ '=' :: value).dropWhile (· ≠ '=') = '=' :: value := by
    rw [List.dropWhile_append_of_pos hpre, List.dropWhile_cons_of_neg (by simp)]
  unfold parseLine
  rw [hhead, if_neg fun hnil => ?_, if_neg hhash, hdrop]
  · dsimp only
    rw [htake, htrim, if_pos (List.length_pos_iff.mpr hkey)]
  · rw [hnil] at hhead
    cases key with
    | nil => exact hkey rfl
    | cons c key => cases hhead

theorem parseLine_keyless (value : List Char) :
    parseLine ('=' :: value) = .comment ('=' :: value) := by
  have hhead : (trimText ('=' :: value)).head? = some '=' := head?_trimText_append [] value
  unfold parseLine
  rw [hhead, if_neg fun hnil => ?_, if_neg (by decide)]
  · rfl
  · rw [hnil] at hhead
    cases hhead

end Lines

/-! ## Reading what was written -/

/-- **The lines that the text of a line has.** -/
def reparse (l : EnvLine) : List EnvLine := parseEnv (serializeLine l)

/-- What becomes of a line of the file: an assignment without a key is malformed. -/
def EnvLine.settled : EnvLine → EnvLine
  | var [] value => comment ('=' :: value)
  | l => l

section Reparse

/-- **The lines of a file that was written** are those of its lines. -/
theorem parseEnv_serializeEnv {lines : List EnvLine} (h : lines ≠ []) :
    parseEnv (serializeEnv lines) = lines.flatMap reparse := by
  unfold parseEnv serializeEnv
  rw [Lines.splitOn_intercalate_eq '\n' (by simpa using h), List.map_flatMap, List.flatMap_map]
  rfl

theorem parseEnv_of_notMem {text : List Char} (h : '\n' ∉ text) :
    parseEnv text = [parseLine text] := by
  unfold parseEnv
  rw [List.splitOn_eq_singleton h]
  rfl

theorem notMem_trimText {c : Char} {text : List Char} (h : c ∉ text) : c ∉ trimText text :=
  fun hmem => h ((Trim.sublist_trim _ _).subset hmem)

theorem trimText_trimText (text : List Char) : trimText (trimText text) = trimText text :=
  Trim.trim_trim _ _

/-- **A line that was read is read again as it was**, but for an assignment without a
key. -/
theorem reparse_parseLine {raw : List Char} (hraw : '\n' ∉ raw) :
    reparse (parseLine raw) = [(parseLine raw).settled] := by
  unfold reparse
  rcases parseLine_cases raw with (h | h) | ⟨pre, value, rfl, heq, hhash, h⟩
  · rw [h]
    show parseEnv raw = [.blank raw]
    rw [parseEnv_of_notMem hraw, h]
  · rw [h]
    show parseEnv raw = [.comment raw]
    rw [parseEnv_of_notMem hraw, h]
  · rw [h]
    have hpre : '\n' ∉ trimText pre := notMem_trimText fun hmem => hraw (by simp [hmem])
    have hvalue : '\n' ∉ trimText value := notMem_trimText fun hmem => hraw (by simp [hmem])
    have hline : '\n' ∉ trimText pre ++ '=' :: trimText value := by
      simp only [List.mem_append, List.mem_cons, not_or]
      exact ⟨hpre, by decide, hvalue⟩
    show parseEnv (trimText pre ++ '=' :: trimText value) = _
    rw [parseEnv_of_notMem hline]
    cases hkey : trimText pre with
    | nil => rw [List.nil_append, parseLine_keyless, EnvLine.settled]
    | cons c key =>
      have hne : trimText pre ≠ [] := by
        rw [hkey]
        exact List.cons_ne_nil c key
      rw [← hkey, parseLine_assignment _ hne (trimText_trimText pre) (notMem_trimText heq) hhash,
        trimText_trimText, hkey]
      rfl

theorem mem_parseEnv {content : List Char} {l : EnvLine} (h : l ∈ parseEnv content) :
    ∃ raw, '\n' ∉ raw ∧ l = parseLine raw := by
  obtain ⟨raw, hraw, rfl⟩ := List.mem_map.mp h
  exact ⟨raw, Lines.notMem_of_mem_splitOn '\n' content raw hraw, rfl⟩

theorem reparse_of_mem {file : Option (List Char)} {l : EnvLine} (h : l ∈ readEnvFile file) :
    reparse l = [l.settled] := by
  cases file with
  | none => cases h
  | some content =>
    obtain ⟨raw, hraw, rfl⟩ := mem_parseEnv h
    exact reparse_parseLine hraw

theorem isVarName_key {key : List Char} (h : isVarName key = true) :
    key ≠ [] ∧ trimText key = key ∧ '=' ∉ key ∧ '\n' ∉ key ∧ key.head? ≠ some '#' := by
  have hword : ∀ c ∈ key, Pattern.inClass varTail c = true := by
    cases key with
    | nil => exact fun _ hc => (by cases hc)
    | cons c key =>
      obtain ⟨hc, hkey⟩ := Bool.and_eq_true_iff.mp h
      obtain ⟨r, hr, hin⟩ := List.any_eq_true.mp hc
      exact List.forall_mem_cons.mpr ⟨List.any_eq_true.mpr ⟨r, List.mem_cons_of_mem _ hr, hin⟩,
        List.all_eq_true.mp hkey⟩
  have hnot : ∀ c : Char, Pattern.inClass varTail c = false → c ∉ key := by
    intro c hc hmem
    rw [hword c hmem] at hc
    cases hc
  have hblank : ∀ c ∈ key, isWhiteSpace c = false := fun c hc =>
    isWhiteSpace_of_inClass (by decide) (hword c hc)
  refine ⟨?_, Trim.trim_eq_self (fun c hc => hblank c (List.mem_of_mem_head? hc))
    (fun c hc => hblank c (List.mem_of_mem_getLast? hc)), hnot _ (by decide),
    hnot _ (by decide), fun hhead => hnot '#' (by decide) (List.mem_of_mem_head? hhead)⟩
  rintro rfl
  cases h

/-- **What is read of a variable that was set**: an assignment of the first line of the
value, and the further lines of the value. -/
theorem reparse_var {key : List Char} (hkey : isVarName key = true) (value : List Char) :
    ∃ first rest, value.splitOn '\n' = first :: rest
      ∧ reparse (.var key value) = .var key (trimText first) :: rest.map parseLine := by
  obtain ⟨hne, htrim, heq, hline, hhash⟩ := isVarName_key hkey
  cases hsplit : value.splitOn '\n' with
  | nil => exact absurd hsplit (List.splitOn_ne_nil _ _)
  | cons first rest =>
    refine ⟨first, rest, rfl, ?_⟩
    have hprefix : '\n' ∉ key ++ ['='] := by
      simp only [List.mem_append, List.mem_singleton, not_or]
      exact ⟨hline, by decide⟩
    show ((key ++ '=' :: value).splitOn '\n').map parseLine = _
    rw [List.append_cons, Lines.splitOn_append_of_notMem '\n' hprefix, hsplit,
      List.modifyHead_cons, List.map_cons, List.append_assoc, List.singleton_append,
      parseLine_assignment first hne htrim heq hhash]

end Reparse

/-! ## Accepted requests -/

/-- A variable with the text that it is set to. -/
def varText (rt : Runtime) (v : String × Json) : Except Exception (List Char × List Char) := do
  let text ← v.2.toStr rt
  .ok (v.1.toList, text.toList)

/-- The texts that the variables of a body are set to. -/
def givenVars (rt : Runtime) (body : Option Json) :
    Except Exception (List (List Char × List Char)) :=
  ((bodyVars body).getD []).mapM (varText rt)

def setVars (texts : List (List Char × List Char)) (lines : List EnvLine) : List EnvLine :=
  texts.foldl (fun lines v => putVar lines v.1 v.2) lines

/-! ## Setting variables -/

section Put

variable {key value : List Char} {lines : List EnvLine}

/-- **A variable that is set** is put among the assignments. -/
theorem assignments_putVar (lines : List EnvLine) (key value : List Char) :
    assignments (putVar lines key value) = put key value (assignments lines) := by
  unfold putVar
  split
  · next i hi =>
    induction lines generalizing i with
    | nil => cases hi
    | cons l lines ih =>
      rw [List.findIdx?_cons] at hi
      unfold assignments
      split at hi
      · next hkey =>
        cases hi
        cases l with
        | var k v =>
          show (key, value) :: _ = put key value ((k, v) :: _)
          rw [put, if_pos (of_decide_eq_true hkey)]
        | comment raw | blank raw => cases hkey
      · next hkey =>
        obtain ⟨j, hj, rfl⟩ := Option.map_eq_some_iff.mp hi
        have hrest := ih j hj
        unfold assignments at hrest
        cases l with
        | var k v =>
          show (k, v) :: (lines.set j _).filterMap _ = put key value ((k, v) :: _)
          rw [put, if_neg fun heq => hkey (decide_eq_true heq), hrest]
        | comment raw | blank raw => exact hrest
  · next hnone =>
    have hnot : ∀ e ∈ assignments lines, e.1 ≠ key := by
      intro e he
      obtain ⟨l, hl, hle⟩ := List.mem_filterMap.mp he
      have hl := List.findIdx?_eq_none_iff.mp hnone l hl
      cases l with
      | var k v =>
        cases hle
        exact of_decide_eq_false hl
      | comment raw | blank raw => cases hle
    have hend : ∀ ls : List EnvLine, assignments (ls ++ [.var key value])
        = assignments ls ++ [(key, value)] := fun ls => List.filterMap_append
    rw [hend, put_of_forall_ne hnot]
    refine congrArg (· ++ _) ?_
    split
    · rfl
    · exact List.filterMap_append.trans (List.append_nil _)

theorem assignments_setVars (texts : List (List Char × List Char)) (lines : List EnvLine) :
    assignments (setVars texts lines) = putAll texts (assignments lines) := by
  induction texts generalizing lines with
  | nil => rfl
  | cons v texts ih =>
    show assignments (setVars texts (putVar lines v.1 v.2))
      = putAll texts (put v.1 v.2 (assignments lines))
    rw [ih, assignments_putVar]

theorem mem_putVar {l : EnvLine} (h : l ∈ putVar lines key value) :
    l ∈ lines ∨ l = .blank [] ∨ l = .var key value := by
  unfold putVar at h
  split at h
  · rcases List.mem_or_eq_of_mem_set h with h | h
    · exact .inl h
    · exact .inr (.inr h)
  · rcases List.mem_append.mp h with h | h
    · split at h
      · exact .inl h
      · rcases List.mem_append.mp h with h | h
        · exact .inl h
        · exact .inr (.inl (List.mem_singleton.mp h))
    · exact .inr (.inr (List.mem_singleton.mp h))

theorem mem_setVars {texts : List (List Char × List Char)} {l : EnvLine}
    (h : l ∈ setVars texts lines) :
    l ∈ lines ∨ l = .blank [] ∨ ∃ v ∈ texts, l = .var v.1 v.2 := by
  induction texts generalizing lines with
  | nil => exact .inl h
  | cons v texts ih =>
    have hbehind : l ∈ setVars texts (putVar lines v.1 v.2) := h
    rcases ih hbehind with h | h | ⟨w, hw, h⟩
    · rcases mem_putVar h with h | h | h
      · exact .inl h
      · exact .inr (.inl h)
      · exact .inr (.inr ⟨v, List.mem_cons_self, h⟩)
    · exact .inr (.inl h)
    · exact .inr (.inr ⟨w, List.mem_cons_of_mem _ hw, h⟩)

end Put

/-! ## What a `PUT` writes -/

section Requests

variable {site : EnvSite} {file : Option (List Char)}

theorem putVars_eq_ok {rt : Runtime} {vars : List (String × Json)} {lines lines' : List EnvLine}
    (h : putVars rt vars lines = .ok lines') :
    ∃ texts, vars.mapM (varText rt) = .ok texts ∧ lines' = setVars texts lines := by
  induction vars generalizing lines with
  | nil =>
    cases h
    exact ⟨[], rfl, rfl⟩
  | cons v vars ih =>
    obtain ⟨text, htext, h⟩ := bind_eq_ok.mp h
    obtain ⟨texts, htexts, rfl⟩ := ih h
    refine ⟨(v.1.toList, text.toList) :: texts, ?_, rfl⟩
    have hv : varText rt v = .ok (v.1.toList, text.toList) := by
      unfold varText
      rw [htext]
      rfl
    rw [List.mapM_cons, hv, ok_bind, htexts]
    rfl

theorem map_fst_of_mapM {rt : Runtime} {vars : List (String × Json)}
    {texts : List (List Char × List Char)}
    (h : vars.mapM (varText rt) = .ok texts) :
    texts.map Prod.fst = vars.map fun v => v.1.toList := by
  induction vars generalizing texts with
  | nil =>
    cases h
    rfl
  | cons v vars ih =>
    rw [List.mapM_cons] at h
    obtain ⟨t, ht, h⟩ := bind_eq_ok.mp h
    obtain ⟨text, -, ht⟩ := bind_eq_ok.mp ht
    obtain ⟨ts, hts, h⟩ := bind_eq_ok.mp h
    cases ht
    cases h
    rw [List.map_cons, List.map_cons, ih hts]

theorem refuseKey_accepted {key : String} {response : EnvResponse}
    (h : refuseKey key = some response) : response.accepted = false := by
  unfold refuseKey at h
  split at h
  · cases h
    rfl
  · split at h
    · cases h
      rfl
    · cases h

theorem keysToRemove_accepted {rt : Runtime} {body : Option Json} {response : EnvResponse}
    (h : keysToRemove rt body = .error response) : response.accepted = false := by
  unfold keysToRemove at h
  split at h
  · cases h
    rfl
  · cases h
    rfl
  · split at h
    · cases h
      rfl
    · split at h
      · split at h
        · split at h
          · cases h
            rfl
          · cases h
        · cases h
          rfl
      · cases h
        rfl

/-- **A `PUT` that is accepted** writes the variables, set to their texts. -/
theorem put_of_accepted {body : List Char}
    (h : ((EnvAction.put body).perform site file).1.accepted = true) :
    ∃ texts, givenVars site.rt (Json.parse site.rt body) = .ok texts
      ∧ (∀ v ∈ texts, isVarBlocked v.1 = false ∧ isVarName v.1 = true)
      ∧ (envFile site).next file (.put body)
        = some (serializeEnv (setVars texts (readEnvFile file))) := by
  unfold Machine.next envFile givenVars
  dsimp only [EnvAction.perform] at h ⊢
  unfold putIntegrations at h ⊢
  cases hvars : bodyVars (Json.parse site.rt body) with
  | none =>
    rw [hvars] at h
    cases h
  | some vars =>
    rw [hvars] at h
    dsimp only at h ⊢
    cases hrefused : vars.findSome? fun v => refuseKey v.1 with
    | some response =>
      rw [hrefused] at h
      obtain ⟨v, -, hv⟩ := List.exists_of_findSome?_eq_some hrefused
      rw [refuseKey_accepted hv] at h
      cases h
    | none =>
      rw [hrefused] at h
      dsimp only at h ⊢
      split at h
      · cases h
      · next hhome =>
        rw [if_neg hhome]
        cases hput : putVars site.rt vars (readEnvFile file) with
        | error e =>
          rw [hput] at h
          cases h
        | ok lines =>
          obtain ⟨texts, htexts, rfl⟩ := putVars_eq_ok hput
          refine ⟨texts, htexts, ?_, rfl⟩
          have hkeys : texts.map Prod.fst = vars.map fun v => v.1.toList :=
            map_fst_of_mapM htexts
          intro v hv
          obtain ⟨w, hw, heq⟩ := List.mem_map.mp (hkeys ▸ List.mem_map_of_mem (f := Prod.fst) hv)
          have hnone := List.findSome?_eq_none_iff.mp hrefused w hw
          rw [← heq]
          unfold refuseKey at hnone
          split at hnone
          · cases hnone
          · next hblocked =>
            split at hnone
            · cases hnone
            · next hname => exact ⟨Bool.eq_false_iff.mpr hblocked, by simpa using hname⟩

/-- **A request that is refused** writes nothing. -/
theorem next_of_refused {a : EnvAction} (h : (a.perform site file).1.accepted = false) :
    (envFile site).next file a = file := by
  have hnone : (a.perform site file).2 = none := by
    cases a with
    | put body =>
      dsimp only [EnvAction.perform] at h ⊢
      unfold putIntegrations at h ⊢
      split
      · rfl
      · split
        · rfl
        · split
          · rfl
          · split
            · rfl
            · next hvars _ hrefused hhome _ _ hput =>
              rw [hvars] at h
              dsimp only at h
              rw [hrefused] at h
              dsimp only at h
              rw [if_neg hhome, hput] at h
              cases h
    | delete body =>
      dsimp only [EnvAction.perform] at h ⊢
      unfold deleteIntegrations at h ⊢
      split
      · rfl
      · split
        · rfl
        · split
          · rfl
          · next hkeys _ hblocked hhome =>
            rw [hkeys] at h
            dsimp only at h
            rw [hblocked] at h
            dsimp only at h
            rw [if_neg hhome] at h
            cases h
  show (a.perform site file).2.or file = file
  rw [hnone, Option.none_or]

/-- **A `DELETE`** leaves the file as it is, or writes the lines that are left. -/
theorem next_delete (site : EnvSite) (file : Option (List Char)) (body : List Char) :
    (envFile site).next file (.delete body) = file
      ∨ ∃ keys, keysToRemove site.rt (Json.parse site.rt body) = .ok keys
        ∧ (∀ key ∈ keys, isVarBlocked key = false)
        ∧ (envFile site).next file (.delete body)
          = some (serializeEnv ((readEnvFile file).filter fun l => !isRemoved keys l)) := by
  have hnext : (envFile site).next file (.delete body)
      = (deleteIntegrations site (Json.parse site.rt body) file).2.or file := rfl
  rw [hnext]
  unfold deleteIntegrations
  split
  · exact .inl (Option.none_or)
  · next keys hkeys =>
    split
    · exact .inl (Option.none_or)
    · next hblocked =>
      split
      · exact .inl (Option.none_or)
      · dsimp only
        split
        · exact .inl (Option.none_or)
        · refine .inr ⟨keys, hkeys, fun key hkey => ?_, rfl⟩
          exact Bool.eq_false_iff.mpr (List.find?_eq_none.mp hblocked key hkey)

theorem nodup_givenVars {body : List Char} {vars : List (List Char × List Char)}
    (h : givenVars site.rt (Json.parse site.rt body) = .ok vars) :
    (vars.map Prod.fst).Nodup := by
  have hfields : ((((bodyVars (Json.parse site.rt body)).getD []).map Prod.fst)).Nodup := by
    cases hbody : bodyVars (Json.parse site.rt body) with
    | none => exact List.nodup_nil
    | some fields =>
      unfold bodyVars at hbody
      split at hbody
      · next hget =>
        cases hbody
        match hparse : Json.parse site.rt body with
        | some (.obj top) =>
          rw [hparse] at hget
          have hproper := (Json.proper_obj.mp (Json.proper_of_parse hparse)).2
          exact (Json.proper_obj.mp (hproper _ (mem_of_lookup hget))).1
        | none | some .null | some (.bool _) | some (.num _) | some (.str _) | some (.arr _) =>
          rw [hparse] at hget
          cases hget
      · next elements hget =>
        cases hbody
        show ((elements.zipIdx.map _).map Prod.fst).Nodup
        rw [List.map_map, show (Prod.fst ∘ fun x : Json × ℕ => (toString x.2, x.1))
          = (toString : ℕ → String) ∘ Prod.snd from rfl, ← List.map_map, List.zipIdx_map_snd]
        have hrange : (List.range' 0 elements.length).Nodup := List.nodup_range'
        exact hrange.map fun _ _ => repr_injective
      · cases hbody
  unfold givenVars at h
  rw [map_fst_of_mapM h]
  have hnames := hfields.map (f := String.toList) fun _ _ => String.toList_inj.mp
  rwa [List.map_map] at hnames

end Requests

/-- The site of concrete runs. -/
def sampleEnvSite : EnvSite := ⟨sampleRuntime, "/srv/openclaw"⟩

/-- A request that sets a token. -/
def sampleEnvBody : List Char := "\x7b\"vars\":\x7b\"GITHUB_TOKEN\":\"new\"\x7d\x7d".toList

end MissionControl
