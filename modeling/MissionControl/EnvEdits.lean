import MissionControl.EnvFile
import MissionControl.Library.Utf8

/-!
# The rest of an edited file

A `PUT` and a `DELETE` of `/api/integrations` write the whole file again. What they do not
name is to stay: comments, blank lines and malformed ones byte for byte, assignments with
their key and value, and all of them in their order (`EnvAction.KeepsRest`).

The bytes of a line are at stake in two places. The file is octets; it is read as UTF-8, with
replacement, and what is written is the UTF-8 of the text, so that an octet that is no UTF-8
comes back as the three octets of the replacement character, in a comment that nobody touched
as well. And a line whose `=` has blanks alone before it is taken for an assignment without a
key, loses its blanks, and is malformed from then on. `keepsRest_iff` says that nothing else
goes wrong: all requests keep the rest of a file exactly if it is UTF-8 and has no such line.

The proof goes through the text. For octets that a text has, keeping their lines is keeping the
lines of the text (`keepsRest_encode_iff`), because a line break is an octet of its own; and a
`PUT` without variables names nothing and writes the whole file, so it shows any octet and any
line that would change (`keepsLines_emptyPut_iff`, `valid_of_keepsRest`). Whatever the file is,
writing its text a second time changes nothing (`serializeEnv_idempotent`).
-/

namespace MissionControl

/-- Whether a request names the key of a line. -/
def EnvAction.names (site : EnvSite) (l : EnvLine) : EnvAction → Bool
  | put body => ((bodyVars (Json.parse site.rt body)).getD []).any fun v => l.hasKey v.1.toList
  | delete body =>
    match keysToRemove site.rt (Json.parse site.rt body) with
    | .ok keys => keys.any fun key => l.hasKey key
    | .error _ => false

/-- A request keeps the lines of a text that it does not name, in their order. -/
def EnvAction.KeepsLines (site : EnvSite) (content : List Char) (a : EnvAction) : Prop :=
  ((parseEnv content).filter fun l => !a.names site l).Sublist
    (readEnvFile ((envFile site).next (some content) a))

/-- **The file on the disk**: octets, which are read with replacement and written as UTF-8. -/
def envDisk (site : EnvSite) : Machine (Option (List ℕ)) EnvAction EnvResponse where
  step file a :=
    let answer := a.perform site (file.map Utf8.decode)
    ((answer.2.map Utf8.encode).or file, [answer.1])

def octetLines (file : List ℕ) : List (List ℕ) := file.splitOn '\n'.toNat

/-- What the octets of a line are read as. -/
def readLine (raw : List ℕ) : EnvLine := parseLine (Utf8.decode raw)

/-- **The same line**: byte for byte, but for an assignment. That is the same if it is read as
the same key and value, and these are the octets of both lines. -/
def SameLine (raw raw' : List ℕ) : Prop :=
  match readLine raw with
  | .var _ _ => readLine raw' = readLine raw ∧ Utf8.Valid raw ∧ Utf8.Valid raw'
  | _ => raw' = raw

/-- **A request keeps the rest of the file**: the lines that it does not name are lines of
the new file, in their order. -/
def EnvAction.KeepsRest (site : EnvSite) (file : List ℕ) (a : EnvAction) : Prop :=
  List.SublistForall₂ SameLine
    ((octetLines file).filter fun raw => !a.names site (readLine raw))
    (((envDisk site).next (some file) a).elim [] octetLines)

def rewriteEnv (content : List Char) : List Char := serializeEnv (parseEnv content)

section Lines

variable {lines : List EnvLine} {key value : List Char}

theorem parseEnv_ne_nil (content : List Char) : parseEnv content ≠ [] := by
  unfold parseEnv
  intro h
  exact List.splitOn_ne_nil _ _ (List.map_eq_nil_iff.mp h)

theorem serializeLine_settled (l : EnvLine) : serializeLine l.settled = serializeLine l := by
  match l with
  | .comment raw | .blank raw | .var (c :: k) v => rfl
  | .var [] v => rfl

/-- A line stays as it is, unless it is an assignment without a key. -/
theorem settled_eq_self_iff {l : EnvLine} : l.settled = l ↔ ∀ value, l ≠ .var [] value := by
  match l with
  | .comment raw | .blank raw | .var (c :: k) v =>
    exact iff_of_true rfl fun value h => by cases h
  | .var [] v =>
    refine iff_of_false (fun h => ?_) fun h => h v rfl
    cases h

/-- **The lines of a file that was written again.** -/
theorem parseEnv_rewriteEnv (content : List Char) :
    parseEnv (rewriteEnv content) = (parseEnv content).map EnvLine.settled := by
  unfold rewriteEnv
  rw [parseEnv_serializeEnv (parseEnv_ne_nil content), List.map_eq_flatMap]
  refine List.flatMap_congr fun l hl => ?_
  have hread : l ∈ readEnvFile (some content) := hl
  exact reparse_of_mem hread

/-- **Writing a file a second time changes nothing.** -/
theorem serializeEnv_idempotent (content : List Char) :
    rewriteEnv (rewriteEnv content) = rewriteEnv content := by
  have hlines : (parseEnv (rewriteEnv content)).map serializeLine
      = (parseEnv content).map serializeLine := by
    rw [parseEnv_rewriteEnv, List.map_map]
    exact List.map_congr_left fun l _ => serializeLine_settled l
  show serializeEnv (parseEnv (rewriteEnv content)) = serializeEnv (parseEnv content)
  unfold serializeEnv
  rw [hlines]

/-! ## Lines that are written on -/

/-- **Lines that are still among those that are written** are read again, if they have
keys. -/
theorem sublist_written {content : List Char} {rest written : List EnvLine}
    (hrest : ∀ l ∈ rest, l ∈ parseEnv content)
    (hkeys : ∀ value, .var [] value ∉ parseEnv content) (h : rest.Sublist written) :
    rest.Sublist (readEnvFile (some (serializeEnv written))) := by
  have hself : rest.flatMap reparse = rest := by
    refine (List.flatMap_congr fun l hl => ?_).trans (List.flatMap_singleton' rest)
    have hread : l ∈ readEnvFile (some content) := hrest l hl
    rw [reparse_of_mem hread,
      settled_eq_self_iff.mpr fun value heq => hkeys value (heq ▸ hrest l hl)]
  cases written with
  | nil =>
    rw [List.sublist_nil.mp h]
    exact List.nil_sublist _
  | cons l written =>
    show rest.Sublist (parseEnv _)
    rw [parseEnv_serializeEnv (List.cons_ne_nil l written), ← hself]
    exact h.flatMap reparse

theorem sublist_putVar {q : EnvLine → Bool} (hq : ∀ l, l.hasKey key = true → q l = false) :
    (lines.filter q).Sublist ((putVar lines key value).filter q) := by
  unfold putVar
  split
  · next i hi =>
    obtain ⟨hlt, hkey, -⟩ := List.findIdx?_eq_some_iff_getElem.mp hi
    have hnamed : ¬ q lines[i] = true := Bool.eq_false_iff.mp (hq _ hkey)
    have hsplit : lines = lines.take i ++ lines[i] :: lines.drop (i + 1) := by
      rw [List.getElem_cons_drop, List.take_append_drop]
    rw [List.set_eq_take_append_cons_drop, if_pos hlt, List.filter_append]
    nth_rewrite 1 [hsplit]
    rw [List.filter_append, List.filter_cons_of_neg hnamed]
    exact (List.Sublist.refl _).append ((List.sublist_cons_self _ _).filter q)
  · split
    · exact (List.sublist_append_left _ _).filter q
    · rw [List.append_assoc]
      exact (List.sublist_append_left _ _).filter q

/-- **Setting variables leaves the lines of other keys**, in their order. -/
theorem sublist_setVars {vars : List (List Char × List Char)} {q : EnvLine → Bool}
    (hq : ∀ v ∈ vars, ∀ l, l.hasKey v.1 = true → q l = false) :
    (lines.filter q).Sublist (setVars vars lines) := by
  have hfilter : (lines.filter q).Sublist ((setVars vars lines).filter q) := by
    induction vars generalizing lines with
    | nil => exact List.Sublist.refl _
    | cons v vars ih =>
      obtain ⟨hv, hvars⟩ := List.forall_mem_cons.mp hq
      have hbehind : ((putVar lines v.1 v.2).filter q).Sublist
          ((setVars (v :: vars) lines).filter q) := ih hvars
      exact (sublist_putVar hv).trans hbehind
  exact hfilter.trans List.filter_sublist

end Lines

/-! ## The requests -/

section Requests

variable {site : EnvSite} {content : List Char} {body : List Char}

/-- **A `PUT` keeps the rest** of a file without assignments that have no key. -/
theorem keepsLines_put (hkeys : ∀ value, .var [] value ∉ parseEnv content)
    (haccepted : ((EnvAction.put body).perform site (some content)).1.accepted = true) :
    (EnvAction.put body).KeepsLines site content := by
  obtain ⟨texts, htexts, -, hnext⟩ := put_of_accepted haccepted
  unfold EnvAction.KeepsLines
  rw [hnext]
  refine sublist_written (fun l hl => (List.mem_filter.mp hl).1) hkeys ?_
  refine sublist_setVars fun v hv l hl => ?_
  unfold givenVars at htexts
  have hmem := List.mem_map_of_mem (f := Prod.fst) hv
  rw [map_fst_of_mapM htexts] at hmem
  obtain ⟨w, hw, heq⟩ := List.mem_map.mp hmem
  have hnamed : (EnvAction.put body).names site l = true :=
    List.any_eq_true.mpr ⟨w, hw, heq ▸ hl⟩
  rw [hnamed, Bool.not_true]

/-- **A `DELETE` keeps the rest** of such a file. -/
theorem keepsLines_delete (hkeys : ∀ value, .var [] value ∉ parseEnv content) :
    (EnvAction.delete body).KeepsLines site content := by
  unfold EnvAction.KeepsLines
  rcases next_delete site (some content) body with h | ⟨keys, hremove, -, h⟩
  · rw [h]
    exact List.filter_sublist
  · rw [h]
    refine sublist_written (fun l hl => (List.mem_filter.mp hl).1) hkeys ?_
    refine List.monotone_filter_right _ fun l hl => ?_
    rw [Bool.not_eq_true'] at hl ⊢
    match l with
    | .comment raw | .blank raw => rfl
    | .var key value =>
      refine Bool.eq_false_iff.mpr fun hremoved => Bool.eq_false_iff.mp hl ?_
      unfold EnvAction.names
      dsimp only
      rw [hremove]
      exact List.any_eq_true.mpr ⟨key, of_decide_eq_true (Bool.and_eq_true_iff.mp hremoved).2,
        decide_eq_true rfl⟩

theorem home_of_accepted {file : Option (List Char)} {a : EnvAction}
    (h : (a.perform site file).1.accepted = true) : site.openclawHome ≠ "" := by
  intro hhome
  cases a with
  | put body =>
    dsimp only [EnvAction.perform] at h
    unfold putIntegrations at h
    split at h
    · cases h
    · split at h
      · next hrefused =>
        obtain ⟨v, -, hv⟩ := List.exists_of_findSome?_eq_some hrefused
        rw [refuseKey_accepted hv] at h
        cases h
      · rw [if_pos hhome] at h
        cases h
  | delete body =>
    dsimp only [EnvAction.perform] at h
    unfold deleteIntegrations at h
    split at h
    · next hrefused =>
      rw [keysToRemove_accepted hrefused] at h
      cases h
    · split at h
      · cases h
      · rw [if_pos hhome] at h
        cases h

def emptyPut (site : EnvSite) : EnvAction :=
  .put (Json.stringify site.rt (.obj [("vars", .obj [])]))

theorem parse_emptyPut (site : EnvSite) :
    Json.parse site.rt (Json.stringify site.rt (.obj [("vars", .obj [])]))
      = some (.obj [("vars", .obj [])]) :=
  Json.parse_stringify fun q hq => by cases hq

/-- **Setting no variable** writes the file again. -/
theorem perform_emptyPut (hhome : site.openclawHome ≠ "") (content : List Char) :
    (emptyPut site).perform site (some content)
      = (keysAnswer "updated" [], some (rewriteEnv content)) := by
  unfold emptyPut EnvAction.perform putIntegrations
  dsimp only
  rw [parse_emptyPut]
  show (if site.openclawHome = "" then _ else _) = _
  rw [if_neg hhome]
  rfl

theorem names_emptyPut (l : EnvLine) : (emptyPut site).names site l = false := by
  unfold emptyPut EnvAction.names
  dsimp only
  rw [parse_emptyPut]
  rfl

theorem keepsLines_emptyPut_iff (hhome : site.openclawHome ≠ "") :
    (emptyPut site).KeepsLines site content ↔ ∀ value, .var [] value ∉ parseEnv content := by
  have hnext : (envFile site).next (some content) (emptyPut site) = some (rewriteEnv content) := by
    show ((emptyPut site).perform site (some content)).2.or _ = _
    rw [perform_emptyPut hhome]
    rfl
  have hall : (parseEnv content).filter (fun l => !(emptyPut site).names site l)
      = parseEnv content :=
    List.filter_eq_self.mpr fun l _ => by rw [names_emptyPut, Bool.not_false]
  unfold EnvAction.KeepsLines
  rw [hall, hnext]
  show (parseEnv content).Sublist (parseEnv (rewriteEnv content)) ↔ _
  rw [parseEnv_rewriteEnv]
  constructor
  · intro h value hmem
    have hsame : (parseEnv content).map id = (parseEnv content).map EnvLine.settled := by
      rw [List.map_id]
      exact h.eq_of_length (List.length_map _).symm
    exact settled_eq_self_iff.mp (List.map_inj_left.mp hsame _ hmem).symm value rfl
  · intro hkeys
    have hsame : (parseEnv content).map EnvLine.settled = (parseEnv content).map id :=
      List.map_inj_left.mpr fun l hl =>
        settled_eq_self_iff.mpr fun value heq => hkeys value (heq ▸ hl)
    rw [hsame, List.map_id]

end Requests

/-! ## Octets and texts -/

section Octets

variable {site : EnvSite} {content : List Char} {file : List ℕ}

/-- Every member of a list has its like in a list that agrees with it. -/
theorem exists_of_forall₂ {α β : Type} {r : α → β → Prop} {xs : List α} {ys : List β}
    (h : List.Forall₂ r xs ys) {x : α} (hx : x ∈ xs) : ∃ y ∈ ys, r x y := by
  induction h with
  | nil => exact nomatch hx
  | cons hr _ ih =>
    rcases List.mem_cons.mp hx with rfl | hx
    · exact ⟨_, List.mem_cons_self, hr⟩
    · obtain ⟨y, hy, hr⟩ := ih hx
      exact ⟨y, List.mem_cons_of_mem _ hy, hr⟩

theorem readLine_encode (text : List Char) : readLine (Utf8.encode text) = parseLine text :=
  congrArg parseLine (Utf8.decode_encode text)

theorem SameLine.readLine_eq {raw raw' : List ℕ} (h : SameLine raw raw') :
    readLine raw' = readLine raw := by
  unfold SameLine at h
  split at h
  · exact h.1
  · rw [h]

/-- **Texts that are read as the same line** have octets of the same line. -/
theorem sameLine_encode_iff {text text' : List Char} :
    SameLine (Utf8.encode text) (Utf8.encode text') ↔ parseLine text = parseLine text' := by
  refine ⟨fun h => ?_, fun h => ?_⟩
  · rw [← readLine_encode, ← readLine_encode, h.readLine_eq]
  · unfold SameLine
    rw [readLine_encode, readLine_encode]
    rcases parseLine_cases text with (htext | htext) | ⟨pre, value, -, -, -, htext⟩
    · rcases parseLine_cases text' with (htext' | htext') | ⟨_, _, -, -, -, htext'⟩ <;>
        rw [htext, htext'] at h <;> cases h
      rw [htext]
    · rcases parseLine_cases text' with (htext' | htext') | ⟨_, _, -, -, -, htext'⟩ <;>
        rw [htext, htext'] at h <;> cases h
      rw [htext]
    · rw [htext]
      exact ⟨h ▸ htext, Utf8.valid_encode text, Utf8.valid_encode text'⟩

theorem octetLines_encode (content : List Char) :
    octetLines (Utf8.encode content) = (content.splitOn '\n').map Utf8.encode :=
  Utf8.splitOn_encode (by decide) content

theorem next_envDisk (a : EnvAction) :
    (envDisk site).next (some (Utf8.encode content)) a
      = ((envFile site).next (some content) a).map Utf8.encode := by
  show ((a.perform site (some (Utf8.decode (Utf8.encode content)))).2.map Utf8.encode).or _
    = ((a.perform site (some content)).2.or (some content)).map Utf8.encode
  rw [Utf8.decode_encode]
  cases (a.perform site (some content)).2 <;> rfl

/-- **For the octets of a text** the rest is kept exactly if the lines of the text are. -/
theorem keepsRest_encode_iff (a : EnvAction) :
    a.KeepsRest site (Utf8.encode content) ↔ a.KeepsLines site content := by
  obtain ⟨written, hwritten⟩ : ∃ written, (envFile site).next (some content) a = some written := by
    show ∃ written, (a.perform site (some content)).2.or (some content) = some written
    cases (a.perform site (some content)).2 with
    | none => exact ⟨_, rfl⟩
    | some written => exact ⟨_, rfl⟩
  have hlines : (octetLines (Utf8.encode content)).filter (fun raw => !a.names site (readLine raw))
      = ((content.splitOn '\n').filter fun text => !a.names site (parseLine text)).map
        Utf8.encode := by
    rw [octetLines_encode, List.filter_map]
    simp only [Function.comp_def, readLine_encode]
  have hparsed : (parseEnv content).filter (fun l => !a.names site l)
      = ((content.splitOn '\n').filter fun text => !a.names site (parseLine text)).map
        parseLine := List.filter_map
  unfold EnvAction.KeepsRest EnvAction.KeepsLines
  rw [next_envDisk, hwritten, hlines, hparsed, Option.map_some, Option.elim_some,
    octetLines_encode, List.sublistForall₂_map_left_iff, List.sublistForall₂_map_right_iff]
  simp only [sameLine_encode_iff]
  show _ ↔ List.Sublist _ ((written.splitOn '\n').map parseLine)
  rw [List.sublist_map_iff, List.sublistForall₂_iff]
  refine exists_congr fun texts => ?_
  rw [← List.forall₂_eq_eq_eq, List.forall₂_map_left_iff, List.forall₂_map_right_iff, and_comm]

/-- **A line that a write keeps is UTF-8**: what is written is, and an assignment is kept only
with its octets. -/
theorem valid_of_written {a : EnvAction} (h : a.KeepsRest site file) {written : List Char}
    (hwritten : (a.perform site (some (Utf8.decode file))).2 = some written) {raw : List ℕ}
    (hraw : raw ∈ octetLines file) (hnamed : a.names site (readLine raw) = false) :
    Utf8.Valid raw := by
  have hnext : (envDisk site).next (some file) a = some (Utf8.encode written) := by
    show ((a.perform site (some (Utf8.decode file))).2.map Utf8.encode).or _ = _
    rw [hwritten]
    rfl
  unfold EnvAction.KeepsRest at h
  rw [hnext, Option.elim_some, octetLines_encode] at h
  obtain ⟨lines, hsame, hsub⟩ := List.sublistForall₂_iff.mp h
  obtain ⟨raw', hraw', hline⟩ := exists_of_forall₂ hsame
    (List.mem_filter.mpr ⟨hraw, by rw [hnamed, Bool.not_false]⟩)
  unfold SameLine at hline
  split at hline
  · exact hline.2.1
  · obtain ⟨text, -, htext⟩ := List.mem_map.mp (hsub.subset hraw')
    rw [← hline, ← htext]
    exact Utf8.valid_encode text

/-- **A file that is kept is UTF-8**: setting no variable writes it, and names no line. -/
theorem valid_of_keepsRest (hhome : site.openclawHome ≠ "")
    (h : (emptyPut site).KeepsRest site file) : Utf8.Valid file :=
  Utf8.valid_of_lines (c := '\n') (by decide) fun _ hraw => valid_of_written h
    (congrArg Prod.snd (perform_emptyPut hhome _)) hraw (names_emptyPut _)

end Octets

/-- **Edits keep the rest of a file** exactly if it is UTF-8 and no line of it has blanks alone
before its `=`; writing a text twice is always as good as once. -/
theorem keepsRest_iff (site : EnvSite) (file : List ℕ) :
    ((∀ a : EnvAction, (a.perform site (some (Utf8.decode file))).1.accepted = true →
          a.KeepsRest site file)
        ∧ ∀ content, serializeEnv (parseEnv (serializeEnv (parseEnv content)))
          = serializeEnv (parseEnv content))
      ↔ (site.openclawHome ≠ "" →
        Utf8.Valid file ∧ ∀ value, .var [] value ∉ parseEnv (Utf8.decode file)) := by
  constructor
  · rintro ⟨hkept, -⟩ hhome
    have hempty := hkept (emptyPut site) (by rw [perform_emptyPut hhome]; rfl)
    have hvalid := valid_of_keepsRest hhome hempty
    refine ⟨hvalid, (keepsLines_emptyPut_iff hhome).mp (keepsRest_encode_iff _ |>.mp ?_)⟩
    rwa [show Utf8.encode (Utf8.decode file) = file from hvalid]
  · intro h
    refine ⟨fun a haccepted => ?_, serializeEnv_idempotent⟩
    obtain ⟨hvalid, hkeys⟩ := h (home_of_accepted haccepted)
    rw [← show Utf8.encode (Utf8.decode file) = file from hvalid]
    refine (keepsRest_encode_iff a).mpr ?_
    cases a with
    | put body => exact keepsLines_put hkeys haccepted
    | delete body => exact keepsLines_delete hkeys

/-! ## A line without a key, and an octet that is no UTF-8 -/

/-- The file of a comment in Latin-1. -/
def sampleLatin : List ℕ := Utf8.encode "# caf".toList ++ [0xE9]

/-- Every accepted request of the sample site keeps the rest of a file, and writing a text
twice is as good as once. -/
def KeepsRestOf (file : List ℕ) : Prop :=
  (∀ a : EnvAction, (a.perform sampleEnvSite (some (Utf8.decode file))).1.accepted = true →
      a.KeepsRest sampleEnvSite file)
    ∧ ∀ content, serializeEnv (parseEnv (serializeEnv (parseEnv content)))
      = serializeEnv (parseEnv content)

/-- **A blank before `=` is lost**, and with it the assignment; and an octet in a comment is
replaced. -/
theorem not_keepsRest_samples :
    ¬ KeepsRestOf (Utf8.encode " =foo\nGITHUB_TOKEN=old".toList) ∧ ¬ KeepsRestOf sampleLatin := by
  refine ⟨fun h => ?_, fun h => ?_⟩
  · have hlines := (keepsRest_encode_iff _).mp (h.1 (.put sampleEnvBody) (by decide +kernel))
    unfold EnvAction.KeepsLines at hlines
    exact absurd hlines (by decide +kernel)
  · have hwritten : ((EnvAction.put sampleEnvBody).perform sampleEnvSite
        (some (Utf8.decode sampleLatin))).2.isSome = true := by decide +kernel
    obtain ⟨written, hwritten⟩ := Option.isSome_iff_exists.mp hwritten
    have hvalid : Utf8.Valid sampleLatin :=
      valid_of_written (h.1 (.put sampleEnvBody) (by decide +kernel)) hwritten
        (by decide +kernel) (by decide +kernel)
    unfold Utf8.Valid at hvalid
    exact absurd hvalid (by decide +kernel)

end MissionControl
