import MissionControl.Export
import MissionControl.TokenStats

/-!
# The export of the token records

`GET /api/tokens?action=export&format=csv` writes a line for each token record, with the
values as they are and commas between them. So a model, a session or an operation that has a
comma in it becomes two fields, one with a line feed two records, and one with a quote cannot
be read at all (`not_tokenCsvReadsBack_sampleComma`).

The file is read back where the texts have none of these characters in them, and the export
succeeds (`exportable_iff`).
-/

namespace MissionControl

/-! ## The export -/

/-- The digits of `n / 10000`, with four behind the point. -/
def fixedDigits (n : ℕ) : String :=
  (n / 10000).repr ++ "." ++ String.ofList (padded 4 (n % 10000))

/-- **`x.toFixed(4)`**: the nearest number of ten thousandths, and the larger of two; of a
negative number that of its opposite. What has become `null` has no such method. -/
def toFixed (rt : Runtime) : JsNumber → Except Exception String
  | .finite q =>
    let text :=
      if (10 : ℚ) ^ 21 ≤ |q| then rt.numberToString (.finite |q|)
      else fixedDigits (|q| * 10000 + 1 / 2).floor.toNat
    .ok (if q < 0 then "-" ++ text else text)
  | _ => .error .typeError

example : toFixed sampleRuntime (.finite (12345678 / 1000000)) = .ok "12.3457" := by decide +kernel

example : toFixed sampleRuntime (.finite (-3 / 40000)) = .ok "-0.0001" := by decide +kernel

def tokenHeaders : List String :=
  ["timestamp", "model", "sessionId", "operation", "inputTokens", "outputTokens", "totalTokens",
    "cost", "duration"]

/-- `record.duration || 0`. -/
def TokenUsageRecord.durationValue (r : TokenUsageRecord) : Json :=
  Json.or (r.duration.map Json.stored) (.num (.finite 0))

/-- **The line of a record** as it is read from the file. -/
def tokenCsvLine (rt : Runtime) (r : TokenUsageRecord) : Except Exception String := do
  let timestamp ← toISOString r.timestamp
  let cost ← toFixed rt r.cost
  Json.join rt "," [.str timestamp, r.model.stored, r.sessionId.stored, r.operation.stored,
    (Json.num r.inputTokens).stored, (Json.num r.outputTokens).stored,
    (Json.num r.totalTokens).stored, .str cost, r.durationValue]

/-- `csvRows.join('\n')`. -/
def tokenCsv (rt : Runtime) (records : List TokenUsageRecord) : Except Exception String := do
  let lines ← records.mapM (tokenCsvLine rt)
  .ok ("\n".intercalate (",".intercalate tokenHeaders :: lines))

inductive TokenExport where
  | csv (body filename : String)
  | json (usage : List TokenUsageRecord) (summary : TokenStats)
    (models sessions : List (String × TokenStats)) (filename : String)

def tokenExport (site : TokenSite) (now : ℕ) (timeframe format : String)
    (filtered : List TokenUsageRecord) : Except Exception TokenExport := do
  let models ← groupStats (modelKey site.rt) filtered
  let sessions ← groupStats (sessionKey site.rt) filtered
  let filename := "token-usage-" ++ timeframe ++ "-" ++ dateText now
  if format = "csv" then
    let body ← tokenCsv site.rt filtered
    .ok (.csv body (filename ++ ".csv"))
  else
    .ok (.json filtered (calculateStats filtered) models sessions (filename ++ ".json"))

/-- **`GET /api/tokens?action=export`** on the records that are loaded. -/
def getTokenExport (site : TokenSite) (now : ℕ) (timeframe format : String)
    (records : List TokenUsageRecord) : Except ApiResponse TokenExport :=
  match tokenExport site now timeframe format (filterByTimeframe now timeframe records) with
  | .ok answer => .ok answer
  | .error _ => .error (.error 500 "Internal server error")

/-! ## What is to be read back -/

/-- **The model, the session and the operation of a record are texts.** -/
def TokenUsageRecord.TextFields (r : TokenUsageRecord) : Prop :=
  ∃ model sessionId operation, r.model = .str model ∧ r.sessionId = .str sessionId
    ∧ r.operation = .str operation

/-- **A record of the file is that of a token record**: it has nine fields, and the model, the
session and the operation among them. -/
def RowOf (r : TokenUsageRecord) (row : List (List Char)) : Prop :=
  row.length = 9 ∧ r.TextFields ∧ row[1]? = some r.model.text.toList
    ∧ row[2]? = some r.sessionId.text.toList ∧ row[3]? = some r.operation.text.toList

/-- **The export is read back**: the names of the columns, and a record for each token
record. -/
def TokenCsvReadsBack (site : TokenSite) (now : ℕ) (timeframe : String)
    (records : List TokenUsageRecord) : Prop :=
  ∃ body filename rows,
    getTokenExport site now timeframe "csv" records = .ok (.csv body filename)
      ∧ Csv.records body.toList = some (tokenHeaders.map String.toList :: rows)
      ∧ List.Forall₂ RowOf (filterByTimeframe now timeframe records) rows

/-- The duration of a record is written as one field. -/
def TokenUsageRecord.OneDuration (rt : Runtime) (r : TokenUsageRecord) : Prop :=
  ∃ text field, r.durationValue.toStr rt = .ok text ∧ Csv.Written text.toList field

/-- **A record that can be exported**: its texts have neither commas nor line feeds nor quotes
in them, and the rest of it can be written. -/
structure Exportable (rt : Runtime) (r : TokenUsageRecord) : Prop where
  texts : r.TextFields
  model : Csv.Plain r.model.text.toList
  sessionId : Csv.Plain r.sessionId.text.toList
  operation : Csv.Plain r.operation.text.toList
  modelName : r.model.text ∉ objectPrototype
  sessionName : r.sessionId.text ∉ objectPrototype
  timestamp : r.timestamp ≤ 8640000000000000
  cost : ∃ q, r.cost = .finite q
  duration : r.OneDuration rt

/-! ## Lines -/

section Lines

variable {rt : Runtime} {r : TokenUsageRecord}

theorem mapM_eq_ok_iff {α β : Type} {f : α → Except Exception β} {xs : List α} {ys : List β} :
    xs.mapM f = .ok ys ↔ List.Forall₂ (fun x y => f x = .ok y) xs ys := by
  induction xs generalizing ys with
  | nil =>
    rw [List.forall₂_nil_left_iff]
    exact ⟨fun h => (Except.ok.inj h).symm, fun h => h ▸ rfl⟩
  | cons x xs ih =>
    rw [List.mapM_cons, List.forall₂_cons_left_iff]
    constructor
    · intro h
      obtain ⟨y, hy, h⟩ := bind_eq_ok.mp h
      obtain ⟨ys', hys, h⟩ := bind_eq_ok.mp h
      exact ⟨y, ys', hy, ih.mp hys, (Except.ok.inj h).symm⟩
    · rintro ⟨y, ys', hy, hys, rfl⟩
      rw [hy, ok_bind, ih.mpr hys]
      rfl

theorem forall_of_forall₂ {α β : Type} {R : α → β → Prop} {p : α → Prop} {xs : List α}
    {ys : List β} (himp : ∀ x y, R x y → p x) (h : List.Forall₂ R xs ys) : ∀ x ∈ xs, p x :=
  ((List.forall₂_and_left xs ys).mp (h.imp fun x y hxy => ⟨himp x y hxy, hxy⟩)).1

theorem exists_forall₂ {α β : Type} {R : α → β → Prop} {xs : List α} (h : ∀ x ∈ xs, ∃ y, R x y) :
    ∃ ys, List.Forall₂ R xs ys := by
  induction xs with
  | nil => exact ⟨[], .nil⟩
  | cons x xs ih =>
    obtain ⟨hx, h⟩ := List.forall_mem_cons.mp h
    obtain ⟨y, hy⟩ := hx
    obtain ⟨ys, hys⟩ := ih h
    exact ⟨y :: ys, .cons hy hys⟩

def numberText (rt : Runtime) : JsNumber → String
  | .finite q => rt.numberToString (.finite q)
  | _ => ""

/-- The texts of the fields of a line. -/
def TokenUsageRecord.fieldTexts (rt : Runtime) (r : TokenUsageRecord) (cost duration : String) :
    List String :=
  [isoText r.timestamp, r.model.text, r.sessionId.text, r.operation.text,
    numberText rt r.inputTokens, numberText rt r.outputTokens, numberText rt r.totalTokens,
    cost, duration]

theorem elementTexts_str (s : String) (elements : List Json) :
    Json.toStr.elementTexts rt (.str s :: elements)
      = (do
        let texts ← Json.toStr.elementTexts rt elements
        .ok (s :: texts)) := rfl

theorem elementTexts_num (n : JsNumber) (elements : List Json) :
    Json.toStr.elementTexts rt ((Json.num n).stored :: elements)
      = (do
        let texts ← Json.toStr.elementTexts rt elements
        .ok (numberText rt n :: texts)) := by
  cases n <;> rfl

theorem elementTexts_duration (r : TokenUsageRecord) :
    Json.toStr.elementTexts rt [r.durationValue]
      = (do
        let text ← r.durationValue.toStr rt
        .ok [text]) := by
  have hne : r.durationValue ≠ .null := by
    unfold TokenUsageRecord.durationValue Json.or
    cases r.duration with
    | none => exact fun h => (by cases h)
    | some j =>
      dsimp only [Option.map_some]
      split
      · next htrue =>
        intro hnull
        rw [hnull] at htrue
        cases htrue
      · exact fun h => (by cases h)
  cases hvalue : r.durationValue with
  | null => exact absurd hvalue hne
  | bool _ | num _ | str _ | arr _ | obj _ => rfl

theorem join_fieldTexts (htexts : r.TextFields) (cost : String) :
    Json.join rt "," [.str (isoText r.timestamp), r.model.stored, r.sessionId.stored,
        r.operation.stored, (Json.num r.inputTokens).stored, (Json.num r.outputTokens).stored,
        (Json.num r.totalTokens).stored, .str cost, r.durationValue]
      = (do
        let duration ← r.durationValue.toStr rt
        .ok (",".intercalate (r.fieldTexts rt cost duration))) := by
  obtain ⟨model, sessionId, operation, hmodel, hsession, hoperation⟩ := htexts
  have hstr : ∀ s, (Json.str s).stored = .str s := fun _ => rfl
  have htext : ∀ s, (Json.str s).text = s := fun _ => rfl
  unfold Json.join TokenUsageRecord.fieldTexts
  rw [hmodel, hsession, hoperation, hstr, hstr, hstr, htext, htext, htext]
  rw [elementTexts_str, elementTexts_str, elementTexts_str, elementTexts_str, elementTexts_num,
    elementTexts_num, elementTexts_num, elementTexts_str, elementTexts_duration]
  cases r.durationValue.toStr rt <;> rfl

/-- **The line of a record** whose model, session and operation are texts. -/
theorem tokenCsvLine_eq_ok (htexts : r.TextFields) {line : String} :
    tokenCsvLine rt r = .ok line
      ↔ r.timestamp ≤ 8640000000000000 ∧ ∃ cost duration, toFixed rt r.cost = .ok cost
        ∧ r.durationValue.toStr rt = .ok duration
        ∧ line = ",".intercalate (r.fieldTexts rt cost duration) := by
  unfold tokenCsvLine
  constructor
  · intro h
    obtain ⟨timestamp, htimestamp, h⟩ := bind_eq_ok.mp h
    obtain ⟨cost, hcost, h⟩ := bind_eq_ok.mp h
    unfold toISOString at htimestamp
    split at htimestamp
    · next htime =>
      obtain rfl := Except.ok.inj htimestamp
      rw [join_fieldTexts htexts] at h
      obtain ⟨duration, hduration, h⟩ := bind_eq_ok.mp h
      exact ⟨htime, cost, duration, hcost, hduration, (Except.ok.inj h).symm⟩
    · cases htimestamp
  · rintro ⟨htime, cost, duration, hcost, hduration, rfl⟩
    unfold toISOString
    rw [if_pos htime, ok_bind, hcost, ok_bind, join_fieldTexts htexts, hduration, ok_bind]

/-! ## Fields -/

theorem plain_of_isIsoChar {text : List Char} (h : ∀ c ∈ text, isIsoChar c = true) :
    Csv.Plain text := by
  intro c hc
  have hiso := h c hc
  refine ⟨?_, ?_, ?_⟩ <;> rintro rfl <;> exact absurd hiso (by decide)

theorem plain_append {text text' : List Char} (h : Csv.Plain text) (h' : Csv.Plain text') :
    Csv.Plain (text ++ text') := fun c hc =>
  (List.mem_append.mp hc).elim (h c) (h' c)

theorem plain_isoText (time : ℕ) : Csv.Plain (isoText time).toList :=
  plain_of_isIsoChar fun _ => isIsoChar_of_mem

theorem plain_repr (n : ℕ) : Csv.Plain n.repr.toList := by
  refine plain_of_isIsoChar fun c hc => ?_
  unfold isIsoChar
  rw [isDigit_of_mem_repr hc]
  rfl

theorem toList_fixedDigits (n : ℕ) :
    (fixedDigits n).toList
      = (n / 10000).repr.toList ++ (".".toList ++ padded 4 (n % 10000)) := by
  unfold fixedDigits
  rw [String.toList_append, String.toList_append, String.toList_ofList (l := padded 4 _),
    List.append_assoc]

theorem plain_fixedDigits (n : ℕ) : Csv.Plain (fixedDigits n).toList := by
  have hfraction := plain_of_isIsoChar (List.all_eq_true.mp (all_padded 4 (n % 10000)))
  rw [toList_fixedDigits]
  exact plain_append (plain_repr _) (plain_append (by decide) hfraction)

theorem plain_numberText (hrt : ∀ n, Csv.Plain (rt.numberToString n).toList) (n : JsNumber) :
    Csv.Plain (numberText rt n).toList := by
  cases n with
  | finite q => exact hrt _
  | nan | infinity _ => exact fun _ hc => absurd hc List.not_mem_nil

theorem toFixed_eq_ok (hrt : ∀ n, Csv.Plain (rt.numberToString n).toList) {n : JsNumber}
    {text : String} (h : toFixed rt n = .ok text) :
    Csv.Plain text.toList ∧ ∃ q, n = .finite q := by
  cases n with
  | nan | infinity _ => cases h
  | finite q =>
    obtain rfl := Except.ok.inj h
    refine ⟨?_, q, rfl⟩
    have hplain : Csv.Plain (if (10 : ℚ) ^ 21 ≤ |q| then rt.numberToString (.finite |q|)
        else fixedDigits (|q| * 10000 + 1 / 2).floor.toNat).toList := by
      split
      · exact hrt _
      · exact plain_fixedDigits _
    split
    · rw [String.toList_append]
      exact plain_append (by decide) hplain
    · exact hplain

/-- **The fields of a line**, if the model, the session and the operation are written as they
are. -/
theorem written_fieldTexts (hrt : ∀ n, Csv.Plain (rt.numberToString n).toList)
    {cost duration : String} {field : List Char} (hmodel : Csv.Plain r.model.text.toList)
    (hsession : Csv.Plain r.sessionId.text.toList)
    (hoperation : Csv.Plain r.operation.text.toList) (hcost : Csv.Plain cost.toList)
    (hduration : Csv.Written duration.toList field) :
    List.Forall₂ Csv.Written ((r.fieldTexts rt cost duration).map String.toList)
      [(isoText r.timestamp).toList, r.model.text.toList, r.sessionId.text.toList,
        r.operation.text.toList, (numberText rt r.inputTokens).toList,
        (numberText rt r.outputTokens).toList, (numberText rt r.totalTokens).toList, cost.toList,
        field] :=
  .cons (.inl ⟨plain_isoText _, rfl⟩) <| .cons (.inl ⟨hmodel, rfl⟩) <|
    .cons (.inl ⟨hsession, rfl⟩) <| .cons (.inl ⟨hoperation, rfl⟩) <|
    .cons (.inl ⟨plain_numberText hrt _, rfl⟩) <| .cons (.inl ⟨plain_numberText hrt _, rfl⟩) <|
    .cons (.inl ⟨plain_numberText hrt _, rfl⟩) <| .cons (.inl ⟨hcost, rfl⟩) <|
    .cons hduration .nil

theorem record_fieldTexts_ne_nil (cost duration : String) :
    Csv.record ((r.fieldTexts rt cost duration).map String.toList) ≠ [] := by
  unfold TokenUsageRecord.fieldTexts
  rw [List.map_cons, List.map_cons, Csv.record_cons]
  simp

/-- **The first line that is read back** has a model, a session and an operation without
separators. -/
theorem plain_of_records {cost duration : String} (lines : List (List (List Char)))
    {row : List (List Char)} {rows : List (List (List Char))}
    (hread : Csv.records
        (Csv.file ((r.fieldTexts rt cost duration).map String.toList :: lines))
      = some (row :: rows)) (hrow : RowOf r row) :
    Csv.Plain r.model.text.toList ∧ Csv.Plain r.sessionId.text.toList
      ∧ Csv.Plain r.operation.text.toList := by
  obtain ⟨-, -, hmodel, hsession, hoperation⟩ := hrow
  obtain ⟨rest, hfile⟩ : ∃ rest, Csv.file ((r.fieldTexts rt cost duration).map String.toList
      :: lines) = Csv.record ((r.fieldTexts rt cost duration).map String.toList) ++ rest := by
    cases lines with
    | nil => exact ⟨[], by rw [List.append_nil]; exact List.intercalate_singleton⟩
    | cons line lines => exact ⟨_, Csv.file_cons _ _ _⟩
  have htime : Csv.Written (isoText r.timestamp).toList (isoText r.timestamp).toList :=
    .inl ⟨plain_isoText _, rfl⟩
  unfold Csv.records at hread
  rw [hfile] at hread
  -- each field is read where those in front of it are
  have hplain := Csv.plain_of_read_record (.cons htime .nil) hread hmodel
  have hplain' := Csv.plain_of_read_record (.cons htime (.cons (.inl ⟨hplain, rfl⟩) .nil)) hread
    hsession
  exact ⟨hplain, hplain', Csv.plain_of_read_record
    (.cons htime (.cons (.inl ⟨hplain, rfl⟩) (.cons (.inl ⟨hplain', rfl⟩) .nil))) hread
    hoperation⟩

/-! ## The file -/

/-- The texts of the line of a record. -/
def TokenUsageRecord.IsLine (rt : Runtime) (r : TokenUsageRecord) (line : List (List Char)) :
    Prop :=
  ∃ cost duration, toFixed rt r.cost = .ok cost ∧ r.durationValue.toStr rt = .ok duration
    ∧ line = (r.fieldTexts rt cost duration).map String.toList

/-- **A line without separators in its texts** is written as a record of its token record. -/
theorem written_of_isLine (hrt : ∀ n, Csv.Plain (rt.numberToString n).toList)
    {line : List (List Char)} (h : r.IsLine rt line) (htexts : r.TextFields)
    (hmodel : Csv.Plain r.model.text.toList) (hsession : Csv.Plain r.sessionId.text.toList)
    (hoperation : Csv.Plain r.operation.text.toList) (hduration : r.OneDuration rt) :
    (∃ values, List.Forall₂ Csv.Written line values ∧ RowOf r values)
      ∧ Csv.record line ≠ [] := by
  obtain ⟨cost, duration, hcost, htext, rfl⟩ := h
  obtain ⟨text, field, htext', hwritten⟩ := hduration
  obtain rfl := Except.ok.inj (htext.symm.trans htext')
  have hcost := (toFixed_eq_ok hrt hcost).1
  exact ⟨⟨_, written_fieldTexts hrt hmodel hsession hoperation hcost hwritten, rfl, htexts, rfl,
    rfl, rfl⟩, record_fieldTexts_ne_nil cost duration⟩

/-- **Lines that are read back as records of their token records** have no separators in their
texts, where each duration is one field. -/
theorem plain_of_lines (hrt : ∀ n, Csv.Plain (rt.numberToString n).toList)
    {records : List TokenUsageRecord} {lines rows : List (List (List Char))}
    (hlines : List.Forall₂ (TokenUsageRecord.IsLine rt) records lines)
    (hdurations : ∀ r ∈ records, r.OneDuration rt)
    (hread : Csv.records (Csv.file lines) = some rows) (hrows : List.Forall₂ RowOf records rows) :
    ∀ r ∈ records, Csv.Plain r.model.text.toList ∧ Csv.Plain r.sessionId.text.toList
      ∧ Csv.Plain r.operation.text.toList := by
  induction hlines generalizing rows with
  | nil => exact fun _ hr => absurd hr List.not_mem_nil
  | @cons r line records lines hline hlines ih =>
    obtain ⟨hduration, hdurations⟩ := List.forall_mem_cons.mp hdurations
    obtain ⟨row, rows, hrow, hbehind, rfl⟩ := List.forall₂_cons_left_iff.mp hrows
    have hplain : Csv.Plain r.model.text.toList ∧ Csv.Plain r.sessionId.text.toList
        ∧ Csv.Plain r.operation.text.toList := by
      obtain ⟨cost, duration, -, -, rfl⟩ := hline
      exact plain_of_records lines hread hrow
    obtain ⟨hmodel, hsession, hoperation⟩ := hplain
    obtain ⟨⟨values, hwritten, -⟩, hne⟩ :=
      written_of_isLine hrt hline hrow.2.1 hmodel hsession hoperation hduration
    rw [Csv.records_file_cons lines hwritten hne] at hread
    obtain ⟨rest, hrest, heq⟩ := Option.map_eq_some_iff.mp hread
    obtain ⟨-, rfl⟩ := List.cons.inj heq
    exact List.forall_mem_cons.mpr ⟨⟨hmodel, hsession, hoperation⟩, ih hdurations hrest hbehind⟩

/-- **Lines without separators are read back.** -/
theorem rows_of_lines (hrt : ∀ n, Csv.Plain (rt.numberToString n).toList)
    {records : List TokenUsageRecord} {lines : List (List (List Char))}
    (hlines : List.Forall₂ (TokenUsageRecord.IsLine rt) records lines)
    (h : ∀ r ∈ records, Exportable rt r) :
    ∃ rows, List.Forall₂ (List.Forall₂ Csv.Written) lines rows
      ∧ (∀ line ∈ lines, Csv.record line ≠ []) ∧ List.Forall₂ RowOf records rows := by
  induction hlines with
  | nil => exact ⟨[], .nil, List.forall_mem_nil _, .nil⟩
  | @cons r line records lines hline hlines ih =>
    obtain ⟨hr, h⟩ := List.forall_mem_cons.mp h
    obtain ⟨⟨values, hwritten, hrow⟩, hne⟩ :=
      written_of_isLine hrt hline hr.texts hr.model hr.sessionId hr.operation hr.duration
    obtain ⟨rows, hrest, hnes, hrows⟩ := ih h
    exact ⟨values :: rows, .cons hwritten hrest, List.forall_mem_cons.mpr ⟨hne, hnes⟩,
      .cons hrow hrows⟩

/-- **The lines that are written** are those of the records, if their times are valid. -/
theorem forall₂_tokenCsvLine {records : List TokenUsageRecord} {strs : List String}
    (htexts : ∀ r ∈ records, r.TextFields) :
    List.Forall₂ (fun r str => tokenCsvLine rt r = .ok str) records strs
      ↔ (∀ r ∈ records, r.timestamp ≤ 8640000000000000)
        ∧ ∃ lines, List.Forall₂ (TokenUsageRecord.IsLine rt) records lines
          ∧ strs.map String.toList = lines.map Csv.record := by
  have hrecord : ∀ texts : List String, (",".intercalate texts).toList
      = Csv.record (texts.map String.toList) := fun texts => toList_intercalate "," texts
  constructor
  · intro h
    induction h with
    | nil => exact ⟨List.forall_mem_nil _, [], .nil, rfl⟩
    | @cons r str records strs hstr h ih =>
      obtain ⟨htext, htexts⟩ := List.forall_mem_cons.mp htexts
      obtain ⟨htime, cost, duration, hcost, hduration, rfl⟩ := (tokenCsvLine_eq_ok htext).mp hstr
      obtain ⟨htimes, lines, hlines, heq⟩ := ih htexts
      refine ⟨List.forall_mem_cons.mpr ⟨htime, htimes⟩, _ :: lines,
        .cons ⟨cost, duration, hcost, hduration, rfl⟩ hlines, ?_⟩
      rw [List.map_cons, List.map_cons, heq, hrecord]
  · rintro ⟨htimes, lines, hlines, heq⟩
    induction hlines generalizing strs with
    | nil => rw [List.map_eq_nil_iff.mp heq]; exact .nil
    | @cons r line records lines hline hlines ih =>
      obtain ⟨htext, htexts⟩ := List.forall_mem_cons.mp htexts
      obtain ⟨htime, htimes⟩ := List.forall_mem_cons.mp htimes
      cases strs with
      | nil => cases heq
      | cons str strs =>
        obtain ⟨hstr, hstrs⟩ := List.cons.inj heq
        obtain ⟨cost, duration, hcost, hduration, rfl⟩ := hline
        refine .cons ((tokenCsvLine_eq_ok htext).mpr ⟨htime, cost, duration, hcost, hduration, ?_⟩)
          (ih htexts htimes hstrs)
        exact String.toList_inj.mp (hstr.trans (hrecord _).symm)

/-- **What is written of records** whose texts are texts. -/
theorem tokenCsv_eq_ok {records : List TokenUsageRecord} {body : String}
    (htexts : ∀ r ∈ records, r.TextFields) :
    tokenCsv rt records = .ok body
      ↔ (∀ r ∈ records, r.timestamp ≤ 8640000000000000)
        ∧ ∃ lines, List.Forall₂ (TokenUsageRecord.IsLine rt) records lines
          ∧ body.toList = Csv.file (tokenHeaders.map String.toList :: lines) := by
  have hbody : ∀ {strs : List String} {lines : List (List (List Char))},
      strs.map String.toList = lines.map Csv.record →
        ("\n".intercalate (",".intercalate tokenHeaders :: strs)).toList
          = Csv.file (tokenHeaders.map String.toList :: lines) := by
    intro strs lines heq
    unfold Csv.file
    rw [toList_intercalate, List.map_cons, List.map_cons, toList_intercalate, heq]
    rfl
  unfold tokenCsv
  constructor
  · intro h
    obtain ⟨strs, hstrs, h⟩ := bind_eq_ok.mp h
    obtain rfl := Except.ok.inj h
    obtain ⟨htimes, lines, hlines, heq⟩ :=
      (forall₂_tokenCsvLine htexts).mp (mapM_eq_ok_iff.mp hstrs)
    exact ⟨htimes, lines, hlines, hbody heq⟩
  · rintro ⟨htimes, lines, hlines, heq⟩
    have hstrs : (lines.map fun line => String.ofList (Csv.record line)).map String.toList
        = lines.map Csv.record := by
      rw [List.map_map]
      exact List.map_congr_left fun line _ => String.toList_ofList
    rw [mapM_eq_ok_iff.mpr ((forall₂_tokenCsvLine htexts).mpr ⟨htimes, lines, hlines, hstrs⟩),
      ok_bind]
    exact congrArg Except.ok (String.toList_inj.mp ((hbody hstrs).trans heq.symm))

end Lines

section Export

variable {site : TokenSite} {now : ℕ} {timeframe : String} {records : List TokenUsageRecord}

/-- **The export of records** whose texts are texts: no model and no session is inherited, and
the lines can be written. -/
theorem tokenExport_csv_eq_ok (htexts : ∀ r ∈ records, r.TextFields) {body filename : String} :
    tokenExport site now timeframe "csv" records = .ok (.csv body filename)
      ↔ (∀ r ∈ records, r.model.text ∉ objectPrototype)
        ∧ (∀ r ∈ records, r.sessionId.text ∉ objectPrototype)
        ∧ tokenCsv site.rt records = .ok body
        ∧ filename = "token-usage-" ++ timeframe ++ "-" ++ dateText now ++ ".csv" := by
  have hmodel : ∀ r ∈ records, modelKey site.rt r = .ok r.model.text := by
    intro r hr
    obtain ⟨model, sessionId, operation, hmodel, -⟩ := htexts r hr
    exact modelKey_of_str hmodel
  have hsession : ∀ r ∈ records, sessionKey site.rt r = .ok r.sessionId.text := by
    intro r hr
    obtain ⟨model, sessionId, operation, -, hsession, -⟩ := htexts r hr
    exact sessionKey_of_str hsession
  unfold tokenExport
  constructor
  · intro h
    obtain ⟨models, hmodels, h⟩ := bind_eq_ok.mp h
    obtain ⟨sessions, hsessions, h⟩ := bind_eq_ok.mp h
    dsimp only at h
    rw [if_pos rfl] at h
    obtain ⟨body', hbody, h⟩ := bind_eq_ok.mp h
    obtain ⟨rfl, rfl⟩ := TokenExport.csv.inj (Except.ok.inj h)
    exact ⟨((groupStats_eq_ok hmodel).mp hmodels).1, ((groupStats_eq_ok hsession).mp hsessions).1,
      hbody, rfl⟩
  · rintro ⟨hmodels, hsessions, hbody, rfl⟩
    rw [(groupStats_eq_ok hmodel).mpr ⟨hmodels, rfl⟩, ok_bind,
      (groupStats_eq_ok hsession).mpr ⟨hsessions, rfl⟩, ok_bind]
    dsimp only
    rw [if_pos rfl, hbody]
    rfl

theorem getTokenExport_eq_ok {format : String} {answer : TokenExport} :
    getTokenExport site now timeframe format records = .ok answer
      ↔ tokenExport site now timeframe format (filterByTimeframe now timeframe records)
        = .ok answer := by
  unfold getTokenExport
  cases tokenExport site now timeframe format (filterByTimeframe now timeframe records) with
  | ok r => rw [Except.ok.injEq, Except.ok.injEq]
  | error e => exact ⟨fun h => (by cases h), fun h => (by cases h)⟩

theorem records_tokenHeaders (lines : List (List (List Char))) :
    Csv.records (Csv.file (tokenHeaders.map String.toList :: lines))
      = (Csv.records (Csv.file lines)).map (tokenHeaders.map String.toList :: ·) := by
  have hwritten : List.Forall₂ Csv.Written (tokenHeaders.map String.toList)
      (tokenHeaders.map String.toList) := by
    have hplain : ∀ text ∈ tokenHeaders.map String.toList, Csv.Plain text := by
      decide +kernel
    exact List.forall₂_same.mpr fun text htext => .inl ⟨hplain text htext, rfl⟩
  exact Csv.records_file_cons lines hwritten (by decide +kernel)

end Export

/-! ## A model with a comma in its name -/

/-- A record of a model with a comma in its name. -/
def sampleCommaRecord : TokenUsageRecord := sampleRecordOf "a,b" 0 0 (.finite 0)

end MissionControl
