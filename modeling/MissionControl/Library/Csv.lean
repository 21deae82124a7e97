import Mathlib.Data.List.Basic
import Mathlib.Data.List.Forall2
import Mathlib.Tactic.Tauto

/-!
# Comma-separated values

The reader of comma-separated values: fields are separated by commas, records end at a
line feed, and a field in quotes may have both in it, and quotes that are doubled. A quote
in a field without quotes, or behind the closing one, is an error.

A field is written as it is, if it has none of these characters in it, or in quotes
(`Csv.Written`). Records of fields that are written so are read back (`read_file`). And
there is no other way for a field in front of a comma to be read as it stands in the file:
it has none of these characters (`plain_of_read`).
-/

namespace Csv

/-- Where in a field the reader is: at its beginning, in a field without quotes, between
quotes, or behind a quote that closes or is doubled. -/
inductive Mode where
  | start
  | plain
  | quoted
  | closed

/-- **The reader**: the records of a text, behind a part of a field and the fields in front
of it. Nothing behind the last line feed is no record. -/
def read : Mode → List Char → List (List Char) → List Char → Option (List (List (List Char)))
  | .start, _, fields, [] => if fields = [] then some [] else some [fields ++ [[]]]
  | .plain, field, fields, [] => some [fields ++ [field]]
  | .quoted, _, _, [] => none
  | .closed, field, fields, [] => some [fields ++ [field]]
  | .start, _, fields, c :: text =>
    if c = ',' then read .start [] (fields ++ [[]]) text
    else if c = '\n' then (read .start [] [] text).map ((fields ++ [[]]) :: ·)
    else if c = '"' then read .quoted [] fields text
    else read .plain [c] fields text
  | .plain, field, fields, c :: text =>
    if c = ',' then read .start [] (fields ++ [field]) text
    else if c = '\n' then (read .start [] [] text).map ((fields ++ [field]) :: ·)
    else if c = '"' then none
    else read .plain (field ++ [c]) fields text
  | .quoted, field, fields, c :: text =>
    if c = '"' then read .closed field fields text
    else read .quoted (field ++ [c]) fields text
  | .closed, field, fields, c :: text =>
    if c = ',' then read .start [] (fields ++ [field]) text
    else if c = '\n' then (read .start [] [] text).map ((fields ++ [field]) :: ·)
    else if c = '"' then read .quoted (field ++ [c]) fields text
    else none

/-- **The records of a text.** -/
def records (text : List Char) : Option (List (List (List Char))) := read .start [] [] text

/-! ## Writing -/

/-- A field without commas, line feeds and quotes. -/
def Plain (field : List Char) : Prop := ∀ c ∈ field, c ≠ ',' ∧ c ≠ '\n' ∧ c ≠ '"'

instance (field : List Char) : Decidable (Plain field) :=
  decidable_of_iff (field.all fun c => decide (c ≠ ',' ∧ c ≠ '\n' ∧ c ≠ '"'))
    (by simp only [Plain, List.all_eq_true, decide_eq_true_eq])

def doubled (field : List Char) : List Char :=
  field.flatMap fun c => if c = '"' then ['"', '"'] else [c]

/-- **The field in quotes.** -/
def quote (field : List Char) : List Char := '"' :: (doubled field ++ ['"'])

/-- **A text that a field is written as.** -/
def Written (text field : List Char) : Prop := (Plain text ∧ field = text) ∨ text = quote field

/-- The texts of fields, with commas between them. -/
def record (texts : List (List Char)) : List Char := [','].intercalate texts

def file (rows : List (List (List Char))) : List Char := ['\n'].intercalate (rows.map record)

def after (fields : List (List Char)) : List Char → Option (List (List (List Char)))
  | [] => some [fields]
  | c :: text =>
    if c = ',' then read .start [] fields text
    else if c = '\n' then (read .start [] [] text).map (fields :: ·)
    else none

/-- The end of a field: the end of the text, a comma, or a line feed. -/
def Ends : List Char → Prop
  | [] => True
  | c :: _ => c = ',' ∨ c = '\n'

section Read

variable {field text rest : List Char} {fields : List (List Char)}

theorem doubled_cons (c : Char) (field : List Char) :
    doubled (c :: field) = (if c = '"' then ['"', '"'] else [c]) ++ doubled field := rfl

theorem read_plain_append (h : Plain text) :
    read .plain field fields (text ++ rest) = read .plain (field ++ text) fields rest := by
  induction text generalizing field with
  | nil => rw [List.append_nil, List.nil_append]
  | cons c text ih =>
    obtain ⟨⟨hcomma, hline, hquote⟩, h⟩ := List.forall_mem_cons.mp h
    rw [List.cons_append, read, if_neg hcomma, if_neg hline, if_neg hquote, ih h,
      List.append_assoc, List.singleton_append]

theorem read_plain_of_ends (h : Ends rest) :
    read .plain field fields rest = after (fields ++ [field]) rest := by
  match rest, h with
  | [], _ => rfl
  | _ :: rest, .inl rfl | _ :: rest, .inr rfl => rfl

theorem read_closed_of_ends (h : Ends rest) :
    read .closed field fields rest = after (fields ++ [field]) rest := by
  match rest, h with
  | [], _ => rfl
  | _ :: rest, .inl rfl | _ :: rest, .inr rfl => rfl

theorem read_start_of_ends (h : Ends rest) (hne : fields ≠ [] ∨ rest ≠ []) :
    read .start [] fields rest = after (fields ++ [[]]) rest := by
  match rest, h with
  | [], _ => exact if_neg (hne.resolve_right fun h => h rfl)
  | _ :: rest, .inl rfl | _ :: rest, .inr rfl => rfl

theorem read_quoted_append (text : List Char) :
    read .quoted field fields (doubled text ++ '"' :: rest)
      = read .closed (field ++ text) fields rest := by
  induction text generalizing field with
  | nil =>
    rw [List.append_nil]
    rfl
  | cons c text ih =>
    rw [doubled_cons]
    by_cases hc : c = '"'
    · subst hc
      rw [if_pos rfl]
      show read .quoted (field ++ ['"']) fields (doubled text ++ '"' :: rest) = _
      rw [ih, List.append_assoc, List.singleton_append]
    · rw [if_neg hc, List.append_assoc, List.singleton_append, read, if_neg hc, ih,
        List.append_assoc, List.singleton_append]

/-- **A field that is written is read.** Nothing at all is no record. -/
theorem read_written (h : Written text field) (hends : Ends rest)
    (hne : fields ≠ [] ∨ text ++ rest ≠ []) :
    read .start [] fields (text ++ rest) = after (fields ++ [field]) rest := by
  rcases h with ⟨hplain, rfl⟩ | rfl
  · cases field with
    | nil => exact read_start_of_ends hends hne
    | cons c field =>
      obtain ⟨⟨hcomma, hline, hquote⟩, hfield⟩ := List.forall_mem_cons.mp hplain
      rw [List.cons_append, read, if_neg hcomma, if_neg hline, if_neg hquote,
        read_plain_append hfield, read_plain_of_ends hends]
      rfl
  · unfold quote
    rw [List.cons_append, List.append_assoc, List.singleton_append]
    show read .quoted [] fields _ = _
    rw [read_quoted_append, List.nil_append, read_closed_of_ends hends]

theorem record_cons (text text' : List Char) (texts : List (List Char)) :
    record (text :: text' :: texts) = text ++ ',' :: record (text' :: texts) := by
  unfold record
  rw [List.intercalate_cons_cons, List.append_assoc, List.singleton_append]

/-- The end of a record: the end of the text, or a line feed. -/
def EndsLine (rest : List Char) : Prop := rest = [] ∨ ∃ text, rest = '\n' :: text

theorem EndsLine.ends (h : EndsLine rest) : Ends rest := by
  rcases h with rfl | ⟨text, rfl⟩
  · trivial
  · exact .inr rfl

/-- **A record of fields that are written is read.** -/
theorem read_record {texts values : List (List Char)} (h : List.Forall₂ Written texts values)
    (htexts : texts ≠ []) (hends : EndsLine rest)
    (hne : fields ≠ [] ∨ record texts ++ rest ≠ []) :
    read .start [] fields (record texts ++ rest) = after (fields ++ values) rest := by
  induction h generalizing fields with
  | nil => exact absurd rfl htexts
  | @cons text value texts values hwritten h ih =>
    cases texts with
    | nil =>
      cases h
      have htext : record [text] = text := List.intercalate_singleton
      rw [htext] at hne ⊢
      exact read_written hwritten hends.ends hne
    | cons text' texts =>
      have hcomma : Ends (',' :: (record (text' :: texts) ++ rest)) := Or.inl rfl
      rw [record_cons, List.append_assoc, List.cons_append,
        read_written hwritten hcomma (.inr (by simp)), after, if_pos rfl,
        ih (List.cons_ne_nil _ _) (.inl (by simp)), List.append_assoc, List.singleton_append]

theorem after_line (fields : List (List Char)) (text : List Char) :
    after fields ('\n' :: text) = (read .start [] [] text).map (fields :: ·) := rfl

theorem file_cons (row row' : List (List Char)) (rows : List (List (List Char))) :
    file (row :: row' :: rows) = record row ++ '\n' :: file (row' :: rows) := by
  unfold file
  rw [List.map_cons, List.map_cons, List.intercalate_cons_cons, List.append_assoc,
    List.singleton_append]

/-- **The first record of a file** is read, if its fields are written and it has some text. -/
theorem records_file_cons {row values : List (List Char)} (rows : List (List (List Char)))
    (h : List.Forall₂ Written row values) (hrow : record row ≠ []) :
    records (file (row :: rows)) = (records (file rows)).map (values :: ·) := by
  have hne : row ≠ [] := by
    rintro rfl
    exact hrow rfl
  unfold records
  cases rows with
  | nil =>
    have hends : EndsLine [] := .inl rfl
    have hread : read .start [] [] (record row ++ []) = after ([] ++ values) [] :=
      read_record h hne hends (.inr (by rwa [List.append_nil]))
    have hfile : file [row] = record row := List.intercalate_singleton
    rw [List.append_nil] at hread
    rw [hfile, hread]
    rfl
  | cons row' rows =>
    rw [file_cons, read_record h hne (.inr ⟨_, rfl⟩) (.inr (by simp)), after_line]
    rfl

/-- **A file is read back**, if every field of it is written, and each record has some
text. -/
theorem read_file {rows values : List (List (List Char))}
    (h : List.Forall₂ (List.Forall₂ Written) rows values)
    (hrows : ∀ row ∈ rows, record row ≠ []) : records (file rows) = some values := by
  induction h with
  | nil => rfl
  | @cons row value rows values hwritten h ih =>
    obtain ⟨hrow, hrows⟩ := List.forall_mem_cons.mp hrows
    rw [records_file_cons rows hwritten hrow, ih hrows]
    rfl

end Read

/-! ## Fields that are read as they stand -/

section Stand

variable {field text rest : List Char} {fields row : List (List Char)}
  {rows : List (List (List Char))} {mode : Mode}

theorem prefix_of_read (h : read mode field fields text = some (row :: rows)) :
    fields <+: row := by
  induction text generalizing mode field fields with
  | nil =>
    cases mode with
    | start =>
      rw [read] at h
      split at h
      · cases h
      · obtain ⟨rfl, -⟩ := List.cons.inj (Option.some.inj h)
        exact List.prefix_append fields _
    | plain | closed =>
      obtain ⟨rfl, -⟩ := List.cons.inj (Option.some.inj h)
      exact List.prefix_append fields _
    | quoted => cases h
  | cons c text ih =>
    -- where a line ends the record has the fields that are read by then
    have hline : ∀ {fields' : List (List Char)},
        (read .start [] [] text).map (fields' :: ·) = some (row :: rows) → fields' = row := by
      intro fields' h
      obtain ⟨rest, -, h⟩ := Option.map_eq_some_iff.mp h
      exact (List.cons.inj h).1
    cases mode with
    | start =>
      rw [read] at h
      split at h
      · exact (List.prefix_append fields _).trans (ih h)
      · split at h
        · exact hline h ▸ List.prefix_append fields _
        · split at h <;> exact ih h
    | plain =>
      rw [read] at h
      split at h
      · exact (List.prefix_append fields _).trans (ih h)
      · split at h
        · exact hline h ▸ List.prefix_append fields _
        · split at h
          · cases h
          · exact ih h
    | quoted =>
      rw [read] at h
      split at h <;> exact ih h
    | closed =>
      rw [read] at h
      split at h
      · exact (List.prefix_append fields _).trans (ih h)
      · split at h
        · exact hline h ▸ List.prefix_append fields _
        · split at h
          · exact ih h
          · cases h

theorem getElem?_of_after {c : Char} (hc : c = ',' ∨ c = '\n')
    (h : after (fields ++ [field]) (c :: text) = some (row :: rows)) :
    row[fields.length]? = some field := by
  have hprefix : fields ++ [field] <+: row := by
    rcases hc with rfl | rfl
    · exact prefix_of_read h
    · obtain ⟨rest, -, h⟩ := Option.map_eq_some_iff.mp h
      exact (List.cons.inj h).1 ▸ List.prefix_refl _
  obtain ⟨more, rfl⟩ := hprefix
  rw [List.append_assoc, List.getElem?_append_right (Nat.le_refl _), Nat.sub_self]
  rfl

/-- **A field in quotes** is what stands between them, with its quotes doubled; behind a
quote the reader has taken that one already. -/
theorem doubled_of_read (text : List Char) (field : List Char) :
    (read .quoted field fields text = some (row :: rows) → ∃ more rest,
        text = doubled more ++ '"' :: rest ∧ row[fields.length]? = some (field ++ more))
      ∧ (read .closed field fields text = some (row :: rows) → ∃ more rest,
        '"' :: text = doubled more ++ '"' :: rest
          ∧ row[fields.length]? = some (field ++ more)) := by
  induction text generalizing field with
  | nil =>
    refine ⟨fun h => (by cases h), fun h => ⟨[], [], rfl, ?_⟩⟩
    obtain ⟨rfl, -⟩ := List.cons.inj (Option.some.inj h)
    rw [List.append_nil, List.getElem?_append_right (Nat.le_refl _), Nat.sub_self]
    rfl
  | cons c text ih =>
    constructor
    · intro h
      rw [read] at h
      split at h
      · next hc =>
        subst hc
        exact (ih field).2 h
      · next hc =>
        obtain ⟨more, rest, rfl, hfield⟩ := (ih (field ++ [c])).1 h
        refine ⟨c :: more, rest, ?_, by rw [hfield, List.append_assoc, List.singleton_append]⟩
        rw [doubled_cons, if_neg hc]
        rfl
    · intro h
      by_cases hc : c = ',' ∨ c = '\n'
      · have hends : Ends (c :: text) := hc
        rw [read_closed_of_ends hends] at h
        exact ⟨[], c :: text, rfl, by rw [List.append_nil, getElem?_of_after hc h]⟩
      · rw [not_or] at hc
        rw [read, if_neg hc.1, if_neg hc.2] at h
        split at h
        · next hquote =>
          subst hquote
          obtain ⟨more, rest, rfl, hfield⟩ := (ih (field ++ ['"'])).1 h
          refine ⟨'"' :: more, rest, ?_, by rw [hfield, List.append_assoc, List.singleton_append]⟩
          rw [doubled_cons, if_pos rfl]
          rfl
        · cases h

/-- A text in front of a comma has not all of its quotes doubled in itself. -/
theorem append_ne_doubled (text rest rest' : List Char) (n : ℕ) :
    text ++ ',' :: rest ≠ List.replicate (n + 1) '"' ++ (doubled text ++ rest') := by
  induction text generalizing n with
  | nil =>
    intro h
    have hhead : ',' = '"' := (List.cons.inj h).1
    exact absurd hhead (by decide)
  | cons c text ih =>
    intro h
    rw [List.replicate_succ] at h
    obtain ⟨rfl, htail⟩ := List.cons.inj h
    refine ih (n + 1) (htail.trans ?_)
    show List.replicate n '"' ++ (doubled ('"' :: text) ++ rest') = _
    rw [doubled_cons, if_pos rfl, List.replicate_succ', List.replicate_succ']
    simp only [List.append_assoc]
    rfl

/-- **A field in front of a comma that is read as it stands** has neither commas nor line
feeds nor quotes in it. -/
theorem plain_of_read (h : read .start [] fields (text ++ ',' :: rest) = some (row :: rows))
    (hfield : row[fields.length]? = some text) : Plain text := by
  by_contra hnot
  have hsplit : ∃ before c behind, text = before ++ c :: behind ∧ Plain before
      ∧ (c = ',' ∨ c = '\n' ∨ c = '"') := by
    clear h hfield
    induction text with
    | nil => exact absurd (fun _ hc => by cases hc) hnot
    | cons c text ih =>
      by_cases hc : c ≠ ',' ∧ c ≠ '\n' ∧ c ≠ '"'
      · obtain ⟨before, d, behind, rfl, hbefore, hd⟩ := ih fun hplain =>
          hnot (List.forall_mem_cons.mpr ⟨hc, hplain⟩)
        exact ⟨c :: before, d, behind, rfl, List.forall_mem_cons.mpr ⟨hc, hbefore⟩, hd⟩
      · refine ⟨[], c, text, rfl, fun _ hmem => (by cases hmem), ?_⟩
        tauto
  obtain ⟨before, c, behind, rfl, hbefore, hc⟩ := hsplit
  rw [List.append_assoc, List.cons_append] at h
  have hshort : ∀ {c : Char}, c = ',' ∨ c = '\n' →
      read .start [] fields (before ++ c :: (behind ++ ',' :: rest)) = some (row :: rows) →
      row[fields.length]? = some (before ++ c :: behind) → False := by
    intro c hc h hfield
    have hends : Ends (c :: (behind ++ ',' :: rest)) := hc
    rw [read_written (.inl ⟨hbefore, rfl⟩) hends (.inr (by simp))] at h
    rw [getElem?_of_after hc h] at hfield
    have hlength := congrArg List.length (Option.some.inj hfield)
    simp at hlength
  rcases hc with hc | hc | rfl
  · exact hshort (.inl hc) h hfield
  · exact hshort (.inr hc) h hfield
  · cases before with
    | nil =>
      -- the field would have to have its own text doubled in it
      obtain ⟨more, rest', htext, hmore⟩ := (doubled_of_read _ _).1 h
      rw [hfield] at hmore
      obtain rfl : '"' :: behind = more := Option.some.inj hmore
      refine append_ne_doubled behind rest ('"' :: rest') 1 (htext.trans ?_)
      rw [doubled_cons, if_pos rfl]
      rfl
    | cons d before =>
      obtain ⟨⟨hcomma, hline, hquote⟩, hbefore'⟩ := List.forall_mem_cons.mp hbefore
      rw [List.cons_append, read, if_neg hcomma, if_neg hline, if_neg hquote,
        read_plain_append hbefore'] at h
      cases h

theorem plain_of_read_record {texts values : List (List Char)} {text' : List Char}
    {more : List (List Char)} (h : List.Forall₂ Written texts values)
    (hread : read .start [] fields (record (texts ++ text :: text' :: more) ++ rest)
      = some (row :: rows)) (hfield : row[fields.length + texts.length]? = some text) :
    Plain text := by
  induction h generalizing fields with
  | nil =>
    rw [List.nil_append, record_cons, List.append_assoc, List.cons_append] at hread
    exact plain_of_read hread hfield
  | @cons t value texts values hwritten h ih =>
    have hcons : ∃ t' more', texts ++ text :: text' :: more = t' :: more' := by
      cases texts with
      | nil => exact ⟨_, _, rfl⟩
      | cons t' texts => exact ⟨_, _, rfl⟩
    obtain ⟨t', more', heq⟩ := hcons
    have hcomma : Ends (',' :: (record (t' :: more') ++ rest)) := Or.inl rfl
    rw [List.cons_append, heq, record_cons, List.append_assoc, List.cons_append,
      read_written hwritten hcomma (.inr (by simp)), after, if_pos rfl, ← heq] at hread
    refine ih hread ?_
    rw [List.length_append, List.length_singleton, Nat.add_assoc, Nat.add_comm 1]
    exact hfield

end Stand

end Csv
