import MissionControl.Js

/-!
# Times as texts

A time is a number of milliseconds since the beginning of 1970. `toISOString` writes it with
its date in the Gregorian calendar, and throws for a time that is too late for a `Date`. The
text is made of digits and a few other characters (`isIsoChar_of_mem`).
-/

namespace MissionControl

/-! ## Dates -/

/-- The date of a day: year, month and day of the month. Days are counted from the beginning
of 1970, and years, on the way, from March. -/
def civilDate (day : ℕ) : ℕ × ℕ × ℕ :=
  let z := day + 719468
  let era := z / 146097
  let dayOfEra := z % 146097
  let yearOfEra :=
    (dayOfEra - dayOfEra / 1460 + dayOfEra / 36524 - dayOfEra / 146096) / 365
  let dayOfYear := dayOfEra - (365 * yearOfEra + yearOfEra / 4 - yearOfEra / 100)
  let m := (5 * dayOfYear + 2) / 153
  let month := if m < 10 then m + 3 else m - 9
  let year := yearOfEra + era * 400 + (if month ≤ 2 then 1 else 0)
  (year, month, dayOfYear - (153 * m + 2) / 5 + 1)

def padded (width n : ℕ) : List Char :=
  List.replicate (width - n.repr.toList.length) '0' ++ n.repr.toList

/-- The year: four digits, or a sign and six. -/
def isoYear (year : ℕ) : List Char :=
  if year < 10000 then padded 4 year else '+' :: padded 6 year

/-- `YYYY-MM-DD`. -/
def isoDate (date : ℕ × ℕ × ℕ) : List Char :=
  isoYear date.1 ++ ('-' :: padded 2 date.2.1) ++ ('-' :: padded 2 date.2.2)

/-- `HH:mm:ss.sssZ`. -/
def isoTime (ms : ℕ) : List Char :=
  padded 2 (ms / 3600000) ++ (':' :: padded 2 (ms / 60000 % 60))
    ++ (':' :: padded 2 (ms / 1000 % 60)) ++ ('.' :: padded 3 (ms % 1000)) ++ ['Z']

def isoText (time : ℕ) : String :=
  String.ofList (isoDate (civilDate (time / 86400000)) ++ 'T' :: isoTime (time % 86400000))

/-- `new Date(time).toISOString().split('T')[0]`. -/
def dateText (time : ℕ) : String := String.ofList (isoDate (civilDate (time / 86400000)))

/-- **`new Date(time).toISOString()`.** -/
def toISOString (time : ℕ) : Except Exception String :=
  if time ≤ 8640000000000000 then .ok (isoText time)
  else .error (.error "Invalid time value")

example : isoText 0 = "1970-01-01T00:00:00.000Z" := by decide +kernel

example : isoText 1709210096789 = "2024-02-29T12:34:56.789Z" := by decide +kernel

/-! ## Their characters -/

/-- The characters that the text of a time is made of. -/
def isIsoChar (c : Char) : Bool := c.isDigit || decide (c ∈ ['+', '-', ':', '.', 'T', 'Z'])

theorem all_padded (width n : ℕ) : (padded width n).all isIsoChar = true := by
  unfold padded
  rw [List.all_append, Bool.and_eq_true, List.all_eq_true, List.all_eq_true]
  constructor
  · intro c hc
    rw [List.eq_of_mem_replicate hc]
    rfl
  · intro c hc
    unfold isIsoChar
    rw [isDigit_of_mem_repr hc]
    rfl

theorem all_isoDate (date : ℕ × ℕ × ℕ) : (isoDate date).all isIsoChar = true := by
  have hyear : ∀ year, (isoYear year).all isIsoChar = true := by
    intro year
    unfold isoYear
    split
    · exact all_padded 4 year
    · have hplus : isIsoChar '+' = true := rfl
      rw [List.all_cons, hplus, all_padded, Bool.and_self]
  have hdash : isIsoChar '-' = true := rfl
  unfold isoDate
  simp only [List.all_append, List.all_cons, all_padded, hyear, hdash, Bool.and_self]

theorem all_isoTime (ms : ℕ) : (isoTime ms).all isIsoChar = true := by
  have hcolon : isIsoChar ':' = true := rfl
  have hdot : isIsoChar '.' = true := rfl
  have hzone : ['Z'].all isIsoChar = true := rfl
  unfold isoTime
  simp only [List.all_append, List.all_cons, all_padded, hcolon, hdot, hzone, Bool.and_self]

/-- **The text of a time** has no other characters in it. -/
theorem isIsoChar_of_mem {time : ℕ} {c : Char} (h : c ∈ (isoText time).toList) :
    isIsoChar c = true := by
  unfold isoText at h
  rw [String.toList_ofList] at h
  generalize civilDate (time / 86400000) = date, time % 86400000 = ms at h
  rcases List.mem_append.mp h with h | h
  · exact List.all_eq_true.mp (all_isoDate date) c h
  · rcases List.mem_cons.mp h with rfl | h
    · rfl
    · exact List.all_eq_true.mp (all_isoTime ms) c h

end MissionControl
