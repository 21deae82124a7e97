import Mathlib.Data.List.DropRight

/-!
# Trimming

A list without the elements of a kind that it begins and ends with. What is trimmed stays
as it is (`Trim.trim_trim`), and begins with the first element of another kind
(`Trim.head?_trim`).
-/

namespace Trim

variable {α : Type*} (p : α → Bool)

/-- **The list without what it begins and ends with.** -/
def trim (l : List α) : List α := (l.dropWhile p).rdropWhile p

variable {p} {l a b : List α}

theorem sublist_trim (p : α → Bool) (l : List α) : (trim p l).Sublist l :=
  (List.rdropWhile_prefix p (l.dropWhile p)).sublist.trans (List.dropWhile_suffix p).sublist

theorem head?_dropWhile (p : α → Bool) (l : List α) :
    (l.dropWhile p).head? = l.find? fun x => !p x := by
  induction l with
  | nil => rfl
  | cons x l ih =>
    rw [List.dropWhile_cons, List.find?_cons]
    cases p x with
    | false => rfl
    | true => exact ih

/-- **It begins with the first element of another kind.** -/
theorem head?_trim (p : α → Bool) (l : List α) : (trim p l).head? = l.find? fun x => !p x := by
  rw [← head?_dropWhile]
  unfold trim
  cases hdrop : l.dropWhile p with
  | nil => rw [List.rdropWhile_nil]
  | cons x t =>
    have hx : p x = false := by
      have := List.head?_dropWhile_not p l
      rw [hdrop] at this
      exact this
    obtain ⟨rest, hrest⟩ := List.rdropWhile_prefix p (x :: t)
    cases hkept : (x :: t).rdropWhile p with
    | nil =>
      have hall := List.rdropWhile_eq_nil_iff.mp hkept x List.mem_cons_self
      rw [hx] at hall
      cases hall
    | cons y u =>
      rw [hkept, List.cons_append] at hrest
      rw [List.head?_cons, List.head?_cons, (List.cons.inj hrest).1]

/-- **What begins and ends with elements of another kind** is left as it is. -/
theorem trim_eq_self (hhead : ∀ x ∈ l.head?, p x = false) (hlast : ∀ x ∈ l.getLast?, p x = false) :
    trim p l = l := by
  have hdrop : l.dropWhile p = l := by
    rw [List.dropWhile_eq_self_iff]
    intro h
    rw [hhead _ (by rw [List.head?_eq_getElem?, List.getElem?_eq_getElem h]; rfl)]
    exact Bool.false_ne_true
  unfold trim
  rw [hdrop, List.rdropWhile_eq_self_iff]
  intro h
  rw [hlast _ (by rw [List.getLast?_eq_some_getLast h]; rfl)]
  exact Bool.false_ne_true

theorem getLast_trim (h : trim p l ≠ []) : p ((trim p l).getLast h) = false := by
  have := List.rdropWhile_last_not p (l.dropWhile p) h
  exact Bool.eq_false_iff.mpr this

/-- **What is trimmed stays as it is.** -/
theorem trim_trim (p : α → Bool) (l : List α) : trim p (trim p l) = trim p l := by
  refine trim_eq_self (fun x hx => ?_) fun x hx => ?_
  · rw [Option.mem_def, head?_trim] at hx
    simpa using List.find?_some hx
  · by_cases hnil : trim p l = []
    · rw [hnil] at hx
      cases hx
    · rw [Option.mem_def, List.getLast?_eq_some_getLast hnil] at hx
      rw [← Option.some.inj hx]
      exact getLast_trim hnil

end Trim
