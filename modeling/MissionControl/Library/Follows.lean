import MissionControl.Library.Machine
import MissionControl.Library.Table

/-!
# What a step does to the rows of a table

A step **follows** a relation if each row it leaves was there before, as a row that the
relation leads from, or is a new row, under an id that was never given out. A row that is
gone does not come back: so if every step of a run follows a preorder, any two states of
the run do, whatever was deleted and inserted between them (`Machine.EachStep.follows`).
-/

namespace Table

variable {α : Type*}

/-- **The rows of a table come from those of an older one**, or are new. -/
structure Follows (R : ℕ → α → α → Prop) (N : ℕ → α → Prop) (old new : Table α) : Prop where
  next_le : old.next ≤ new.next
  row : ∀ {id : ℕ} {r' : α}, new.row id = some r' →
    (∃ r, old.row id = some r ∧ R id r r') ∨ old.next ≤ id ∧ N id r'

variable {R R' : ℕ → α → α → Prop} {N N' : ℕ → α → Prop} {old mid new t : Table α}

theorem Follows.row_of_some (h : Follows R N old new) {id : ℕ} {r r' : α}
    (hr : old.row id = some r) (hr' : new.row id = some r') : R id r r' := by
  obtain ⟨r₀, hr₀, hR⟩ | ⟨hle, -⟩ := h.row hr'
  · obtain rfl : r₀ = r := Option.some.inj (hr₀.symm.trans hr)
    exact hR
  · exact absurd (old.row_lt hr) (Nat.not_lt.mpr hle)

theorem Follows.mono (h : Follows R N old new)
    (hR : ∀ id r r', old.row id = some r → R id r r' → R' id r r')
    (hN : ∀ id r', N id r' → N' id r') : Follows R' N' old new where
  next_le := h.next_le
  row hr' := by
    obtain ⟨r, hr, hRr⟩ | ⟨hle, hNr⟩ := h.row hr'
    · exact Or.inl ⟨r, hr, hR _ r _ hr hRr⟩
    · exact Or.inr ⟨hle, hN _ _ hNr⟩

theorem Follows.refl (hR : ∀ id r, t.row id = some r → R id r r) : Follows R N t t where
  next_le := le_refl _
  row hr' := Or.inl ⟨_, hr', hR _ _ hr'⟩

theorem Follows.insert {r : α} (hR : ∀ id r, t.row id = some r → R id r r) (hN : N t.next r) :
    Follows R N t (t.insert r) where
  next_le := Nat.le_succ _
  row hr' := by
    obtain ⟨rfl, rfl⟩ | hr' := (t.row_insert_eq_some _).mp hr'
    · exact Or.inr ⟨le_refl _, hN⟩
    · exact Or.inl ⟨_, hr', hR _ _ hr'⟩

theorem Follows.updateAll {f : ℕ → α → α} (hR : ∀ id r, t.row id = some r → R id r (f id r)) :
    Follows R N t (t.updateAll f) where
  next_le := le_refl _
  row hr' := by
    obtain ⟨r, hr, rfl⟩ := Option.map_eq_some_iff.mp hr'
    exact Or.inl ⟨r, hr, hR _ r hr⟩

theorem Follows.update {i : ℕ} {f : α → α} (hR : ∀ id r, t.row id = some r → id ≠ i → R id r r)
    (hi : ∀ r, t.row i = some r → R i r (f r)) : Follows R N t (t.update i f) where
  next_le := le_refl _
  row {id r'} hr' := by
    rw [row_update] at hr'
    split at hr'
    · next heq =>
      subst heq
      obtain ⟨r, hr, rfl⟩ := Option.map_eq_some_iff.mp hr'
      exact Or.inl ⟨r, hr, hi r hr⟩
    · next hne => exact Or.inl ⟨r', hr', hR _ _ hr' hne⟩

theorem Follows.deleteWhere {p : ℕ → α → Bool} (hR : ∀ id r, t.row id = some r → R id r r) :
    Follows R N t (t.deleteWhere p) where
  next_le := le_refl _
  row hr' := by
    have hr := ((t.row_deleteWhere_eq_some p).mp hr').1
    exact Or.inl ⟨_, hr, hR _ _ hr⟩

/-- **One step after another.** -/
theorem Follows.trans (hR : ∀ id r r' r'', R id r r' → R id r' r'' → R id r r'')
    (hN : ∀ id r r', N id r → R id r r' → N id r')
    (h : Follows R N old mid) (h' : Follows R N mid new) : Follows R N old new where
  next_le := h.next_le.trans h'.next_le
  row hr'' := by
    obtain ⟨r', hr', hRr'⟩ | ⟨hle', hNr'⟩ := h'.row hr''
    · obtain ⟨r, hr, hRr⟩ | ⟨hle, hNr⟩ := h.row hr'
      · exact Or.inl ⟨r, hr, hR _ r r' _ hRr hRr'⟩
      · exact Or.inr ⟨hle, hN _ r' _ hNr hRr'⟩
    · exact Or.inr ⟨h.next_le.trans hle', hNr'⟩

/-! ## Rows that stay -/

theorem isSome_row_update (t : Table α) (i : ℕ) (f : α → α) (id : ℕ) :
    ((t.update i f).row id).isSome = (t.row id).isSome := by
  rw [row_update]
  split
  · next heq => rw [heq, Option.isSome_map]
  · rfl

/-- **No row is gone.** -/
def Keeps (old new : Table α) : Prop := ∀ id, (old.row id).isSome → (new.row id).isSome

theorem Keeps.refl (t : Table α) : t.Keeps t := fun _ hsome => hsome

theorem Keeps.trans (h : old.Keeps mid) (h' : mid.Keeps new) : old.Keeps new :=
  fun id hsome => h' id (h id hsome)

theorem Keeps.insert (t : Table α) (r : α) : t.Keeps (t.insert r) := by
  intro id hsome
  obtain ⟨r', hr'⟩ := Option.isSome_iff_exists.mp hsome
  exact Option.isSome_iff_exists.mpr ⟨r', (t.row_insert_eq_some _).mpr (Or.inr hr')⟩

theorem Keeps.updateAll (t : Table α) (f : ℕ → α → α) : t.Keeps (t.updateAll f) :=
  fun _ hsome => Option.isSome_map.trans hsome

theorem Keeps.update (t : Table α) (i : ℕ) (f : α → α) : t.Keeps (t.update i f) :=
  fun id hsome => (t.isSome_row_update i f id).trans hsome

end Table

namespace Machine

variable {σ α ε ρ : Type*} (m : Machine σ α ε)

/-- **If every step follows a preorder, so do any two states of the run.** -/
theorem EachStep.follows {R : ℕ → ρ → ρ → Prop} (table : σ → Table ρ) {s₀ : σ} {as : List α}
    (hrefl : ∀ id r, R id r r) (htrans : ∀ id r r' r'', R id r r' → R id r' r'' → R id r r'')
    (h : m.EachStep (fun s a => Table.Follows R (fun _ _ => True) (table s)
      (table (m.next s a))) s₀ as)
    {p q : List α} (hpq : p <+: q) (hq : q <+: as) :
    Table.Follows R (fun _ _ => True) (table (m.state s₀ p)) (table (m.state s₀ q)) := by
  obtain ⟨t, rfl⟩ := hpq
  induction t using List.reverseRecOn with
  | nil =>
    rw [List.append_nil]
    exact Table.Follows.refl fun id r _ => hrefl id r
  | append_singleton t a ih =>
    rw [← List.append_assoc] at hq ⊢
    rw [state_concat]
    exact (ih ((List.prefix_append _ [a]).trans hq)).trans htrans
      (fun _ _ _ _ _ => trivial) (h _ a hq)

end Machine
