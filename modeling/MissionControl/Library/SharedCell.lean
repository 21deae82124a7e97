import MissionControl.Library.Machine
import MissionControl.Library.Table

/-!
# Programs that share a cell

Programs run at the same time and share one cell – a file, say. A program reads the
cell, makes something of what it has read, and writes that back; each access is one
step, and between the accesses of one program come those of the others.

So the value that a program has made its own of may be gone when it writes. Such a
write is **stale**: it puts back what others have written meanwhile. The rule `kept`
says that nothing else does – what holds of the value a program writes, and is kept by
every program that reads it there, holds from then on, unless a program that had read
the cell before has written it since. In a run without stale writes it holds to the end
(`not_overwritten`).

The invariant of both speaks of the programs that are about to write, not of the cell
alone: each of them has made its value of one that had the property, or had read before.
`step_cases` says what a step can add to them, and a write is the only step that changes
the cell; so the rules split cases over it and never open the machine again.
-/

namespace SharedCell

/-- **What a program does with what it has read**: it reads again, it is about to write
a value, with what the write is for, or it ends. -/
inductive Move (ρ ω V : Type*) where
  | read (r : ρ)
  | write (o : ω) (v : V)
  | stop

inductive Waiting (ρ ω V : Type*) where
  | reading (r : ρ)
  | writing (o : ω) (v : V)

structure State (ρ ω V : Type*) where
  value : V
  programs : Table (Waiting ρ ω V)

/-- A program is started, or none, or the access that a program waits for is made. The
second argument is what the program finds around it. -/
inductive Action (ρ κ : Type*) where
  | start (r : Option ρ)
  | resume (i : ℕ) (k : κ)

/-- What is seen of the programs: that one has read what it makes its value of, and
that one has written. -/
inductive Event (ω V : Type*) where
  | took (i : ℕ)
  | put (i : ℕ) (o : ω) (v : V)

variable {ρ κ ω V : Type*}

/-- **The programs over the cell.** -/
def machine (p : ρ → κ → V → Move ρ ω V) :
    Machine (State ρ ω V) (Action ρ κ) (Event ω V) where
  step s
    | .start none => (s, [])
    | .start (some r) => ({ s with programs := s.programs.insert (.reading r) }, [])
    | .resume i k =>
      match s.programs.row i with
      | none => (s, [])
      | some (.reading r) =>
        match p r k s.value with
        | .read r => ({ s with programs := s.programs.update i fun _ => .reading r }, [])
        | .write o v =>
          ({ s with programs := s.programs.update i fun _ => .writing o v }, [.took i])
        | .stop => ({ s with programs := s.programs.deleteWhere fun j _ => j = i }, [])
      | some (.writing o v) =>
        (⟨v, s.programs.deleteWhere fun j _ => j = i⟩, [.put i o v])

def State.idle (v : V) : State ρ ω V := ⟨v, .empty⟩

def State.Writes (s : State ρ ω V) (i : ℕ) (o : ω) (v : V) : Prop :=
  s.programs.row i = some (.writing o v)

/-- **A program that had read the cell before has written it since.** -/
def Overwritten (before since : List (Event ω V)) : Prop :=
  ∃ i o v, .took i ∈ before ∧ .put i o v ∈ since

/-- A program has read the cell, and another one has written it since. -/
def Stale (es : List (Event ω V)) (i : ℕ) : Prop :=
  ∃ before j o v since, es = before ++ .put j o v :: since ∧ .took i ∈ before

/-- A step that writes writes no stale value. -/
def WritesFresh (es : List (Event ω V)) (s : State ρ ω V) : Action ρ κ → Prop
  | .start _ => True
  | .resume i _ => (∃ o v, s.Writes i o v) → ¬ Stale es i

section Rules

variable {p : ρ → κ → V → Move ρ ω V} {s : State ρ ω V}

theorem not_writes_idle (v : V) (i : ℕ) (o : ω) (w : V) :
    ¬ (State.idle v : State ρ ω V).Writes i o w := fun h => nomatch h

theorem writes_insert {r : ρ} {i : ℕ} {o : ω} {v : V}
    (h : (⟨s.value, s.programs.insert (.reading r)⟩ : State ρ ω V).Writes i o v) :
    s.Writes i o v := by
  rcases (s.programs.row_insert_eq_some _).mp h with ⟨-, hr⟩ | h
  · exact nomatch hr
  · exact h

theorem writes_update {x : Waiting ρ ω V} {i j : ℕ} {o : ω} {v : V}
    (h : (⟨s.value, s.programs.update i fun _ => x⟩ : State ρ ω V).Writes j o v) :
    (j = i ∧ x = .writing o v) ∨ s.Writes j o v := by
  unfold State.Writes at h
  rw [s.programs.row_update] at h
  split at h
  · next hj =>
    obtain ⟨_, -, rfl⟩ := Option.map_eq_some_iff.mp h
    exact .inl ⟨hj, rfl⟩
  · exact .inr h

theorem writes_delete {w : V} {i j : ℕ} {o : ω} {v : V}
    (h : (⟨w, s.programs.deleteWhere fun j _ => j = i⟩ : State ρ ω V).Writes j o v) :
    s.Writes j o v := ((s.programs.row_deleteWhere_eq_some _).mp h).1

/-- **What a step does**: nothing that is seen, or a program reads the value it makes
its own of, or a program writes. -/
theorem step_cases (p : ρ → κ → V → Move ρ ω V) (s : State ρ ω V) (a : Action ρ κ) :
    ((machine p).emits s a = [] ∧ ((machine p).next s a).value = s.value
        ∧ ∀ j o v, ((machine p).next s a).Writes j o v → s.Writes j o v)
      ∨ (∃ i r k o v, p r k s.value = .write o v ∧ (machine p).emits s a = [.took i]
        ∧ ((machine p).next s a).value = s.value
        ∧ ∀ j o' w, ((machine p).next s a).Writes j o' w →
          (j = i ∧ o' = o ∧ w = v) ∨ s.Writes j o' w)
      ∨ ∃ i k o v, a = .resume i k ∧ s.Writes i o v
        ∧ (machine p).emits s a = [.put i o v] ∧ ((machine p).next s a).value = v
        ∧ ∀ j o' w, ((machine p).next s a).Writes j o' w → s.Writes j o' w := by
  cases a with
  | start r =>
    cases r with
    | none => exact .inl ⟨rfl, rfl, fun _ _ _ h => h⟩
    -- whoever is started has the cell yet to read, so nobody is added who writes
    | some r => exact .inl ⟨rfl, rfl, fun _ _ _ h => writes_insert h⟩
  | resume i k =>
    unfold Machine.emits Machine.next
    simp only [machine]
    split
    · exact .inl ⟨rfl, rfl, fun _ _ _ h => h⟩
    · next r _ =>
      split
      · -- the program reads again: its row is still that of a reader
        refine .inl ⟨rfl, rfl, fun _ _ _ h => ?_⟩
        rcases writes_update h with ⟨-, hx⟩ | h
        · exact nomatch hx
        · exact h
      · next o v hmove =>
        -- the program is about to write: the only step that adds to those who are
        refine .inr (.inl ⟨i, r, k, o, v, hmove, rfl, rfl, fun j o' w h => ?_⟩)
        rcases writes_update h with ⟨hj, hx⟩ | h
        · cases hx
          exact .inl ⟨hj, rfl, rfl⟩
        · exact .inr h
      · exact .inl ⟨rfl, rfl, fun _ _ _ h => writes_delete h⟩
    · next o v hwrites =>
      -- the program writes: the only step that changes the cell
      exact .inr (.inr ⟨i, k, o, v, rfl, hwrites, rfl, rfl, fun _ _ _ h => writes_delete h⟩)

/-- Where a history ends in an event, it was one before, or its last event is the one
that was singled out. -/
theorem append_eq_split {α : Type*} {es before since : List α} {e e' : α}
    (h : es ++ [e] = before ++ e' :: since) :
    (since = [] ∧ before = es ∧ e' = e)
      ∨ ∃ since', since = since' ++ [e] ∧ es = before ++ e' :: since' := by
  rcases List.eq_nil_or_concat since with rfl | ⟨since', last, rfl⟩
  · obtain ⟨hes, he⟩ := List.append_inj' h rfl
    exact .inl ⟨rfl, hes.symm, (List.cons.inj he).1.symm⟩
  · rw [List.concat_eq_append, ← List.cons_append, ← List.append_assoc] at h
    obtain ⟨hes, he⟩ := List.append_inj' h rfl
    rw [List.concat_eq_append, (List.cons.inj he).1]
    exact .inr ⟨since', rfl, hes⟩

theorem not_stale_of_notMem {es : List (Event ω V)} {i : ℕ} (h : .took i ∉ es) :
    ¬ Stale es i := by
  rintro ⟨before, j, o, v, since, rfl, htook⟩
  exact h (List.mem_append_left _ htook)

theorem not_stale_concat {es : List (Event ω V)} {i : ℕ} (h : .took i ∉ es) :
    ¬ Stale (es ++ [.took i]) i := by
  rintro ⟨before, j, o, v, since, hsplit, htook⟩
  rcases append_eq_split hsplit with ⟨-, -, heq⟩ | ⟨since', -, rfl⟩
  · exact nomatch heq
  · exact h (List.mem_append_left _ htook)

theorem Overwritten.concat {before since : List (Event ω V)} (e : Event ω V)
    (h : Overwritten before since) : Overwritten before (since ++ [e]) := by
  obtain ⟨i, o, v, htook, hput⟩ := h
  exact ⟨i, o, v, htook, List.mem_append_left [e] hput⟩

/-- **What is written was made by a program** of a value it has read. -/
theorem made_of_put (v₀ : V) (as : List (Action ρ κ)) {i : ℕ} {o : ω} {w : V}
    (h : .put i o w ∈ (machine p).trace (.idle v₀) as) : ∃ r k v, p r k v = .write o w := by
  have hinv := (machine p).invariant
    (I := fun es s => (∀ j o v, s.Writes j o v → ∃ r k u, p r k u = .write o v)
      ∧ ∀ j o v, .put j o v ∈ es → ∃ r k u, p r k u = .write o v)
    ⟨fun _ _ _ h => absurd h (not_writes_idle v₀ _ _ _), fun _ _ _ h => nomatch h⟩ ?_ as
  · exact hinv.2 i o w h
  intro es s a ⟨hwaits, hes⟩
  rcases step_cases p s a with ⟨he, -, hnext⟩ | ⟨i, r, k, o, v, hmove, he, -, hnext⟩
    | ⟨i, k, o, v, -, hwrites, he, -, hnext⟩
  all_goals rw [he]
  · rw [List.append_nil]
    exact ⟨fun j o v h => hwaits j o v (hnext j o v h), hes⟩
  · refine ⟨fun j o' w h => ?_, fun j o' w h => hes j o' w (by simpa using h)⟩
    rcases hnext j o' w h with ⟨-, rfl, rfl⟩ | h
    · exact ⟨r, k, s.value, hmove⟩
    · exact hwaits j o' w h
  · refine ⟨fun j o v h => hwaits j o v (hnext j o v h), fun j o' w h => ?_⟩
    rcases List.mem_append.mp h with h | h
    · exact hes j o' w h
    · obtain ⟨rfl, rfl, rfl⟩ : j = i ∧ o' = o ∧ w = v := by simpa using h
      exact hwaits j o' w hwrites

/-- **What was written is kept**: a property of the value – and of what was seen since
it was written – that holds as it is written, and is kept by what every program makes of
a value that has it, holds from then on, unless a program that had read the cell before
has written it since. -/
theorem kept {G : List (Event ω V) → V → Prop} (v₀ : V) (as : List (Action ρ κ))
    {before since : List (Event ω V)} {i : ℕ} {o : ω} {v : V}
    (htrace : (machine p).trace (.idle v₀) as = before ++ .put i o v :: since)
    (hfirst : G [] v)
    (hmono : ∀ es es' w, es.Sublist es' → G es w → G es' w)
    (hmade : ∀ es j r k u o w, G es u → p r k u = .write o w → G (es ++ [.put j o w]) w) :
    G since ((machine p).state (.idle v₀) as).value ∨ Overwritten before since := by
  -- what is about to be written has the property, or was read before
  have hinv := (machine p).invariant
    (I := fun es s => (∀ j o w, s.Writes j o w → .took j ∈ es)
      ∧ ∀ before i o v since, es = before ++ .put i o v :: since → G [] v →
        (G since s.value ∧ ∀ j o w, s.Writes j o w →
          .took j ∈ before ∨ G (since ++ [.put j o w]) w) ∨ Overwritten before since)
    ⟨fun _ _ _ h => absurd h (not_writes_idle v₀ _ _ _),
      fun _ _ _ _ _ h => absurd h (by simp)⟩ ?_ as
  · exact (hinv.2 before i o v since htrace hfirst).imp_left And.left
  intro es s a ⟨htook, hsince⟩
  rcases step_cases p s a with ⟨he, hvalue, hnext⟩ | ⟨i, r, k, o, v, hmove, he, hvalue, hnext⟩
    | ⟨i, k, o, v, -, hwrites, he, hvalue, hnext⟩
  all_goals rw [he, hvalue]
  · rw [List.append_nil]
    refine ⟨fun j o w h => htook j o w (hnext j o w h), ?_⟩
    intro before i o v since hes hv
    refine (hsince before i o v since hes hv).imp_left fun ⟨hG, hall⟩ => ⟨hG, ?_⟩
    exact fun j o w h => hall j o w (hnext j o w h)
  · refine ⟨fun j o' w h => ?_, ?_⟩
    · rcases hnext j o' w h with ⟨rfl, -, -⟩ | h
      · exact List.mem_append_right es List.mem_cons_self
      · exact List.mem_append_left _ (htook j o' w h)
    intro before i' o₀ v₀ since hsplit hv
    rcases append_eq_split hsplit with ⟨-, -, heq⟩ | ⟨since', rfl, hes⟩
    · exact nomatch heq
    rcases hsince before i' o₀ v₀ since' hes hv with ⟨hG, hall⟩ | hlost
    · refine .inl ⟨hmono _ _ _ (List.sublist_append_left since' _) hG, fun j o' w h => ?_⟩
      have hsub : (since' ++ [Event.put j o' w]).Sublist
          (since' ++ [.took i] ++ [.put j o' w]) :=
        (List.sublist_append_left since' _).append_right _
      rcases hnext j o' w h with ⟨-, rfl, rfl⟩ | h
      · -- it has read a value with the property, so what it makes of it has it too
        exact .inr (hmono _ _ _ hsub (hmade since' j r k s.value o' w hG hmove))
      · exact (hall j o' w h).imp_right (hmono _ _ _ hsub)
    · exact .inr (hlost.concat _)
  · refine ⟨fun j o' w h => List.mem_append_left _ (htook j o' w (hnext j o' w h)), ?_⟩
    intro before i' o₀ v₀ since hsplit hv
    rcases append_eq_split hsplit with ⟨rfl, rfl, heq⟩ | ⟨since', rfl, hes⟩
    · -- this is the write itself: whoever is about to write has read before
      cases heq
      exact .inl ⟨hv, fun j o' w h => .inl (htook j o' w (hnext j o' w h))⟩
    rcases hsince before i' o₀ v₀ since' hes hv with ⟨-, hall⟩ | hlost
    · -- another write: by one that had read before, or of a value with the property
      rcases hall i o v hwrites with hbefore | hG
      · exact .inr ⟨i, o, v, hbefore, List.mem_append_right _ List.mem_cons_self⟩
      · refine .inl ⟨hG, fun j o' w h => ?_⟩
        refine (hall j o' w (hnext j o' w h)).imp_right (hmono _ _ _ ?_)
        exact (List.sublist_append_left since' _).append_right _
    · exact .inr (hlost.concat _)

/-- **Without stale writes nothing is overwritten.** -/
theorem not_overwritten (v₀ : V) {as : List (Action ρ κ)}
    (h : (machine p).Throughout WritesFresh (.idle v₀) as)
    {before since : List (Event ω V)} {i : ℕ} {o : ω} {v : V}
    (htrace : (machine p).trace (.idle v₀) as = before ++ .put i o v :: since) :
    ¬ Overwritten before since := by
  refine h.invariant (machine p) (I := fun es _ => ∀ before i o v since,
    es = before ++ .put i o v :: since → ¬ Overwritten before since)
    (fun _ _ _ _ _ h => absurd h (by simp)) ?_ before i o v since htrace
  intro es s a hes hfresh before i o v since hsplit hlost
  rcases step_cases p s a with ⟨he, -, -⟩ | ⟨j, r, k, o', w, -, he, -, -⟩
    | ⟨j, k, o', w, rfl, hwrites, he, -, -⟩
  all_goals rw [he] at hsplit
  · exact hes before i o v since (by rwa [List.append_nil] at hsplit) hlost
  · rcases append_eq_split hsplit with ⟨-, -, heq⟩ | ⟨since', rfl, hbefore⟩
    · exact nomatch heq
    obtain ⟨l, x, y, htook, hput⟩ := hlost
    exact hes before i o v since' hbefore ⟨l, x, y, htook, by simpa using hput⟩
  · obtain ⟨l, x, y, htook, hput⟩ := hlost
    rcases append_eq_split hsplit with ⟨rfl, -, -⟩ | ⟨since', rfl, hbefore⟩
    · exact nomatch hput
    rcases List.mem_append.mp hput with hput | hput
    · exact hes before i o v since' hbefore ⟨l, x, y, htook, hput⟩
    · -- the last write is by one that had read before
      obtain ⟨rfl, -, -⟩ : l = j ∧ x = o' ∧ y = w := by simpa using hput
      exact hfresh ⟨o', w, hwrites⟩ ⟨before, i, o, v, since', hbefore, htook⟩

end Rules

end SharedCell
