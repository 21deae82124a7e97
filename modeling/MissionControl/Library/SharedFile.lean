import MissionControl.Library.SharedCell

/-!
# Programs that share a file

Programs run at the same time and share one file. A program reads the file, makes something
of what it has read, and writes that back, as in `SharedCell`. But here an access takes time.
A write first cuts the file off and then fills it, so a program that reads it meanwhile may
find nothing, a part, or old and new mixed; two writes at a time may leave any mixture, the
later of the two among others; and a write that fails leaves the file wherever it stood.

Every access is therefore an interval, from the step in which a program comes to wait for it
to the step in which it has it. A read that no write overlaps is **whole** and finds what the
file holds; any other finds what the action says, which is anything. A write that succeeds and
that no other write overlaps is whole and leaves its value; any other leaves anything. While a
write is under way the file holds nothing in particular, so `State.Holds` speaks of the states
in which there is none. Whether a read fails is no concern of the file: a program knows it, and
finds it in what is around it.

A program writes as soon as it has read. So one that writes what it had read before another one
wrote does so while the other one writes, and what others have written is lost in two ways, and
in no other: a program writes what it has not read whole (`Overwritten`), or the file is left in
pieces (`Torn`). That rests on one fact about the programs, that a write which nothing overlaps
is the only one under way (`Sole`). The rule `kept` says it for any property that the programs
keep, `always` for a property of the values alone; `not_lost` says that nothing is lost in a run
whose accesses do not disturb each other.
-/

namespace SharedFile

open SharedCell (Move append_eq_split)

/-- What a program waits for, and whether no write of another program was under way since
it came to wait. -/
inductive Waiting (ρ ω V : Type*) where
  | reading (r : ρ) (alone : Bool)
  | writing (o : ω) (v : V) (alone : Bool)

/-- The file as the last write has left it, and the programs under way. -/
structure State (ρ ω V : Type*) where
  value : V
  programs : Table (Waiting ρ ω V)

/-- **How an access goes**: what the program finds around it, whether a write fails, and what
comes of an access that is not whole – what a program reads, or what a write leaves. -/
structure Access (κ V : Type*) where
  around : κ
  fails : Bool
  torn : V

/-- A program is started, or none, or the access that a program waits for is over. -/
inductive Action (ρ κ V : Type*) where
  | start (r : Option ρ)
  | resume (i : ℕ) (access : Access κ V)

/-- What is seen of the programs: that one has read what it makes its value of, that one has
written, both with whether the access was whole, and that a write has failed. -/
inductive Event (ω V : Type*) where
  | took (i : ℕ) (whole : Bool)
  | put (i : ℕ) (o : ω) (v : V) (whole : Bool)
  | failed (i : ℕ)

variable {ρ κ ω V : Type*}

def Waiting.writes : Waiting ρ ω V → Bool
  | reading _ _ => false
  | writing _ _ _ => true

def Waiting.overlapped : Waiting ρ ω V → Waiting ρ ω V
  | reading r _ => reading r false
  | writing o v _ => writing o v false

def State.quiet (s : State ρ ω V) : Bool := !s.programs.any Waiting.writes

/-- **The programs over the file.** -/
def machine (p : ρ → κ → V → Move ρ ω V) :
    Machine (State ρ ω V) (Action ρ κ V) (Event ω V) where
  step s
    | .start none => (s, [])
    | .start (some r) => ({ s with programs := s.programs.insert (.reading r s.quiet) }, [])
    | .resume i access =>
      match s.programs.row i with
      | none => (s, [])
      | some (.reading r alone) =>
        match p r access.around (if alone then s.value else access.torn) with
        | .read r =>
          ({ s with programs := s.programs.update i fun _ => .reading r s.quiet }, [])
        | .write o v =>
          -- every other access that is under way overlaps this write from here on
          let others := s.programs.updateAll fun _ => Waiting.overlapped
          ({ s with programs := others.update i fun _ => .writing o v s.quiet }, [.took i alone])
        | .stop => ({ s with programs := s.programs.deleteWhere fun j _ => j = i }, [])
      | some (.writing o v alone) =>
        if access.fails then
          (⟨access.torn, s.programs.deleteWhere fun j _ => j = i⟩, [.failed i])
        else
          (⟨if alone then v else access.torn, s.programs.deleteWhere fun j _ => j = i⟩,
            [.put i o v alone])

def State.idle (v : V) : State ρ ω V := ⟨v, .empty⟩

/-- **What the file holds**, in a state in which no write is under way. -/
def State.Holds (s : State ρ ω V) (v : V) : Prop := s.quiet = true ∧ s.value = v

def State.Writes (s : State ρ ω V) (i : ℕ) (o : ω) (v : V) : Prop :=
  ∃ alone, s.programs.row i = some (.writing o v alone)

/-- **A write that nothing overlaps is the only one** under way. -/
def State.Sole (s : State ρ ω V) : Prop :=
  ∀ i o v, s.programs.row i = some (.writing o v true) → ∀ j o' w, s.Writes j o' w → j = i

/-- **A program has written the file** that had not read it whole. -/
def Overwritten (es : List (Event ω V)) : Prop :=
  ∃ i o v whole, .took i false ∈ es ∧ .put i o v whole ∈ es

/-- **The file was left in pieces**: a write overlapped another one, or failed. -/
def Torn (es : List (Event ω V)) : Prop :=
  (∃ i o v, .put i o v false ∈ es) ∨ ∃ i, .failed i ∈ es

/-- **An access that no other disturbs**: it is whole, and does not fail. -/
def Undisturbed (_ : List (Event ω V)) (s : State ρ ω V) : Action ρ κ V → Prop
  | .start _ => True
  | .resume i access =>
    match s.programs.row i with
    | none => True
    | some (.reading _ alone) => alone = true
    | some (.writing _ _ alone) => alone = true ∧ access.fails = false

section Rules

variable {p : ρ → κ → V → Move ρ ω V} {s : State ρ ω V}

theorem not_writes_idle (v : V) (i : ℕ) (o : ω) (w : V) :
    ¬ (State.idle v : State ρ ω V).Writes i o w := fun ⟨_, h⟩ => nomatch h

theorem writes_insert {v : V} {r : ρ} {alone : Bool} {i : ℕ} {o : ω} {w : V}
    (h : (⟨v, s.programs.insert (.reading r alone)⟩ : State ρ ω V).Writes i o w) :
    s.Writes i o w := by
  obtain ⟨alone', h⟩ := h
  rcases (s.programs.row_insert_eq_some _).mp h with ⟨-, hr⟩ | h
  · exact nomatch hr
  · exact ⟨alone', h⟩

theorem writes_update {v : V} {r : ρ} {alone : Bool} {i j : ℕ} {o : ω} {w : V}
    (h : (⟨v, s.programs.update i fun _ => .reading r alone⟩ : State ρ ω V).Writes j o w) :
    s.Writes j o w := by
  obtain ⟨alone', h⟩ := h
  change (s.programs.update i _).row j = _ at h
  rw [s.programs.row_update] at h
  split at h
  · obtain ⟨_, -, hr⟩ := Option.map_eq_some_iff.mp h
    exact nomatch hr
  · exact ⟨alone', h⟩

/-- When one begins to write, the others go on with what they were about to write. -/
theorem writes_begin {v : V} {i j : ℕ} {o o' : ω} {u w : V} {alone : Bool}
    (h : (⟨v, (s.programs.updateAll fun _ => .overlapped).update i
      fun _ => .writing o u alone⟩ : State ρ ω V).Writes j o' w) :
    (j = i ∧ o' = o ∧ w = u) ∨ s.Writes j o' w := by
  obtain ⟨alone', h⟩ := h
  change ((s.programs.updateAll _).update i _).row j = _ at h
  rw [Table.row_update, Table.row_updateAll] at h
  split at h
  · next hj =>
    obtain ⟨_, -, heq⟩ := Option.map_eq_some_iff.mp h
    cases heq
    exact .inl ⟨hj, rfl, rfl⟩
  · obtain ⟨waiting, hrow, heq⟩ := Option.map_eq_some_iff.mp h
    cases waiting with
    | reading r a => exact nomatch heq
    | writing o₁ v₁ a =>
      cases heq
      exact .inr ⟨a, hrow⟩

theorem writes_delete {v : V} {i j : ℕ} {o : ω} {w : V}
    (h : (⟨v, s.programs.deleteWhere fun j _ => j = i⟩ : State ρ ω V).Writes j o w) :
    j ≠ i ∧ s.Writes j o w := by
  obtain ⟨alone, h⟩ := h
  obtain ⟨hrow, hj⟩ := (s.programs.row_deleteWhere_eq_some _).mp h
  exact ⟨of_decide_eq_false hj, alone, hrow⟩

theorem quiet_iff : s.quiet = true ↔ ∀ i o v, ¬ s.Writes i o v := by
  unfold State.quiet State.Writes
  rw [Bool.not_eq_true', Table.any_eq_false_iff]
  constructor
  · rintro h i o v ⟨alone, hrow⟩
    exact nomatch h i _ hrow
  · intro h i w hrow
    cases w with
    | reading r alone => rfl
    | writing o v alone => exact absurd ⟨alone, hrow⟩ (h i o v)

theorem quiet_insert (hquiet : s.quiet = true) {v : V} {r : ρ} {alone : Bool} :
    (⟨v, s.programs.insert (.reading r alone)⟩ : State ρ ω V).quiet = true :=
  quiet_iff.mpr fun i o w h => quiet_iff.mp hquiet i o w (writes_insert h)

theorem quiet_update (hquiet : s.quiet = true) {v : V} {r : ρ} {alone : Bool} {i : ℕ} :
    (⟨v, s.programs.update i fun _ => .reading r alone⟩ : State ρ ω V).quiet = true :=
  quiet_iff.mpr fun j o w h => quiet_iff.mp hquiet j o w (writes_update h)

/-- **It is quiet again** after the only write. -/
theorem quiet_finish (hquiet : s.quiet = true) {v u : V} {i : ℕ} {o : ω} {alone : Bool} :
    (⟨v, ((s.programs.updateAll fun _ => .overlapped).update i
      fun _ => .writing o u alone).deleteWhere fun j _ => j = i⟩ : State ρ ω V).quiet = true := by
  refine quiet_iff.mpr fun j o' w h => ?_
  obtain ⟨hji, h⟩ := writes_delete (s := ⟨v, _⟩) h
  rcases writes_begin h with ⟨rfl, -, -⟩ | h
  · exact hji rfl
  · exact quiet_iff.mp hquiet j o' w h

/-- **What a step does**: nothing that is seen, or a program reads the value it makes its own
of, or a program has written, or has failed to. In each case only programs that were about to
write before are so afterwards, but for the one that has just read; and the value is another
one only after a write. -/
theorem step_cases (p : ρ → κ → V → Move ρ ω V) (s : State ρ ω V) (a : Action ρ κ V) :
    ((machine p).emits s a = [] ∧ ((machine p).next s a).value = s.value
        ∧ ∀ j o v, ((machine p).next s a).Writes j o v → s.Writes j o v)
      ∨ (∃ i r access o v whole u, a = .resume i access
        ∧ s.programs.row i = some (.reading r whole)
        ∧ (p r access.around u = .write o v ∧ (whole = true → u = s.value))
        ∧ (machine p).emits s a = [.took i whole]
        ∧ ((machine p).next s a).value = s.value
        ∧ ∀ j o' w, ((machine p).next s a).Writes j o' w →
          (j = i ∧ o' = o ∧ w = v) ∨ s.Writes j o' w)
      ∨ (∃ i access o v whole, a = .resume i access ∧ access.fails = false
        ∧ s.programs.row i = some (.writing o v whole)
        ∧ (machine p).emits s a = [.put i o v whole]
        ∧ (whole = true → ((machine p).next s a).value = v)
        ∧ ∀ j o' w, ((machine p).next s a).Writes j o' w → j ≠ i ∧ s.Writes j o' w)
      ∨ ∃ i access o v whole, a = .resume i access ∧ access.fails = true
        ∧ s.programs.row i = some (.writing o v whole)
        ∧ (machine p).emits s a = [.failed i]
        ∧ ∀ j o' w, ((machine p).next s a).Writes j o' w → s.Writes j o' w := by
  cases a with
  | start r =>
    cases r with
    | none => exact .inl ⟨rfl, rfl, fun _ _ _ h => h⟩
    | some r => exact .inl ⟨rfl, rfl, fun _ _ _ h => writes_insert h⟩
  | resume i access =>
    unfold Machine.emits Machine.next
    simp only [machine]
    split
    · exact .inl ⟨rfl, rfl, fun _ _ _ h => h⟩
    · next r alone hrow =>
      split
      · exact .inl ⟨rfl, rfl, fun _ _ _ h => writes_update h⟩
      · next o v hmove =>
        -- a whole read finds what the file holds, any other what the action says
        exact .inr (.inl ⟨i, r, access, o, v, alone, _, rfl, hrow, ⟨hmove, fun h => if_pos h⟩,
          rfl, rfl, fun _ _ _ h => writes_begin h⟩)
      · exact .inl ⟨rfl, rfl, fun _ _ _ h => (writes_delete h).2⟩
    · next o v alone hrow =>
      by_cases hfails : access.fails = true
      · rw [if_pos hfails]
        exact .inr (.inr (.inr ⟨i, access, o, v, alone, rfl, hfails, hrow, rfl,
          fun _ _ _ h => (writes_delete h).2⟩))
      · rw [if_neg hfails]
        exact .inr (.inr (.inl ⟨i, access, o, v, alone, rfl, Bool.eq_false_iff.mpr hfails, hrow,
          rfl, fun h => if_pos h, fun _ _ _ h => writes_delete h⟩))

theorem Overwritten.mono {es es' : List (Event ω V)} (h : Overwritten es) (hsub : es ⊆ es') :
    Overwritten es' := by
  obtain ⟨i, o, v, whole, htook, hput⟩ := h
  exact ⟨i, o, v, whole, hsub htook, hsub hput⟩

theorem Torn.mono {es es' : List (Event ω V)} (h : Torn es) (hsub : es ⊆ es') : Torn es' := by
  rcases h with ⟨i, o, v, h⟩ | ⟨i, h⟩
  · exact .inl ⟨i, o, v, hsub h⟩
  · exact .inr ⟨i, hsub h⟩

/-- **What is written was made by a program** of a value it has read. -/
theorem made_of_put (v₀ : V) (as : List (Action ρ κ V)) {i : ℕ} {o : ω} {w : V} {whole : Bool}
    (h : .put i o w whole ∈ (machine p).trace (.idle v₀) as) :
    ∃ r k v, p r k v = .write o w := by
  have hinv := (machine p).invariant
    (I := fun es s => (∀ j o v, s.Writes j o v → ∃ r k u, p r k u = .write o v)
      ∧ ∀ j o v whole, .put j o v whole ∈ es → ∃ r k u, p r k u = .write o v)
    ⟨fun _ _ _ h => absurd h (not_writes_idle v₀ _ _ _), fun _ _ _ _ h => nomatch h⟩ ?_ as
  · exact hinv.2 i o w whole h
  intro es s a ⟨hwaits, hes⟩
  rcases step_cases p s a with ⟨he, -, hnext⟩
    | ⟨i, r, access, o, v, whole, u, -, -, ⟨hmove, -⟩, he, -, hnext⟩
    | ⟨i, access, o, v, whole, -, -, hrow, he, -, hnext⟩
    | ⟨i, access, o, v, whole, -, -, -, he, hnext⟩
  all_goals rw [he]
  · rw [List.append_nil]
    exact ⟨fun j o v h => hwaits j o v (hnext j o v h), hes⟩
  · refine ⟨fun j o' w h => ?_, fun j o' w b h => hes j o' w b (by simpa using h)⟩
    rcases hnext j o' w h with ⟨-, rfl, rfl⟩ | h
    · exact ⟨r, access.around, u, hmove⟩
    · exact hwaits j o' w h
  · refine ⟨fun j o v h => hwaits j o v (hnext j o v h).2, fun j o' w b h => ?_⟩
    rcases List.mem_append.mp h with h | h
    · exact hes j o' w b h
    · obtain ⟨-, rfl, rfl, -⟩ : j = i ∧ o' = o ∧ w = v ∧ b = whole := by simpa using h
      exact hwaits i o' w ⟨whole, hrow⟩
  · exact ⟨fun j o v h => hwaits j o v (hnext j o v h),
      fun j o' w b h => hes j o' w b (by simpa using h)⟩

/-- **What every program keeps** holds at any time, stale writes or not: a property of the
value that is kept by what each program makes of a value that has it. Only what is in pieces
may lack it: the file, or what a program has read. -/
theorem always {G : V → Prop} {v₀ : V} (h₀ : G v₀)
    (hmade : ∀ r k u o w, G u → p r k u = .write o w → G w) (as : List (Action ρ κ V)) :
    G ((machine p).state (.idle v₀) as).value
      ∨ Torn ((machine p).trace (.idle v₀) as)
      ∨ ∃ i, .took i false ∈ (machine p).trace (.idle v₀) as := by
  have hinv := (machine p).invariant
    (I := fun es s => (G s.value ∧ ∀ j o w, s.Writes j o w → G w) ∨ Torn es
      ∨ ∃ i, .took i false ∈ es)
    (.inl ⟨h₀, fun _ _ _ h => absurd h (not_writes_idle v₀ _ _ _)⟩) ?_ as
  · exact hinv.imp_left And.left
  intro es s a hI
  rcases hI with ⟨hvalue, hwaits⟩ | htorn | ⟨i, htook⟩
  · rcases step_cases p s a with ⟨-, hsame, hnext⟩
      | ⟨i, r, access, o, v, whole, u, -, -, ⟨hmove, hread⟩, he, hsame, hnext⟩
      | ⟨i, access, o, v, whole, -, -, hrow, he, hput, hnext⟩
      | ⟨i, access, o, v, whole, -, -, -, he, hnext⟩
    · exact .inl ⟨hsame ▸ hvalue, fun j o w h => hwaits j o w (hnext j o w h)⟩
    · cases whole with
      | false => exact .inr (.inr ⟨i, he ▸ List.mem_append_right es List.mem_cons_self⟩)
      | true =>
        -- the value it has read is that of the file, and has the property
        refine .inl ⟨hsame ▸ hvalue, fun j o' w h => ?_⟩
        rcases hnext j o' w h with ⟨-, -, rfl⟩ | h
        · exact hmade r access.around u o w (hread rfl ▸ hvalue) hmove
        · exact hwaits j o' w h
    · cases whole with
      | false =>
        exact .inr (.inl (.inl ⟨i, o, v, he ▸ List.mem_append_right es List.mem_cons_self⟩))
      | true => exact .inl ⟨hput rfl ▸ hwaits i o v ⟨true, hrow⟩,
          fun j o w h => hwaits j o w (hnext j o w h).2⟩
    · exact .inr (.inl (.inr ⟨i, he ▸ List.mem_append_right es List.mem_cons_self⟩))
  · exact .inr (.inl (htorn.mono (List.subset_append_left es _)))
  · exact .inr (.inr ⟨i, List.mem_append_left _ htook⟩)

theorem sole_idle (v : V) : (State.idle v : State ρ ω V).Sole := fun _ _ _ h => nomatch h

theorem State.Sole.of_writing {s s' : State ρ ω V} (h : s.Sole)
    (hrows : ∀ i o v alone, s'.programs.row i = some (.writing o v alone) →
      s.programs.row i = some (.writing o v alone)) : s'.Sole := by
  intro i o v hi j o' w ⟨alone, hj⟩
  exact h i o v (hrows i o v true hi) j o' w ⟨alone, hrows j o' w alone hj⟩

/-- **Writes that nothing overlaps stay so**: a program that begins to write while another one
does marks both. -/
theorem sole_step (p : ρ → κ → V → Move ρ ω V) (a : Action ρ κ V) (h : s.Sole) :
    ((machine p).next s a).Sole := by
  cases a with
  | start r =>
    cases r with
    | none => exact h
    | some r =>
      refine h.of_writing fun i o v alone hrow => ?_
      rcases (s.programs.row_insert_eq_some _).mp hrow with ⟨-, hr⟩ | hrow
      · exact nomatch hr
      · exact hrow
  | resume i access =>
    have hupdate : ∀ r : ρ, ∀ b : Bool,
        (⟨s.value, s.programs.update i fun _ => .reading r b⟩ : State ρ ω V).Sole := by
      refine fun r b => h.of_writing fun j o v alone hrow => ?_
      rw [Table.row_update] at hrow
      split at hrow
      · obtain ⟨_, -, hr⟩ := Option.map_eq_some_iff.mp hrow
        exact nomatch hr
      · exact hrow
    have hdelete : ∀ v : V,
        (⟨v, s.programs.deleteWhere fun j _ => j = i⟩ : State ρ ω V).Sole := fun v =>
      h.of_writing fun j o v alone hrow => ((s.programs.row_deleteWhere_eq_some _).mp hrow).1
    unfold Machine.next
    simp only [machine]
    split
    · exact h
    · split
      · exact hupdate _ _
      · next o v hmove =>
        intro j o' w hj k o'' u hk
        dsimp only at hj
        rw [Table.row_update, Table.row_updateAll] at hj
        split at hj
        · next hji =>
          -- the new write: it is marked as alone only if no other one was under way
          obtain ⟨_, -, heq⟩ := Option.map_eq_some_iff.mp hj
          have hquiet : s.quiet = true := (Waiting.writing.inj heq).2.2
          rcases writes_begin hk with ⟨hki, -, -⟩ | hk
          · exact hki.trans hji.symm
          · exact absurd hk (quiet_iff.mp hquiet k o'' u)
        · obtain ⟨waiting, -, heq⟩ := Option.map_eq_some_iff.mp hj
          cases waiting <;> exact nomatch heq
      · exact hdelete _
    · split <;> exact hdelete _

/-- **What was written is kept**: a property of the value – and of what was seen since it was
written – that holds as it is written, and is kept by what every program makes of a value that
has it, holds from then on, unless the file was overwritten or left in pieces since. The
invariant also says where every write under way comes from: as the value was written there was
no other write, so its program has read the file since, in part or with the property. -/
theorem kept {G : List (Event ω V) → V → Prop} (v₀ : V) (as : List (Action ρ κ V))
    {before since : List (Event ω V)} {i : ℕ} {o : ω} {v : V}
    (htrace : (machine p).trace (.idle v₀) as = before ++ .put i o v true :: since)
    (hfirst : G [] v)
    (hmono : ∀ es es' w, es.Sublist es' → G es w → G es' w)
    (hmade : ∀ es j r k u o w, G es u → p r k u = .write o w →
      G (es ++ [.put j o w true]) w) :
    G since ((machine p).state (.idle v₀) as).value ∨ Overwritten since ∨ Torn since := by
  have hinv := (machine p).invariant
    (I := fun es s => s.Sole ∧ ∀ before i o v since,
      es = before ++ .put i o v true :: since → G [] v →
        (G since s.value ∧ ∀ j o w, s.Writes j o w →
          .took j false ∈ since ∨ G (since ++ [.put j o w true]) w)
        ∨ Overwritten since ∨ Torn since)
    ⟨sole_idle v₀, fun _ _ _ _ _ h => absurd h (by simp)⟩ ?_ as
  · exact (hinv.2 before i o v since htrace hfirst).imp_left And.left
  intro es s a ⟨hsole, hsince⟩
  refine ⟨sole_step p a hsole, ?_⟩
  intro before i' o₀ v₀ since hsplit hv
  rcases step_cases p s a with ⟨he, hvalue, hnext⟩
    | ⟨i, r, access, o, v, whole, u, -, -, ⟨hmove, hread⟩, he, hvalue, hnext⟩
    | ⟨i, access, o, v, whole, -, -, hrow, he, hput, hnext⟩
    | ⟨i, access, o, v, whole, -, -, -, he, hnext⟩
  all_goals rw [he] at hsplit
  · rw [List.append_nil] at hsplit
    rw [hvalue]
    exact (hsince before i' o₀ v₀ since hsplit hv).imp_left fun ⟨hG, hall⟩ =>
      ⟨hG, fun j o w h => hall j o w (hnext j o w h)⟩
  · rcases append_eq_split hsplit with ⟨-, -, heq⟩ | ⟨since', rfl, hes⟩
    · exact nomatch heq
    rcases hsince before i' o₀ v₀ since' hes hv with ⟨hG, hall⟩ | hlost | htorn
    · refine .inl ⟨hvalue ▸ hmono _ _ _ (List.sublist_append_left since' _) hG,
        fun j o' w h => ?_⟩
      have hsub : (since' ++ [Event.put j o' w true]).Sublist
          (since' ++ [.took i whole] ++ [.put j o' w true]) :=
        (List.sublist_append_left since' _).append_right _
      rcases hnext j o' w h with ⟨rfl, rfl, rfl⟩ | h
      · -- who comes to write has just read: in part, or a value with the property
        cases whole with
        | false => exact .inl (List.mem_append_right since' List.mem_cons_self)
        | true =>
          exact .inr (hmono _ _ _ hsub
            (hmade since' j r access.around u o' w (hread rfl ▸ hG) hmove))
      · exact (hall j o' w h).imp (List.mem_append_left _) (hmono _ _ _ hsub)
    · exact .inr (.inl (hlost.mono (List.subset_append_left since' _)))
    · exact .inr (.inr (htorn.mono (List.subset_append_left since' _)))
  · rcases append_eq_split hsplit with ⟨rfl, rfl, heq⟩ | ⟨since', rfl, hes⟩
    · -- this is the write itself: it was the only one under way
      cases heq
      refine .inl ⟨hput rfl ▸ hv, fun j o' w h => ?_⟩
      obtain ⟨hji, hj⟩ := hnext j o' w h
      exact absurd (hsole _ _ _ hrow j o' w hj) hji
    have hlast : Event.put i o v whole ∈ since' ++ [.put i o v whole] :=
      List.mem_append_right _ List.mem_cons_self
    rcases hsince before i' o₀ v₀ since' hes hv with ⟨-, hall⟩ | hlost | htorn
    · -- another write: of what was not read whole, or of a value with the property
      rcases hall i o v ⟨whole, hrow⟩ with htook | hG
      · exact .inr (.inl ⟨i, o, v, whole, List.mem_append_left _ htook, hlast⟩)
      · cases whole with
        | false => exact .inr (.inr (.inl ⟨i, o, v, hlast⟩))
        | true =>
          refine .inl ⟨hput rfl ▸ hG, fun j o' w h => ?_⟩
          refine (hall j o' w (hnext j o' w h).2).imp (List.mem_append_left _) (hmono _ _ _ ?_)
          exact (List.sublist_append_left since' _).append_right _
    · exact .inr (.inl (hlost.mono (List.subset_append_left since' _)))
    · exact .inr (.inr (htorn.mono (List.subset_append_left since' _)))
  · rcases append_eq_split hsplit with ⟨-, -, heq⟩ | ⟨since', rfl, hes⟩
    · exact nomatch heq
    · exact .inr (.inr (.inr ⟨i, List.mem_append_right since' List.mem_cons_self⟩))

/-- **Where no access disturbs another one nothing is lost.** -/
theorem not_lost (v₀ : V) {as : List (Action ρ κ V)}
    (h : (machine p).Throughout Undisturbed (.idle v₀) as) :
    ¬ Torn ((machine p).trace (.idle v₀) as)
      ∧ ∀ i, .took i false ∉ (machine p).trace (.idle v₀) as := by
  refine h.invariant (machine p) (I := fun es _ => ¬ Torn es ∧ ∀ i, .took i false ∉ es)
    ⟨fun h => ?_, fun _ h => nomatch h⟩ ?_
  · rcases h with ⟨_, _, _, h⟩ | ⟨_, h⟩ <;> exact nomatch h
  intro es s a ⟨htorn, hpart⟩ hcalm
  rcases step_cases p s a with ⟨he, -, -⟩ | ⟨i, r, access, o, v, whole, u, rfl, hrow, -, he, -, -⟩
    | ⟨i, access, o, v, whole, rfl, hfails, hrow, he, -, -⟩
    | ⟨i, access, o, v, whole, rfl, hfails, hrow, he, -⟩
  all_goals rw [he]
  · rw [List.append_nil]
    exact ⟨htorn, hpart⟩
  · simp only [Undisturbed, hrow] at hcalm
    subst hcalm
    exact ⟨fun h => htorn (by simpa [Torn] using h), fun j h => hpart j (by simpa using h)⟩
  · simp only [Undisturbed, hrow] at hcalm
    obtain ⟨rfl, -⟩ := hcalm
    exact ⟨fun h => htorn (by simpa [Torn] using h), fun j h => hpart j (by simpa using h)⟩
  · simp only [Undisturbed, hrow, hfails] at hcalm
    exact nomatch hcalm.2

end Rules

end SharedFile
