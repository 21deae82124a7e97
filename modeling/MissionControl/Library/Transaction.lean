import MissionControl.Library.Machine

/-!
# Transactions with savepoints

A program works on a database through a connection. A statement outside of a
transaction is durable at once. A **transaction** works on a copy, which replaces the
database when it is committed; a transaction within a transaction is a savepoint. A call
of the program can end at any point, by a crash or an exception: what is not committed
is lost then, whatever the savepoints – an exception is passed on to the outermost
transaction, which rolls back.

`Script` is a program as the list of what it does next, where it may read the database
on the way. `LeadsTo` says of a part of a program that it comes to a given rest, without
a commit on the way; it is what an invariant of the runs says about a transaction that
is open.
-/

/-- **What is left of a program**: it does a statement, reads the database, or opens or
closes a transaction, and goes on. A transaction may have a label. -/
inductive Script (σ δ ℓ : Type) where
  | done
  | exec (statement : σ) (rest : Script σ δ ℓ)
  | query (rest : δ → Script σ δ ℓ)
  | before (rest : Script σ δ ℓ)
  | after (label : Option ℓ) (rest : Script σ δ ℓ)

namespace Script

variable {σ δ ℓ : Type}

def execAll (statements : List σ) (rest : Script σ δ ℓ) : Script σ δ ℓ :=
  statements.foldr exec rest

/-- **A transaction** around a part of a program. -/
def transaction (label : Option ℓ) (body : Script σ δ ℓ → Script σ δ ℓ)
    (rest : Script σ δ ℓ) : Script σ δ ℓ := before (body (after label rest))

/-- **A program comes to a given rest**, from within some savepoints, doing no
statements but those of a kind, and committing nothing on the way. -/
inductive LeadsTo (K : σ → Prop) (rest : Script σ δ ℓ) : ℕ → Script σ δ ℓ → Prop where
  | here : LeadsTo K rest 0 rest
  | exec {depth : ℕ} {statement : σ} {s : Script σ δ ℓ} (hK : K statement)
      (h : LeadsTo K rest depth s) : LeadsTo K rest depth (.exec statement s)
  | query {depth : ℕ} {s : δ → Script σ δ ℓ} (h : ∀ db, LeadsTo K rest depth (s db)) :
      LeadsTo K rest depth (.query s)
  | before {depth : ℕ} {s : Script σ δ ℓ} (h : LeadsTo K rest (depth + 1) s) :
      LeadsTo K rest depth (.before s)
  | after {depth : ℕ} {label : Option ℓ} {s : Script σ δ ℓ} (h : LeadsTo K rest depth s) :
      LeadsTo K rest (depth + 1) (.after label s)

theorem LeadsTo.execAll {K : σ → Prop} {rest s : Script σ δ ℓ} {depth : ℕ}
    {statements : List σ} (hK : ∀ statement ∈ statements, K statement)
    (h : LeadsTo K rest depth s) : LeadsTo K rest depth (Script.execAll statements s) := by
  induction statements with
  | nil => exact h
  | cons statement statements ih =>
    exact .exec (hK statement List.mem_cons_self)
      (ih fun st hst => hK st (List.mem_cons_of_mem _ hst))

end Script

/-! ## Sessions -/

/-- **A connection** that runs a program: the copy and the savepoints of an open
transaction, and what is left to do. -/
structure Connection (σ δ ℓ : Type) where
  working : Option (δ × List δ)
  rest : Script σ δ ℓ

/-- **A database**, and the call that works on it, if there is one. -/
structure Session (σ δ ℓ : Type) where
  durable : δ
  call : Option (Connection σ δ ℓ)

namespace Session

variable {σ δ ℓ ε : Type}

/-- What happens: a call of the program begins, or does its next step at some time; an
exception is thrown in it; or the process ends. -/
inductive Action where
  | start
  | step (now : ℕ)
  | throw
  | crash

/-- What a session shows: a labelled transaction has been committed, and a call has
ended. -/
inductive Event (ℓ : Type) where
  | committed (label : ℓ)
  | completed
  | interrupted

def view (db : δ) (c : Connection σ δ ℓ) : δ := (c.working.map Prod.fst).getD db

variable (run : σ → ℕ → δ → Except ε δ)

/-- **The next step of a call.** -/
def advance (db : δ) (c : Connection σ δ ℓ) (now : ℕ) : Session σ δ ℓ × List (Event ℓ) :=
  match c.rest with
  | .done => (⟨db, none⟩, [.completed])
  | .exec statement rest =>
    match c.working with
    | none =>
      match run statement now db with
      | .error _ => (⟨db, none⟩, [.interrupted])
      | .ok db' => (⟨db', some ⟨none, rest⟩⟩, [])
    | some (copy, savepoints) =>
      match run statement now copy with
      | .error _ => (⟨db, none⟩, [.interrupted])
      | .ok copy' => (⟨db, some ⟨some (copy', savepoints), rest⟩⟩, [])
  | .query rest => (⟨db, some ⟨c.working, rest (view db c)⟩⟩, [])
  | .before rest =>
    match c.working with
    | none => (⟨db, some ⟨some (db, []), rest⟩⟩, [])
    | some (copy, savepoints) => (⟨db, some ⟨some (copy, copy :: savepoints), rest⟩⟩, [])
  | .after label rest =>
    match c.working with
    | none => (⟨db, none⟩, [.interrupted])
    | some (copy, []) => (⟨copy, some ⟨none, rest⟩⟩, (label.map .committed).toList)
    | some (copy, _ :: savepoints) => (⟨db, some ⟨some (copy, savepoints), rest⟩⟩, [])

/-- **Calls of a program, one after the other.** A call that is running keeps others from
beginning. -/
def calls (program : Script σ δ ℓ) : Machine (Session σ δ ℓ) Action (Event ℓ) where
  step s
    | .start =>
      match s.call with
      | none => (⟨s.durable, some ⟨none, program⟩⟩, [])
      | some _ => (s, [])
    | .step now =>
      match s.call with
      | none => (s, [])
      | some c => advance run s.durable c now
    | .throw =>
      match s.call with
      | none => (s, [])
      | some _ => (⟨s.durable, none⟩, [.interrupted])
    | .crash =>
      match s.call with
      | none => (s, [])
      | some _ => (⟨s.durable, none⟩, [.interrupted])

/-- The labels of the transactions that have been committed. -/
def committed (es : List (Event ℓ)) : List ℓ :=
  es.filterMap fun
    | .committed label => some label
    | .completed | .interrupted => none

def HasCompleted (es : List (Event ℓ)) : Prop := Event.completed ∈ es

@[simp] theorem committed_nil : committed ([] : List (Event ℓ)) = [] := rfl

theorem committed_append (es es' : List (Event ℓ)) :
    committed (es ++ es') = committed es ++ committed es' := List.filterMap_append

/-- **The invariants of the calls of a program**: one of the database, kept by what is
shown without a commit, and one of a call that is running. -/
theorem calls_invariant {program : Script σ δ ℓ} {I : List (Event ℓ) → δ → Prop}
    {C : List (Event ℓ) → δ → Connection σ δ ℓ → Prop} {db₀ : δ}
    (h₀ : I [] db₀)
    (hstart : ∀ es db, I es db → C es db ⟨none, program⟩)
    (hinterrupted : ∀ es db, I es db → I (es ++ [.interrupted]) db)
    (hadvance : ∀ es db c now, I es db → C es db c →
      I (es ++ (advance run db c now).2) (advance run db c now).1.durable
        ∧ ∀ c', (advance run db c now).1.call = some c' →
          C (es ++ (advance run db c now).2) (advance run db c now).1.durable c')
    (actions : List Action) :
    I ((calls run program).trace ⟨db₀, none⟩ actions)
        ((calls run program).state ⟨db₀, none⟩ actions).durable
      ∧ ∀ c, ((calls run program).state ⟨db₀, none⟩ actions).call = some c →
        C ((calls run program).trace ⟨db₀, none⟩ actions)
          ((calls run program).state ⟨db₀, none⟩ actions).durable c := by
  refine (calls run program).invariant
    (I := fun es s => I es s.durable ∧ ∀ c, s.call = some c → C es s.durable c)
    ⟨h₀, fun c (hc : none = some c) => nomatch hc⟩ ?_ actions
  rintro es ⟨db, call⟩ a ⟨hI, hC⟩
  have hsilent : I (es ++ []) db ∧ ∀ c, call = some c → C (es ++ []) db c := by
    rw [List.append_nil]
    exact ⟨hI, hC⟩
  cases call with
  | none =>
    cases a with
    | start =>
      show I (es ++ []) db ∧ ∀ c, some ⟨none, program⟩ = some c → C (es ++ []) db c
      rw [List.append_nil]
      refine ⟨hI, fun c hc => ?_⟩
      obtain rfl := Option.some.inj hc
      exact hstart es db hI
    | step now => exact hsilent
    | throw => exact hsilent
    | crash => exact hsilent
  | some c =>
    cases a with
    | start => exact hsilent
    | step now => exact hadvance es db c now hI (hC c rfl)
    | throw => exact ⟨hinterrupted es db hI, fun c' hc' => nomatch hc'⟩
    | crash => exact ⟨hinterrupted es db hI, fun c' hc' => nomatch hc'⟩

end Session
