import Mathlib.Order.Defs.Unbundled

/-!
Processes that may be killed at any moment. A program is the tree of its
atomic actions on a shared world; between two actions the world may drift by
an environment relation, and the process may die there. The weakest
precondition carries three obligations at once: a condition that holds at
every moment of the run, a condition on every error it can end with, and the
usual postcondition.

The module knows nothing of what the world is. A journal protocol supplies
its own world, environment and operations and uses `System.invariant` to get
a fact about every state of every sequence of interrupted calls.
-/

namespace Meshpn.Lib

/-- An atomic action transforms the world in one indivisible step; the rest of
the program depends on the world as it was when the action ran. Asynchronous
source code is modelled the same way, one action for each awaited effect. -/
inductive Prog (σ α : Type) where
  | pure : α → Prog σ α
  | throw : String → Prog σ α
  | atomic : (σ → σ) → (σ → Prog σ α) → Prog σ α

namespace Prog

variable {σ α β : Type}

def bind : Prog σ α → (α → Prog σ β) → Prog σ β
  | .pure value, next => next value
  | .throw error, _ => .throw error
  | .atomic act rest, next => .atomic act (fun s => (rest s).bind next)

instance : Monad (Prog σ) where
  pure := .pure
  bind := .bind

def read (view : σ → α) : Prog σ α := .atomic id (fun s => .pure (view s))

def write (act : σ → σ) : Prog σ Unit := .atomic act (fun _ => .pure ())

/-- `assert.ok(condition, message)`. -/
def require (condition : Bool) (message : String) : Prog σ Unit :=
  if condition then .pure () else .throw message

/-- The uninterrupted run in a world that does not drift. -/
def run : Prog σ α → σ → Except String α × σ
  | .pure value, s => (.ok value, s)
  | .throw error, s => (.error error, s)
  | .atomic act rest, s => (rest s).run (act s)

@[simp] theorem run_pure (value : α) (s : σ) :
    (Pure.pure value : Prog σ α).run s = (.ok value, s) := rfl

@[simp] theorem run_require (message : String) (s : σ) :
    (require true message : Prog σ Unit).run s = (.ok (), s) := rfl

theorem run_bind (program : Prog σ α) (next : α → Prog σ β) (s : σ) :
    (program >>= next).run s =
      match program.run s with
      | (.ok value, t) => (next value).run t
      | (.error e, t) => (.error e, t) := by
  change (program.bind next).run s = _
  induction program generalizing s with
  | pure value => rfl
  | throw error => rfl
  | atomic act rest ih => exact ih s (act s)

theorem run_then {program : Prog σ α} {next : α → Prog σ β} {s t : σ} {value : α}
    (h : program.run s = (.ok value, t)) : (program >>= next).run s = (next value).run t := by
  rw [run_bind, h]

theorem run_fails {program : Prog σ α} {next : α → Prog σ β} {s t : σ} {error : String}
    (h : program.run s = (.error error, t)) :
    (program >>= next).run s = (.error error, t) := by
  rw [run_bind, h]

@[simp] theorem run_throw (error : String) (s : σ) :
    (throw error : Prog σ α).run s = (.error error, s) := rfl

end Prog

inductive Outcome (α : Type) where
  | done : α → Outcome α
  | failed : String → Outcome α
  | killed : Outcome α

/-- `Exec env program s outcome t`: started in `s`, the process can end with
`outcome` in `t`. Rule `killed` applies before every action and at the end. -/
inductive Exec {σ α : Type} (env : σ → σ → Prop) :
    Prog σ α → σ → Outcome α → σ → Prop where
  | done {value s} : Exec env (.pure value) s (.done value) s
  | failed {error s} : Exec env (.throw error) s (.failed error) s
  | killed {program s} : Exec env program s .killed s
  | drift {program s t outcome u} :
      env s t → Exec env program t outcome u → Exec env program s outcome u
  | step {act rest s outcome u} :
      Exec env (rest s) (act s) outcome u → Exec env (.atomic act rest) s outcome u

section Run

variable {σ α : Type} (env : σ → σ → Prop)

theorem Exec.of_run_ok {program : Prog σ α} {s t : σ} {value : α}
    (h : program.run s = (.ok value, t)) : Exec env program s (.done value) t := by
  induction program generalizing s with
  | pure result =>
    simp only [Prog.run, Prod.mk.injEq, Except.ok.injEq] at h
    obtain ⟨rfl, rfl⟩ := h
    exact .done
  | throw error => simp [Prog.run] at h
  | atomic act rest ih => exact .step (ih s h)

theorem Exec.of_run_error {program : Prog σ α} {s t : σ} {error : String}
    (h : program.run s = (.error error, t)) : Exec env program s (.failed error) t := by
  induction program generalizing s with
  | pure result => simp [Prog.run] at h
  | throw found =>
    simp only [Prog.run, Prod.mk.injEq, Except.error.injEq] at h
    obtain ⟨rfl, rfl⟩ := h
    exact .failed
  | atomic act rest ih => exact .step (ih s h)

end Run

/-- The conditions every moment and every error of a run must satisfy. -/
structure Spec (σ : Type) where
  env : σ → σ → Prop
  safe : σ → Prop
  fails : String → σ → Prop

/-- Weakest precondition under drift: the world may move along `env` before
each action and before the process returns. -/
def Prog.wp {σ α : Type} (G : Spec σ) : Prog σ α → (α → σ → Prop) → σ → Prop
  | .pure value, Q, s => ∀ t, G.env s t → G.safe t ∧ Q value t
  | .throw error, _, s => ∀ t, G.env s t → G.safe t ∧ G.fails error t
  | .atomic act rest, Q, s => ∀ t, G.env s t → G.safe t ∧ (rest t).wp G Q (act t)

section Wp

variable {σ α β : Type} (G : Spec σ) [IsPreorder σ G.env]

variable {program : Prog σ α}

theorem wp_drift {Q : α → σ → Prop} {s t : σ}
    (h : program.wp G Q s) (hst : G.env s t) : program.wp G Q t := by
  cases program with
  | pure value => exact fun u htu => h u (IsTrans.trans _ _ _ hst htu)
  | throw error => exact fun u htu => h u (IsTrans.trans _ _ _ hst htu)
  | atomic act rest => exact fun u htu => h u (IsTrans.trans _ _ _ hst htu)

omit [IsPreorder σ G.env] in
theorem wp_safe [Std.Refl G.env] {Q : α → σ → Prop} {s : σ}
    (h : program.wp G Q s) : G.safe s := by
  cases program with
  | pure value => exact (h s (Std.Refl.refl s)).1
  | throw error => exact (h s (Std.Refl.refl s)).1
  | atomic act rest => exact (h s (Std.Refl.refl s)).1

omit [IsPreorder σ G.env] in
theorem wp_mono {Q R : α → σ → Prop} {s : σ}
    (h : program.wp G Q s) (hQR : ∀ value t, G.safe t → Q value t → R value t) :
    program.wp G R s := by
  induction program generalizing s with
  | pure value =>
    intro t hst
    exact ⟨(h t hst).1, hQR value t (h t hst).1 (h t hst).2⟩
  | throw error => exact h
  | atomic act rest ih =>
    intro t hst
    exact ⟨(h t hst).1, ih t (h t hst).2⟩

theorem wp_bind (program : Prog σ α) (next : α → Prog σ β)
    (Q : β → σ → Prop) (s : σ) :
    (program >>= next).wp G Q s ↔
      program.wp G (fun value t => (next value).wp G Q t) s := by
  change (program.bind next).wp G Q s ↔ _
  induction program generalizing s with
  | pure value =>
    constructor
    · intro h t hst
      have ht := wp_drift G h hst
      exact ⟨wp_safe G ht, ht⟩
    · intro h
      exact (h s (Std.Refl.refl s)).2
  | throw error => exact Iff.rfl
  | atomic act rest ih =>
    constructor
    · intro h t hst
      exact ⟨(h t hst).1, (ih t (act t)).mp (h t hst).2⟩
    · intro h t hst
      exact ⟨(h t hst).1, (ih t (act t)).mpr (h t hst).2⟩

theorem wp_seq {next : α → Prog σ β} {Q : β → σ → Prop}
    {R : α → σ → Prop} {s : σ} (hfirst : program.wp G R s)
    (hrest : ∀ value t, G.safe t → R value t → (next value).wp G Q t) :
    (program >>= next).wp G Q s :=
  (wp_bind G program next Q s).mpr (wp_mono G hfirst hrest)

end Wp

theorem Exec.sound {σ α : Type} (G : Spec σ) {program : Prog σ α}
    {Q : α → σ → Prop} {s t : σ} {outcome : Outcome α}
    [IsPreorder σ G.env] (hexec : Exec G.env program s outcome t)
    (h : program.wp G Q s) :
    G.safe t ∧ (∀ value, outcome = .done value → Q value t) ∧
      (∀ error, outcome = .failed error → G.fails error t) := by
  induction hexec with
  | @done value s =>
    refine ⟨(h s (Std.Refl.refl s)).1, ?_, nofun⟩
    intro found heq
    cases heq
    exact (h s (Std.Refl.refl s)).2
  | @failed error s =>
    refine ⟨(h s (Std.Refl.refl s)).1, nofun, ?_⟩
    intro found heq
    cases heq
    exact (h s (Std.Refl.refl s)).2
  | killed => exact ⟨wp_safe G h, nofun, nofun⟩
  | drift hst _ ih => exact ih (wp_drift G h hst)
  | @step act rest s _ _ _ ih => exact ih (h s (Std.Refl.refl s)).2

/-- Every call runs to an end: with errors excluded, an undisturbed run
returns a value. Programs are well-founded trees, so there is no third case. -/
theorem Prog.run_of_wp {σ α : Type} (G : Spec σ) [IsPreorder σ G.env]
    {program : Prog σ α} {Q : α → σ → Prop} {s : σ} (h : program.wp G Q s)
    (hfails : ∀ error t, ¬ G.fails error t) :
    ∃ value t, program.run s = (.ok value, t) ∧ G.safe t ∧ Q value t := by
  rcases hrun : program.run s with ⟨result, t⟩
  cases result with
  | ok value =>
    obtain ⟨hsafe, hdone, _⟩ := (Exec.of_run_ok G.env hrun).sound G h
    exact ⟨value, t, rfl, hsafe, hdone value rfl⟩
  | error e =>
    obtain ⟨_, _, hfailed⟩ := (Exec.of_run_error G.env hrun).sound G h
    exact absurd (hfailed e rfl) (hfails e t)

/-- A family of operations on one durable world. `restart` is what the death
of the process does to the world: it forgets the volatile part. -/
structure System (σ ι β : Type) where
  init : σ → Prop
  env : σ → σ → Prop
  call : ι → Prog σ β
  restart : σ → σ

namespace System

variable {σ ι β : Type} (S : System σ ι β)

/-- The worlds between two calls, over all sequences of calls that return,
fail or are killed at an arbitrary moment. -/
inductive Reachable : σ → Prop where
  | init {s} : S.init s → Reachable s
  | drift {s t} : Reachable s → S.env s t → Reachable t
  | returned {i s value t} :
      Reachable s → Exec S.env (S.call i) s (.done value) t → Reachable t
  | failed {i s error t} :
      Reachable s → Exec S.env (S.call i) s (.failed error) t → Reachable t
  | killed {i s t} :
      Reachable s → Exec S.env (S.call i) s .killed t → Reachable (S.restart t)

theorem Reachable.run {s : σ} (h : S.Reachable s) (i : ι) :
    S.Reachable ((S.call i).run s).2 := by
  rcases hrun : (S.call i).run s with ⟨result, t⟩
  cases result with
  | ok value => exact .returned h (Exec.of_run_ok S.env hrun)
  | error error => exact .failed h (Exec.of_run_error S.env hrun)

/-- Every moment of every run, in the middle of a call or between two. -/
def Visited (t : σ) : Prop :=
  S.Reachable t ∨ ∃ i s, S.Reachable s ∧ Exec S.env (S.call i) s .killed t

/-- A proof about all calls at once. `inv` holds between calls and `safe` at
every moment; `post` and `fails` relate the world a call started in to the
world it returned or threw in. -/
structure Contract where
  inv : σ → Prop
  safe : σ → Prop
  post : ι → σ → β → σ → Prop
  fails : ι → σ → String → σ → Prop
  of_init : ∀ s, S.init s → inv s
  of_drift : ∀ s t, inv s → S.env s t → inv t
  of_restart : ∀ s, safe s → inv (S.restart s)
  of_post : ∀ i s value t, post i s value t → inv t
  of_fails : ∀ i s error t, fails i s error t → inv t
  inv_safe : ∀ s, inv s → safe s
  call_wp : ∀ i s, inv s →
    (S.call i).wp ⟨S.env, safe, fails i s⟩ (post i s) s

namespace Contract

variable {S} [IsPreorder σ S.env] (K : S.Contract)
include K

theorem exec {i : ι} {s t : σ} {outcome : Outcome β} (hs : K.inv s)
    (h : Exec S.env (S.call i) s outcome t) :
    K.safe t ∧ (∀ value, outcome = .done value → K.post i s value t) ∧
      (∀ error, outcome = .failed error → K.fails i s error t) :=
  have : IsPreorder σ (Spec.mk S.env K.safe (K.fails i s)).env :=
    inferInstanceAs (IsPreorder σ S.env)
  Exec.sound ⟨S.env, K.safe, K.fails i s⟩ h (K.call_wp i s hs)

theorem reachable {s : σ} (h : S.Reachable s) : K.inv s := by
  induction h with
  | init h => exact K.of_init _ h
  | drift _ h ih => exact K.of_drift _ _ ih h
  | returned _ h ih => exact K.of_post _ _ _ _ ((K.exec ih h).2.1 _ rfl)
  | failed _ h ih => exact K.of_fails _ _ _ _ ((K.exec ih h).2.2 _ rfl)
  | killed _ h ih => exact K.of_restart _ (K.exec ih h).1

theorem visited {t : σ} (h : S.Visited t) : K.safe t := by
  rcases h with hreach | ⟨i, s, hs, hexec⟩
  · exact K.inv_safe t (K.reachable hreach)
  · exact (K.exec (K.reachable hs) hexec).1

theorem returned {i : ι} {s t : σ} {value : β} (hs : S.Reachable s)
    (h : Exec S.env (S.call i) s (.done value) t) : K.post i s value t :=
  (K.exec (K.reachable hs) h).2.1 value rfl

theorem failed {i : ι} {s t : σ} {error : String} (hs : S.Reachable s)
    (h : Exec S.env (S.call i) s (.failed error) t) : K.fails i s error t :=
  (K.exec (K.reachable hs) h).2.2 error rfl

end Contract

end System

end Meshpn.Lib
