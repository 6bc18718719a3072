import Meshpn.Lib.Process

/-!
Proof outlines under interference. The environment moves the world between any two
actions, so an assertion is of use only when the environment cannot break it. A triple
keeps one invariant at every moment, also where the program throws; its assertions speak
about what lies between two actions.

The runs here are those whose calls start as a condition says.
-/

namespace Meshpn.Lib

/-- The environment cannot break the assertion. -/
def Stable {σ : Type} (env : σ → σ → Prop) (P : σ → Prop) : Prop :=
  ∀ s t, env s t → P s → P t

section Stable

variable {σ : Type} {env : σ → σ → Prop} {P Q : σ → Prop}

theorem Stable.const (p : Prop) : Stable env (fun _ => p) := fun _ _ _ h => h

theorem Stable.and (hP : Stable env P) (hQ : Stable env Q) :
    Stable env (fun s => P s ∧ Q s) :=
  fun s t hst h => ⟨hP s t hst h.1, hQ s t hst h.2⟩

end Stable

/-- The invariant holds at every moment, from `P` on, and `Q` at the end. -/
def Triple {σ α : Type} (env : σ → σ → Prop) (inv P : σ → Prop) (program : Prog σ α)
    (Q : α → σ → Prop) : Prop :=
  ∀ s, inv s → P s → program.wp ⟨env, inv, fun _ => inv⟩ Q s

section Rules

variable {σ α β : Type} {env : σ → σ → Prop} {inv P : σ → Prop}

variable {Q : α → σ → Prop} {program : Prog σ α}

theorem Triple.ret {value : α} (hinv : Stable env inv) (hP : Stable env P)
    (h : ∀ s, inv s → P s → Q value s) : Triple env inv P (pure value) Q := by
  intro s hs hp t hst
  exact ⟨hinv s t hst hs, h t (hinv s t hst hs) (hP s t hst hp)⟩

theorem Triple.throw {error : String} (hinv : Stable env inv) :
    Triple env inv P (Prog.throw error) Q := by
  intro s hs _ t hst
  exact ⟨hinv s t hst hs, hinv s t hst hs⟩

theorem Triple.atomic {act : σ → σ} {rest : σ → Prog σ α}
    (hinv : Stable env inv) (hP : Stable env P)
    (h : ∀ s, inv s → P s → (rest s).wp ⟨env, inv, fun _ => inv⟩ Q (act s)) :
    Triple env inv P (.atomic act rest) Q := by
  intro s hs hp t hst
  exact ⟨hinv s t hst hs, h t (hinv s t hst hs) (hP s t hst hp)⟩

theorem Triple.read {view : σ → α} (hinv : Stable env inv)
    (hP : Stable env P) (hQ : ∀ value, Stable env (Q value))
    (h : ∀ s, inv s → P s → Q (view s) s) : Triple env inv P (Prog.read view) Q := by
  refine .atomic hinv hP (fun s hs hp t hst => ?_)
  exact ⟨hinv s t hst hs, hQ _ s t hst (h s hs hp)⟩

theorem Triple.require {condition : Bool} {message : String} (hinv : Stable env inv)
    (hP : Stable env P) :
    Triple env inv P (Prog.require condition message) (fun _ s => condition = true ∧ P s) := by
  cases condition with
  | true => exact .ret hinv hP (fun _ _ hp => ⟨rfl, hp⟩)
  | false => exact .throw hinv

theorem Triple.conseq {P' : σ → Prop} {Q Q' : α → σ → Prop}
    (h : Triple env inv P program Q) (hP : ∀ s, inv s → P' s → P s)
    (hQ : ∀ value s, inv s → Q value s → Q' value s) : Triple env inv P' program Q' := by
  intro s hs hp
  exact wp_mono _ (h s hs (hP s hs hp)) hQ

theorem Triple.given {p : Prop}
    (h : p → Triple env inv P program Q) :
    Triple env inv (fun s => p ∧ P s) program Q :=
  fun s hs hp => h hp.1 s hs hp.2

variable [IsPreorder σ env]

theorem Triple.bind {next : α → Prog σ β} {R : α → σ → Prop}
    {Q : β → σ → Prop} (hfirst : Triple env inv P program R)
    (hnext : ∀ value, Triple env inv (R value) (next value) Q) :
    Triple env inv P (program >>= next) Q := by
  intro s hs hp
  exact wp_seq _ (hfirst s hs hp) (fun value t ht hr => hnext value t ht hr)

theorem Triple.require_then {condition : Bool} {message : String} {next : Unit → Prog σ β}
    {Q : β → σ → Prop} (hinv : Stable env inv) (hP : Stable env P)
    (h : condition = true → Triple env inv P (next ()) Q) :
    Triple env inv P (Prog.require condition message >>= next) Q :=
  (Triple.require hinv hP).bind (fun _ => .given h)

theorem Triple.exec {s t : σ} {outcome : Outcome α}
    (h : Triple env inv P program Q) (hs : inv s) (hp : P s)
    (hexec : Exec env program s outcome t) :
    inv t ∧ ∀ value, outcome = .done value → Q value t := by
  obtain ⟨hsafe, hdone, _⟩ := Exec.sound ⟨env, inv, fun _ => inv⟩ hexec (h s hs hp)
  exact ⟨hsafe, hdone⟩

end Rules

namespace System

variable {σ ι β : Type} (S : System σ ι β) (may : ι → σ → Prop)

/-- The worlds between two calls, over the sequences whose calls start as `may` says. -/
inductive ReachableIf : σ → Prop where
  | init {s} : S.init s → ReachableIf s
  | drift {s t} : ReachableIf s → S.env s t → ReachableIf t
  | returned {i s value t} : ReachableIf s → may i s →
      Exec S.env (S.call i) s (.done value) t → ReachableIf t
  | failed {i s error t} : ReachableIf s → may i s →
      Exec S.env (S.call i) s (.failed error) t → ReachableIf t
  | killed {i s t} : ReachableIf s → may i s →
      Exec S.env (S.call i) s .killed t → ReachableIf (S.restart t)

theorem ReachableIf.run {S : System σ ι β} {may : ι → σ → Prop} {s : σ}
    (h : S.ReachableIf may s) (i : ι) (hmay : may i s) :
    S.ReachableIf may ((S.call i).run s).2 := by
  rcases hrun : (S.call i).run s with ⟨result, t⟩
  cases result with
  | ok value => exact .returned h hmay (Exec.of_run_ok S.env hrun)
  | error error => exact .failed h hmay (Exec.of_run_error S.env hrun)

/-- Every moment of these runs. -/
def VisitedIf (t : σ) : Prop :=
  S.ReachableIf may t ∨
    ∃ i s, S.ReachableIf may s ∧ may i s ∧ Exec S.env (S.call i) s .killed t

/-- What keeps an invariant over these runs: one triple for each call. -/
structure Keeps (inv : σ → Prop) (post : ι → β → σ → Prop) : Prop where
  init : ∀ s, S.init s → inv s
  stable : Stable S.env inv
  restart : ∀ s, inv s → inv (S.restart s)
  call : ∀ i, Triple S.env inv (may i) (S.call i) (post i)

namespace Keeps

variable {S may} {inv : σ → Prop} {post : ι → β → σ → Prop} [IsPreorder σ S.env]
  (K : S.Keeps may inv post)
include K

theorem reachable {s : σ} (h : S.ReachableIf may s) : inv s := by
  induction h with
  | init h => exact K.init _ h
  | drift _ h ih => exact K.stable _ _ h ih
  | @returned i _ _ _ _ hmay h ih => exact ((K.call i).exec ih hmay h).1
  | @failed i _ _ _ _ hmay h ih => exact ((K.call i).exec ih hmay h).1
  | @killed i _ _ _ hmay h ih => exact K.restart _ ((K.call i).exec ih hmay h).1

theorem visited {t : σ} (h : S.VisitedIf may t) : inv t := by
  rcases h with hreach | ⟨i, s, hs, hmay, hexec⟩
  · exact K.reachable hreach
  · exact ((K.call i).exec (K.reachable hs) hmay hexec).1

theorem returned {i : ι} {s t : σ} {value : β} (hs : S.ReachableIf may s) (hmay : may i s)
    (h : Exec S.env (S.call i) s (.done value) t) : post i value t :=
  ((K.call i).exec (K.reachable hs) hmay h).2 value rfl

end Keeps

end System

end Meshpn.Lib
