import Meshpn.Lib.Process

/-!
Worlds with an ambient part. The program alone changes the core (a journal
and the settings it owns); the rest is read from outside and may be anything
allowed at each moment: the answer of an authority, the port of a service, the
outcome of a probe. Obligations are then about the core only, and what is
assumed of the surroundings is one predicate.
-/

namespace Meshpn.Lib

structure Ambient (κ ω : Type) where
  core : κ
  around : ω

/-- Everything around the core may have changed, within what is allowed. -/
def sameCore {κ ω : Type} (allowed : ω → Prop) (s t : Ambient κ ω) : Prop :=
  s.core = t.core ∧ (allowed s.around → allowed t.around)

instance {κ ω : Type} (allowed : ω → Prop) : IsPreorder (Ambient κ ω) (sameCore allowed) where
  refl _ := ⟨rfl, id⟩
  trans _ _ _ hst htu := ⟨hst.1.trans htu.1, htu.2 ∘ hst.2⟩

namespace Prog

variable {κ ω α β : Type}

/-- Read the core or the surroundings. -/
def ask (view : κ → ω → α) : Prog (Ambient κ ω) α := .read (fun s => view s.core s.around)

/-- Change the core; the new core may depend on what is outside right now. -/
def alter (act : κ → ω → κ) : Prog (Ambient κ ω) Unit :=
  .write (fun s => { s with core := act s.core s.around })

/-- A command with an answer: it may change the core and reports how it went. -/
def perform (act : κ → ω → κ × α) : Prog (Ambient κ ω) α :=
  .atomic (fun s => { s with core := (act s.core s.around).1 })
    (fun s => .pure (act s.core s.around).2)

@[simp] theorem run_ask (view : κ → ω → α) (s : Ambient κ ω) :
    (ask view).run s = (.ok (view s.core s.around), s) := rfl

@[simp] theorem run_alter (act : κ → ω → κ) (s : Ambient κ ω) :
    (alter act).run s = (.ok (), { s with core := act s.core s.around }) := rfl

@[simp] theorem run_perform (act : κ → ω → κ × α) (s : Ambient κ ω) :
    (perform act).run s =
      (.ok (act s.core s.around).2, { s with core := (act s.core s.around).1 }) := rfl

end Prog

/-- What is assumed of the surroundings, and the obligations on the core at
every moment and at every error. -/
structure CoreSpec (κ ω : Type) where
  allowed : ω → Prop
  safe : κ → Prop
  fails : String → κ → Prop

def CoreSpec.spec {κ ω : Type} (G : CoreSpec κ ω) : Spec (Ambient κ ω) where
  env := sameCore G.allowed
  safe s := G.allowed s.around ∧ G.safe s.core
  fails e s := G.allowed s.around ∧ G.fails e s.core

/-- Weakest precondition on the core, whatever allowed surroundings it has. -/
def Prog.cwp {κ ω α : Type} (G : CoreSpec κ ω) (program : Prog (Ambient κ ω) α)
    (Q : α → κ → Prop) (c : κ) : Prop :=
  ∀ w, G.allowed w →
    program.wp G.spec (fun value s => G.allowed s.around ∧ Q value s.core) ⟨c, w⟩

section Rules

variable {κ ω α β : Type} (G : CoreSpec κ ω)

instance : IsPreorder (Ambient κ ω) G.spec.env :=
  inferInstanceAs (IsPreorder (Ambient κ ω) (sameCore G.allowed))

variable {Q : β → κ → Prop} {c : κ} {next : α → Prog (Ambient κ ω) β}
  {program : Prog (Ambient κ ω) α} {message : String} {condition : Bool}

theorem cwp_pure {value : α} {Q : α → κ → Prop} (hsafe : G.safe c)
    (hQ : Q value c) : (pure value : Prog (Ambient κ ω) α).cwp G Q c := by
  rintro w hw ⟨d, v⟩ ⟨rfl : c = d, hv⟩
  exact ⟨⟨hv hw, hsafe⟩, hv hw, hQ⟩

theorem cwp_throw {error : String} {Q : α → κ → Prop} (hsafe : G.safe c)
    (hfails : G.fails error c) : (Prog.throw error : Prog (Ambient κ ω) α).cwp G Q c := by
  rintro w hw ⟨d, v⟩ ⟨rfl : c = d, hv⟩
  exact ⟨⟨hv hw, hsafe⟩, hv hw, hfails⟩

theorem cwp_ask {view : κ → ω → α} {Q : α → κ → Prop} (hsafe : G.safe c)
    (hQ : ∀ w, G.allowed w → Q (view c w) c) : (Prog.ask view).cwp G Q c := by
  rintro w hw ⟨d, v⟩ ⟨rfl : c = d, hv⟩
  refine ⟨⟨hv hw, hsafe⟩, ?_⟩
  rintro ⟨e, u⟩ ⟨rfl : c = e, hu⟩
  exact ⟨⟨hu (hv hw), hsafe⟩, hu (hv hw), hQ v (hv hw)⟩

theorem cwp_alter {act : κ → ω → κ} {Q : Unit → κ → Prop} (hsafe : G.safe c)
    (hact : ∀ w, G.allowed w → G.safe (act c w) ∧ Q () (act c w)) :
    (Prog.alter act).cwp G Q c := by
  rintro w hw ⟨d, v⟩ ⟨rfl : c = d, hv⟩
  refine ⟨⟨hv hw, hsafe⟩, ?_⟩
  rintro ⟨e, u⟩ ⟨rfl : act c v = e, hu⟩
  exact ⟨⟨hu (hv hw), (hact v (hv hw)).1⟩, hu (hv hw), (hact v (hv hw)).2⟩

theorem cwp_perform {act : κ → ω → κ × α} {Q : α → κ → Prop} (hsafe : G.safe c)
    (hact : ∀ w, G.allowed w → G.safe (act c w).1 ∧ Q (act c w).2 (act c w).1) :
    (Prog.perform act).cwp G Q c := by
  rintro w hw ⟨d, v⟩ ⟨rfl : c = d, hv⟩
  refine ⟨⟨hv hw, hsafe⟩, ?_⟩
  rintro ⟨e, u⟩ ⟨rfl : (act c v).1 = e, hu⟩
  exact ⟨⟨hu (hv hw), (hact v (hv hw)).1⟩, hu (hv hw), (hact v (hv hw)).2⟩

theorem cwp_require {Q : Unit → κ → Prop}
    (hsafe : G.safe c) (hfails : condition = false → G.fails message c)
    (hQ : condition = true → Q () c) :
    (Prog.require condition message : Prog (Ambient κ ω) Unit).cwp G Q c := by
  cases condition with
  | false => exact cwp_throw G hsafe (hfails rfl)
  | true => exact cwp_pure G hsafe (hQ rfl)

theorem cwp_mono {Q R : α → κ → Prop}
    (h : program.cwp G Q c) (hQR : ∀ value d, G.safe d → Q value d → R value d) :
    program.cwp G R c := by
  intro w hw
  exact wp_mono G.spec (h w hw)
    (fun value s hsafe hq => ⟨hq.1, hQR value s.core hsafe.2 hq.2⟩)

theorem cwp_seq {R : α → κ → Prop} (hfirst : program.cwp G R c)
    (hrest : ∀ value d, G.safe d → R value d → (next value).cwp G Q d) :
    (program >>= next).cwp G Q c := by
  intro w hw
  refine wp_seq G.spec (hfirst w hw) ?_
  intro value s hsafe hr
  exact hrest value s.core hsafe.2 hr.2 s.around hr.1

theorem cwp_ask_then {view : κ → ω → α} (hsafe : G.safe c)
    (h : ∀ w, G.allowed w → (next (view c w)).cwp G Q c) :
    (Prog.ask view >>= next).cwp G Q c := by
  refine cwp_seq G (R := fun value d => d = c ∧ ∃ w, G.allowed w ∧ value = view c w)
    (cwp_ask G hsafe (fun w hw => ⟨rfl, w, hw, rfl⟩)) ?_
  rintro value d _ ⟨rfl, w, hw, rfl⟩
  exact h w hw

theorem cwp_require_then
    {next : Unit → Prog (Ambient κ ω) β} (hsafe : G.safe c)
    (hfails : condition = false → G.fails message c)
    (h : condition = true → (next ()).cwp G Q c) :
    (Prog.require condition message >>= next).cwp G Q c := by
  refine cwp_seq G (R := fun _ d => d = c ∧ condition = true)
    (cwp_require G hsafe hfails (fun htrue => ⟨rfl, htrue⟩)) ?_
  rintro _ d _ ⟨rfl, htrue⟩
  exact h htrue

theorem cwp_holds {Q : Unit → κ → Prop}
    (hsafe : G.safe c) (hcondition : condition = true) (hQ : Q () c) :
    (Prog.require condition message : Prog (Ambient κ ω) Unit).cwp G Q c :=
  cwp_require G hsafe (fun hfalse => absurd hcondition (by simp [hfalse])) (fun _ => hQ)

theorem cwp_holds_then
    {next : Unit → Prog (Ambient κ ω) β} (hsafe : G.safe c)
    (hcondition : condition = true) (h : (next ()).cwp G Q c) :
    (Prog.require condition message >>= next).cwp G Q c :=
  cwp_require_then G hsafe (fun hfalse => absurd hcondition (by simp [hfalse])) (fun _ => h)

theorem cwp_alter_then {act : κ → ω → κ} {next : Unit → Prog (Ambient κ ω) β} (hsafe : G.safe c)
    (h : ∀ w, G.allowed w → (next ()).cwp G Q (act c w)) :
    (Prog.alter act >>= next).cwp G Q c := by
  refine cwp_seq G (R := fun _ d => ∃ w, G.allowed w ∧ d = act c w)
    (cwp_alter G hsafe (fun w hw => ⟨?_, w, hw, rfl⟩)) ?_
  · exact (wp_safe G.spec (h w hw w hw)).2
  · rintro _ d _ ⟨w, hw, rfl⟩
    exact h w hw

theorem cwp_perform_then {act : κ → ω → κ × α} (hsafe : G.safe c)
    (h : ∀ w, G.allowed w → (next (act c w).2).cwp G Q (act c w).1) :
    (Prog.perform act >>= next).cwp G Q c := by
  refine cwp_seq G (R := fun value d => ∃ w, G.allowed w ∧ (d, value) = act c w)
    (cwp_perform G hsafe (fun w hw => ⟨?_, w, hw, rfl⟩)) ?_
  · exact (wp_safe G.spec (h w hw w hw)).2
  · rintro value d _ ⟨w, hw, heq⟩
    have hrest := h w hw
    rw [← heq] at hrest
    exact hrest

/-- The program leaves the core as it found it and returns a value in `R`. -/
abbrev Prog.Reads (program : Prog (Ambient κ ω) α) (c : κ) (R : α → Prop) : Prop :=
  program.cwp G (fun value d => d = c ∧ R value) c

variable {G} in
theorem Prog.Reads.then {R : α → Prop} (h : program.Reads G c R)
    (hrest : ∀ value, R value → (next value).cwp G Q c) : (program >>= next).cwp G Q c := by
  refine cwp_seq G h ?_
  rintro value d _ ⟨rfl, hvalue⟩
  exact hrest value hvalue

end Rules

section Systems

variable {κ ω ι β : Type}

/-- Operations on a core in arbitrary allowed surroundings. -/
def coreSystem (allowed : ω → Prop) (init : κ → Prop) (call : ι → Prog (Ambient κ ω) β)
    (restart : κ → κ) : System (Ambient κ ω) ι β where
  init s := allowed s.around ∧ init s.core
  env := sameCore allowed
  call := call
  restart s := { s with core := restart s.core }

/-- A contract from obligations on the core. -/
def coreContract {allowed : ω → Prop} {init : κ → Prop} {call : ι → Prog (Ambient κ ω) β}
    {restart : κ → κ} (inv safe : κ → Prop) (post : ι → κ → β → κ → Prop)
    (fails : ι → κ → String → κ → Prop)
    (of_init : ∀ c, init c → inv c) (of_restart : ∀ c, safe c → inv (restart c))
    (of_post : ∀ i c value d, post i c value d → inv d)
    (of_fails : ∀ i c error d, fails i c error d → inv d)
    (inv_safe : ∀ c, inv c → safe c)
    (call_cwp : ∀ i c, inv c → (call i).cwp ⟨allowed, safe, fails i c⟩ (post i c) c) :
    (coreSystem allowed init call restart).Contract where
  inv s := allowed s.around ∧ inv s.core
  safe s := allowed s.around ∧ safe s.core
  post i s value t := allowed t.around ∧ post i s.core value t.core
  fails i s error t := allowed t.around ∧ fails i s.core error t.core
  of_init s h := ⟨h.1, of_init s.core h.2⟩
  of_drift s t hs hst := by
    obtain ⟨hcore, hallowed⟩ : s.core = t.core ∧ _ := hst
    exact ⟨hallowed hs.1, hcore ▸ hs.2⟩
  of_restart s h := ⟨h.1, of_restart s.core h.2⟩
  of_post i s value t h := ⟨h.1, of_post i s.core value t.core h.2⟩
  of_fails i s error t h := ⟨h.1, of_fails i s.core error t.core h.2⟩
  inv_safe s h := ⟨h.1, inv_safe s.core h.2⟩
  call_wp i s hs := call_cwp i s.core hs.2 s.around hs.1

end Systems

theorem Prog.run_of_cwp {κ ω α : Type} (G : CoreSpec κ ω) {program : Prog (Ambient κ ω) α}
    {Q : α → κ → Prop} {c : κ} {w : ω} (h : program.cwp G Q c) (hw : G.allowed w)
    (hfails : ∀ error d, ¬ G.fails error d) :
    ∃ value t, program.run ⟨c, w⟩ = (.ok value, t) ∧ Q value t.core := by
  obtain ⟨value, t, hrun, _, hq⟩ :=
    Prog.run_of_wp G.spec (h w hw) (fun error s hf => hfails error s.core hf.2)
  exact ⟨value, t, hrun, hq.2⟩

end Meshpn.Lib
