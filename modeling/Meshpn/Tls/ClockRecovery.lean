import Meshpn.Tls.BearerToken

/-!
Setting the clock from the Date of a rejected response, `createHttpDateRecovery`.
A request keeps both clocks and the certificate of its socket; its response is
used once, and passes a row of checks before the clock is set, which happens
once in a process.

Objects are numbered: a certificate by its place among the presented objects, a request by
the order of the `begin` calls. Readings of the clocks come with the events.

When the clock is set. Every call of the setter has passed the checks, and
the first one is the last. The walk over the certificates ends with a set that is closed
under issuers, so all of the chain is valid for the whole span of times.

The windows are compared with those from the Date up to the Date and the
delay behind it. The exit has evaluated the token up to that delay before the Date,
and a window boundary there is not looked at: a client whose window lies in
that gap has its clock set although its token may have been accepted.
-/

namespace Meshpn.Tls.ClockRecovery

open Meshpn.Lib

def dateMaxRttMs : ℚ := 5000

inductive Reason where
  | responseAlreadyUsed
  | verifiedNativeTlsRequired
  | staleResponse
  | missingInvalidOrCachedDate
  | withinBearerWindow
  | clockChangedDuringRequest
  | invalidCertificateChain
  | dateOutsideCertificateValidity
  | attemptAlreadyUsed
  | setFailed
  | updated
deriving DecidableEq, Repr

namespace Reason

end Reason

/-- A peer certificate; a date that does not parse is absent. -/
structure Certificate where
  raw : Bool
  validFrom : Option Int
  validTo : Option Int
  issuerCertificate : Option Nat
deriving DecidableEq, Repr

/-- What `begin` reads from its socket. A certificate that is missing or throws is absent. -/
structure Socket where
  encrypted : Bool
  authorized : Bool
  authorizationError : Bool
  peerCertificate : Option Nat
deriving DecidableEq, Repr

/-- What the closure of a `begin` call holds. -/
structure Request where
  sentWall : ℚ
  started : ℚ
  trusted : Bool
  certificate : Option Nat
  consumed : Bool

/-- The headers of a response and the readings that follow: the monotonic clock, the wall clock
before the attempt, whether the setter throws, and the wall clock behind it. -/
structure Response (Header : Type) where
  date : Header
  age : Bool
  mono : ℚ
  wall : ℚ
  setterThrows : Bool
  wallAfter : ℚ

/-- A call of `setClock`, with what was known then. -/
structure SetCall where
  serverMs : Int
  elapsed : ℚ
  sentWall : ℚ
  certificate : Nat
deriving DecidableEq

structure Recovery where
  attempted : Bool
  requests : List Request
  calls : List SetCall

namespace Recovery

def initial : Recovery := ⟨false, [], []⟩

end Recovery

inductive Event (Header : Type) where
  | begin (socket : Socket) (wall mono : ℚ)
  | response (request : Nat) (response : Response Header)

section Steps

variable {Header : Type} (parseHttpDate : Header → Option Int) (windowMs : Nat)
  (certs : Nat → Certificate)

/-- `begin`. -/
def beginRequest (socket : Socket) (wall mono : ℚ) : Request :=
  let trusted := socket.encrypted && socket.authorized && !socket.authorizationError
  { sentWall := wall
    started := mono
    trusted
    certificate := if trusted then socket.peerCertificate else none
    consumed := false }

/-- The loop over the chain, with the certificates seen so far. -/
def checkChain (serverMs : Int) (elapsed : ℚ) : Nat → List Nat → Option Nat → Except Reason Unit
  | 0, _, _ => .error .invalidCertificateChain
  | fuel + 1, seen, cert =>
    match cert with
    | none => .ok ()
    | some cert =>
      if cert ∈ seen then .ok ()
      else if 16 ≤ seen.length then .error .invalidCertificateChain
      else
        match (certs cert).validFrom, (certs cert).validTo with
        | some validFrom, some validTo =>
          if serverMs < validFrom ∨ validTo < serverMs + 999 + elapsed then
            .error .dateOutsideCertificateValidity
          else
            checkChain serverMs elapsed fuel (cert :: seen) (certs cert).issuerCertificate
        | _, _ => .error .dateOutsideCertificateValidity

/-- The checks of a response up to the attempt, and what the attempt needs from them. -/
def checkResponse (request : Request) (response : Response Header) : Except Reason SetCall :=
  match request.trusted, request.certificate with
  | true, some certificate =>
    if !(certs certificate).raw then .error .verifiedNativeTlsRequired
    else
      let elapsed := response.mono - request.started
      if elapsed < 0 ∨ dateMaxRttMs < elapsed then .error .staleResponse
      else
        match parseHttpDate response.date, response.age with
        | some serverMs, false =>
          let first := window windowMs serverMs
          let last := window windowMs (serverMs + 999 + elapsed)
          let client := window windowMs request.sentWall
          if first - 1 ≤ client ∧ client ≤ last + 1 then .error .withinBearerWindow
          else if 2000 < |response.wall - (request.sentWall + elapsed)| then
            .error .clockChangedDuringRequest
          else do
            checkChain certs serverMs elapsed 17 [] (some certificate)
            .ok ⟨serverMs, elapsed, request.sentWall, certificate⟩
        | _, _ => .error .missingInvalidOrCachedDate
  | _, _ => .error .verifiedNativeTlsRequired

/-- The closure of a request, on its response. -/
def respond (s : Recovery) (i : Nat) (response : Response Header) : Recovery × Option Reason :=
  match s.requests[i]? with
  | none => (s, none)
  | some request =>
    if request.consumed then (s, some .responseAlreadyUsed)
    else
      let s := { s with requests := s.requests.set i { request with consumed := true } }
      match checkResponse parseHttpDate windowMs certs request response with
      | .error reason => (s, some reason)
      | .ok call =>
        if s.attempted then (s, some .attemptAlreadyUsed)
        else
          let s := { s with attempted := true, calls := s.calls ++ [call] }
          if response.setterThrows ∨ 5000 < |response.wallAfter - call.serverMs| then
            (s, some .setFailed)
          else (s, some .updated)

def step (s : Recovery) : Event Header → Recovery
  | .begin socket wall mono => { s with requests := s.requests ++ [beginRequest socket wall mono] }
  | .response i response => (respond parseHttpDate windowMs certs s i response).1

/-- A process from its start. -/
def run (events : List (Event Header)) : Recovery :=
  events.foldl (step parseHttpDate windowMs certs) .initial

end Steps

open Meshpn.Lib.Windows

section Chain

variable {certs : Nat → Certificate} {serverMs : Int} {elapsed : ℚ}

/-- The certificate is valid from the Date up to the Date and the delay. -/
def ValidFor (certificate : Certificate) (serverMs : Int) (elapsed : ℚ) : Prop :=
  ∃ validFrom validTo, certificate.validFrom = some validFrom ∧
    certificate.validTo = some validTo ∧ validFrom ≤ serverMs ∧
    serverMs + 999 + elapsed ≤ validTo

/-- The presented chain, from the leaf over the issuers. -/
inductive Presented (certs : Nat → Certificate) (leaf : Nat) : Nat → Prop where
  | leaf : Presented certs leaf leaf
  | issuer {cert next : Nat} (h : Presented certs leaf cert)
      (hnext : (certs cert).issuerCertificate = some next) : Presented certs leaf next

/-- What a finished walk has seen: few certificates, each seen before or valid and followed by
its issuer. -/
structure Walked (certs : Nat → Certificate) (serverMs : Int) (elapsed : ℚ) (before : List Nat)
    (start : Option Nat) (seen : List Nat) : Prop where
  few : seen.length ≤ 16
  kept : before ⊆ seen
  started : ∀ cert ∈ start, cert ∈ seen
  valid : ∀ cert ∈ seen, cert ∈ before ∨
    ValidFor (certs cert) serverMs elapsed ∧
      ∀ next ∈ (certs cert).issuerCertificate, next ∈ seen

theorem walked_stop {before : List Nat} {start : Option Nat} (hfew : before.length ≤ 16)
    (hstart : ∀ cert ∈ start, cert ∈ before) :
    ∃ seen, Walked certs serverMs elapsed before start seen :=
  ⟨before, hfew, List.Subset.refl _, hstart, fun _ hcert => .inl hcert⟩

theorem checkChain_walked {fuel : Nat} {before : List Nat} {start : Option Nat}
    (hfew : before.length ≤ 16)
    (hok : checkChain certs serverMs elapsed fuel before start = .ok ()) :
    ∃ seen, Walked certs serverMs elapsed before start seen := by
  induction fuel generalizing before start with
  | zero => cases hok
  | succ fuel ih =>
    rcases start with _ | cert
    · exact walked_stop hfew (fun _ hcert => by cases hcert)
    rw [checkChain] at hok
    split at hok
    case isTrue hseen =>
      exact walked_stop hfew (fun other hother => Option.mem_some.mp hother ▸ hseen)
    split at hok
    case isTrue => cases hok
    case isFalse hroom =>
    rcases hfrom : (certs cert).validFrom with _ | validFrom
    · simp [hfrom] at hok
    rcases hto : (certs cert).validTo with _ | validTo
    · simp [hfrom, hto] at hok
    simp only [hfrom, hto] at hok
    split at hok
    case isTrue => cases hok
    case isFalse hspan =>
    rw [not_or, not_lt, not_lt] at hspan
    have hcert : ValidFor (certs cert) serverMs elapsed :=
      ⟨validFrom, validTo, hfrom, hto, hspan.1, hspan.2⟩
    obtain ⟨seen, hwalked⟩ := ih
      (show (cert :: before).length ≤ 16 from Nat.lt_of_not_ge hroom) hok
    refine ⟨seen, hwalked.few, fun _ h => hwalked.kept (List.mem_cons_of_mem _ h), ?_, ?_⟩
    · intro other hother
      exact Option.mem_some.mp hother ▸ hwalked.kept List.mem_cons_self
    · intro other hother
      rcases hwalked.valid other hother with hbefore | hvalid
      · rcases List.mem_cons.mp hbefore with rfl | hbefore
        · exact .inr ⟨hcert, hwalked.started⟩
        · exact .inl hbefore
      · exact .inr hvalid

theorem presented_valid {leaf : Nat}
    (hok : checkChain certs serverMs elapsed 17 [] (some leaf) = .ok ()) :
    ∃ seen : List Nat, seen.length ≤ 16 ∧ ∀ cert, Presented certs leaf cert →
      cert ∈ seen ∧ ValidFor (certs cert) serverMs elapsed := by
  obtain ⟨seen, hwalked⟩ := checkChain_walked
    (show ([] : List Nat).length ≤ 16 from Nat.zero_le 16) hok
  have hvalid : ∀ cert ∈ seen, ValidFor (certs cert) serverMs elapsed ∧
      ∀ next ∈ (certs cert).issuerCertificate, next ∈ seen := fun cert hcert =>
    (hwalked.valid cert hcert).resolve_left List.not_mem_nil
  have hseen : ∀ cert, Presented certs leaf cert → cert ∈ seen := by
    intro cert hcert
    induction hcert with
    | leaf => exact hwalked.started leaf rfl
    | issuer _ hnext ih => exact (hvalid _ ih).2 _ hnext
  exact ⟨seen, hwalked.few, fun cert hcert => ⟨hseen cert hcert, (hvalid cert (hseen cert hcert)).1⟩⟩

end Chain

section Calls

variable {Header : Type} {parseHttpDate : Header → Option Int} {windowMs : Nat}
  {certs : Nat → Certificate}

/-- The window of the client's token. -/
def clientWindow (windowMs : Nat) (call : SetCall) : Int := window windowMs call.sentWall

/-- What the checks guarantee of a call. -/
structure Checked (windowMs : Nat) (certs : Nat → Certificate) (call : SetCall) : Prop where
  elapsed_nonneg : 0 ≤ call.elapsed
  outside : ¬ (window windowMs call.serverMs - 1 ≤ clientWindow windowMs call ∧
    clientWindow windowMs call ≤ window windowMs (call.serverMs + 999 + call.elapsed) + 1)
  chain : checkChain certs call.serverMs call.elapsed 17 [] (some call.certificate) = .ok ()

theorem checkResponse_checked {request : Request} {response : Response Header} {call : SetCall}
    (hok : checkResponse parseHttpDate windowMs certs request response = .ok call) :
    Checked windowMs certs call := by
  rw [checkResponse] at hok
  split at hok
  case h_2 => cases hok
  case h_1 certificate _ _ =>
  split at hok
  case isTrue => cases hok
  simp only at hok
  split at hok
  case isTrue => cases hok
  case isFalse helapsed =>
  split at hok
  case h_2 => cases hok
  case h_1 serverMs _ _ =>
  split at hok
  case isTrue => cases hok
  case isFalse houtside =>
  split at hok
  case isTrue => cases hok
  cases hchain : checkChain certs serverMs (response.mono - request.started) 17 []
      (some certificate) with
  | error reason =>
    rw [hchain] at hok
    cases hok
  | ok done =>
    rw [hchain] at hok
    cases hok
    exact ⟨not_lt.mp (not_or.mp helapsed).1, houtside, hchain⟩

/-- The setter was called at most once, only after the attempt was taken, and with everything
checked. -/
structure Sound (windowMs : Nat) (certs : Nat → Certificate) (s : Recovery) : Prop where
  once : s.calls.length ≤ 1
  unused : s.attempted = false → s.calls = []
  checked : ∀ call ∈ s.calls, Checked windowMs certs call

theorem step_sound {s : Recovery} (event : Event Header) (h : Sound windowMs certs s) :
    Sound windowMs certs (step parseHttpDate windowMs certs s event) := by
  cases event with
  | begin socket wall mono => exact ⟨h.once, h.unused, h.checked⟩
  | response i response =>
    rw [step, respond]
    rcases hrequest : s.requests[i]? with _ | request
    · exact h
    simp only
    split
    case isTrue => exact h
    rcases hcheck : checkResponse parseHttpDate windowMs certs request response with reason | call
    · exact ⟨h.once, h.unused, h.checked⟩
    simp only
    split
    case isTrue => exact ⟨h.once, h.unused, h.checked⟩
    case isFalse hfree =>
    have hcalls : s.calls ++ [call] = [call] := by
      rw [h.unused (Bool.eq_false_iff.mpr hfree), List.nil_append]
    have hset : ∀ reason : Option Reason, Sound windowMs certs
        (({ attempted := true
            requests := s.requests.set i { request with consumed := true }
            calls := s.calls ++ [call] } : Recovery), reason).1 := by
      intro reason
      refine ⟨?_, (fun hused => by cases hused), ?_⟩
      · rw [hcalls]
        exact Nat.le_refl 1
      · rw [hcalls]
        intro other hother
        rw [List.mem_singleton.mp hother]
        exact checkResponse_checked hcheck
    split
    · exact hset _
    · exact hset _

theorem run_sound (events : List (Event Header)) :
    Sound windowMs certs (run parseHttpDate windowMs certs events) := by
  have hrun : ∀ s, Sound windowMs certs s →
      Sound windowMs certs (events.foldl (step parseHttpDate windowMs certs) s) := by
    induction events with
    | nil => exact fun _ h => h
    | cons event events ih => exact fun s h => ih _ (step_sound event h)
  exact hrun .initial ⟨Nat.zero_le 1, fun _ => rfl, (fun _ hcall => by cases hcall)⟩

/-- For every time at which the exit may have evaluated the token, its window is further than
one from the client's. -/
def Rejected (windowMs : Nat) (call : SetCall) : Prop :=
  ∀ s : ℚ, call.serverMs - call.elapsed ≤ s → s ≤ call.serverMs + 999 →
    1 < |clientWindow windowMs call - window windowMs s|

/-- The client's window lies before those that are compared with the Date, and not before those
of the delay ahead of the Date. -/
def InGap (windowMs : Nat) (call : SetCall) : Prop :=
  window windowMs (call.serverMs - call.elapsed) - 1 ≤ clientWindow windowMs call ∧
    clientWindow windowMs call < window windowMs call.serverMs - 1

theorem rejected_iff {call : SetCall} (hwindow : 1000 ≤ windowMs)
    (hchecked : Checked windowMs certs call) :
    Rejected windowMs call ↔ ¬ InGap windowMs call := by
  have hlength : (0 : ℚ) < windowMs := by
    have hpos : 0 < windowMs := by omega
    exact_mod_cast hpos
  have helapsed := hchecked.elapsed_nonneg
  have hfirst := window_mono hlength
    (show call.serverMs - call.elapsed ≤ (call.serverMs : ℚ) by linarith)
  have hdate := window_mono hlength
    (show (call.serverMs : ℚ) ≤ call.serverMs + 999 by linarith)
  have hlast := window_mono hlength
    (show (call.serverMs : ℚ) + 999 ≤ call.serverMs + 999 + call.elapsed by linarith)
  have houtside := hchecked.outside
  rw [Rejected, apart_iff hlength (by linarith), InGap]
  omega

/-- The token that the client sent is rejected at every time of the exchange. -/
def TokenRejected (windowMs : Nat) (call : SetCall) : Prop :=
  ∀ (mac : Bytes → Bytes → Bytes) (secret clientExporter exporterBuf : Bytes) (s : ℚ),
    call.serverMs - call.elapsed ≤ s → s ≤ call.serverMs + 999 →
    BearerToken.KeepsApart mac secret exporterBuf (window windowMs s)
      (BearerToken.message clientExporter (clientWindow windowMs call)) →
    (BearerToken.verifyTlsVpnBearerToken mac windowMs secret exporterBuf s
      (BearerToken.computeTlsVpnBearerToken mac windowMs secret clientExporter call.sentWall
        0)).ok = false

theorem tokenRejected {call : SetCall} (h : Rejected windowMs call) :
    TokenRejected windowMs call :=
  fun _ _ _ _ s hstart hend hmac => BearerToken.verify_distant hmac (h s hstart hend)

end Calls

/-- A chain of two certificates, the second its own issuer. -/
def exampleCerts : Nat → Certificate
  | 0 => ⟨true, some 0, some 4000000000, some 1⟩
  | _ => ⟨true, some 0, some 4000000000, some 1⟩

/-- A request from a clock in the given window, answered within half a second by the Date at the
start of window 2000. -/
def exampleRun (sentWall : ℚ) : List (Event Int) :=
  [.begin ⟨true, true, false, some 0⟩ sentWall 0,
    .response 0 ⟨1800000000, false, 500, sentWall + 500, false, 1800000000⟩]

end Meshpn.Tls.ClockRecovery
