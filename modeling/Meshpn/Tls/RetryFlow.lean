import Meshpn.Tls.RetryPieces

/-!
What has gone through one guard. The server's stream is pieces that have passed,
and whatever came after the final hello; the client's is records that have passed,
with a second hello between them that another one has taken the place of. What
the guard has taken and not yet put out is a hello or a record that is not whole.
-/

namespace Meshpn.Tls

open Meshpn.Lib List
open Meshpn.Lib.Bytes

def Way.other : Way → Way
  | .client => .server
  | .server => .client

/-- What the hello of a piece says, where it is one. -/
def answerOf : List Bytes → Option ServerHello
  | (0x16 :: fields) :: records =>
    (serverHello (messageBody (content ((0x16 :: fields) :: records)))).toOption
  | _ => none

structure RetryTrace where
  answers : List (List Bytes)
  -- after the final hello, nothing is looked at
  served : Bytes
  first : List Bytes
  swap : Option (List Bytes × Bytes)
  second : List Bytes
  sent : Bytes

namespace RetryTrace

def hellos (t : RetryTrace) : List ServerHello := t.answers.filterMap answerOf

def old (t : RetryTrace) : Bytes := (t.swap.map fun swap => swap.1.flatten).getD []

def new (t : RetryTrace) : Bytes := (t.swap.map Prod.snd).getD []

def input (t : RetryTrace) : Way → Bytes
  | .client => t.first.flatten ++ (t.old ++ (t.second.flatten ++ t.sent))
  | .server => t.answers.flatMap List.flatten ++ t.served

def output (t : RetryTrace) : Way → Bytes
  | .client => t.first.flatten ++ (t.new ++ (t.second.flatten ++ t.sent))
  | .server => t.answers.flatMap List.flatten ++ t.served

def init : RetryTrace := ⟨[], [], [], none, [], []⟩

end RetryTrace

/-- The phase, what the server has said, and whether there was a second hello. -/
inductive Agrees : Phase → List ServerHello → Bool → Prop where
  | serverFirst : Agrees .serverFirst [] false
  | clientRetry {hrr : ServerHello} : hrr.retry = true → Agrees .clientRetry [hrr] false
  | serverFinal {hrr : ServerHello} : hrr.retry = true → Agrees .serverFinal [hrr] true
  | answered {last : ServerHello} : last.retry = false → Agrees .done [last] false
  | retried {hrr last : ServerHello} : hrr.retry = true → last.retry = false →
      Agrees .done [hrr, last] true

variable {hellos : List ServerHello} {swapped : Bool} {phase : Phase}

theorem Agrees.retry
    {message : ServerHello} (h : Agrees phase hellos swapped) (hphase : phase = .serverFirst)
    (hretry : message.retry = true) : Agrees .clientRetry (hellos ++ [message]) swapped := by
  subst hphase
  cases h
  exact .clientRetry hretry

theorem Agrees.final
    {message : ServerHello} (h : Agrees phase hellos swapped)
    (hphase : phase = .serverFirst ∨ phase = .serverFinal) (hfinal : message.retry = false) :
    Agrees .done (hellos ++ [message]) swapped := by
  rcases hphase with rfl | rfl
  · cases h
    exact .answered hfinal
  · cases h with
    | serverFinal hretry => exact .retried hretry hfinal

theorem Agrees.second
    (h : Agrees phase hellos swapped) (hphase : phase = .clientRetry) :
    swapped = false ∧ Agrees .serverFinal hellos true := by
  subst hphase
  cases h with
  | clientRetry hretry => exact ⟨rfl, .serverFinal hretry⟩

/-- Bytes that do not begin with a whole record. -/
def Partial (bytes : Bytes) : Prop := ¬∃ record rest, Whole record ∧ bytes = record ++ rest

/-- The records of a hello that is not whole. -/
def HelloStream.collected (stream : HelloStream) : Bytes :=
  (stream.hello.map HelloRecords.wire).getD []

/-- What the guard has taken and not put out. -/
def HelloStream.held (stream : HelloStream) : Bytes := stream.collected ++ stream.pending

namespace RetryGuard

/-- A second hello has been rewritten. -/
def Rewrote (g : RetryGuard) (wire out : Bytes) : Prop :=
  ∃ next, parseFirstTlsClientHelloFromTcpBuf wire = .ok (.ok next) ∧
    next.extensions.sni.map toText = [g.inputSni] ∧ g.rebuild wire = .ok (some out)

structure SameConfig (g g' : RetryGuard) : Prop where
  limits : g'.limits = g.limits := by rfl
  role : g'.role = g.role := by rfl
  relayHost : g'.relayHost = g.relayHost := by rfl
  originHost : g'.originHost = g.originHost := by rfl
  identity : g'.identity = g.identity := by rfl
  inputSni : g'.inputSni = g.inputSni := by rfl

theorem SameConfig.trans {g g' g'' : RetryGuard} (h : SameConfig g g') (h' : SameConfig g' g'') :
    SameConfig g g'' where
  limits := h'.limits.trans h.limits
  role := h'.role.trans h.role
  relayHost := h'.relayHost.trans h.relayHost
  originHost := h'.originHost.trans h.originHost
  identity := h'.identity.trans h.identity
  inputSni := h'.inputSni.trans h.inputSni

structure Follows (g : RetryGuard) (t : RetryTrace) : Prop where
  agrees : Agrees g.phase t.hellos t.swap.isSome
  answers : ∀ piece ∈ t.answers, Piece piece
  first : ∀ bytes ∈ t.first, Whole bytes ∧ ¬IsHandshake bytes
  second : ∀ bytes ∈ t.second, Whole bytes ∧ ¬IsHandshake bytes
  swap : ∀ old new, t.swap = some (old, new) →
    Piece old ∧ (∀ bytes ∈ old, IsHandshake bytes) ∧ g.Rewrote old.flatten new
  served : g.phase ≠ .done → t.served = []
  sent : g.phase ≠ .done → t.sent = []
  unswapped : t.swap = none → t.second = []
  clientHello : ∀ hello, g.client.hello = some hello →
    hello.Collecting 1 ∧ g.phase = .clientRetry
  serverHello : ∀ hello, g.server.hello = some hello →
    hello.Collecting 2 ∧ (g.phase = .serverFirst ∨ g.phase = .serverFinal)

/-- What one direction has taken and put out; the other one is left alone. -/
structure Moves (g g' : RetryGuard) (t t' : RetryTrace) (way : Way) (taken out : Bytes) :
    Prop where
  config : SameConfig g g' := by exact {}
  input : t'.input way ++ (g'.stream way).held = t.input way ++ (g.stream way).held ++ taken
  output : t'.output way = t.output way ++ out
  other : g'.stream way.other = g.stream way.other := by rfl
  otherInput : t'.input way.other = t.input way.other := by rfl
  otherOutput : t'.output way.other = t.output way.other := by rfl

theorem Moves.trans {g g' g'' : RetryGuard} {t t' t'' : RetryTrace} {way : Way}
    {taken more out last : Bytes} (h : Moves g g' t t' way taken out)
    (h' : Moves g' g'' t' t'' way more last) :
    Moves g g'' t t'' way (taken ++ more) (out ++ last) where
  config := h.config.trans h'.config
  input := by rw [h'.input, h.input, append_assoc]
  output := by rw [h'.output, h.output, append_assoc]
  other := h'.other.trans h.other
  otherInput := h'.otherInput.trans h.otherInput
  otherOutput := h'.otherOutput.trans h.otherOutput

theorem isHandshake_iff {bytes : Bytes} (h : Whole bytes) :
    index bytes (.int 0) = .int 0x16 ↔ IsHandshake bytes := by
  obtain ⟨kind, v1, v0, l1, l0, payload, rfl, _⟩ := h
  simp only [IsHandshake, head?_cons, Option.some.injEq]
  rw [← UInt8.toNat_inj]
  simp [index]

variable {g g' : RetryGuard} {t : RetryTrace} {way : Way} {bytes out : Bytes}

/-- The collector that a record of the handshake is added to. -/
def collector (g : RetryGuard) (way : Way) : HelloRecords :=
  (g.stream way).hello.getD
    (HelloRecords.init g.limits.maxHelloBytes (if way = .client then 1 else 2))

theorem record_cases (hwhole : Whole bytes) (h : g.record way bytes = .ok (g', out)) :
    (¬IsHandshake bytes ∧ (g.stream way).hello = none ∧ g' = g ∧ out = bytes) ∨
    (IsHandshake bytes ∧ (way = .client → g.phase = .clientRetry) ∧
      (way = .server → g.phase = .serverFirst ∨ g.phase = .serverFinal) ∧
      ∃ hello whole, (g.collector way).add bytes = .ok (hello, whole) ∧
        ((whole = none ∧ out = [] ∧
            g' = g.setStream way { g.stream way with hello := some hello }) ∨
          ∃ c, whole = some c ∧
            (match way with
            | .server => (g.setStream way { g.stream way with hello := none }).answered c
            | .client => (g.setStream way { g.stream way with hello := none }).secondHello c) =
              .ok (g', out))) := by
  rw [record] at h
  simp only at h
  by_cases hkind : index bytes (.int 0) = .int 0x16
  case neg =>
    rw [if_pos hkind] at h
    left
    have hpassed : (g.stream way).hello = none ∧ g' = g ∧ out = bytes := by
      split at h
      case isTrue => cases h
      rename_i hhello
      have hnone : (g.stream way).hello = none := by simpa using hhello
      split at h
      case isTrue =>
        split at h
        case isTrue => cases h
        cases h
        exact ⟨hnone, rfl, rfl⟩
      case isFalse =>
        split at h
        case isTrue =>
          cases h
          exact ⟨hnone, rfl, rfl⟩
        case isFalse =>
          split at h
          case isTrue =>
            cases h
            exact ⟨hnone, rfl, rfl⟩
          case isFalse => cases h
    exact ⟨fun hhandshake => hkind ((isHandshake_iff hwhole).mpr hhandshake), hpassed⟩
  case pos =>
    rw [if_neg (not_not.mpr hkind)] at h
    right
    split at h
    case isTrue => cases h
    rename_i hclient
    split at h
    case isTrue => cases h
    rename_i hserver
    refine ⟨(isHandshake_iff hwhole).mp hkind, fun hway => ?_, fun hway => ?_, ?_⟩
    · by_contra hphase
      exact hclient ⟨hway, hphase⟩
    · by_contra hphase
      exact hserver ⟨hway, not_or.mp hphase⟩
    · cases hadd : (g.collector way).add bytes with
      | error code =>
        rw [collector] at hadd
        rw [hadd] at h
        cases h
      | ok result =>
        obtain ⟨hello, whole⟩ := result
        refine ⟨hello, whole, rfl, ?_⟩
        rw [collector] at hadd
        rw [hadd] at h
        cases whole with
        | none =>
          cases h
          exact Or.inl ⟨rfl, rfl, rfl⟩
        | some c =>
          cases way with
          | client => exact Or.inr ⟨c, rfl, h⟩
          | server => exact Or.inr ⟨c, rfl, h⟩

theorem answered_cases {c : Collected} (h : g.answered c = .ok (g', out)) :
    ∃ message, serverHello c.body = .ok message ∧ out = c.wire ∧
      ((message.retry = true ∧ g.phase = .serverFirst ∧ g' = { g with phase := .clientRetry }) ∨
        (message.retry = false ∧ g' = { g with phase := .done })) := by
  rw [answered] at h
  cases hmessage : Tls.serverHello c.body with
  | error code =>
    rw [hmessage] at h
    cases h
  | ok message =>
    refine ⟨message, rfl, ?_⟩
    rw [hmessage] at h
    simp only [Except.bind] at h
    split at h
    case isTrue hretry =>
      split at h
      case isTrue => cases h
      rename_i hfirst
      cases h
      exact ⟨rfl, Or.inl ⟨hretry, not_not.mp (not_or.mp hfirst).1, rfl⟩⟩
    case isFalse hfinal =>
      split at h
      case isTrue => cases h
      cases h
      exact ⟨rfl, Or.inr ⟨by simpa using hfinal, rfl⟩⟩

theorem secondHello_cases {c : Collected} (h : g.secondHello c = .ok (g', out)) :
    g.Rewrote c.wire out ∧ g' = { g with phase := .serverFinal } := by
  rw [secondHello] at h
  cases hparse : parseFirstTlsClientHelloFromTcpBuf c.wire with
  | error fault =>
    rw [hparse] at h
    cases h
  | ok next =>
    rw [hparse] at h
    cases next with
    | needMore minTotal => cases h
    | error reason => cases h
    | ok next =>
      simp only [orThrow, Except.bind] at h
      split at h
      case isTrue => cases h
      split at h
      case isTrue => cases h
      rename_i hidentity
      have hname : next.extensions.sni.map toText = [g.inputSni] :=
        not_not.mp (not_or.mp hidentity).1
      cases hrebuilt : g.rebuild c.wire with
      | error fault =>
        rw [hrebuilt] at h
        cases h
      | ok rebuilt =>
        rw [hrebuilt] at h
        rcases rebuilt with _ | new
        · cases h
        simp only at h
        split at h
        case isTrue => cases h
        cases h
        exact ⟨⟨next, hparse, hname, hrebuilt⟩, rfl⟩

/-- What a record does to a guard and to what has gone through it. -/
structure Takes (g g' : RetryGuard) (t t' : RetryTrace) (way : Way) (taken out : Bytes) :
    Prop where
  config : SameConfig g g' := by exact {}
  pending : (g'.stream way).pending = (g.stream way).pending := by rfl
  input : t'.input way ++ (g'.stream way).collected =
    t.input way ++ (g.stream way).collected ++ taken
  output : t'.output way = t.output way ++ out
  other : g'.stream way.other = g.stream way.other := by rfl
  otherInput : t'.input way.other = t.input way.other := by rfl
  otherOutput : t'.output way.other = t.output way.other := by rfl

theorem hellos_concat (answers : List (List Bytes)) (piece : List Bytes) :
    (answers ++ [piece]).filterMap answerOf =
      answers.filterMap answerOf ++ (answerOf piece).toList := by
  rw [filterMap_append]
  cases hanswer : answerOf piece <;> simp [hanswer]

theorem answerOf_single (h : ¬IsHandshake bytes) : answerOf [bytes] = none := by
  rw [answerOf]
  intro fields records heq
  cases heq
  exact h rfl

theorem answerOf_hello {records : List Bytes} (hne : records ≠ [])
    (h : ∀ bytes ∈ records, IsHandshake bytes) :
    answerOf records = (serverHello (messageBody (content records))).toOption := by
  obtain ⟨first, rest, rfl⟩ := exists_cons_of_ne_nil hne
  have hfirst := h first mem_cons_self
  cases first with
  | nil => cases hfirst
  | cons kind fields =>
    cases hfirst
    rfl

theorem collector_records (g : RetryGuard) (way : Way) :
    (g.collector way).records.flatten = (g.stream way).collected := by
  rw [collector, HelloStream.collected]
  cases (g.stream way).hello <;> rfl

theorem mem_concat {α : Type} {p : α → Prop} {xs : List α} {x : α} (hxs : ∀ y ∈ xs, p y)
    (hx : p x) : ∀ y ∈ xs ++ [x], p y := by
  intro y hy
  rcases mem_append.mp hy with hold | hnew
  · exact hxs y hold
  · rwa [mem_singleton.mp hnew]

theorem Follows.record_server (h : g.Follows t) (hphase : g.phase ≠ .done) (hwhole : Whole bytes)
    (hrecord : g.record .server bytes = .ok (g', out)) :
    ∃ t', g'.Follows t' ∧ Takes g g' t t' .server bytes out := by
  have hserved := h.served hphase
  have hinput : ∀ piece : List Bytes,
      { t with answers := t.answers ++ [piece] }.input .server =
        t.input .server ++ piece.flatten := by
    intro piece
    simp [RetryTrace.input, hserved]
  rcases record_cases hwhole hrecord with ⟨hother, hhello, rfl, rfl⟩ | ⟨hkind, _, hallowed, hello,
    whole, hadd, hcase⟩
  case inl =>
    refine ⟨{ t with answers := t.answers ++ [[out]] }, ?_, ?_⟩
    · refine { h with agrees := ?_, answers := mem_concat h.answers (.single hwhole hother) }
      rw [RetryTrace.hellos, hellos_concat, answerOf_single hother, Option.toList_none,
        append_nil]
      exact h.agrees
    · have hpassed := hinput [out]
      have hcollected : (g'.stream .server).collected = [] := by
        rw [HelloStream.collected, hhello]
        rfl
      rw [flatten_singleton] at hpassed
      exact { input := by rw [hcollected, hpassed]; simp, output := hpassed }
  case inr =>
    have hcollecting : (g.collector .server).Collecting 2 := by
      rw [collector]
      cases hstream : (g.stream .server).hello with
      | none => exact HelloRecords.collecting_init _ _
      | some hello => exact (h.serverHello hello hstream).1
    obtain ⟨hrecords, hresult⟩ := hcollecting.add hwhole hkind hadd
    have hwire : hello.records.flatten = (g.stream .server).collected ++ bytes := by
      rw [hrecords, flatten_append, collector_records, flatten_singleton]
    rcases hcase with ⟨rfl, rfl, rfl⟩ | ⟨c, rfl, hanswered⟩
    case inl =>
      have hstill : hello.Collecting 2 := by
        rcases hresult with ⟨_, hstill⟩ | ⟨_, _, _, hsome⟩
        · exact hstill
        · cases hsome
      refine ⟨t, { h with serverHello := ?_ }, ?_⟩
      · rintro _ ⟨rfl⟩
        exact ⟨hstill, hallowed rfl⟩
      · exact { input := by rw [append_assoc, ← hwire]; rfl, output := by simp }
    case inr =>
      rcases hresult with ⟨hnone, _⟩ | ⟨hpiece, hkinds, _, hwhole⟩
      case inl => cases hnone
      cases hwhole
      obtain ⟨message, hmessage, rfl, hnext⟩ := answered_cases hanswered
      have hanswer : answerOf hello.records = some message := by
        rw [answerOf_hello hpiece.ne_nil hkinds, hmessage]
        rfl
      have hhellos : RetryTrace.hellos { t with answers := t.answers ++ [hello.records] } =
          t.hellos ++ [message] := by
        rw [RetryTrace.hellos, hellos_concat, hanswer, RetryTrace.hellos]
        rfl
      have hclient : ∀ hello, g.client.hello ≠ some hello := by
        intro hello hsome
        have hretry := (h.clientHello hello hsome).2
        rcases hallowed rfl with hfirst | hfinal
        · rw [hfirst] at hretry
          cases hretry
        · rw [hfinal] at hretry
          cases hretry
      have htakes : ∀ phase, Takes g
          { g.setStream .server { g.stream .server with hello := none } with phase := phase } t
          { t with answers := t.answers ++ [hello.records] } .server bytes
          hello.records.flatten := by
        intro phase
        refine { input := ?_, output := hinput _ }
        rw [append_assoc, ← hwire, hinput]
        exact append_nil _
      have hagrees := h.agrees
      rcases hnext with ⟨hretry, hfirst, rfl⟩ | ⟨hfinal, rfl⟩
      case inl =>
        refine ⟨_, ?_, htakes _⟩
        exact {
          agrees := hhellos ▸ hagrees.retry hfirst hretry
          answers := mem_concat h.answers hpiece
          first := h.first
          second := h.second
          swap := h.swap
          served := fun _ => hserved
          sent := fun _ => h.sent hphase
          unswapped := h.unswapped
          clientHello := fun hello hsome => absurd hsome (hclient hello)
          serverHello := fun hello hsome => by cases hsome }
      case inr =>
        refine ⟨_, ?_, htakes _⟩
        exact {
          agrees := hhellos ▸ hagrees.final (hallowed rfl) hfinal
          answers := mem_concat h.answers hpiece
          first := h.first
          second := h.second
          swap := h.swap
          served := fun _ => hserved
          sent := fun _ => h.sent hphase
          unswapped := h.unswapped
          clientHello := fun hello hsome => absurd hsome (hclient hello)
          serverHello := fun hello hsome => by cases hsome }

theorem Follows.record_client (h : g.Follows t) (hphase : g.phase ≠ .done) (hwhole : Whole bytes)
    (hrecord : g.record .client bytes = .ok (g', out)) :
    ∃ t', g'.Follows t' ∧ Takes g g' t t' .client bytes out := by
  have hsent := h.sent hphase
  rcases record_cases hwhole hrecord with ⟨hother, hhello, rfl, rfl⟩ | ⟨hkind, hallowed, _, hello,
    whole, hadd, hcase⟩
  case inl =>
    have hcollected : (g'.stream .client).collected = [] := by
      rw [HelloStream.collected, hhello]
      rfl
    cases hswap : t.swap with
    | none =>
      have hsecond := h.unswapped hswap
      refine ⟨{ t with first := t.first ++ [out] },
        { h with first := mem_concat h.first ⟨hwhole, hother⟩ }, ?_⟩
      exact {
        input := by simp [RetryTrace.input, RetryTrace.old, hswap, hsecond, hsent, hcollected]
        output := by simp [RetryTrace.output, RetryTrace.new, hswap, hsecond, hsent] }
    | some swap =>
      refine ⟨{ t with second := t.second ++ [out] },
        { h with
          second := mem_concat h.second ⟨hwhole, hother⟩
          unswapped := fun hnone => by rw [hswap] at hnone; cases hnone }, ?_⟩
      exact {
        input := by simp [RetryTrace.input, RetryTrace.old, hsent, hcollected]
        output := by simp [RetryTrace.output, RetryTrace.new, hsent] }
  case inr =>
    have hretry := hallowed rfl
    obtain ⟨hunswapped, hagrees⟩ := h.agrees.second hretry
    have hswap : t.swap = none := by
      cases hsome : t.swap with
      | none => rfl
      | some swap =>
        rw [hsome] at hunswapped
        cases hunswapped
    have hcollecting : (g.collector .client).Collecting 1 := by
      rw [collector]
      cases hstream : (g.stream .client).hello with
      | none => exact HelloRecords.collecting_init _ _
      | some hello => exact (h.clientHello hello hstream).1
    obtain ⟨hrecords, hresult⟩ := hcollecting.add hwhole hkind hadd
    have hwire : hello.records.flatten = (g.stream .client).collected ++ bytes := by
      rw [hrecords, flatten_append, collector_records, flatten_singleton]
    rcases hcase with ⟨rfl, rfl, rfl⟩ | ⟨c, rfl, hrewritten⟩
    case inl =>
      have hstill : hello.Collecting 1 := by
        rcases hresult with ⟨_, hstill⟩ | ⟨_, _, _, hsome⟩
        · exact hstill
        · cases hsome
      refine ⟨t, { h with clientHello := ?_ }, ?_⟩
      · rintro _ ⟨rfl⟩
        exact ⟨hstill, hretry⟩
      · exact { input := by rw [append_assoc, ← hwire]; rfl, output := by simp }
    case inr =>
      rcases hresult with ⟨hnone, _⟩ | ⟨hpiece, hkinds, _, hwhole⟩
      case inl => cases hnone
      cases hwhole
      obtain ⟨hrewrote, rfl⟩ := secondHello_cases hrewritten
      have hsecond := h.unswapped hswap
      refine ⟨{ t with swap := some (hello.records, out) }, ?_, ?_⟩
      · exact {
          agrees := hagrees
          answers := h.answers
          first := h.first
          second := h.second
          swap := by
            rintro _ _ ⟨rfl⟩
            exact ⟨hpiece, hkinds, hrewrote⟩
          served := fun _ => h.served hphase
          sent := fun _ => hsent
          unswapped := fun hnone => by cases hnone
          clientHello := fun hello hsome => by cases hsome
          serverHello := fun hello hsome => by
            have hserver := (h.serverHello hello hsome).2
            rw [hretry] at hserver
            rcases hserver with hfirst | hfinal
            · cases hfirst
            · cases hfinal }
      · refine { input := ?_, output := ?_ }
        · rw [append_assoc, ← hwire]
          simp only [RetryTrace.input, RetryTrace.old, hswap, hsecond, hsent]
          simp [HelloStream.collected, setStream, stream]
        · simp [RetryTrace.output, RetryTrace.new, hswap, hsecond, hsent]

theorem Follows.record (h : g.Follows t) (hphase : g.phase ≠ .done) (hwhole : Whole bytes)
    (hrecord : g.record way bytes = .ok (g', out)) :
    ∃ t', g'.Follows t' ∧ Takes g g' t t' way bytes out := by
  cases way with
  | client => exact h.record_client hphase hwhole hrecord
  | server => exact h.record_server hphase hwhole hrecord

@[simp] theorem stream_setStream (g : RetryGuard) (way : Way) (stream : HelloStream) :
    (g.setStream way stream).stream way = stream := by
  cases way <;> rfl

@[simp] theorem stream_setStream_other (g : RetryGuard) (way : Way) (stream : HelloStream) :
    (g.setStream way stream).stream way.other = g.stream way.other := by
  cases way <;> rfl

@[simp] theorem phase_setStream (g : RetryGuard) (way : Way) (stream : HelloStream) :
    (g.setStream way stream).phase = g.phase := by
  cases way <;> rfl

theorem sameConfig_setStream (g : RetryGuard) (way : Way) (stream : HelloStream) :
    SameConfig g (g.setStream way stream) := by
  cases way <;> exact {}

theorem Follows.setPending (h : g.Follows t) (way : Way) (pending : Bytes) :
    (g.setStream way { g.stream way with pending := pending }).Follows t := by
  cases way <;> exact { h with }

theorem partial_short (h : bytes.length < 5) : Partial bytes := by
  rintro ⟨_, rest, ⟨kind, v1, v0, l1, l0, payload, rfl, _⟩, rfl⟩
  simp only [cons_append, length_cons] at h
  omega

theorem partial_nil : Partial [] := partial_short (Nat.zero_lt_succ 4)

theorem front_record (hlong : ¬bytes.length < 5) :
    ∃ size, readUInt16BE bytes (.int 3) = .ok size ∧
      (bytes.length < size + 5 → Partial bytes) ∧
      (¬bytes.length < size + 5 → Whole (bytes.take (size + 5))) := by
  rcases five_or_short bytes with ⟨kind, v1, v0, l1, l0, rest, rfl⟩ | hshort
  case inr => exact absurd hshort hlong
  refine ⟨toUInt16 l1 l0, rfl, ?_, ?_⟩
  · rintro hless ⟨_, more, ⟨kind', v1', v0', l1', l0', payload, rfl, hlength⟩, heq⟩
    simp only [cons_append, List.cons.injEq] at heq
    obtain ⟨rfl, rfl, rfl, rfl, rfl, rfl⟩ := heq
    simp only [length_cons, length_append] at hless
    omega
  · intro henough
    simp only [length_cons] at henough
    refine ⟨kind, v1, v0, l1, l0, rest.take (toUInt16 l1 l0), rfl, ?_⟩
    rw [length_take]
    omega

theorem Follows.collected_done (h : g.Follows t) (hdone : g.phase = .done) :
    (g.stream way).collected = [] := by
  have hnone : (g.stream way).hello = none := by
    rcases hsome : (g.stream way).hello with _ | hello
    · rfl
    cases way with
    | client =>
      have hphase := (h.clientHello hello hsome).2
      rw [hdone] at hphase
      cases hphase
    | server =>
      have hphase := (h.serverHello hello hsome).2
      rw [hdone] at hphase
      rcases hphase with hfirst | hfinal
      · cases hfirst
      · cases hfinal
  rw [HelloStream.collected, hnone]
  rfl

theorem Follows.pass (h : g.Follows t) (hdone : g.phase = .done) (way : Way) (bytes : Bytes) :
    ∃ t', g.Follows t' ∧ t'.input way = t.input way ++ bytes ∧
      t'.output way = t.output way ++ bytes ∧ t'.input way.other = t.input way.other ∧
      t'.output way.other = t.output way.other := by
  cases way with
  | client =>
    refine ⟨{ t with sent := t.sent ++ bytes },
      { h with sent := fun hphase => absurd hdone hphase }, ?_, ?_, rfl, rfl⟩
    · simp [RetryTrace.input, RetryTrace.old]
    · simp [RetryTrace.output, RetryTrace.new]
  | server =>
    refine ⟨{ t with served := t.served ++ bytes },
      { h with served := fun hphase => absurd hdone hphase }, ?_, ?_, rfl, rfl⟩
    · simp [RetryTrace.input]
    · simp [RetryTrace.output]

theorem Moves.stay (g : RetryGuard) (t : RetryTrace) (way : Way) : Moves g g t t way [] [] where
  input := by simp
  output := by simp

theorem Takes.moves {t' : RetryTrace} {rest : Bytes}
    (h : Takes (g.setStream way { g.stream way with pending := rest }) g' t t' way bytes out)
    (hpending : (g.stream way).pending = bytes ++ rest) : Moves g g' t t' way [] out where
  config := (sameConfig_setStream _ _ _).trans h.config
  input := by
    have hinput := h.input
    have hsame := h.pending
    rw [stream_setStream] at hinput hsame
    rw [HelloStream.held, HelloStream.held, ← append_assoc, hinput, hsame, hpending]
    simp [HelloStream.collected]
  output := h.output
  other := h.other.trans (stream_setStream_other _ _ _)
  otherInput := h.otherInput
  otherOutput := h.otherOutput

/-- The loop takes one record after the other, until what waits is no longer a whole one. -/
theorem Follows.drain {fuel : Nat} (h : g.Follows t) (hdrain : drain way fuel g = .ok (g', out)) :
    ∃ t', g'.Follows t' ∧ Moves g g' t t' way [] out ∧ Partial (g'.stream way).pending := by
  induction fuel generalizing g t out with
  | zero => cases hdrain
  | succ fuel ih =>
    rw [RetryGuard.drain] at hdrain
    simp only at hdrain
    split at hdrain
    case isTrue hempty =>
      cases hdrain
      exact ⟨t, h, .stay _ _ way, by rw [hempty]; exact partial_nil⟩
    split at hdrain
    case isTrue hdone =>
      cases hdrain
      obtain ⟨t', hfollows, hinput, houtput, hother, hotherOut⟩ :=
        (h.setPending way []).pass (by simpa using hdone) way (g.stream way).pending
      refine ⟨t', hfollows, ?_, by simpa using partial_nil⟩
      exact {
        config := sameConfig_setStream _ _ _
        input := by
          have hcollected := @Follows.collected_done _ _ way h hdone
          have hafter := @Follows.collected_done _ _ way (h.setPending way [])
            (by simpa using hdone)
          rw [stream_setStream] at hafter
          simp [HelloStream.held, hcollected, hafter, hinput]
        output := houtput
        other := stream_setStream_other _ _ _
        otherInput := hother
        otherOutput := hotherOut }
    case isFalse hphase =>
      split at hdrain
      case isTrue hshort =>
        cases hdrain
        exact ⟨t, h, .stay _ _ way, partial_short hshort⟩
      rename_i hlong
      obtain ⟨size, hread, hpartial, hwhole⟩ := front_record hlong
      rw [hread] at hdrain
      simp only [orThrow, Except.bind] at hdrain
      generalize (if index (g.stream way).pending (.int 0) = .int 0x17 then 16640 else 16384) =
        limit at hdrain
      split at hdrain
      case isTrue => cases hdrain
      split at hdrain
      case isTrue hless =>
        cases hdrain
        exact ⟨t, h, .stay _ _ way, hpartial hless⟩
      rename_i henough
      split at hdrain
      case h_1 => cases hdrain
      rename_i result hrecord
      obtain ⟨next, passed⟩ := result
      obtain ⟨t1, hnext, htakes⟩ := (h.setPending way _).record (by simpa using hphase)
        (hwhole henough) hrecord
      cases hrest : RetryGuard.drain way fuel next with
      | error code =>
        simp only [hrest] at hdrain
        cases hdrain
      | ok rest =>
        obtain ⟨last, more⟩ := rest
        simp only [hrest, Except.map, Except.ok.injEq, Prod.mk.injEq] at hdrain
        obtain ⟨rfl, rfl⟩ := hdrain
        obtain ⟨t2, hlast, hmoves, hleft⟩ := ih hnext hrest
        have hfirst := htakes.moves (take_append_drop _ _).symm
        exact ⟨t2, hlast, hfirst.trans hmoves, hleft⟩

theorem Follows.feed {chunk : Bytes} (h : g.Follows t) (hfeed : g.feed way chunk = .ok (g', out)) :
    ∃ t', g'.Follows t' ∧ Moves g g' t t' way chunk out ∧ Partial (g'.stream way).pending := by
  rw [RetryGuard.feed] at hfeed
  simp only at hfeed
  split at hfeed
  case isTrue hdone =>
    cases hfeed
    obtain ⟨t', hfollows, hinput, houtput, hother, hotherOut⟩ := h.pass hdone.1 way out
    refine ⟨t', hfollows, ?_, by rw [hdone.2]; exact partial_nil⟩
    exact {
      input := by
        rw [HelloStream.held, @Follows.collected_done _ _ way h hdone.1, hdone.2, hinput]
        simp
      output := houtput
      otherInput := hother
      otherOutput := hotherOut }
  case isFalse =>
    split at hfeed
    case isTrue => cases hfeed
    obtain ⟨t', hfollows, hmoves, hpartial⟩ := (h.setPending way _).drain hfeed
    refine ⟨t', hfollows, ?_, hpartial⟩
    exact {
      config := (sameConfig_setStream _ _ _).trans hmoves.config
      input := by
        have hinput := hmoves.input
        rw [stream_setStream] at hinput
        rw [hinput, HelloStream.held, HelloStream.held, append_nil]
        simp [HelloStream.collected]
      output := hmoves.output
      other := hmoves.other.trans (stream_setStream_other _ _ _)
      otherInput := hmoves.otherInput
      otherOutput := hmoves.otherOutput }

end RetryGuard

end Meshpn.Tls
