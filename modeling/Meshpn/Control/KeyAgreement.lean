import Meshpn.Control.Pairing
import Mathlib.Logic.Relation

/-!
When both sides end with one key. Every event of the network moves the letters
and the sessions as they may move, as long as an exchange that ends without its
reply does so alone: with a letter of an earlier exchange still to come, or with
the session that asked already completed by one, the two sides can be left with
different keys.
-/

namespace Meshpn.Control

section Letters

variable {Pub : Type}

def Signal.letter : Signal Pub → Letter Pub
  | .offer pub | .sessionKey pub => ⟨true, pub⟩
  | .answer pub | .sessionKeyAck pub => ⟨false, pub⟩

def Task.waiting : Task Pub → List (Letter Pub)
  | .connecting pub | .offering pub => [⟨true, pub⟩]
  | .answering pub => [⟨false, pub⟩]
  | .idle | .applying _ => []

def Task.taken : Task Pub → List (Letter Pub)
  | .applying pub => [⟨false, pub⟩]
  | .idle | .connecting _ | .offering _ | .answering _ => []

@[simp] theorem Task.idle_waiting : (Task.idle : Task Pub).waiting = [] := rfl

@[simp] theorem Task.idle_taken : (Task.idle : Task Pub).taken = [] := rfl

@[simp] theorem Task.connecting_waiting (pub : Pub) :
    (Task.connecting pub).waiting = [⟨true, pub⟩] := rfl

@[simp] theorem Task.connecting_taken (pub : Pub) : (Task.connecting pub).taken = [] := rfl

@[simp] theorem Task.offering_waiting (pub : Pub) :
    (Task.offering pub).waiting = [⟨true, pub⟩] := rfl

@[simp] theorem Task.offering_taken (pub : Pub) : (Task.offering pub).taken = [] := rfl

@[simp] theorem Task.answering_waiting (pub : Pub) :
    (Task.answering pub).waiting = [⟨false, pub⟩] := rfl

@[simp] theorem Task.answering_taken (pub : Pub) : (Task.answering pub).taken = [] := rfl

@[simp] theorem Task.applying_waiting (pub : Pub) : (Task.applying pub).waiting = [] := rfl

@[simp] theorem Task.applying_taken (pub : Pub) :
    (Task.applying pub).taken = [⟨false, pub⟩] := rfl

end Letters

namespace Network

variable {Priv Pub Secret Key : Type}

def view (net : Network Priv Pub Key) : View Priv Pub Key where
  session side := (net.node side).session
  stream side := (net.node side.other).task.taken ++ (net.sent side).map Signal.letter ++
    (net.node side).task.waiting

/-- The side whose exchange ends with this event without its reply: a connection that is not
made, an offer that cannot be made, is skipped or cannot be answered, an answer that cannot be
applied. -/
def breaksOff (config : Config Priv Pub Secret Key) (net : Network Priv Pub Key) (side : Side)
    (event : Event) : Option Side :=
  match event, (net.node side).task with
  | .wsFailed, .connecting _ =>
    if (config.side side).transportMode = .websocket then some side else none
  | .offerFailed, .offering _ => some side
  | .receive, .idle =>
    match net.sent side.other with
    | .offer _ :: _ => if .websocket ∈ (net.node side).transports then some side.other else none
    | _ => none
  | .offerRefused, .answering _ => some side.other
  | .answerRefused, .applying _ => some side
  | _, _ => none

/-- An exchange that breaks off does so with nothing else under way, and before the session of
its initiator is established. -/
def Orderly (config : Config Priv Pub Secret Key) (net : Network Priv Pub Key) (side : Side)
    (event : Event) : Prop :=
  ∀ initiator ∈ net.breaksOff config side event,
    net.sent side = [] ∧ (net.sent side.other).length = (if event = .receive then 1 else 0) ∧
      (net.node side.other).task = .idle ∧ (net.node initiator).getSessionKey = none

section Refines

variable {config : Config Priv Pub Secret Key} {net : Network Priv Pub Key} {side : Side}

/-- The letters and sessions go through any number of steps. -/
abbrev Goes (config : Config Priv Pub Secret Key) (net next : Network Priv Pub Key) : Prop :=
  Relation.ReflTransGen (View.Step config.kx) net.view next.view

variable {next : Network Priv Pub Key} {node : Node Priv Pub Key}

theorem Goes.of_step {view : View Priv Pub Key}
    (hstep : View.Step config.kx net.view view)
    (hview : view = next.view) : net.Goes config next :=
  .single (hview ▸ hstep)

theorem Goes.of_eq (hview : net.view = next.view) :
    net.Goes config next := by
  unfold Goes
  rw [hview]

theorem view_setNode (hsession : node.session = (net.node side).session)
    (hwaiting : node.task.waiting = (net.node side).task.waiting)
    (htaken : node.task.taken = (net.node side).task.taken) :
    net.view = (net.setNode side node).view := by
  refine View.ext_side side ?_ ?_ ?_ ?_
  · simp [view, setNode, hsession]
  · simp [view, setNode, Side.other_ne]
  · simp [view, setNode, Side.other_ne, hwaiting]
  · simp [view, setNode, Side.other_ne, Side.other_other, htaken]

theorem goes_forget (node : Node Priv Pub Key) (hsession : node.session = none)
    (htask : node.task = (net.node side).task) : net.Goes config (net.setNode side node) := by
  refine .of_step (.forget side) (View.ext_side side ?_ ?_ ?_ ?_)
  · simp [view, setNode, hsession]
  · simp [view, setNode, Side.other_ne]
  · simp [view, setNode, Side.other_ne, htask]
  · simp [view, setNode, Side.other_ne, Side.other_other, htask]

theorem goes_initiate (hidle : (net.node side).task = .idle) :
    net.Goes config (net.initiateConnection config side) := by
  unfold initiateConnection
  dsimp only
  split
  · exact .of_eq rfl
  split
  · exact .of_eq rfl
  refine .of_step (.ask side (config.randomKey net.draws)) (View.ext_side side ?_ ?_ ?_ ?_)
  · simp [view, setNode, drawn, Node.createSession]
  · simp [view, setNode, Side.other_ne]
  · by_cases hws : (config.side side).shouldTryWebSocket = true <;>
      simp [view, setNode, drawn, Side.other_ne, hidle, hws]
  · by_cases hws : (config.side side).shouldTryWebSocket = true <;>
      simp [view, setNode, drawn, Side.other_ne, Side.other_other, hidle, hws]

theorem goes_peerJoin (hidle : (net.node side).task = .idle) (stale : Bool) :
    net.Goes config (net.peerJoin config side stale) := by
  unfold peerJoin
  dsimp only
  split
  · have hforget : net.Goes config
        (net.setNode side { (net.node side).forget with transports := [] }) :=
      goes_forget _ rfl rfl
    refine hforget.trans (goes_initiate ?_)
    simp [setNode, Node.forget, hidle]
  · exact goes_initiate hidle

theorem view_send {signal : Signal Pub}
    (hsession : node.session = (net.node side).session)
    (hwaiting : (net.node side).task.waiting = [signal.letter])
    (htaken : (net.node side).task.taken = []) (hidle : node.task = .idle) :
    net.view = ((net.setNode side node).sendSignal side signal).view := by
  refine View.ext_side side ?_ ?_ ?_ ?_
  · simp [view, setNode, sendSignal, hsession]
  · simp [view, setNode, sendSignal, Side.other_ne]
  · simp [view, setNode, sendSignal, Side.other_ne, hwaiting, hidle]
  · simp [view, setNode, sendSignal, Side.other_ne, Side.other_other, htaken, hidle]

/-- A reply that is under way, or already taken, completes the session that is there. -/
theorem goes_complete (theirs : Pub) (rest : List (Signal Pub))
    (hstream : (net.node side).task.taken ++ (net.sent side.other).map Signal.letter =
      ⟨false, theirs⟩ :: rest.map Signal.letter)
    (hwaiting : (net.node side).task.waiting = [])
    (hother : next.node side.other = net.node side.other)
    (hsession : (next.node side).session =
      (net.node side).session.map fun session => session.complete config.kx theirs)
    (htask : (next.node side).task = .idle) (hrest : next.sent side.other = rest)
    (hsent : next.sent side = net.sent side) : net.Goes config next := by
  refine .of_step (.complete side theirs
    (rest.map Signal.letter ++ (net.node side.other).task.waiting) ?_)
    (View.ext_side side ?_ ?_ ?_ ?_)
  · change (net.node side.other.other).task.taken ++ _ ++ _ = _
    rw [Side.other_other, hstream]
    rfl
  · simp [view, hsession]
  · simp [view, Side.other_ne, hother]
  · simp [view, (Side.other_ne side).symm, hother, hsent, hwaiting, htask]
  · simp [view, Side.other_other, hother, hrest, htask]

theorem goes_answer (priv : Priv) (theirs : Pub)
    (rest : List (Signal Pub)) (hidle : (net.node side).task = .idle)
    (hsent : (net.sent side.other).map Signal.letter = ⟨true, theirs⟩ :: rest.map Signal.letter)
    (hother : next.node side.other = net.node side.other)
    (hsession : (next.node side).session =
      some (Session.complete config.kx ⟨priv, none, false⟩ theirs))
    (htaken : (next.node side).task.taken = []) (hrest : next.sent side.other = rest)
    (hreply : (next.sent side).map Signal.letter ++ (next.node side).task.waiting =
      (net.sent side).map Signal.letter ++ [⟨false, config.kx.getPublicKey priv⟩]) :
    net.Goes config next := by
  refine .of_step (.answer side priv theirs
    (rest.map Signal.letter ++ (net.node side.other).task.waiting) ?_)
    (View.ext_side side ?_ ?_ ?_ ?_)
  · simp [view, Side.other_other, hidle, hsent]
  · simp [view, hsession]
  · simp [view, Side.other_ne, hother]
  · simp only [view, Function.update_self, hother, List.append_assoc, hreply]
    simp [hidle]
  · simp [view, Side.other_ne, Side.other_other, htaken, hrest, hother]

theorem goes_breakOff {initiator : Side}
    (hkey : (net.node initiator).getSessionKey = none)
    (hsession : ∀ one, (next.node one).session = (net.node one).session)
    (hsent : ∀ one, next.sent one = []) (htask : ∀ one, (next.node one).task = .idle) :
    net.Goes config next := by
  refine .of_step (.breakOff initiator hkey) (View.ext_side initiator ?_ ?_ ?_ ?_)
  · exact (hsession initiator).symm
  · exact (hsession initiator.other).symm
  · simp [view, hsent, htask]
  · simp [view, hsent, htask]

theorem goes_setNode_breakOff {initiator : Side}
    (hquiet : net.sent side = [] ∧ (net.sent side.other).length = 0 ∧
      (net.node side.other).task = .idle ∧ (net.node initiator).getSessionKey = none)
    (hsession : node.session = (net.node side).session) (htask : node.task = .idle) :
    net.Goes config (net.setNode side node) := by
  obtain ⟨hsent, hsent', hother, hkey⟩ := hquiet
  refine goes_breakOff hkey ?_ ?_ ?_
  · intro one
    rcases Side.eq_or_other one side with rfl | rfl
    · simp [setNode, hsession]
    · simp [setNode, Side.other_ne]
  · intro one
    rcases Side.eq_or_other one side with rfl | rfl
    · exact hsent
    · exact List.length_eq_zero_iff.mp hsent'
  · intro one
    rcases Side.eq_or_other one side with rfl | rfl
    · simp [setNode, htask]
    · simp [setNode, Side.other_ne, hother]

theorem goes_receive (hidle : (net.node side).task = .idle)
    (horderly : net.Orderly config side .receive) :
    net.Goes config (net.step config side .receive) := by
  simp only [step, hidle]
  rcases hsent : net.sent side.other with _ | ⟨signal, rest⟩
  · exact .of_eq rfl
  dsimp only
  have hnode : (net.take side rest).node = net.node := rfl
  cases signal with
  | offer theirs =>
    simp only [handleSignal, handleOffer, hnode]
    split
    case isTrue hskip =>
      obtain ⟨hquiet, hlength, hother, hkey⟩ := horderly side.other
        (by simp [breaksOff, hidle, hsent, hskip])
      rw [hsent] at hlength
      obtain rfl : rest = [] := by simpa using hlength
      refine goes_breakOff hkey (fun _ => rfl) ?_ ?_
      · intro one
        rcases Side.eq_or_other one side with rfl | rfl
        · simpa [take, (Side.other_ne one).symm] using hquiet
        · simp [take]
      · intro one
        rcases Side.eq_or_other one side with rfl | rfl
        · exact hidle
        · exact hother
    case isFalse =>
      refine goes_answer (config.randomKey net.draws) theirs rest hidle ?_ ?_ ?_ ?_ ?_ ?_
      · simp [hsent, Signal.letter]
      · simp [setNode, take, Side.other_ne]
      · simp [setNode, take, drawn, Node.createSession, Node.completeSession]
      · simp [setNode, take]
      · simp [setNode, take]
      · simp [setNode, take, drawn, (Side.other_ne side).symm]
  | answer theirs =>
    refine .of_eq (View.ext_side side ?_ ?_ ?_ ?_)
    · simp [handleSignal, view, setNode, take]
    · simp [handleSignal, view, setNode, take, Side.other_ne]
    · simp [handleSignal, view, setNode, take, Side.other_ne, (Side.other_ne side).symm, hidle]
    · simp [handleSignal, view, setNode, take, Side.other_ne, Side.other_other, hidle, hsent,
        Signal.letter]
  | sessionKey theirs =>
    refine goes_answer (config.randomKey net.draws) theirs rest hidle ?_ ?_ ?_ ?_ ?_ ?_
    · simp [hsent, Signal.letter]
    · simp [handleSignal, handleSessionKey, setNode, sendSignal, take, Side.other_ne]
    · simp [handleSignal, handleSessionKey, setNode, sendSignal, take, drawn, Node.createSession,
        Node.completeSession]
    · simp [handleSignal, handleSessionKey, setNode, sendSignal, take, drawn, Node.createSession,
        Node.completeSession, hidle]
    · simp [handleSignal, handleSessionKey, setNode, sendSignal, take, Side.other_ne]
    · simp [handleSignal, handleSessionKey, setNode, sendSignal, take, drawn, Node.createSession,
        Node.completeSession, hidle, (Side.other_ne side).symm, Signal.letter]
  | sessionKeyAck theirs =>
    have hstream : (net.node side).task.taken ++ (net.sent side.other).map Signal.letter =
        ⟨false, theirs⟩ :: rest.map Signal.letter := by simp [hidle, hsent, Signal.letter]
    simp only [handleSignal, handleSessionKeyAck, hnode]
    cases hsession : (net.node side).session with
    | none =>
      refine goes_complete theirs rest hstream (by simp [hidle]) ?_ ?_ ?_ ?_ ?_
      all_goals simp [Node.completeSession, hsession, hidle, take, (Side.other_ne side).symm]
    | some session =>
      refine goes_complete theirs rest hstream (by simp [hidle]) ?_ ?_ ?_ ?_ ?_
      all_goals simp [Node.completeSession, hsession, hidle, take, setNode, Side.other_ne,
        (Side.other_ne side).symm]

theorem goes_applyAnswer {theirs : Pub} (htask : (net.node side).task = .applying theirs) :
    net.Goes config (net.applyAnswer config side theirs) := by
  have hstream : (net.node side).task.taken ++ (net.sent side.other).map Signal.letter =
      ⟨false, theirs⟩ :: (net.sent side.other).map Signal.letter := by simp [htask]
  unfold applyAnswer
  cases hsession : (net.node side).session with
  | none =>
    refine goes_complete theirs _ hstream (by simp [htask]) ?_ ?_ ?_ ?_ ?_
    all_goals simp [Node.completeSession, hsession, setNode, Side.other_ne]
  | some session =>
    refine goes_complete theirs _ hstream (by simp [htask]) ?_ ?_ ?_ ?_ ?_
    all_goals simp [Node.completeSession, hsession, setNode, Side.other_ne]

theorem step_goes (event : Event) (horderly : net.Orderly config side event) :
    net.Goes config (net.step config side event) := by
  -- most events are about one kind of task, and change nothing with another
  cases event with
  | initiate =>
    cases htask : (net.node side).task with
    | idle => simpa only [step, htask] using goes_initiate htask
    | connecting | offering | answering | applying => exact .of_eq (by simp only [step, htask])
  | peerJoin stale =>
    cases htask : (net.node side).task with
    | idle => simpa only [step, htask] using goes_peerJoin htask stale
    | connecting | offering | answering | applying => exact .of_eq (by simp only [step, htask])
  | wsConnected =>
    cases htask : (net.node side).task with
    | connecting pub =>
      simp only [step, htask]
      exact .of_eq (view_send rfl (by simp [htask, Signal.letter]) (by simp [htask]) rfl)
    | idle | offering | answering | applying => exact .of_eq (by simp only [step, htask])
  | wsFailed =>
    cases htask : (net.node side).task with
    | connecting pub =>
      simp only [step, htask]
      split
      case isTrue hmode =>
        have hquiet := horderly side (by simp [breaksOff, htask, hmode])
        exact goes_setNode_breakOff (by simpa using hquiet) rfl rfl
      case isFalse => exact .of_eq (view_setNode rfl (by simp [htask]) (by simp [htask]))
    | idle | offering | answering | applying => exact .of_eq (by simp only [step, htask])
  | offerCreated =>
    cases htask : (net.node side).task with
    | offering pub =>
      simp only [step, htask]
      exact .of_eq (view_send rfl (by simp [htask, Signal.letter]) (by simp [htask]) rfl)
    | idle | connecting | answering | applying => exact .of_eq (by simp only [step, htask])
  | offerFailed =>
    cases htask : (net.node side).task with
    | offering pub =>
      simp only [step, htask]
      have hquiet := horderly side (by simp [breaksOff, htask])
      exact goes_setNode_breakOff (by simpa using hquiet) rfl rfl
    | idle | connecting | answering | applying => exact .of_eq (by simp only [step, htask])
  | receive =>
    cases htask : (net.node side).task with
    | idle => exact goes_receive htask horderly
    | connecting | offering | answering | applying => exact .of_eq (by simp only [step, htask])
  | offerAnswered =>
    cases htask : (net.node side).task with
    | answering pub =>
      simp only [step, htask]
      exact .of_eq (view_send rfl (by simp [htask, Signal.letter]) (by simp [htask]) rfl)
    | idle | connecting | offering | applying => exact .of_eq (by simp only [step, htask])
  | offerRefused =>
    cases htask : (net.node side).task with
    | answering pub =>
      simp only [step, htask]
      have hquiet := horderly side.other (by simp [breaksOff, htask])
      exact goes_setNode_breakOff (by simpa using hquiet) rfl rfl
    | idle | connecting | offering | applying => exact .of_eq (by simp only [step, htask])
  | answerApplied =>
    cases htask : (net.node side).task with
    | applying theirs => simpa only [step, htask] using goes_applyAnswer htask
    | idle | connecting | offering | answering => exact .of_eq (by simp only [step, htask])
  | answerRefused =>
    cases htask : (net.node side).task with
    | applying theirs =>
      simp only [step, htask]
      have hquiet := horderly side (by simp [breaksOff, htask])
      exact goes_setNode_breakOff (by simpa using hquiet) rfl rfl
    | idle | connecting | offering | answering => exact .of_eq (by simp only [step, htask])
  | peerConnected transport =>
    simp only [step]
    exact .of_eq (view_setNode rfl rfl rfl)
  | peerDisconnected =>
    simp only [step]
    exact goes_forget _ rfl rfl
  | peerLeft =>
    simp only [step]
    split
    · exact goes_forget _ rfl rfl
    · exact .of_eq rfl

end Refines

def AllOrderly (config : Config Priv Pub Secret Key) (net : Network Priv Pub Key) :
    List (Side × Event) → Prop
  | [] => True
  | (side, event) :: rest =>
    net.Orderly config side event ∧ (net.step config side event).AllOrderly config rest

def Quiescent (net : Network Priv Pub Key) : Prop :=
  ∀ side, net.sent side = [] ∧ (net.node side).task = .idle

theorem init_paired (config : Config Priv Pub Secret Key) :
    (init : Network Priv Pub Key).view.Paired config.kx := by
  refine ⟨?_, ?_⟩
  · rintro side ⟨letter, hletter, -⟩
    simp [view, init, Node.init] at hletter
  · intro _ key hkey
    cases hkey

theorem Goes.paired {config : Config Priv Pub Secret Key} {net next : Network Priv Pub Key}
    (hgoes : net.Goes config next) (hpaired : net.view.Paired config.kx) :
    next.view.Paired config.kx := by
  unfold Goes at hgoes
  generalize next.view = view at hgoes ⊢
  induction hgoes with
  | refl => exact hpaired
  | tail _ hstep ih => exact ih.step hstep

theorem run_paired {config : Config Priv Pub Secret Key} {net : Network Priv Pub Key}
    {events : List (Side × Event)} (hpaired : net.view.Paired config.kx)
    (horderly : net.AllOrderly config events) : (net.run config events).view.Paired config.kx := by
  induction events generalizing net with
  | nil => exact hpaired
  | cons event rest ih => exact ih ((step_goes event.2 horderly.1).paired hpaired) horderly.2

theorem Quiescent.finalKey {net : Network Priv Pub Key} (hquiet : net.Quiescent)
    (kx : KeyExchange Priv Pub Secret Key) (side : Side) :
    net.view.finalKey kx side = (net.node side).getSessionKey := by
  simp [View.finalKey, View.key, view, Node.getSessionKey, (hquiet _).1, (hquiet _).2]

end Network

/-- In a run in which no exchange breaks off beside another one, two sides that both hold a
session key when nothing is under way hold the same key. -/
theorem session_keys_agree {Priv Pub Secret Key : Type} (config : Config Priv Pub Secret Key)
    (events : List (Side × Event)) (net : Network Priv Pub Key)
    (hnet : net = Network.init.run config events) (horderly : Network.init.AllOrderly config events)
    (hquiet : net.Quiescent) {key key' : Key} (hkey : (net.node .left).getSessionKey = some key)
    (hkey' : (net.node .right).getSessionKey = some key') : key = key' := by
  have hpaired := Network.run_paired (Network.init_paired config) horderly
  rw [← hnet] at hpaired
  refine hpaired.agreed ?_ key ?_ key' ?_
  · intro side letter hletter
    simp [Network.view, (hquiet _).1, (hquiet _).2] at hletter
  · rw [hquiet.finalKey]
    exact hkey
  · rw [hquiet.finalKey]
    exact hkey'

/-! Two sides that try the data server only, with numbers for keys and the unordered pair of
both keys as the shared secret. -/

def sampleExchange : KeyExchange Nat Nat (Nat × Nat) (Nat × Nat) where
  getPublicKey := id
  getSharedSecret a b := (min a b, max a b)
  hkdf := id
  comm a b := by simp [Nat.min_comm, Nat.max_comm]

def sampleSides : Config Nat Nat (Nat × Nat) (Nat × Nat) where
  kx := sampleExchange
  randomKey := id
  side := fun _ => ⟨.websocket, true, false⟩

theorem Network.Orderly.of_none {Priv Pub Secret Key : Type} {config : Config Priv Pub Secret Key}
    {net : Network Priv Pub Key} {side : Side} {event : Event}
    (hnone : net.breaksOff config side event = none) : net.Orderly config side event := by
  intro initiator hinitiator
  rw [hnone] at hinitiator
  cases hinitiator

/-- A connection that fails alone, and then both sides initiating at once. -/
def crossingRun : List (Side × Event) :=
  [(.left, .initiate), (.left, .wsFailed), (.left, .initiate), (.right, .initiate),
    (.left, .wsConnected), (.right, .wsConnected), (.left, .receive), (.right, .receive),
    (.left, .receive), (.right, .receive)]

theorem crossing_requests_agree :
    ((Network.init.run sampleSides crossingRun).node .left).getSessionKey = some (3, 4) ∧
      ((Network.init.run sampleSides crossingRun).node .right).getSessionKey = some (3, 4) := by
  obtain ⟨key, hkey⟩ : ∃ key,
      ((Network.init.run sampleSides crossingRun).node .left).getSessionKey = some key := ⟨_, rfl⟩
  have hquiet : (Network.init.run sampleSides crossingRun).Quiescent := by
    intro side
    cases side <;> exact ⟨rfl, rfl⟩
  have horderly : Network.init.AllOrderly sampleSides crossingRun := by
    refine ⟨.of_none rfl, ?_, .of_none rfl, .of_none rfl,
      .of_none rfl, .of_none rfl, .of_none rfl, .of_none rfl,
      .of_none rfl, .of_none rfl, trivial⟩
    intro initiator hinitiator
    cases hinitiator
    exact ⟨rfl, rfl, rfl, rfl⟩
  have hagree := session_keys_agree sampleSides crossingRun _ rfl horderly hquiet hkey rfl
  exact ⟨hkey.trans (congrArg some hagree), rfl⟩

/-- The left side loses its connection while the reply is on its way, fails to connect again,
and completes the session that this attempt left behind with the late reply. -/
def lateReplyRun : List (Side × Event) :=
  [(.left, .initiate), (.left, .wsConnected), (.right, .receive), (.left, .peerDisconnected),
    (.left, .initiate), (.left, .wsFailed), (.left, .receive)]

theorem late_reply_splits_keys :
    (Network.init.run sampleSides lateReplyRun).sent .left = [] ∧
      (Network.init.run sampleSides lateReplyRun).sent .right = [] ∧
      ((Network.init.run sampleSides lateReplyRun).node .left).task = .idle ∧
      ((Network.init.run sampleSides lateReplyRun).node .right).task = .idle ∧
      ((Network.init.run sampleSides lateReplyRun).node .left).getSessionKey = some (1, 2) ∧
      ((Network.init.run sampleSides lateReplyRun).node .right).getSessionKey = some (0, 1) :=
  ⟨rfl, rfl, rfl, rfl, rfl, rfl⟩

end Meshpn.Control
