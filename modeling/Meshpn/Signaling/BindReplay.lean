import Mathlib.Data.List.Induction
import Meshpn.Lib.Runs
import Meshpn.Signaling.ExitSignaling

/-!
What a session remembers against what the process has done. The nonces and the
signed fingerprint that a session holds are those accepted on its socket since
its last reset; so a nonce is accepted once between two resets of a socket, and
a description reaches a peer connection only past the check against the bind
accepted last. Another socket, or a session after a reset, starts from nothing.

Every fingerprint of a description against the signed one. The check compares
one match of the pattern with the signed fingerprint; it covers the other
fingerprint lines of the text exactly when they all name the same fingerprint.
-/

namespace Meshpn.Signaling

open Meshpn.Lib

/-- What was signed on a socket since its last reset. -/
structure Signed where
  nonces : List (Option Text)
  expected : Option Text

def Signed.none : Signed := ⟨[], .none⟩

def Signed.step (socket : Nat) (signed : Signed) : Entry → Signed
  | .accepted on msg _ =>
    if on = socket then ⟨signed.nonces ++ [msg.nonce], msg.fingerprint⟩ else signed
  | .reset on _ => if on = socket then .none else signed
  | .rejected .. | .setRemoteDescription .. | .destroyed _ => signed

def signedOn (socket : Nat) (journal : List Entry) : Signed :=
  journal.foldl (Signed.step socket) .none

def Session.signed (session : Session) : Signed :=
  ⟨session.seenNonces, session.expectedRemoteFingerprint⟩

def ExitProcess.signed (exit : ExitProcess) (socket : Nat) : Signed :=
  (exit.sockets[socket]?).elim .none Session.signed

section Sound

variable {Psk : Type} (config : Config Psk)

/-- An accepted bind is verified and its nonce is new since the last reset of its socket; with
a key, a description that is applied has the fingerprint that was signed last. -/
def Checked (before : List Entry) : Entry → Prop
  | .accepted socket msg now =>
    msg.nonce ∉ (signedOn socket before).nonces ∧
      ∃ psk ∈ config.psk, verifySignalingBind config psk (some msg) now = none
  | .setRemoteDescription socket _ _ sdp =>
    config.psk.isSome → sdpCheck config (signedOn socket before).expected sdp = true
  | .rejected .. | .reset .. | .destroyed _ => True

structure Sound (exit : ExitProcess) : Prop where
  remembered : ∀ socket, signedOn socket exit.journal = exit.signed socket
  checked : Log.Each (Checked config) exit.journal

theorem signedOn_log (journal : List Entry) (entry : Entry) (socket : Nat) :
    signedOn socket (journal ++ [entry]) = (signedOn socket journal).step socket entry := by
  simp [signedOn]

theorem init_sound : Sound config .init :=
  ⟨fun _ => rfl, .nil⟩

variable {config} {exit : ExitProcess} {socket : Nat} {session next : Session}

theorem signed_update (hsession : exit.sockets[socket]? = some session) (next : Session)
    (other : Nat) :
    (exit.update socket next).signed other =
      if other = socket then next.signed else exit.signed other := by
  obtain ⟨hlt, -⟩ := List.getElem?_eq_some_iff.mp hsession
  unfold ExitProcess.signed ExitProcess.update
  by_cases heq : other = socket
  · subst heq
    simp [hlt]
  · rw [if_neg heq, List.getElem?_set_ne (Ne.symm heq)]

theorem signed_of_session (hsession : exit.sockets[socket]? = some session) :
    exit.signed socket = session.signed := by
  rw [ExitProcess.signed, hsession]
  rfl

theorem Sound.write (hsound : Sound config exit) (hsession : exit.sockets[socket]? = some session)
    {entry : Entry} (hsocket : session.signed.step socket entry = next.signed)
    (hothers : ∀ other ≠ socket, ∀ signed : Signed, signed.step other entry = signed)
    (hchecked : Checked config exit.journal entry) :
    Sound config ((exit.update socket next).log entry) := by
  constructor
  · intro other
    change signedOn other (exit.journal ++ [entry]) = (exit.update socket next).signed other
    rw [signedOn_log, hsound.remembered, signed_update hsession next]
    by_cases heq : other = socket
    · rw [if_pos heq, heq, signed_of_session hsession]
      exact hsocket
    · rw [if_neg heq]
      exact hothers other heq _
  · exact hsound.checked.snoc hchecked

theorem Sound.note (hsound : Sound config exit) {entry : Entry}
    (hneutral : ∀ (other : Nat) (signed : Signed), signed.step other entry = signed)
    (hchecked : Checked config exit.journal entry) : Sound config (exit.log entry) := by
  constructor
  · intro other
    change signedOn other (exit.journal ++ [entry]) = exit.signed other
    rw [signedOn_log, hneutral]
    exact hsound.remembered other
  · exact hsound.checked.snoc hchecked

theorem Sound.closeWithReason (hsound : Sound config exit) (socket : Nat) (reason : String) :
    Sound config (exit.closeWithReason socket reason) :=
  hsound.note (fun _ _ => rfl) trivial

theorem Sound.dropPc (hsound : Sound config exit) (pc : Option Nat) :
    Sound config (exit.dropPc pc) := by
  cases pc with
  | none => exact hsound
  | some dead =>
    have hnoted : Sound config (exit.log (.destroyed dead)) := hsound.note (fun _ _ => rfl) trivial
    exact ⟨hnoted.remembered, hnoted.checked⟩

theorem dropPc_sockets (pc : Option Nat) : (exit.dropPc pc).sockets = exit.sockets := by
  cases pc <;> rfl

theorem Sound.resetWebrtcSession (hsound : Sound config exit)
    (hsession : exit.sockets[socket]? = some session) (closing : Session) (reason : String) :
    Sound config (exit.resetWebrtcSession socket closing reason) := by
  refine (hsound.dropPc closing.connPc).write (by rw [dropPc_sockets]; exact hsession) ?_ ?_ trivial
  · simp [Signed.step, Session.signed, Session.init, Signed.none]
  · intro other hother signed
    simp [Signed.step, Ne.symm hother]

theorem Sound.setupInitiator (hsound : Sound config exit)
    (hsession : exit.sockets[socket]? = some session) :
    Sound config (exit.setupInitiator socket session) := by
  refine ⟨?_, hsound.checked⟩
  intro other
  have hupdate := signed_update hsession
    { session with handshakeDone := true, connPc := some exit.pcs } other
  refine (hsound.remembered other).trans (Eq.trans ?_ hupdate.symm)
  split
  case isTrue heq =>
    rw [heq, signed_of_session hsession]
    rfl
  case isFalse => rfl

theorem Sound.onBind (hsound : Sound config exit) (hsession : exit.sockets[socket]? = some session)
    (msg : Bind) (now : ℚ) : Sound config (exit.onBind config socket session msg now) := by
  unfold ExitProcess.onBind
  split
  · split
    · exact hsound.closeWithReason socket _
    · exact hsound
  rename_i psk hpsk
  split
  · exact hsound.closeWithReason socket _
  rename_i hverified
  split
  · exact hsound.closeWithReason socket _
  rename_i hnew
  refine hsound.write hsession ?_ ?_ ⟨?_, psk, hpsk, hverified⟩
  · simp [Signed.step, Session.signed]
  · intro other hother signed
    simp [Signed.step, Ne.symm hother]
  · rw [hsound.remembered, signed_of_session hsession]
    exact hnew

theorem Sound.onReady (hsound : Sound config exit)
    (hsession : exit.sockets[socket]? = some session) :
    Sound config (exit.onReady config socket session) := by
  unfold ExitProcess.onReady
  split
  · exact hsound.closeWithReason socket _
  split
  · refine (hsound.resetWebrtcSession hsession session _).setupInitiator ?_
    obtain ⟨hlt, -⟩ := List.getElem?_eq_some_iff.mp hsession
    simp [ExitProcess.resetWebrtcSession, ExitProcess.log, ExitProcess.update, dropPc_sockets,
      hlt]
  · exact hsound.setupInitiator hsession

theorem Sound.applyDescription (hsound : Sound config exit) (socket : Nat) (session : Session)
    (type : DescriptionType) {sdp : Option Text}
    (hcheck : config.psk.isSome → sdpCheck config (exit.signed socket).expected sdp = true) :
    Sound config (exit.applyDescription socket session type sdp) := by
  unfold ExitProcess.applyDescription
  split
  · exact hsound
  refine hsound.note (fun _ _ => rfl) ?_
  rw [Checked, hsound.remembered]
  exact hcheck

theorem Sound.onDescription (hsound : Sound config exit)
    (hsession : exit.sockets[socket]? = some session) (type : DescriptionType)
    (sdp : Option Text) : Sound config (exit.onDescription config socket session type sdp) := by
  unfold ExitProcess.onDescription
  split
  · split
    · exact hsound.closeWithReason socket _
    · split
      · exact hsound.closeWithReason socket _
      case isFalse hcheck =>
        refine hsound.applyDescription socket session type ?_
        rw [signed_of_session hsession]
        intro _
        simpa [Session.signed] using hcheck
  case h_2 hpsk =>
    split
    · exact hsound.closeWithReason socket _
    · exact hsound.applyDescription socket session type (by simp [hpsk])

theorem Sound.onConnection (hsound : Sound config exit) : Sound config exit.onConnection := by
  have hdropped := hsound.dropPc exit.webrtcPc
  refine ⟨?_, hdropped.checked⟩
  intro socket
  refine (hdropped.remembered socket).trans ?_
  unfold ExitProcess.signed ExitProcess.onConnection
  dsimp only
  generalize (exit.dropPc exit.webrtcPc).sockets = sockets
  rcases Nat.lt_trichotomy socket sockets.length with hlt | rfl | hgt
  · rw [List.getElem?_append_left hlt]
  · simp [Session.init, Session.signed, Signed.none]
  have hpast : (sockets ++ [Session.init]).length ≤ socket := by
    rw [List.length_append]
    exact hgt
  rw [List.getElem?_eq_none (Nat.le_of_lt hgt), List.getElem?_eq_none hpast]

theorem Sound.step (hsound : Sound config exit) (event : Event) :
    Sound config (exit.step config event) := by
  unfold ExitProcess.step
  cases event with
  | connection => exact hsound.onConnection
  | message socket now msg =>
    dsimp only
    split
    case h_2 => exact hsound
    rename_i session hsession
    split
    · exact hsound
    cases msg with
    | bind msg => exact hsound.onBind hsession msg now
    | ready => exact hsound.onReady hsession
    | description type sdp => exact hsound.onDescription hsession type sdp
    | other => exact hsound
  | dcClosed socket =>
    dsimp only
    split
    case h_2 => exact hsound
    rename_i session hsession
    split
    · exact hsound.resetWebrtcSession hsession session _
    · exact hsound
  | wireDown socket =>
    dsimp only
    split
    case h_2 => exact hsound
    case h_1 session hsession => exact hsound.resetWebrtcSession hsession session _
  | close socket =>
    dsimp only
    split
    case h_2 => exact hsound
    case h_1 session hsession => exact hsound.resetWebrtcSession hsession _ _

theorem Sound.run (hsound : Sound config exit) (events : List Event) :
    Sound config (exit.run config events) := by
  induction events generalizing exit with
  | nil => exact hsound
  | cons event rest ih => exact ih (hsound.step event)

end Sound

theorem mem_signedOn_append {socket : Nat} {nonce : Option Text} {before more : List Entry}
    (hbefore : nonce ∈ (signedOn socket before).nonces)
    (hkept : ∀ reason, Entry.reset socket reason ∉ more) :
    nonce ∈ (signedOn socket (before ++ more)).nonces := by
  induction more generalizing before with
  | nil => simpa using hbefore
  | cons entry rest ih =>
    rw [List.append_cons]
    refine ih ?_ (fun reason h => hkept reason (List.mem_cons_of_mem _ h))
    rw [signedOn_log]
    unfold Signed.step
    split
    · split
      · exact List.mem_append_left _ hbefore
      · exact hbefore
    case h_2 on reason =>
      split
      case isTrue heq => exact absurd (heq ▸ List.mem_cons_self) (hkept reason)
      case isFalse => exact hbefore
    all_goals exact hbefore

/-- In every run of the exit, an accepted bind is verified at the time it comes in, and two
acceptances of one nonce on one socket have a reset of that socket's session between them. -/
theorem bind_accepted_once_per_session {Psk : Type} (config : Config Psk) (events : List Event)
    (journal : List Entry) (hjournal : journal = (ExitProcess.init.run config events).journal) :
    (∀ socket msg now, Entry.accepted socket msg now ∈ journal →
      ∃ psk ∈ config.psk, verifySignalingBind config psk (some msg) now = none) ∧
    ∀ before first t between second t' after socket,
      journal = before ++ .accepted socket first t ::
        (between ++ .accepted socket second t' :: after) →
      first.nonce = second.nonce → ∃ reason, Entry.reset socket reason ∈ between := by
  have hchecked := ((init_sound config).run events).checked
  rw [← hjournal] at hchecked
  constructor
  · intro socket msg now hin
    obtain ⟨before, after, hsplit⟩ := List.append_of_mem hin
    exact (hchecked before _ after hsplit).2
  · intro before first t between second t' after socket hsplit hnonce
    by_contra hkept
    obtain ⟨hnew, -⟩ := hchecked (before ++ [.accepted socket first t] ++ between)
      (.accepted socket second t') after (by simp [hsplit])
    refine hnew (hnonce ▸ mem_signedOn_append ?_ (fun reason h => hkept ⟨reason, h⟩))
    rw [signedOn_log]
    simp [Signed.step]

/-! A key, a bind signed with it, and the keyed hash of that bind. -/

def sampleBind : Bind :=
  ⟨some "sha-256 AA:BB".toList, some "0123456789abcdef".toList, some 1700000000000,
    some "719b9008dc754f26678e73649032860a".toList⟩

def sampleExit : Config Bytes where
  psk := some ((List.range 32).map UInt8.ofNat)
  pskRequired := true
  hmac := fun _ _ => [113, 155, 144, 8, 220, 117, 79, 38, 103, 142, 115, 100, 144, 50, 134, 10,
    23, 47, 148, 155, 108, 217, 140, 70, 160, 75, 14, 149, 109, 12, 201, 244]
  showNumber := fun _ => "1700000000000".toList
  toLowerCase := List.map Char.toLower

/-- The bind comes in three times: before and after a reset, and on a second socket. -/
def replayedBind : List Event :=
  [.connection, .message 0 1700000000000 .ready, .message 0 1700000000000 (.bind sampleBind),
    .message 0 1700000001000 .ready, .message 0 1700000001000 (.bind sampleBind), .connection,
    .message 1 1700000002000 (.bind sampleBind)]

theorem replayed_bind_between_resets :
    ∃ reason, Entry.reset 0 reason ∈ [Entry.destroyed 0, .reset 0 "повторный clean-vpn-ready"] :=
  (bind_accepted_once_per_session sampleExit (replayedBind.take 5) _ rfl).2 []
    sampleBind 1700000000000 [.destroyed 0, .reset 0 "повторный clean-vpn-ready"]
    sampleBind 1700000001000 [] 0 (by decide +kernel) rfl

def acceptedAt (msg : Bind) : Entry → Option (Nat × ℚ)
  | .accepted socket other now => if other = msg then some (socket, now) else none
  | _ => none

/-- One signed bind is accepted three times within the window of its timestamp. -/
theorem bind_replayed_across_resets :
    (ExitProcess.init.run sampleExit replayedBind).journal.filterMap (acceptedAt sampleBind) =
      [(0, 1700000000000), (0, 1700000001000), (1, 1700000002000)] := by
  decide +kernel

def lines (text : Text) : List Text :=
  (lineStarts text).map (List.takeWhile fun c => !isLineTerminator c)

def fingerprintLines (sdp : Text) : List Text :=
  (lines sdp).filter fun line => fingerprintAttribute <+: line

def HasMatch (text : Text) : Prop :=
  ∃ algorithm hash lead gap ending after, Matches text algorithm hash lead gap ending after

/-- The line has the form of a fingerprint attribute from its start to its end, and its
fingerprint is the given one up to case and spaces. -/
def Names (toLowerCase : Text → Text) (line fingerprint : Text) : Prop :=
  ∃ algorithm hash lead gap ending, Matches line algorithm hash lead gap ending [] ∧
    norm toLowerCase (toLowerCase algorithm ++ ' ' :: toUpperHash hash) =
      norm toLowerCase fingerprint

theorem Matches.append {line algorithm hash lead gap ending : Text}
    (hmatch : Matches line algorithm hash lead gap ending []) {rest : Text}
    (hrest : ∀ c ∈ rest.head?, isLineTerminator c = true) :
    Matches (line ++ rest) algorithm hash lead gap ending rest := by
  obtain ⟨hsplit, hlead, halgorithm, hgap, hhash, hending, -⟩ := hmatch
  exact ⟨by simp [hsplit], hlead, halgorithm, hgap, hhash, hending, hrest⟩

theorem Matches.line_mem {sdp start algorithm hash lead gap ending after : Text}
    (hmatch : Matches start algorithm hash lead gap ending after)
    (hstart : start ∈ lineStarts sdp) :
    start.takeWhile (fun c => !isLineTerminator c) ∈ fingerprintLines sdp := by
  refine List.mem_filter.mpr ⟨List.mem_map_of_mem hstart, ?_⟩
  have hplain : ∀ c ∈ fingerprintAttribute, (!isLineTerminator c) = true :=
    List.all_eq_true.mp (by decide)
  rw [hmatch.split, List.takeWhile_append_of_pos hplain]
  exact decide_eq_true (List.prefix_append _ _)

theorem Names.groups {toLowerCase : Text → Text} (start : Text) {algorithm hash fingerprint : Text}
    (hnames : Names toLowerCase (start.takeWhile fun c => !isLineTerminator c) fingerprint)
    (hfound : matchAttribute start = some (algorithm, hash)) :
    norm toLowerCase (toLowerCase algorithm ++ ' ' :: toUpperHash hash) =
      norm toLowerCase fingerprint := by
  obtain ⟨algorithm', hash', lead, gap, ending, hmatch, hnorm⟩ := hnames
  have hrest : ∀ c ∈ (start.dropWhile fun c => !isLineTerminator c).head?,
      isLineTerminator c = true := by
    intro c hc
    simpa using Runs.stops_dropWhile start c hc
  have hwhole := (hmatch.append hrest).computes
  rw [List.takeWhile_append_dropWhile, hfound] at hwhole
  cases hwhole
  exact hnorm

section Check

variable {Psk : Type} {config : Config Psk} {sdp signed : Text}

theorem sdpCheck_iff : sdpCheck config (some signed) (some sdp) = true ↔
    signed ≠ [] ∧ ∃ groups, (lineStarts sdp).findSome? matchAttribute = some groups ∧
      norm config.toLowerCase (config.toLowerCase groups.1 ++ ' ' :: toUpperHash groups.2) =
        norm config.toLowerCase signed := by
  rw [sdpCheck, Option.bind_some, extractDtlsFingerprintFromSdp]
  cases (lineStarts sdp).findSome? matchAttribute with
  | none => simp [signalingFingerprintsEqual]
  | some groups => simp [signalingFingerprintsEqual]

/-- What a socket has signed was accepted on it, with no bind accepted and no reset since. -/
theorem signedOn_expected {socket : Nat} {journal : List Entry} {fingerprint : Text}
    (hexpected : (signedOn socket journal).expected = some fingerprint) :
    ∃ earlier msg now later, journal = earlier ++ .accepted socket msg now :: later ∧
      msg.fingerprint = some fingerprint ∧
      ∀ entry ∈ later, ∀ signed : Signed, signed.step socket entry = signed := by
  induction journal using List.reverseRecOn with
  | nil => cases hexpected
  | append_singleton front last ih =>
    rw [signedOn_log] at hexpected
    by_cases hneutral : ∀ signed : Signed, signed.step socket last = signed
    · rw [hneutral] at hexpected
      obtain ⟨earlier, msg, now, later, rfl, hmsg, hlater⟩ := ih hexpected
      refine ⟨earlier, msg, now, later ++ [last], by simp, hmsg, ?_⟩
      intro entry hentry
      rcases List.mem_append.mp hentry with h | h
      · exact hlater entry h
      · rw [List.mem_singleton.mp h]
        exact hneutral
    · cases last with
      | accepted on msg now =>
        by_cases hon : on = socket
        · subst hon
          rw [Signed.step, if_pos rfl] at hexpected
          exact ⟨front, msg, now, [], rfl, hexpected, by simp⟩
        · exact absurd (fun signed => if_neg hon) hneutral
      | reset on reason =>
        by_cases hon : on = socket
        · rw [Signed.step, if_pos hon] at hexpected
          cases hexpected
        · exact absurd (fun signed => if_neg hon) hneutral
      | rejected | setRemoteDescription | destroyed => exact absurd (fun _ => rfl) hneutral

/-- With a key, a description that reaches a peer connection has passed the check against the
bind that its session accepted last. -/
theorem applied_description_signed (events : List Event) {before after : List Entry}
    {socket pc : Nat} {type : DescriptionType} {sdp : Option Text}
    (hjournal : (ExitProcess.init.run config events).journal =
      before ++ .setRemoteDescription socket pc type sdp :: after)
    (hpsk : config.psk.isSome = true) :
    ∃ earlier msg now later, before = earlier ++ .accepted socket msg now :: later ∧
      sdpCheck config msg.fingerprint sdp = true ∧
      ∀ entry ∈ later, ∀ signed : Signed, signed.step socket entry = signed := by
  have hcheck := ((init_sound config).run events).checked _ _ _ hjournal hpsk
  cases hexpected : (signedOn socket before).expected with
  | none =>
    rw [hexpected] at hcheck
    unfold sdpCheck signalingFingerprintsEqual at hcheck
    split at hcheck
    case h_1 hnone => cases hnone
    case h_2 => cases hcheck
  | some fingerprint =>
    obtain ⟨earlier, msg, now, later, hbefore, hmsg, hlater⟩ := signedOn_expected hexpected
    exact ⟨earlier, msg, now, later, hbefore, by rw [hmsg, ← hexpected]; exact hcheck, hlater⟩

theorem not_hasMatch_iff : (∀ start ∈ lineStarts sdp, ¬HasMatch start) ↔
    (lineStarts sdp).findSome? matchAttribute = none := by
  rw [List.findSome?_eq_none_iff]
  refine forall₂_congr fun start _ => ?_
  constructor
  · intro hnone
    cases hfound : matchAttribute start with
    | none => rfl
    | some groups => exact absurd ⟨_, _, matchAttribute_matches hfound⟩ hnone
  · rintro hnone ⟨_, _, _, _, _, _, hmatch⟩
    rw [hmatch.computes] at hnone
    cases hnone

end Check

/-- A description that passes the check against whatever was signed has the signed fingerprint
on all its fingerprint lines if and only if it has no match of the pattern at all, or its
fingerprint lines all name one and the same fingerprint. -/
theorem sdp_fingerprints_pinned_iff {Psk : Type} (config : Config Psk) (sdp : Text) :
    (∀ signed, sdpCheck config (some signed) (some sdp) = true →
      ∀ line ∈ fingerprintLines sdp, Names config.toLowerCase line signed) ↔
    (∀ start ∈ lineStarts sdp, ¬HasMatch start) ∨
      ∃ fingerprint, ∀ line ∈ fingerprintLines sdp, Names config.toLowerCase line fingerprint := by
  rw [not_hasMatch_iff]
  constructor
  · intro hpinned
    cases hfound : (lineStarts sdp).findSome? matchAttribute with
    | none => exact .inl rfl
    | some groups =>
      refine .inr ⟨_, hpinned _ (sdpCheck_iff.mpr ⟨?_, groups, hfound, rfl⟩)⟩
      simp
  · rintro (hnone | ⟨fingerprint, hsame⟩) signed hcheck line hline
    · obtain ⟨-, groups, hfound, -⟩ := sdpCheck_iff.mp hcheck
      rw [hnone] at hfound
      cases hfound
    · obtain ⟨-, ⟨algorithm, hash⟩, hfound, hsigned⟩ := sdpCheck_iff.mp hcheck
      obtain ⟨start, hstart, hgroups⟩ := List.exists_of_findSome?_eq_some hfound
      obtain ⟨lead, gap, ending, after, hmatch⟩ := matchAttribute_matches hgroups
      have hfirst := (hsame _ (hmatch.line_mem hstart)).groups start hgroups
      obtain ⟨algorithm', hash', lead', gap', ending', hmatch', hnorm⟩ := hsame line hline
      exact ⟨algorithm', hash', lead', gap', ending', hmatch',
        hnorm.trans (hfirst.symm.trans hsigned)⟩

/-- A description with a fingerprint at session level and another one for its media. -/
def twoFingerprints : Text :=
  "v=0\r\na=fingerprint:sha-256 AA:BB\r\nm=application 9\r\na=fingerprint:sha-256 CC:DD\r\n".toList

theorem second_fingerprint_unchecked :
    sdpCheck sampleExit sampleBind.fingerprint (some twoFingerprints) = true ∧
      "a=fingerprint:sha-256 CC:DD".toList ∈ fingerprintLines twoFingerprints ∧
      ¬Names sampleExit.toLowerCase "a=fingerprint:sha-256 CC:DD".toList
        "sha-256 AA:BB".toList := by
  refine ⟨by decide +kernel, by decide +kernel, ?_⟩
  intro hnames
  have hnorm := Names.groups "a=fingerprint:sha-256 CC:DD".toList hnames rfl
  revert hnorm
  decide +kernel

end Meshpn.Signaling
