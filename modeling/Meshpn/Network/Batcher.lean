import Mathlib.Algebra.Order.BigOperators.Group.List
import Mathlib.Logic.Function.Basic
import Meshpn.Lib.Bytes
import Meshpn.Lib.Table

/-!
The packet batcher. The map gives each peer a batch object, and the callback of a timer holds
the object that was current when the timer started, so an object may live on after the map has
another one in its place. Objects are numbered in the order in which they are made; one that is
not made yet is empty.

Every packet given to the batcher is sent to its peer once and in order. The objects that the
map has dropped are empty and have no timer, so a timer that expires always flushes the batch
that is in the map.
-/

namespace Meshpn.Network

open Meshpn.Lib

def maxBatchSize : Nat := 16384

/-- `_createBatch`; the count and the lengths have room in their fields. -/
def createBatch (packets : List Bytes) : Bytes :=
  0xFF :: 0xFF :: Bytes.ofUInt16 packets.length ++
    packets.flatMap fun packet => Bytes.ofUInt32 packet.length ++ packet

/-- The loop of `unbatch`, over what is left of the data. -/
def readPackets : Nat → Bytes → List Bytes
  | 0, _ => []
  | count + 1, rest =>
    match Bytes.readUInt32 rest with
    | none => []
    | some pktLen =>
      if (rest.drop 4).length < pktLen then []
      else (rest.drop 4).take pktLen :: readPackets count ((rest.drop 4).drop pktLen)

def unbatch : Bytes → List Bytes
  | 0xFF :: 0xFF :: high :: low :: rest => readPackets (Bytes.toUInt16 high low) rest
  | data => [data]

/-- The first two bytes are those of a batch. -/
def marked (packet : Bytes) : Bool := packet.take 2 == [0xFF, 0xFF]

/-- What `_flush` sends: one packet as it is, several as a batch. -/
def wire : List Bytes → Bytes
  | [packet] => packet
  | packets => createBatch packets

structure Batch where
  packets : List Bytes
  size : Nat
  timer : Option Nat
  deriving DecidableEq, Repr

def Batch.empty : Batch := ⟨[], 0, none⟩

structure PacketBatcher (Peer : Type) where
  batches : Table Peer Nat
  objects : Nat → Batch
  /-- How many objects were made. -/
  made : Nat
  /-- The timers that are running, with the peer and the object of the callback. -/
  timers : Table Nat (Peer × Nat)
  /-- How many timers were started. -/
  started : Nat
  /-- What `sendFn` was called with. -/
  sent : List (Peer × Bytes)

namespace PacketBatcher

section Operations

variable {Peer : Type} [DecidableEq Peer]

def init : PacketBatcher Peer := ⟨.empty, fun _ => .empty, 0, .empty, 0, []⟩

def put (b : PacketBatcher Peer) (ref : Nat) (batch : Batch) : PacketBatcher Peer :=
  { b with objects := Function.update b.objects ref batch }

/-- `clearTimeout(batch.timer); batch.timer = null`, where there is a timer. -/
def clearTimer (b : PacketBatcher Peer) (ref : Nat) : PacketBatcher Peer :=
  match (b.objects ref).timer with
  | none => b
  | some id =>
    { b.put ref { b.objects ref with timer := none } with timers := b.timers.delete id }

def flush (b : PacketBatcher Peer) (peerId : Peer) (ref : Nat) : PacketBatcher Peer :=
  let b := b.clearTimer ref
  if (b.objects ref).packets.isEmpty then b
  else
    { b.put ref { b.objects ref with packets := [], size := 0 } with
      sent := b.sent ++ [(peerId, wire (b.objects ref).packets)] }

/-- A new batch takes its place in the map. -/
def fresh (b : PacketBatcher Peer) (peerId : Peer) : PacketBatcher Peer :=
  { b with batches := b.batches.set peerId b.made, made := b.made + 1 }

/-- The batch of the peer, a new one where there is none. -/
def current (b : PacketBatcher Peer) (peerId : Peer) : PacketBatcher Peer × Nat :=
  match b.batches.get peerId with
  | none => (b.fresh peerId, b.made)
  | some ref => (b, ref)

/-- A batch with no room for the packet is flushed and replaced. -/
def makeRoom (b : PacketBatcher Peer) (peerId : Peer) (ref packetSize : Nat) :
    PacketBatcher Peer × Nat :=
  if (b.objects ref).size > 0 && (b.objects ref).size + packetSize > maxBatchSize then
    ((b.flush peerId ref).fresh peerId, b.made)
  else (b, ref)

def push (b : PacketBatcher Peer) (ref : Nat) (packet : Bytes) : PacketBatcher Peer :=
  b.put ref { b.objects ref with
    packets := (b.objects ref).packets ++ [packet]
    size := (b.objects ref).size + (4 + packet.length) }

/-- A timer starts unless one is running. -/
def startTimer (b : PacketBatcher Peer) (peerId : Peer) (ref : Nat) : PacketBatcher Peer :=
  match (b.objects ref).timer with
  | some _ => b
  | none =>
    { b.put ref { b.objects ref with timer := some b.started } with
      timers := b.timers.set b.started (peerId, ref)
      started := b.started + 1 }

/-- The end of `add`. -/
def flushFull (b : PacketBatcher Peer) (peerId : Peer) (ref : Nat) : PacketBatcher Peer :=
  if (b.objects ref).size ≥ maxBatchSize then b.flush peerId ref else b

def add (b : PacketBatcher Peer) (peerId : Peer) (packet : Bytes) : PacketBatcher Peer :=
  let (b, ref) := b.current peerId
  let (b, ref) := b.makeRoom peerId ref (4 + packet.length)
  ((b.push ref packet).startTimer peerId ref).flushFull peerId ref

/-- A timer that is running expires. -/
def expire (b : PacketBatcher Peer) (id : Nat) : PacketBatcher Peer :=
  match b.timers.get id with
  | none => b
  | some (peerId, ref) => { b with timers := b.timers.delete id }.flush peerId ref

def flushAll (b : PacketBatcher Peer) : PacketBatcher Peer :=
  { b.batches.entries.foldl (fun b entry => b.flush entry.1 entry.2) b with batches := .empty }

inductive Event (Peer : Type) where
  | add (peerId : Peer) (packet : Bytes)
  | expire (id : Nat)
  | flushAll

def step (b : PacketBatcher Peer) : Event Peer → PacketBatcher Peer
  | .add peerId packet => b.add peerId packet
  | .expire id => b.expire id
  | .flushAll => b.flushAll

def run (events : List (Event Peer)) : PacketBatcher Peer := events.foldl step init

/-- The packet that an event adds for the peer. -/
def Event.addedFor (peerId : Peer) : Event Peer → Option Bytes
  | .add peer packet => if peer = peerId then some packet else none
  | .expire _ | .flushAll => none

/-- What was handed to `sendFn` for the peer. -/
def sentTo (b : PacketBatcher Peer) (peerId : Peer) : List Bytes :=
  (b.sent.filter fun entry => entry.1 = peerId).map Prod.snd

/-- The packets in the batch of the peer. -/
def waiting (b : PacketBatcher Peer) (peerId : Peer) : List Bytes :=
  match b.batches.get peerId with
  | none => []
  | some ref => (b.objects ref).packets

end Operations

end PacketBatcher

theorem readPackets_flatMap (packets : List Bytes)
    (hshort : ∀ packet ∈ packets, packet.length < 4294967296) :
    readPackets packets.length
      (packets.flatMap fun packet => Bytes.ofUInt32 packet.length ++ packet) = packets := by
  induction packets with
  | nil => rfl
  | cons packet rest ih =>
    have hread := Bytes.readUInt32_ofUInt32 (hshort packet List.mem_cons_self)
    have hrest := ih (fun other hother => hshort other (List.mem_cons_of_mem _ hother))
    have hdrop : ∀ tail : Bytes, (Bytes.ofUInt32 packet.length ++ tail).drop 4 = tail :=
      fun tail => List.drop_left' (Bytes.ofUInt32_length _)
    rw [List.flatMap_cons, List.length_cons, List.append_assoc, readPackets, hread]
    simp only [hdrop]
    rw [if_neg (by simp), List.take_left, List.drop_left, hrest]

theorem unbatch_createBatch {packets : List Bytes} (hcount : packets.length < 65536)
    (hshort : ∀ packet ∈ packets, packet.length < 4294967296) :
    unbatch (createBatch packets) = packets := by
  simp only [createBatch, Bytes.ofUInt16, List.cons_append, List.nil_append, unbatch,
    Bytes.toUInt16_ofNat hcount]
  exact readPackets_flatMap packets hshort

theorem unbatch_plain {packet : Bytes} (h : marked packet = false) : unbatch packet = [packet] := by
  unfold unbatch
  split
  · simp [marked] at h
  · rfl

def total (packets : List Bytes) : Nat := (packets.map fun packet => 4 + packet.length).sum

theorem total_append (packets : List Bytes) (packet : Bytes) :
    total (packets ++ [packet]) = total packets + (4 + packet.length) := by
  simp [total]

theorem createBatch_length (packets : List Bytes) :
    (createBatch packets).length = 4 + total packets := by
  have hentries : (packets.flatMap fun packet => Bytes.ofUInt32 packet.length ++ packet).length =
      total packets := by
    rw [List.length_flatMap]
    congr 1
    refine List.map_congr_left (fun packet _ => ?_)
    rw [List.length_append, Bytes.ofUInt32_length]
  simp only [createBatch, List.cons_append, List.length_cons, List.length_append, hentries,
    Bytes.ofUInt16_length]
  omega

theorem total_bounds {packets : List Bytes} {packet : Bytes} (h : packet ∈ packets) :
    packet.length ≤ total packets := by
  have hle := List.single_le_sum (fun _ _ => Nat.zero_le _) _
    (List.mem_map_of_mem (f := fun packet : Bytes => 4 + packet.length) h)
  exact (Nat.le_add_left _ _).trans hle

theorem length_le_total (packets : List Bytes) : 4 * packets.length ≤ total packets := by
  induction packets with
  | nil => exact Nat.zero_le _
  | cons packet rest ih =>
    rw [total, List.map_cons, List.sum_cons, List.length_cons]
    rw [total] at ih
    omega

theorem unbatch_wire {packets : List Bytes} (hsome : packets ≠ [])
    (hplain : ∀ packet ∈ packets, marked packet = false)
    (hbound : total packets ≤ maxBatchSize ∨ packets.length ≤ 1) :
    unbatch (wire packets) = packets ∧
      (1 < packets.length → (wire packets).length ≤ 4 + maxBatchSize) := by
  unfold wire
  split
  case h_1 packet => exact ⟨unbatch_plain (hplain packet List.mem_cons_self), by simp⟩
  rename_i hmany
  have hlength : ¬ packets.length ≤ 1 := by
    intro hle
    cases packets with
    | nil => exact hsome rfl
    | cons first rest =>
      obtain rfl : rest = [] := List.eq_nil_of_length_eq_zero (by simpa using hle)
      exact hmany first rfl
  have htotal := hbound.resolve_right hlength
  have hcount := length_le_total packets
  rw [maxBatchSize] at htotal
  refine ⟨unbatch_createBatch (by omega) (fun packet hpacket => ?_), fun _ => ?_⟩
  · have hle := total_bounds hpacket
    omega
  · rw [createBatch_length, maxBatchSize]
    omega

namespace PacketBatcher

section Flush

variable {Peer : Type} (b : PacketBatcher Peer) (peerId : Peer) (ref : Nat)

@[simp] theorem clearTimer_batches : (b.clearTimer ref).batches = b.batches := by
  unfold clearTimer
  split <;> rfl

@[simp] theorem clearTimer_made : (b.clearTimer ref).made = b.made := by
  unfold clearTimer
  split <;> rfl

@[simp] theorem clearTimer_started : (b.clearTimer ref).started = b.started := by
  unfold clearTimer
  split <;> rfl

@[simp] theorem clearTimer_sent : (b.clearTimer ref).sent = b.sent := by
  unfold clearTimer
  split <;> rfl

theorem clearTimer_objects : (b.clearTimer ref).objects =
    Function.update b.objects ref { b.objects ref with timer := none } := by
  unfold clearTimer
  split
  · rename_i htimer
    rw [← htimer, Function.update_eq_self]
  · rfl

@[simp] theorem flush_batches : (b.flush peerId ref).batches = b.batches := by
  unfold flush
  dsimp only
  split
  · exact clearTimer_batches b ref
  · exact clearTimer_batches b ref

@[simp] theorem flush_made : (b.flush peerId ref).made = b.made := by
  unfold flush
  dsimp only
  split
  · exact clearTimer_made b ref
  · exact clearTimer_made b ref

@[simp] theorem flush_started : (b.flush peerId ref).started = b.started := by
  unfold flush
  dsimp only
  split
  · exact clearTimer_started b ref
  · exact clearTimer_started b ref

theorem flush_timers : (b.flush peerId ref).timers = (b.clearTimer ref).timers := by
  unfold flush
  dsimp only
  split <;> rfl

theorem flush_objects (hsize : (b.objects ref).size = total (b.objects ref).packets) :
    (b.flush peerId ref).objects = Function.update b.objects ref .empty := by
  unfold flush
  dsimp only
  split
  · rename_i hempty
    rw [clearTimer_objects] at hempty ⊢
    simp only [Function.update_self, List.isEmpty_iff] at hempty
    have heq : ({ b.objects ref with timer := none } : Batch) = .empty := by
      simp [Batch.empty, hempty, hsize, total]
    rw [heq]
  · simp only [put, clearTimer_objects, Function.update_self, Function.update_idem]
    rfl

theorem flush_sent : (b.flush peerId ref).sent = b.sent ++
    if (b.objects ref).packets.isEmpty then [] else [(peerId, wire (b.objects ref).packets)] := by
  have hpackets : ((b.clearTimer ref).objects ref).packets = (b.objects ref).packets := by
    rw [clearTimer_objects, Function.update_self]
  unfold flush
  dsimp only
  rw [hpackets]
  split
  · rw [clearTimer_sent, List.append_nil]
  · rw [clearTimer_sent]

end Flush

variable {Peer : Type} [DecidableEq Peer] {b : PacketBatcher Peer}

structure Sound (b : PacketBatcher Peer) (added : Peer → List Bytes) : Prop where
  owned : ∀ peer ref, b.batches.get peer = some ref → ref < b.made
  apart : ∀ p q ref, b.batches.get p = some ref → b.batches.get q = some ref → p = q
  idle : ∀ ref, (∀ peer, b.batches.get peer ≠ some ref) → b.objects ref = .empty
  sizes : ∀ ref, (b.objects ref).size = total (b.objects ref).packets
  bound : ∀ ref, (b.objects ref).size ≤ maxBatchSize ∨ (b.objects ref).packets.length ≤ 1
  plain : ∀ ref, ∀ packet ∈ (b.objects ref).packets, marked packet = false
  pending : ∀ ref, (b.objects ref).packets ≠ [] → (b.objects ref).timer ≠ none
  timer : ∀ ref id, (b.objects ref).timer = some id →
    ∃ peer, b.batches.get peer = some ref ∧ b.timers.get id = some (peer, ref)
  running : ∀ id peer ref, b.timers.get id = some (peer, ref) →
    (b.objects ref).timer = some id ∧ b.batches.get peer = some ref
  early : ∀ id, b.timers.has id = true → id < b.started
  frames : ∀ entry ∈ b.sent, 1 < (unbatch entry.2).length → entry.2.length ≤ 4 + maxBatchSize
  delivered : ∀ peer, (b.sentTo peer).flatMap unbatch ++ b.waiting peer = added peer

theorem init_sound : (init : PacketBatcher Peer).Sound fun _ => [] where
  owned := fun _ _ h => by cases h
  apart := fun _ _ _ h => by cases h
  idle := fun _ _ => rfl
  sizes := fun _ => rfl
  bound := fun _ => .inr (Nat.zero_le _)
  plain := fun _ _ h => by cases h
  pending := fun _ h => absurd rfl h
  timer := fun _ _ h => by cases h
  running := fun _ _ _ h => by cases h
  early := fun _ h => by cases h
  frames := fun _ h => by cases h
  delivered := fun _ => rfl

variable {added : Peer → List Bytes}

omit [DecidableEq Peer] in
theorem clearTimer_get (b : PacketBatcher Peer) (ref id : Nat) :
    (b.clearTimer ref).timers.get id =
      if (b.objects ref).timer = some id then none else b.timers.get id := by
  unfold clearTimer
  split
  · rename_i htimer
    simp [htimer]
  · rename_i found htimer
    rw [htimer, Table.get_delete]
    simp only [Option.some.injEq]

theorem Sound.flush (h : b.Sound added) {peerId : Peer} {ref : Nat}
    (hget : b.batches.get peerId = some ref) : (b.flush peerId ref).Sound added := by
  have hobjects := b.flush_objects peerId ref (h.sizes ref)
  have htimers : ∀ id, (b.flush peerId ref).timers.get id =
      if (b.objects ref).timer = some id then none else b.timers.get id := by
    intro id
    rw [flush_timers]
    exact b.clearTimer_get ref id
  -- an object is the one that was flushed, and empty now, or as it was
  have hcases : ∀ other, (other = ref ∧ (b.flush peerId ref).objects other = .empty) ∨
      (other ≠ ref ∧ (b.flush peerId ref).objects other = b.objects other) := by
    intro other
    rw [hobjects]
    by_cases heq : other = ref
    · exact .inl ⟨heq, heq ▸ Function.update_self _ _ _⟩
    · exact .inr ⟨heq, Function.update_of_ne heq _ _⟩
  constructor
  · simpa using h.owned
  · simpa using h.apart
  · intro other hother
    rcases hcases other with ⟨-, hempty⟩ | ⟨-, hsame⟩
    · exact hempty
    · rw [hsame]
      exact h.idle other (by simpa using hother)
  · intro other
    rcases hcases other with ⟨-, hempty⟩ | ⟨-, hsame⟩
    · rw [hempty]
      rfl
    · rw [hsame]
      exact h.sizes other
  · intro other
    rcases hcases other with ⟨-, hempty⟩ | ⟨-, hsame⟩
    · rw [hempty]
      exact .inr (Nat.zero_le _)
    · rw [hsame]
      exact h.bound other
  · intro other packet hpacket
    rcases hcases other with ⟨-, hempty⟩ | ⟨-, hsame⟩
    · rw [hempty] at hpacket
      cases hpacket
    · rw [hsame] at hpacket
      exact h.plain other packet hpacket
  · intro other hpackets
    rcases hcases other with ⟨-, hempty⟩ | ⟨-, hsame⟩
    · rw [hempty] at hpackets
      exact absurd rfl hpackets
    · rw [hsame] at hpackets ⊢
      exact h.pending other hpackets
  · intro other id htimer
    rcases hcases other with ⟨-, hempty⟩ | ⟨hne, hsame⟩
    · rw [hempty] at htimer
      cases htimer
    rw [hsame] at htimer
    obtain ⟨peer, hpeer, hrunning⟩ := h.timer other id htimer
    refine ⟨peer, by simpa using hpeer, ?_⟩
    rw [htimers, if_neg]
    · exact hrunning
    · intro hid
      obtain ⟨peer', hpeer', hrunning'⟩ := h.timer ref id hid
      rw [hrunning] at hrunning'
      exact hne (Prod.mk.inj (Option.some.inj hrunning')).2
  · intro id peer other hrunning
    rw [htimers] at hrunning
    split at hrunning
    · cases hrunning
    rename_i hid
    obtain ⟨htimer, hpeer⟩ := h.running id peer other hrunning
    rcases hcases other with ⟨rfl, -⟩ | ⟨-, hsame⟩
    · exact absurd htimer hid
    · rw [hsame]
      exact ⟨htimer, by simpa using hpeer⟩
  · intro id hid
    rw [Table.has, htimers] at hid
    split at hid
    · cases hid
    · simpa using h.early id hid
  · intro entry hentry hmany
    rw [flush_sent] at hentry
    rcases List.mem_append.mp hentry with hold | hnew
    · exact h.frames entry hold hmany
    split at hnew
    · cases hnew
    rename_i hsome
    obtain rfl := List.mem_singleton.mp hnew
    obtain ⟨hread, hlength⟩ := unbatch_wire (by simpa using hsome) (h.plain ref)
      (h.sizes ref ▸ h.bound ref)
    rw [hread] at hmany
    exact hlength hmany
  · intro peer
    rw [← h.delivered peer, sentTo, flush_sent, List.filter_append, List.map_append,
      List.flatMap_append, List.append_assoc, ← sentTo]
    by_cases hpeer : peer = peerId
    · subst hpeer
      have hwaiting : (b.flush peer ref).waiting peer = [] := by
        rw [waiting, flush_batches, hget]
        simp only [hobjects, Function.update_self]
        rfl
      have hold : b.waiting peer = (b.objects ref).packets := by
        rw [waiting, hget]
      rw [hwaiting, hold]
      split
      · rename_i hempty
        simpa using hempty.symm
      · rename_i hsome
        have hread := (unbatch_wire (by simpa using hsome) (h.plain ref)
          (h.sizes ref ▸ h.bound ref)).1
        simp [hread]
    · have hwaiting : (b.flush peerId ref).waiting peer = b.waiting peer := by
        rw [waiting, waiting, flush_batches]
        rcases hown : b.batches.get peer with _ | other
        · rfl
        have hne : other ≠ ref := by
          rintro rfl
          exact hpeer (h.apart peer peerId other hown hget)
        simp only [hobjects, Function.update_of_ne hne]
      rw [hwaiting]
      split
      · rfl
      · simp [Ne.symm hpeer]

theorem Sound.fresh (h : b.Sound added) {peerId : Peer}
    (hempty : ∀ ref, b.batches.get peerId = some ref → b.objects ref = .empty) :
    (b.fresh peerId).Sound added := by
  have hget : ∀ peer, (b.fresh peerId).batches.get peer =
      if peerId = peer then some b.made else b.batches.get peer := by
    intro peer
    exact Table.get_set _ _ _ _
  have hmade : b.objects b.made = .empty := by
    refine h.idle b.made (fun peer hpeer => ?_)
    exact lt_irrefl _ (h.owned peer b.made hpeer)
  constructor
  · intro peer ref hown
    rw [hget] at hown
    split at hown
    · rw [← Option.some.inj hown]
      exact Nat.lt_succ_self _
    · exact (h.owned peer ref hown).trans (Nat.lt_succ_self _)
  · intro p q ref hp hq
    rw [hget] at hp hq
    split at hp
    · rename_i heq
      split at hq
      · rename_i heq'
        exact heq.symm.trans heq'
      · exact absurd (Option.some.inj hp ▸ h.owned q ref hq) (lt_irrefl _)
    · split at hq
      · exact absurd (Option.some.inj hq ▸ h.owned p ref hp) (lt_irrefl _)
      · exact h.apart p q ref hp hq
  · intro ref hfree
    by_cases hold : b.batches.get peerId = some ref
    · exact hempty ref hold
    refine h.idle ref (fun peer hpeer => ?_)
    have hne : peerId ≠ peer := by
      rintro rfl
      exact hold hpeer
    exact hfree peer (by rw [hget, if_neg hne, hpeer])
  · exact h.sizes
  · exact h.bound
  · exact h.plain
  · exact h.pending
  · intro ref id htimer
    obtain ⟨peer, hpeer, hrunning⟩ := h.timer ref id htimer
    have hne : peerId ≠ peer := by
      rintro rfl
      have hnone := hempty ref hpeer
      change (b.objects ref).timer = some id at htimer
      rw [hnone] at htimer
      cases htimer
    exact ⟨peer, by rw [hget, if_neg hne, hpeer], hrunning⟩
  · intro id peer ref hrunning
    obtain ⟨htimer, hpeer⟩ := h.running id peer ref hrunning
    have hne : peerId ≠ peer := by
      rintro rfl
      rw [hempty ref hpeer] at htimer
      cases htimer
    exact ⟨htimer, by rw [hget, if_neg hne, hpeer]⟩
  · exact h.early
  · exact h.frames
  · intro peer
    rw [← h.delivered peer]
    have hwaiting : (b.fresh peerId).waiting peer = b.waiting peer := by
      rw [waiting, waiting, hget]
      by_cases hpeer : peerId = peer
      · subst hpeer
        rw [if_pos rfl]
        change (b.objects b.made).packets = _
        rw [hmade]
        rcases hown : b.batches.get peerId with _ | ref
        · rfl
        change [] = (b.objects ref).packets
        rw [hempty ref hown]
        rfl
      · rw [if_neg hpeer]
        rfl
    rw [hwaiting]
    rfl

/-- What `push` and `startTimer` leave: the batch with its packet and a timer `id`. -/
structure Enqueued (b after : PacketBatcher Peer) (peerId : Peer) (ref : Nat) (packet : Bytes)
    (id : Nat) : Prop where
  batches : after.batches = b.batches
  made : after.made = b.made
  sent : after.sent = b.sent
  objects : after.objects = Function.update b.objects ref
    ⟨(b.objects ref).packets ++ [packet], (b.objects ref).size + (4 + packet.length), some id⟩
  timers : ∀ other, after.timers.get other =
    if id = other then some (peerId, ref) else b.timers.get other
  early : ∀ other, after.timers.has other = true → other < after.started
  alone : ∀ other, (b.objects other).timer = some id → other = ref
  only : ∀ other, (b.objects ref).timer = some other → other = id

theorem Sound.enqueued (h : b.Sound added) {peerId : Peer} {ref : Nat}
    (hget : b.batches.get peerId = some ref) (packet : Bytes) :
    ∃ id, Enqueued b ((b.push ref packet).startTimer peerId ref) peerId ref packet id := by
  have htimerPush : ((b.push ref packet).objects ref).timer = (b.objects ref).timer := by
    simp [push, put]
  unfold startTimer
  rw [htimerPush]
  cases htimer : (b.objects ref).timer with
  | some id =>
    obtain ⟨peer, hpeer, hrunning⟩ := h.timer ref id htimer
    obtain rfl := h.apart peer peerId ref hpeer hget
    dsimp only
    refine ⟨id, rfl, rfl, rfl, by simp [push, put, htimer], fun other => ?_, h.early,
      fun other hother => ?_, fun other hother => ?_⟩
    · split
      · rename_i heq
        exact heq ▸ hrunning
      · rfl
    · obtain ⟨peer', -, hrunning'⟩ := h.timer other id hother
      rw [hrunning] at hrunning'
      exact (Prod.mk.inj (Option.some.inj hrunning')).2.symm
    · rw [htimer] at hother
      exact (Option.some.inj hother).symm
  | none =>
    have hnew : b.timers.has b.started = true → False :=
      fun hhas => lt_irrefl _ (h.early b.started hhas)
    refine ⟨b.started, rfl, rfl, rfl, by simp [push, put], fun other => Table.get_set _ _ _ _,
      fun other hother => ?_, fun other hother => ?_, fun other hother => ?_⟩
    · rw [Table.has_set, Bool.or_eq_true, decide_eq_true_eq] at hother
      rcases hother with rfl | hold
      · exact Nat.lt_succ_self _
      · exact (h.early other hold).trans (Nat.lt_succ_self _)
    · obtain ⟨peer, -, hrunning⟩ := h.timer other _ hother
      exact (hnew (by rw [Table.has, hrunning]; rfl)).elim
    · rw [htimer] at hother
      cases hother

theorem Sound.enqueue (h : b.Sound added) {after : PacketBatcher Peer} {peerId : Peer}
    {ref id : Nat} {packet : Bytes} (henqueued : Enqueued b after peerId ref packet id)
    (hget : b.batches.get peerId = some ref) (hplain : marked packet = false)
    (hroom : (b.objects ref).size + (4 + packet.length) ≤ maxBatchSize ∨
      (b.objects ref).packets = []) :
    after.Sound (Function.update added peerId (added peerId ++ [packet])) := by
  have hself : after.objects ref = ⟨(b.objects ref).packets ++ [packet],
      (b.objects ref).size + (4 + packet.length), some id⟩ := by
    rw [henqueued.objects, Function.update_self]
  have hother : ∀ other, other ≠ ref → after.objects other = b.objects other := by
    intro other hne
    rw [henqueued.objects, Function.update_of_ne hne]
  constructor
  · rw [henqueued.batches, henqueued.made]
    exact h.owned
  · rw [henqueued.batches]
    exact h.apart
  · intro other hfree
    rw [henqueued.batches] at hfree
    have hne : other ≠ ref := by
      rintro rfl
      exact hfree peerId hget
    rw [hother other hne]
    exact h.idle other hfree
  · intro other
    by_cases heq : other = ref
    · rw [heq, hself, total_append, ← h.sizes ref]
    · rw [hother other heq]
      exact h.sizes other
  · intro other
    by_cases heq : other = ref
    · rw [heq, hself]
      rcases hroom with hfits | hnone
      · exact .inl hfits
      · exact .inr (by simp [hnone])
    · rw [hother other heq]
      exact h.bound other
  · intro other found hfound
    by_cases heq : other = ref
    · rw [heq, hself] at hfound
      rcases List.mem_append.mp hfound with hold | hnew
      · exact h.plain ref found hold
      · exact List.mem_singleton.mp hnew ▸ hplain
    · rw [hother other heq] at hfound
      exact h.plain other found hfound
  · intro other hpackets
    by_cases heq : other = ref
    · rw [heq, hself]
      exact Option.some_ne_none id
    · rw [hother other heq] at hpackets ⊢
      exact h.pending other hpackets
  · intro other found htimer
    rw [henqueued.batches, henqueued.timers]
    by_cases heq : other = ref
    · rw [heq, hself] at htimer
      obtain rfl := Option.some.inj htimer
      exact ⟨peerId, heq ▸ hget, by rw [if_pos rfl, heq]⟩
    · rw [hother other heq] at htimer
      have hne : id ≠ found := by
        rintro rfl
        exact heq (henqueued.alone other htimer)
      rw [if_neg hne]
      exact h.timer other found htimer
  · intro found peer other hrunning
    rw [henqueued.timers] at hrunning
    rw [henqueued.batches]
    split at hrunning
    · rename_i heq
      obtain ⟨rfl, rfl⟩ := Prod.mk.inj (Option.some.inj hrunning)
      rw [hself]
      exact ⟨congrArg some heq, hget⟩
    · rename_i hne
      obtain ⟨htimer, hpeer⟩ := h.running found peer other hrunning
      refine ⟨?_, hpeer⟩
      by_cases heq : other = ref
      · exact absurd (henqueued.only found (heq ▸ htimer)).symm hne
      · rw [hother other heq]
        exact htimer
  · exact henqueued.early
  · rw [henqueued.sent]
    exact h.frames
  · intro peer
    have hsent : after.sentTo peer = b.sentTo peer := by
      rw [sentTo, sentTo, henqueued.sent]
    rw [hsent]
    by_cases hpeer : peer = peerId
    · subst hpeer
      rw [Function.update_self, ← h.delivered peer, List.append_assoc]
      rw [waiting, waiting, henqueued.batches, hget]
      simp only [hself]
    · rw [Function.update_of_ne hpeer, ← h.delivered peer]
      rw [waiting, waiting, henqueued.batches]
      rcases hown : b.batches.get peer with _ | other
      · rfl
      have hne : other ≠ ref := by
        rintro rfl
        exact hpeer (h.apart peer peerId other hown hget)
      simp only [hother other hne]

theorem Sound.current (h : b.Sound added) (peerId : Peer) :
    (b.current peerId).1.Sound added ∧
      (b.current peerId).1.batches.get peerId = some (b.current peerId).2 := by
  unfold PacketBatcher.current
  cases hget : b.batches.get peerId with
  | none =>
    refine ⟨h.fresh (fun ref hown => ?_), Table.get_set_self _ _ _⟩
    rw [hget] at hown
    cases hown
  | some ref => exact ⟨h, hget⟩

theorem Sound.makeRoom (h : b.Sound added) {peerId : Peer} {ref : Nat}
    (hget : b.batches.get peerId = some ref) (packetSize : Nat) :
    (b.makeRoom peerId ref packetSize).1.Sound added ∧
      (b.makeRoom peerId ref packetSize).1.batches.get peerId =
        some (b.makeRoom peerId ref packetSize).2 ∧
      (((b.makeRoom peerId ref packetSize).1.objects (b.makeRoom peerId ref packetSize).2).size +
          packetSize ≤ maxBatchSize ∨
        ((b.makeRoom peerId ref packetSize).1.objects
          (b.makeRoom peerId ref packetSize).2).packets = []) := by
  unfold PacketBatcher.makeRoom
  split
  · have hflush := h.flush hget
    have hempty : (b.flush peerId ref).objects ref = .empty := by
      rw [flush_objects b peerId ref (h.sizes ref), Function.update_self]
    refine ⟨hflush.fresh (fun other hother => ?_), ?_, .inr ?_⟩
    · rw [flush_batches, hget] at hother
      rw [← Option.some.inj hother]
      exact hempty
    · change ((b.flush peerId ref).batches.set peerId (b.flush peerId ref).made).get peerId = _
      rw [Table.get_set_self, flush_made]
    · change ((b.flush peerId ref).objects b.made).packets = []
      rw [hflush.idle b.made (fun peer hpeer => ?_)]
      · rfl
      · have hlt := hflush.owned peer b.made hpeer
        rw [flush_made] at hlt
        exact lt_irrefl _ hlt
  · rename_i hroom
    refine ⟨h, hget, ?_⟩
    simp only [Bool.and_eq_true, decide_eq_true_eq, not_and, not_lt] at hroom
    by_cases hsize : 0 < (b.objects ref).size
    · exact .inl (hroom hsize)
    right
    have htotal := h.sizes ref
    have hlength := length_le_total (b.objects ref).packets
    have hnone : (b.objects ref).packets.length = 0 := by omega
    exact List.eq_nil_of_length_eq_zero hnone

theorem Sound.add (h : b.Sound added) (peerId : Peer) {packet : Bytes}
    (hplain : marked packet = false) :
    (b.add peerId packet).Sound (Function.update added peerId (added peerId ++ [packet])) := by
  obtain ⟨hcurrent, hown⟩ := h.current peerId
  obtain ⟨hroomy, hget, hroom⟩ := hcurrent.makeRoom hown (4 + packet.length)
  obtain ⟨id, henqueued⟩ := hroomy.enqueued hget packet
  have hafter := hroomy.enqueue henqueued hget hplain hroom
  unfold PacketBatcher.add
  dsimp only
  unfold flushFull
  split
  · refine hafter.flush ?_
    rw [henqueued.batches]
    exact hget
  · exact hafter

omit [DecidableEq Peer] in
theorem delete_delete {α β : Type} [DecidableEq α] (table : Table α β) (key : α) :
    (table.delete key).delete key = table.delete key := by
  apply Table.ext
  simp [Table.delete]

theorem Sound.expire (h : b.Sound added) (id : Nat) : (b.expire id).Sound added := by
  unfold PacketBatcher.expire
  rcases hrunning : b.timers.get id with _ | entry
  · exact h
  obtain ⟨peerId, ref⟩ := entry
  obtain ⟨htimer, hget⟩ := h.running id peerId ref hrunning
  have hclear : ({ b with timers := b.timers.delete id } : PacketBatcher Peer).clearTimer ref =
      b.clearTimer ref := by
    unfold PacketBatcher.clearTimer
    simp only [htimer, put, delete_delete]
  have hsame : ({ b with timers := b.timers.delete id } : PacketBatcher Peer).flush peerId ref =
      b.flush peerId ref := by
    unfold PacketBatcher.flush
    rw [hclear]
  dsimp only
  rw [hsame]
  exact h.flush hget

theorem Sound.flushEach (h : b.Sound added) {entries : List (Peer × Nat)}
    (hentries : ∀ entry ∈ entries, b.batches.get entry.1 = some entry.2) :
    (entries.foldl (fun b entry => b.flush entry.1 entry.2) b).Sound added ∧
      (entries.foldl (fun b entry => b.flush entry.1 entry.2) b).batches = b.batches ∧
      ∀ ref, (b.objects ref = .empty ∨ ∃ entry ∈ entries, entry.2 = ref) →
        (entries.foldl (fun b entry => b.flush entry.1 entry.2) b).objects ref = .empty := by
  induction entries generalizing b with
  | nil => exact ⟨h, rfl, fun ref href => href.resolve_right (by simp)⟩
  | cons entry rest ih =>
    have hflush := h.flush (hentries entry List.mem_cons_self)
    obtain ⟨hsound, hbatches, hempty⟩ := ih hflush (fun other hother => by
      rw [flush_batches]
      exact hentries other (List.mem_cons_of_mem _ hother))
    refine ⟨hsound, hbatches.trans (flush_batches _ _ _), fun ref href => hempty ref ?_⟩
    rw [flush_objects b entry.1 entry.2 (h.sizes entry.2)]
    by_cases heq : ref = entry.2
    · exact .inl (heq ▸ Function.update_self _ _ _)
    rw [Function.update_of_ne heq]
    rcases href with hold | ⟨other, hother, rfl⟩
    · exact .inl hold
    rcases List.mem_cons.mp hother with rfl | hin
    · exact absurd rfl heq
    · exact .inr ⟨other, hin, rfl⟩

theorem Sound.flushAll (h : b.Sound added) : b.flushAll.Sound added := by
  have hentries : ∀ entry ∈ b.batches.entries, b.batches.get entry.1 = some entry.2 :=
    fun entry hentry => Table.get_of_mem entry.2 hentry
  obtain ⟨hsound, hbatches, hempty⟩ := h.flushEach hentries
  -- what is not in the map is empty already
  have hall : ∀ ref, b.flushAll.objects ref = .empty := by
    intro ref
    refine hempty ref ?_
    by_cases hown : ∃ peer, b.batches.get peer = some ref
    · obtain ⟨peer, hpeer⟩ := hown
      exact .inr ⟨(peer, ref), Table.mem_of_get hpeer, rfl⟩
    · exact .inl (h.idle ref (fun peer hpeer => hown ⟨peer, hpeer⟩))
  constructor
  · exact fun _ _ hget => by cases hget
  · exact fun _ _ _ hget => by cases hget
  · exact fun ref _ => hall ref
  · exact hsound.sizes
  · exact hsound.bound
  · exact hsound.plain
  · exact hsound.pending
  · intro ref id htimer
    rw [hall ref] at htimer
    cases htimer
  · intro id peer ref hrunning
    obtain ⟨htimer, -⟩ := hsound.running id peer ref hrunning
    have hnone : (b.flushAll.objects ref).timer = some id := htimer
    rw [hall ref] at hnone
    cases hnone
  · exact hsound.early
  · exact hsound.frames
  · intro peer
    rw [← hsound.delivered peer]
    congr 1
    rw [waiting, waiting, hbatches]
    rcases hown : b.batches.get peer with _ | ref
    · rfl
    change [] = (b.flushAll.objects ref).packets
    rw [hall ref]
    rfl

theorem Sound.run (h : b.Sound added) {events : List (Event Peer)}
    (hplain : ∀ peer packet, .add peer packet ∈ events → marked packet = false) :
    (events.foldl step b).Sound fun peer =>
      added peer ++ events.filterMap (Event.addedFor peer) := by
  induction events generalizing b added with
  | nil => simpa using h
  | cons event rest ih =>
    have hrest : ∀ peer packet, .add peer packet ∈ rest → marked packet = false :=
      fun peer packet hmem => hplain peer packet (List.mem_cons_of_mem _ hmem)
    cases event with
    | add peerId packet =>
      have hstep := ih (h.add peerId (hplain peerId packet List.mem_cons_self)) hrest
      have hadded : (fun peer => added peer ++
            (Event.add peerId packet :: rest).filterMap (Event.addedFor peer)) =
          fun peer => Function.update added peerId (added peerId ++ [packet]) peer ++
            rest.filterMap (Event.addedFor peer) := by
        funext peer
        by_cases heq : peer = peerId
        · subst heq
          simp [Event.addedFor]
        · simp [Event.addedFor, heq, Ne.symm heq]
      rw [hadded]
      exact hstep
    | expire id => exact ih (h.expire id) hrest
    | flushAll => exact ih h.flushAll hrest

/-- In every run what was sent to a peer reads as the packets added for it, less those that still
wait; batches keep to their size; and whatever waits has a running timer that will flush it. -/
theorem packets_delivered (events : List (Event Peer))
    (hplain : ∀ peer packet, .add peer packet ∈ events → marked packet = false) :
    (∀ peer, ((run events).sentTo peer).flatMap unbatch ++ (run events).waiting peer =
      events.filterMap (Event.addedFor peer)) ∧
    (∀ entry ∈ (run events).sent, 1 < (unbatch entry.2).length →
      entry.2.length ≤ 4 + maxBatchSize) ∧
    ∀ ref, ((run events).objects ref).packets ≠ [] → ∃ id peer,
      ((run events).objects ref).timer = some id ∧
      (run events).timers.get id = some (peer, ref) ∧
      (run events).batches.get peer = some ref := by
  have h : (run events).Sound fun peer => events.filterMap (Event.addedFor peer) :=
    init_sound.run hplain
  refine ⟨h.delivered, h.frames, fun ref hpackets => ?_⟩
  obtain ⟨id, htimer⟩ := Option.ne_none_iff_exists'.mp (h.pending ref hpackets)
  obtain ⟨peer, hpeer, hrunning⟩ := h.timer ref id htimer
  exact ⟨id, peer, htimer, hrunning, hpeer⟩

/-- Two packets that share a batch, and one that still waits. -/
theorem packets_delivered_lab :
    ((run [.add false [1, 2], .add false [3], .expire 0, .add false [4]]).sentTo false).flatMap
        unbatch ++
      (run [.add false [1, 2], .add false [3], .expire 0, .add false [4]]).waiting false =
        [[1, 2], [3], [4]] := by
  have hplain : ∀ peer packet, Event.add peer packet ∈
      [.add false [1, 2], .add false [3], .expire 0, .add false [4]] →
      marked packet = false := by
    intro peer packet hmem
    simp only [List.mem_cons, Event.add.injEq, List.not_mem_nil, reduceCtorEq, or_false,
      false_or] at hmem
    rcases hmem with ⟨-, rfl⟩ | ⟨-, rfl⟩ | ⟨-, rfl⟩ <;> decide
  exact (packets_delivered _ hplain).1 false

end PacketBatcher

end Meshpn.Network
