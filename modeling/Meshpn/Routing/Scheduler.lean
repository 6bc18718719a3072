import Mathlib.Algebra.Order.Ring.Rat
import Mathlib.Data.List.FinRange
import Meshpn.Lib.Rounds
import Meshpn.Lib.Table

/-!
The multipath scheduler, with the round-robin strategy, and the receiver's buffer that passes one
copy of a packet on. Weights and latencies are rationals; timestamps of packets and the events
the scheduler emits are left out. Beside its result, a call says which paths `selectPath` has
returned on the way; `none` is the `undefined` that an index past the end reads.
-/

namespace Meshpn.Routing

open Meshpn.Lib

inductive Path where
  | routed (route : List String) (exitNode : String)
  /-- A path without a route, as its JSON text. -/
  | other (json : String)
  deriving DecidableEq, Repr

def getPathKey : Path → String
  | .routed route exitNode => String.intercalate "-" route ++ ":" ++ exitNode
  | .other json => json

structure PathStats where
  sent : Nat
  acked : Nat
  lost : Nat
  latency : List ℚ
  deriving DecidableEq, Repr

def PathStats.zero : PathStats := ⟨0, 0, 0, []⟩

structure Packet where
  flowId : String
  seq : Nat
  path : Path
  payload : List UInt8
  /-- `pathIndex` and `totalPaths`, of a copy. -/
  copy : Option (Nat × Nat)
  deriving DecidableEq, Repr

structure MultipathScheduler where
  paths : List Path
  pathWeights : Table String ℚ
  currentPathIndex : Nat
  sequenceNumber : Nat
  flowId : String
  pathStats : Table String PathStats

/-- What a call returns and leaves. -/
structure Outcome where
  scheduler : MultipathScheduler
  /-- What `selectPath` has returned. -/
  chosen : List (Option Path)
  packets : List Packet
  throws : Bool

namespace MultipathScheduler

/-- `new MultipathScheduler({ flowId })`. -/
def init (flowId : String) : MultipathScheduler := ⟨[], .empty, 0, 0, flowId, .empty⟩

def register (s : MultipathScheduler) (path : Path) : MultipathScheduler :=
  { s with
    pathWeights := s.pathWeights.set (getPathKey path) 1
    pathStats := s.pathStats.set (getPathKey path) .zero }

def setPaths (s : MultipathScheduler) (paths : List Path) : MultipathScheduler :=
  paths.foldl register { s with paths, pathWeights := .empty, pathStats := .empty }

def addPath (s : MultipathScheduler) (path : Path) : MultipathScheduler :=
  if s.pathWeights.has (getPathKey path) then s
  else register { s with paths := s.paths ++ [path] } path

def removePath (s : MultipathScheduler) (path : Path) : MultipathScheduler :=
  match s.paths.findIdx? fun p => getPathKey p = getPathKey path with
  | none => s
  | some index =>
    let paths := s.paths.eraseIdx index
    { s with
      paths
      pathWeights := s.pathWeights.delete (getPathKey path)
      pathStats := s.pathStats.delete (getPathKey path)
      currentPathIndex := if s.currentPathIndex ≥ paths.length then 0 else s.currentPathIndex }

def selectRoundRobin (s : MultipathScheduler) : Option Path × MultipathScheduler :=
  (s.paths[s.currentPathIndex]?,
    { s with currentPathIndex := (s.currentPathIndex + 1) % s.paths.length })

def selectPath (s : MultipathScheduler) : Option Path × MultipathScheduler :=
  if s.paths.length = 0 then (none, s) else s.selectRoundRobin

/-- `stats.sent++`. -/
def countSent (s : MultipathScheduler) (path : Path) : MultipathScheduler :=
  match s.pathStats.get (getPathKey path) with
  | none => s
  | some stats =>
    { s with pathStats := s.pathStats.set (getPathKey path) { stats with sent := stats.sent + 1 } }

def schedulePacket (s : MultipathScheduler) (payload : List UInt8) : Outcome :=
  match s.selectPath with
  | (none, s) => ⟨s, if s.paths.length = 0 then [] else [none], [], false⟩
  | (some path, s) =>
    ⟨{ s with sequenceNumber := s.sequenceNumber + 1 }.countSent path, [some path],
      [⟨s.flowId, s.sequenceNumber, path, payload, none⟩], false⟩

/-- The loop that looks for a path that is not used yet, with the number of attempts that are left
after this one. Without a path `_getPathKey` throws. -/
def pick (used : List String) : Nat → MultipathScheduler →
    Option Path × List (Option Path) × MultipathScheduler
  | left, s =>
    match s.selectPath with
    | (none, s) => (none, [none], s)
    | (some path, s) =>
      match left with
      | 0 => (some path, [some path], s)
      | left + 1 =>
        if getPathKey path ∈ used then
          let found := pick used left s
          (found.1, some path :: found.2.1, found.2.2)
        else (some path, [some path], s)

/-- The variables of `schedulePacketMultipath`. -/
structure Copies where
  used : List String
  outcome : Outcome

/-- One pass of its loop. -/
def addCopy (seq : Nat) (payload : List UInt8) (total : Nat) (copies : Copies) (i : Nat) : Copies :=
  if copies.outcome.throws then copies
  else
    let s := copies.outcome.scheduler
    match pick copies.used (2 * s.paths.length - 1) s with
    | (none, chosen, s) =>
      { copies with
        outcome := ⟨s, copies.outcome.chosen ++ chosen, copies.outcome.packets, true⟩ }
    | (some path, chosen, s) =>
      { used := getPathKey path :: copies.used
        outcome :=
          ⟨s.countSent path, copies.outcome.chosen ++ chosen,
            copies.outcome.packets ++ [⟨s.flowId, seq, path, payload, some (i, total)⟩], false⟩ }

/-- A call that throws has no packets to return. -/
def schedulePacketMultipath (s : MultipathScheduler) (payload : List UInt8) (pathCount : Nat) :
    Outcome :=
  if s.paths.length = 0 then ⟨s, [], [], false⟩
  else
    let total := min pathCount s.paths.length
    let outcome := ((List.range total).foldl (addCopy s.sequenceNumber payload total)
      ⟨[], { s with sequenceNumber := s.sequenceNumber + 1 }, [], [], false⟩).outcome
    { outcome with packets := if outcome.throws then [] else outcome.packets }

/-- The mean of the latencies, or the default. -/
def avgLatency (latency : List ℚ) : ℚ :=
  if latency.length > 0 then latency.sum / latency.length else 100

def adjustWeight (s : MultipathScheduler) (pathKey : String) : MultipathScheduler :=
  match s.pathStats.get pathKey with
  | none => s
  | some stats =>
    let deliveryRate : ℚ := if stats.sent > 0 then stats.acked / stats.sent else 1
    let weight := max (1 / 10) (deliveryRate * (1000 / (avgLatency stats.latency + 100)))
    { s with pathWeights := s.pathWeights.set pathKey weight }

/-- `stats.latency.push(latency)`, of which the last 100 are kept. -/
def pushLatency (known : List ℚ) (latency : ℚ) : List ℚ :=
  if (known ++ [latency]).length > 100 then (known ++ [latency]).tail else known ++ [latency]

def recordAck (s : MultipathScheduler) (pathKey : String) (latency : ℚ) : MultipathScheduler :=
  match s.pathStats.get pathKey with
  | none => s
  | some stats =>
    { s with
      pathStats := s.pathStats.set pathKey
        { stats with
          acked := stats.acked + 1
          latency := pushLatency stats.latency latency } }.adjustWeight pathKey

def recordLoss (s : MultipathScheduler) (pathKey : String) : MultipathScheduler :=
  match s.pathStats.get pathKey with
  | none => s
  | some stats =>
    { s with
      pathStats := s.pathStats.set pathKey { stats with lost := stats.lost + 1 } }.adjustWeight
        pathKey

/-- `reset`, with the flow id that is drawn. -/
def reset (s : MultipathScheduler) (flowId : String) : MultipathScheduler :=
  { s with
    sequenceNumber := 0
    currentPathIndex := 0
    flowId
    pathStats := s.pathStats.mapValues fun _ => .zero }

end MultipathScheduler

inductive SchedulerOp where
  | setPaths (paths : List Path)
  | addPath (path : Path)
  | removePath (path : Path)
  | selectPath
  | schedulePacket (payload : List UInt8)
  | schedulePacketMultipath (payload : List UInt8) (pathCount : Nat)
  | recordAck (pathKey : String) (latency : ℚ)
  | recordLoss (pathKey : String)
  | reset (flowId : String)

namespace MultipathScheduler

def step (s : MultipathScheduler) : SchedulerOp → Outcome
  | .setPaths paths => ⟨s.setPaths paths, [], [], false⟩
  | .addPath path => ⟨s.addPath path, [], [], false⟩
  | .removePath path => ⟨s.removePath path, [], [], false⟩
  | .selectPath =>
    ⟨s.selectPath.2, if s.paths.length = 0 then [] else [s.selectPath.1], [], false⟩
  | .schedulePacket payload => s.schedulePacket payload
  | .schedulePacketMultipath payload pathCount => s.schedulePacketMultipath payload pathCount
  | .recordAck pathKey latency => ⟨s.recordAck pathKey latency, [], [], false⟩
  | .recordLoss pathKey => ⟨s.recordLoss pathKey, [], [], false⟩
  | .reset flowId => ⟨s.reset flowId, [], [], false⟩

def after (s : MultipathScheduler) (ops : List SchedulerOp) : MultipathScheduler :=
  ops.foldl (fun s op => (s.step op).scheduler) s

/-- The packets of a run. -/
def emitted (s : MultipathScheduler) : List SchedulerOp → List Packet
  | [] => []
  | op :: ops => (s.step op).packets ++ emitted (s.step op).scheduler ops

/-- What `selectPath` returns in a run. -/
def selections (s : MultipathScheduler) : List SchedulerOp → List (Option Path)
  | [] => []
  | op :: ops => (s.step op).chosen ++ selections (s.step op).scheduler ops

end MultipathScheduler

structure ReorderBuffer where
  timeout : Nat
  /-- `seenMultipath`; the source joins flow id and number with a colon. -/
  seenMultipath : Table (String × Nat) Nat

namespace ReorderBuffer

/-- `addPacket` at a time, with the packet it passes on. -/
def addPacket (buffer : ReorderBuffer) (packet : Packet) (now : Nat) :
    Option Packet × ReorderBuffer :=
  if packet.copy.any fun copy => copy.2 > 1 then
    if buffer.seenMultipath.has (packet.flowId, packet.seq) then (none, buffer)
    else
      (some packet,
        { buffer with
          seenMultipath := buffer.seenMultipath.set (packet.flowId, packet.seq) now })
  else (some packet, buffer)

/-- `_cleanup`, as far as it is about copies; nothing is ever put into the other map. -/
def cleanup (buffer : ReorderBuffer) (now : Nat) : ReorderBuffer :=
  { buffer with
    seenMultipath := (buffer.seenMultipath.entries.filter fun entry =>
      now - entry.2 > buffer.timeout * 2).foldl (fun seen entry => seen.delete entry.1)
        buffer.seenMultipath }

inductive Arrival where
  | packet (packet : Packet) (now : Nat)
  | cleanup (now : Nat)
  deriving DecidableEq, Repr

/-- The packets that are passed on. -/
def delivered (buffer : ReorderBuffer) : List Arrival → List Packet
  | [] => []
  | .packet packet now :: rest =>
    (buffer.addPacket packet now).1.toList ++ delivered (buffer.addPacket packet now).2 rest
  | .cleanup now :: rest => delivered (buffer.cleanup now) rest

end ReorderBuffer

end Meshpn.Routing
