import Mathlib.Logic.Function.Basic
import Meshpn.Lib.Bytes
import Meshpn.Lib.InFlight

/-!
The transmit queue of the USB interface, `meshvpn_usb_tx_queue.c` with the sender
`meshvpn_usb_send_sync`. Any number of calls of `submit` are under way, and one worker.
Each goes on by one critical section, queue operation or read of the host's state at a
time, and between any two of these the host may be mounted or unmounted.

The number of mount changes, the frames that were enqueued and the attempts to send
them are kept beside the state of the program. The burst diagnostics and the older
counters of `record_tx` are left out.
-/

namespace Meshpn.Device.Usb

open Meshpn.Lib

/-- `MESHVPN_USB_TX_SLOTS`. -/
def txSlots : Nat := 8

/-- `MESHVPN_USB_TX_FRAME_MAX`. -/
def txFrameMax : Nat := 1536

/-- `MESHVPN_USB_TX_MAX_AGE_US`. -/
def txMaxAgeUs : Nat := 50000

/-- The capacity budget of one frame. -/
def capacityBudgetUs : Nat := 25000

def maxAttempts : Nat := 64

inductive EspErr where
  | ok
  | fail
  | noMem
  | invalidArg
  | invalidState
  deriving DecidableEq, Repr

/-- `meshvpn_usb_tx_queue_stats_t`. -/
structure Stats where
  enabled : Bool
  workerActive : Bool
  eventWait : Bool
  inUse : UInt16
  highWater : UInt16
  queueWaitUs : UInt64
  queueWaitMaxUs : UInt64
  residenceUs : UInt64
  residenceMaxUs : UInt64
  capacityWaitUs : UInt64
  submitted : UInt32
  enqueued : UInt32
  completed : UInt32
  sent : UInt32
  sendFailed : UInt32
  full : UInt32
  noHost : UInt32
  invalidLength : UInt32
  notReady : UInt32
  enqueueFailed : UInt32
  expired : UInt32
  stale : UInt32
  bytesCopied : UInt32
  initFailed : UInt32
  capacityWaits : UInt32
  capacityWakeups : UInt32
  capacityTimeouts : UInt32
  capacityDisconnects : UInt32

def Stats.zero : Stats :=
  { enabled := false, workerActive := false, eventWait := false, inUse := 0, highWater := 0
    queueWaitUs := 0, queueWaitMaxUs := 0, residenceUs := 0, residenceMaxUs := 0
    capacityWaitUs := 0, submitted := 0, enqueued := 0, completed := 0, sent := 0
    sendFailed := 0, full := 0, noHost := 0, invalidLength := 0, notReady := 0
    enqueueFailed := 0, expired := 0, stale := 0, bytesCopied := 0, initFailed := 0
    capacityWaits := 0, capacityWakeups := 0, capacityTimeouts := 0, capacityDisconnects := 0 }

/-- `tx_slot_t`; `begun` is the number of mount changes when `submit` read the epoch. -/
structure Slot where
  queuedUs : Nat
  epoch : UInt32
  data : Bytes
  begun : Nat

/-- The arguments of `submit`, whose buffer may be NULL, and the epoch it read. -/
structure Request where
  buffer : Option Bytes
  epoch : UInt32
  begun : Nat

/-- A request that was admitted. -/
structure Order where
  data : Bytes
  epoch : UInt32
  begun : Nat

/-- Where a call of `submit` stands: what it does next. -/
inductive Call where
  /-- Read `tud_ready`. -/
  | began (request : Request)
  /-- Count and classify. -/
  | classify (request : Request) (ready : Bool)
  /-- Take a free slot. -/
  | take (order : Order)
  | decide (order : Order) (index : Option Nat)
  | fill (order : Order) (index : Nat)
  | count (index : Nat) (len : Nat)
  /-- Hand the slot to the worker. -/
  | publish (index : Nat)
  | refused (index : Nat)
  | release (index : Nat)
  | give (index : Nat)

/-- How far a call got. -/
inductive Progress where
  | goes (call : Call)
  | returns (err : EspErr)

/-- What became of a frame. -/
inductive Fate where
  | stale
  | expired
  | sent
  | failed
  deriving DecidableEq, Repr

/-- Where the worker stands with a frame: what it does next. -/
inductive Stage where
  /-- Compare the epoch. -/
  | taken
  /-- Read `tud_ready`. -/
  | probe
  | activate (fate : Option Fate)
  /-- `meshvpn_usb_send_sync` begins. -/
  | sendReady
  | prepare (attempt : Nat)
  /-- Compare the epoch before an attempt. -/
  | check (attempt : Nat)
  /-- Call the driver; `checked` is the number of mount changes at the check. -/
  | call (attempt checked : Nat)
  | driver (attempt : Nat)
  /-- `meshvpn_usb_tx_wait_capacity`. -/
  | waitEpoch (attempt : Nat)
  | waitReady (attempt : Nat)
  | waiting (attempt : Nat)
  | wakeEpoch (attempt notified : Nat)
  | wakeReady (attempt notified : Nat)
  | waitDone (attempt notified : Nat) (disconnected : Bool)
  | finish (fate : Fate)
  | release
  | give

/-- The frame in the worker's hands; `number` counts the frames it took before. -/
structure Job where
  index : Nat
  number : Nat
  age : Nat
  startedUs : Nat
  waitStartedUs : Nat
  stage : Stage

/-- What `tinyusb_net_send_sync` returns. -/
inductive SendResult where
  | ok
  | busy
  | other
  deriving DecidableEq, Repr

/-- A frame in the order of the queue. -/
structure Published where
  slot : Slot
  /-- The number of mount changes when it was enqueued. -/
  enqueuedAt : Nat

/-- One call of the driver. -/
structure Attempt where
  number : Nat
  data : Bytes
  checked : Nat
  /-- The number of mount changes at the call. -/
  handed : Nat

structure Queue where
  stats : Stats
  epoch : UInt32
  /-- `tud_ready`. -/
  ready : Bool
  clock : Nat
  /-- The notification value of the worker's task. -/
  notification : Nat
  pool : Nat → Slot
  free : List Nat
  pending : List Nat
  calls : List Call
  job : Option Job
  changes : Nat
  published : List Published
  takenCount : Nat
  attempts : List Attempt
  sentNumbers : List Nat

def Queue.initial : Queue :=
  { stats := Stats.zero
    epoch := 0
    ready := false
    clock := 0
    notification := 0
    pool := fun _ => ⟨0, 0, [], 0⟩
    free := []
    pending := []
    calls := []
    job := none
    changes := 0
    published := []
    takenCount := 0
    attempts := []
    sentNumbers := [] }

def Queue.setStats (s : Queue) (stats : Stats) : Queue := { s with stats }

/-- `xQueueSend(s_free)`: the queue has room for every slot. -/
def Queue.giveBack (s : Queue) (index : Nat) : Queue :=
  if s.free.length < txSlots then { s with free := s.free ++ [index] } else s

/-- The first critical section of `meshvpn_usb_tx_queue_submit`. -/
def Queue.classify (s : Queue) (request : Request) (ready : Bool) : Queue × Progress :=
  let stats := { s.stats with submitted := s.stats.submitted + 1 }
  if !stats.enabled then
    (s.setStats { stats with notReady := stats.notReady + 1 }, .returns .invalidState)
  else
    match request.buffer with
    | none =>
      (s.setStats { stats with invalidLength := stats.invalidLength + 1 }, .returns .invalidArg)
    | some data =>
      if data.length = 0 ∨ txFrameMax < data.length then
        (s.setStats { stats with invalidLength := stats.invalidLength + 1 },
          .returns .invalidArg)
      else if !ready then
        (s.setStats { stats with noHost := stats.noHost + 1 }, .returns .invalidState)
      else (s.setStats stats, .goes (.take ⟨data, request.epoch, request.begun⟩))

/-- `submit`, one step on; `refuses` if `xQueueSend(s_pending)` fails though it has room. -/
def Queue.produce (s : Queue) (refuses : Bool) : Call → Queue × Progress
  | .began request => (s, .goes (.classify request s.ready))
  | .classify request ready => s.classify request ready
  | .take order =>
    match s.free with
    | [] => (s, .goes (.decide order none))
    | index :: rest => ({ s with free := rest }, .goes (.decide order (some index)))
  | .decide _ none =>
    (s.setStats { s.stats with full := s.stats.full + 1 }, .returns .noMem)
  | .decide order (some index) =>
    let inUse := s.stats.inUse + 1
    (s.setStats { s.stats with
      inUse, highWater := if s.stats.highWater < inUse then inUse else s.stats.highWater },
      .goes (.fill order index))
  | .fill order index =>
    ({ s with
      pool := Function.update s.pool index ⟨s.clock, order.epoch, order.data, order.begun⟩ },
      .goes (.count index order.data.length))
  | .count index len =>
    (s.setStats { s.stats with
      enqueued := s.stats.enqueued + 1
      bytesCopied := s.stats.bytesCopied + UInt32.ofNat len }, .goes (.publish index))
  | .publish index =>
    if refuses || decide (txSlots ≤ s.pending.length) then (s, .goes (.refused index))
    else
      ({ s with
        pending := s.pending ++ [index]
        published := s.published ++ [⟨s.pool index, s.changes⟩] }, .returns .ok)
  | .refused index =>
    (s.setStats { s.stats with
      enqueued := s.stats.enqueued - 1
      enqueueFailed := s.stats.enqueueFailed + 1 }, .goes (.release index))
  | .release index =>
    (s.setStats { s.stats with inUse := s.stats.inUse - 1 }, .goes (.give index))
  | .give index => (s.giveBack index, .returns .fail)

/-- The call after a step; `none` if it has returned. -/
def Progress.call? : Progress → Option Call
  | .goes call => some call
  | .returns _ => none

def Queue.setJob (s : Queue) (job : Job) : Queue := { s with job := some job }

/-- After an attempt that found the driver busy. -/
def nextAttempt (attempt : Nat) : Stage :=
  if attempt + 1 < maxAttempts then .prepare (attempt + 1) else .finish .failed

/-- The counters of one frame. -/
def Stats.complete (stats : Stats) (age residence : Nat) (fate : Fate) : Stats :=
  let stats := { stats with
    completed := stats.completed + 1
    queueWaitUs := stats.queueWaitUs + UInt64.ofNat age
    queueWaitMaxUs := if stats.queueWaitMaxUs < UInt64.ofNat age then UInt64.ofNat age
      else stats.queueWaitMaxUs
    residenceUs := stats.residenceUs + UInt64.ofNat residence
    residenceMaxUs := if stats.residenceMaxUs < UInt64.ofNat residence then UInt64.ofNat residence
      else stats.residenceMaxUs
    workerActive := false }
  match fate with
  | .stale => { stats with stale := stats.stale + 1 }
  | .expired => { stats with expired := stats.expired + 1 }
  | .sent => { stats with sent := stats.sent + 1 }
  | .failed => { stats with sendFailed := stats.sendFailed + 1 }

/-- The counters of one wait for capacity. -/
def Stats.waited (stats : Stats) (waitedUs notified : Nat) (timeout disconnected : Bool) :
    Stats :=
  { stats with
    capacityWaits := stats.capacityWaits + 1
    capacityWaitUs := stats.capacityWaitUs + UInt64.ofNat waitedUs
    capacityWakeups := stats.capacityWakeups + if notified = 0 then 0 else 1
    capacityTimeouts := stats.capacityTimeouts + if timeout then 1 else 0
    capacityDisconnects := stats.capacityDisconnects + if disconnected then 1 else 0 }

/-- `process_one` with `meshvpn_usb_send_sync`, one step on. `outcome` is what the driver
returns, and `timeout` is set if a wait ends without a notification. -/
def Queue.proceed (eventWait : Bool) (s : Queue) (outcome : SendResult) (timeout : Bool)
    (job : Job) : Queue :=
  let slot := s.pool job.index
  let current := slot.epoch == s.epoch
  match job.stage with
  | .taken =>
    let age := s.clock - slot.queuedUs
    s.setJob { job with age, stage := if current then .probe else .activate (some .stale) }
  | .probe =>
    s.setJob { job with
      stage := .activate (if !s.ready then some .stale
        else if txMaxAgeUs < job.age then some .expired else none) }
  | .activate fate =>
    (s.setStats { s.stats with workerActive := true }).setJob { job with
      stage := match fate with
        | some fate => .finish fate
        | none => .sendReady }
  | .sendReady =>
    s.setJob { job with
      startedUs := s.clock, stage := if s.ready then .prepare 0 else .finish .failed }
  | .prepare attempt =>
    Queue.setJob { s with notification := if eventWait then 0 else s.notification }
      { job with stage := .check attempt }
  | .check attempt =>
    s.setJob { job with stage := if current then .call attempt s.changes else .finish .failed }
  | .call attempt checked =>
    Queue.setJob
      { s with attempts := s.attempts ++ [⟨job.number, slot.data, checked, s.changes⟩] }
      { job with stage := .driver attempt }
  | .driver attempt =>
    match outcome with
    | .ok =>
      Queue.setJob { s with sentNumbers := s.sentNumbers ++ [job.number] }
        { job with stage := .finish .sent }
    | .other => s.setJob { job with stage := .finish .failed }
    | .busy =>
      s.setJob { job with
        stage := if eventWait then
            if attempt + 1 = maxAttempts then .finish .failed else .waitEpoch attempt
          else nextAttempt attempt }
  | .waitEpoch attempt =>
    s.setJob { job with
      waitStartedUs := s.clock
      stage := if current then .waitReady attempt else .wakeEpoch attempt 0 }
  | .waitReady attempt =>
    s.setJob { job with
      stage := if s.ready ∧ job.waitStartedUs < job.startedUs + capacityBudgetUs then
          .waiting attempt
        else .wakeEpoch attempt 0 }
  | .waiting attempt =>
    if s.notification = 0 then
      if timeout then s.setJob { job with stage := .wakeEpoch attempt 0 } else s
    else
      Queue.setJob { s with notification := 0 }
        { job with stage := .wakeEpoch attempt s.notification }
  | .wakeEpoch attempt notified =>
    s.setJob { job with
      stage := if current then .wakeReady attempt notified
        else .waitDone attempt notified true }
  | .wakeReady attempt notified =>
    s.setJob { job with stage := .waitDone attempt notified (!s.ready) }
  | .waitDone attempt notified disconnected =>
    let expired := !disconnected &&
      (notified == 0 || decide (job.startedUs + capacityBudgetUs ≤ s.clock))
    (s.setStats (s.stats.waited (s.clock - job.waitStartedUs) notified expired
      disconnected)).setJob
      { job with stage := if disconnected || expired then .finish .failed
          else nextAttempt attempt }
  | .finish fate =>
    (s.setStats (s.stats.complete job.age (s.clock - slot.queuedUs) fate)).setJob
      { job with stage := .release }
  | .release =>
    (s.setStats { s.stats with inUse := s.stats.inUse - 1 }).setJob { job with stage := .give }
  | .give => { s.giveBack job.index with job := none }

/-- `tx_worker`: it waits for a frame, or goes on with the one it has. -/
def Queue.work (eventWait : Bool) (s : Queue) (outcome : SendResult) (timeout : Bool) : Queue :=
  match s.job with
  | some job => s.proceed eventWait outcome timeout job
  | none =>
    match s.pending with
    | [] => s
    | index :: rest =>
      { s with
        pending := rest
        takenCount := s.takenCount + 1
        job := some ⟨index, s.takenCount, 0, 0, 0, .taken⟩ }

inductive Event where
  /-- `meshvpn_usb_tx_queue_init`; `allocated` if every allocation succeeds. -/
  | init (allocated : Bool)
  /-- A call of `submit` reads the epoch. -/
  | submit (buffer : Option Bytes)
  | produce (i : Nat) (refuses : Bool)
  | work (outcome : SendResult) (timeout : Bool)
  /-- `tud_mount_cb` or `tud_umount_cb`, up to its call of `capacityAvailable`. -/
  | mount
  | setReady (ready : Bool)
  /-- `meshvpn_usb_tx_capacity_available`. -/
  | capacityAvailable
  | tick (us : Nat)

def Queue.notify (eventWait : Bool) (s : Queue) : Queue :=
  if eventWait && s.stats.enabled then { s with notification := s.notification + 1 } else s

/-- `meshvpn_usb_tx_queue_init`. -/
def Queue.start (eventWait allocated : Bool) (s : Queue) : Queue :=
  if s.stats.enabled then s
  else if allocated then
    { s.setStats { s.stats with enabled := true, eventWait } with free := List.range txSlots }
  else s.setStats { s.stats with initFailed := s.stats.initFailed + 1 }

def Queue.step (eventWait : Bool) (s : Queue) : Event → Queue
  | .init allocated => s.start eventWait allocated
  | .submit buffer => { s with calls := s.calls ++ [Call.began ⟨buffer, s.epoch, s.changes⟩] }
  | .produce i refuses =>
    match s.calls[i]? with
    | none => s
    | some call =>
      let (next, progress) := s.produce refuses call
      { next with calls := InFlight.resume s.calls i progress.call? }
  | .work outcome timeout => s.work eventWait outcome timeout
  | .mount => { s with epoch := s.epoch + 1, changes := s.changes + 1 }
  | .setReady ready => { s with ready }
  | .capacityAvailable => s.notify eventWait
  | .tick us => { s with clock := s.clock + us }

def Queue.run (eventWait : Bool) (s : Queue) (events : List Event) : Queue :=
  events.foldl (Queue.step eventWait) s

end Meshpn.Device.Usb
