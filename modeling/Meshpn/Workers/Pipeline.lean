import Mathlib.Data.List.Perm.Basic
import Mathlib.Data.List.Nodup
import Mathlib.Logic.Function.Basic

/-!
The pools of workers behind a node, `pipeline.js`. A job is posted to a worker and its
callback waits under the job's number, or the main thread does the job at once. What a
worker makes of a job and what the main thread makes of it are parameters, each with a
seed for what they take from chance and from their own copies of the modules. Messages
of different workers arrive in any order, also after their worker has crashed.

A callback that submits another job counts as having submitted it just before or after.
The submissions and the calls are recorded, and the submissions that were given up.
-/

namespace Meshpn.Workers

inductive Kind where
  | tx
  | rx
  deriving DecidableEq, Repr

/-- What a callback is called with. -/
inductive Reply (Output : Type) where
  | result (output : Output)
  /-- The error of the job. -/
  | failed
  /-- A worker crashed, or the pipeline was terminated. -/
  | flushed
  /-- The error that the callback itself threw. -/
  | thrown
  deriving DecidableEq, Repr

/-- A job with its callback, of which it matters here when it throws. -/
structure Submission (Input Output : Type) where
  number : Nat
  kind : Kind
  input : Input
  throws : Reply Output → Bool

/-- The workers of one kind and the callbacks of their jobs. -/
structure Side (Input Output : Type) where
  /-- `_txPending` or `_rxPending`. -/
  pending : List (Nat × Submission Input Output)
  /-- The jobs posted to each worker, oldest first. -/
  inboxes : List (List (Nat × Input))
  /-- The messages of workers that have not arrived. -/
  answers : List (Nat × Option Output)
  /-- `_txRR` or `_rxRR`. -/
  turn : Nat
  dropped : Nat

structure Pipeline (Input Output : Type) where
  alive : Bool
  jobId : Nat
  side : Kind → Side Input Output
  submitted : List (Submission Input Output)
  calls : List (Submission Input Output × Reply Output)
  /-- The numbers of submissions whose error went to the caller of `submitTx`. -/
  abandoned : List Nat

/-- What `postMessage` does. -/
inductive Posting where
  | taken
  /-- It throws, and the bytes are still there for the main thread. -/
  | refused
  /-- It throws because the bytes were transferred with an earlier job: `Buffer.from` in the
  handler throws on them as well. -/
  | gone
  deriving DecidableEq, Repr

def maxPending : Nat := 2000

/-- What a job makes of its input; `none` where it throws. -/
structure Jobs (Seed Input Output : Type) where
  worker : Kind → Seed → Input → Option Output
  fallback : Kind → Seed → Input → Option Output

inductive Event (Seed Input Output : Type) where
  /-- `submitTx` or `submitRx`. -/
  | submit (kind : Kind) (input : Input) (throws : Reply Output → Bool) (seed : Seed)
      (posting : Posting)
  /-- A worker takes its oldest job and posts what it makes of it. -/
  | work (kind : Kind) (worker : Nat) (seed : Seed)
  /-- `_onTxResult` or `_onRxResult`. -/
  | deliver (kind : Kind) (answer : Nat)
  /-- A message never arrives. -/
  | lose (kind : Kind) (answer : Nat)
  /-- A worker has exited with an error. -/
  | crash (kind : Kind) (worker : Nat)
  | terminate
  /-- The workers have exited after `terminate`. -/
  | exited

variable {Seed Input Output : Type}

def Pipeline.init (enabled : Bool) (pool : Kind → Nat) : Pipeline Input Output :=
  { alive := enabled
    jobId := 0
    side := fun kind => ⟨[], List.replicate (if enabled then pool kind else 0) [], [], 0, 0⟩
    submitted := []
    calls := []
    abandoned := [] }

def Pipeline.setSide (s : Pipeline Input Output) (kind : Kind) (side : Side Input Output) :
    Pipeline Input Output :=
  { s with side := Function.update s.side kind side }

def Pipeline.call (s : Pipeline Input Output) (submission : Submission Input Output)
    (reply : Reply Output) : Pipeline Input Output :=
  { s with calls := s.calls ++ [(submission, reply)] }

/-- `_fallbackTx` and `_fallbackRx`: what the callback throws is caught with what the job
throws, and the callback is called with it. -/
def Pipeline.runFallback (s : Pipeline Input Output) (submission : Submission Input Output)
    (outcome : Option Output) : Pipeline Input Output :=
  match outcome with
  | none => s.call submission .failed
  | some output =>
    let s := s.call submission (.result output)
    if submission.throws (.result output) then s.call submission .thrown else s

/-- A job number is used up and the turn passes on, with no job posted. -/
def Pipeline.skip (s : Pipeline Input Output) (kind : Kind) : Pipeline Input Output :=
  let side := s.side kind
  { s.setSide kind { side with turn := side.turn + 1 } with jobId := s.jobId + 1 }

/-- A job is posted to the worker whose turn it is. -/
def Pipeline.post (s : Pipeline Input Output) (submission : Submission Input Output) :
    Pipeline Input Output :=
  let side := s.side submission.kind
  { s.setSide submission.kind { side with
      pending := side.pending ++ [(s.jobId, submission)]
      inboxes := side.inboxes.modify (side.turn % side.inboxes.length)
        (· ++ [(s.jobId, submission.input)])
      turn := side.turn + 1 } with
    jobId := s.jobId + 1 }

/-- `submitTx` and `submitRx`. -/
def Pipeline.submit (jobs : Jobs Seed Input Output) (s : Pipeline Input Output) (kind : Kind)
    (input : Input) (throws : Reply Output → Bool) (seed : Seed) (posting : Posting) :
    Pipeline Input Output :=
  let submission := ⟨s.submitted.length, kind, input, throws⟩
  let s := { s with submitted := s.submitted ++ [submission] }
  let side := s.side kind
  if !s.alive || side.inboxes.isEmpty then
    s.runFallback submission (jobs.fallback kind seed input)
  else if maxPending ≤ side.pending.length then
    (s.setSide kind { side with dropped := side.dropped + 1 }).runFallback submission
      (jobs.fallback kind seed input)
  else
    match posting with
    | .taken => s.post submission
    | .refused => (s.skip kind).runFallback submission (jobs.fallback kind seed input)
    | .gone => { s.skip kind with abandoned := s.abandoned ++ [submission.number] }

/-- `_flushPending`; what a callback throws is caught. -/
def Pipeline.flush (s : Pipeline Input Output) (kind : Kind) : Pipeline Input Output :=
  let side := s.side kind
  { s.setSide kind { side with pending := [] } with
    calls := s.calls ++ side.pending.map fun (_, submission) => (submission, .flushed) }

/-- `_onTxResult` and `_onRxResult`: an answer whose job no callback waits for is passed over. -/
def Pipeline.onResult (s : Pipeline Input Output) (kind : Kind) (jobId : Nat)
    (outcome : Option Output) : Pipeline Input Output :=
  let side := s.side kind
  match side.pending.find? (·.1 == jobId) with
  | none => s
  | some (_, submission) =>
    (s.setSide kind { side with pending := side.pending.filter (·.1 != jobId) }).call submission
      (match outcome with
      | none => .failed
      | some output => .result output)

def Pipeline.dropAnswer (s : Pipeline Input Output) (kind : Kind) (answer : Nat) :
    Pipeline Input Output :=
  let side := s.side kind
  s.setSide kind { side with answers := side.answers.eraseIdx answer }

def Pipeline.clearInboxes (s : Pipeline Input Output) : Pipeline Input Output :=
  { s with side := fun kind => { s.side kind with inboxes := [] } }

def Pipeline.step (jobs : Jobs Seed Input Output) (s : Pipeline Input Output) :
    Event Seed Input Output → Pipeline Input Output
  | .submit kind input throws seed posting => s.submit jobs kind input throws seed posting
  | .work kind worker seed =>
    let side := s.side kind
    match side.inboxes[worker]? with
    | some ((jobId, input) :: _) =>
      s.setSide kind { side with
        inboxes := side.inboxes.modify worker List.tail
        answers := side.answers ++ [(jobId, jobs.worker kind seed input)] }
    | _ => s
  | .deliver kind answer =>
    match (s.side kind).answers[answer]? with
    | none => s
    | some (jobId, outcome) => (s.dropAnswer kind answer).onResult kind jobId outcome
  | .lose kind answer => s.dropAnswer kind answer
  | .crash kind worker =>
    let side := s.side kind
    if side.inboxes.length ≤ worker then s
    else
      let s := s.setSide kind { side with inboxes := side.inboxes.set worker [] }
      if s.alive then s.flush kind else s
  | .terminate => ({ s with alive := false }.flush .tx).flush .rx
  | .exited => if s.alive then s else s.clearInboxes

def Pipeline.run (jobs : Jobs Seed Input Output) (s : Pipeline Input Output)
    (events : List (Event Seed Input Output)) : Pipeline Input Output :=
  events.foldl (fun s event => s.step jobs event) s

end Meshpn.Workers
