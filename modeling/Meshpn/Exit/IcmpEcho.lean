import Mathlib.Data.List.Forall2
import Mathlib.Data.List.Nodup
import Mathlib.Logic.Function.Basic
import Meshpn.Lib.Bytes
import Meshpn.Lib.Text

/-!
Echo requests of the user-space NAT: `_handleICMP` and `_processICMPResponses`
of `userspace-nat.js`. A request to an outside address is written to a helper
process and remembered under its identifier and sequence number; the helper's
output, text that arrives in pieces, is cut into lines, and a `REP` line is sent
to whoever is remembered under its two numbers.

A reply is modelled by the fields that its bytes are made from. The two
checksums and the identification of the IP header are left out.

Which client an echo reply belongs to. The table of the NAT has no room for two
requests with the same identifier and sequence number, and no record of the
address a request went to, so a reply can reach a client that asked nothing of
its sender. Attribution is right in every run in which neither matters: requests
that wait at the same time under the same two numbers have one client and one
target, and a `REP` line for the numbers of waiting requests comes from there.

The waiting requests are kept beside the NAT, from what the clients sent and the
helper printed alone.
-/

namespace Meshpn.Exit.Icmp

open Meshpn.Lib

/-- An ICMP packet of a client, parsed. -/
structure Packet where
  srcIp : String
  dstIp : String
  icmpType : Nat
  icmpData : Bytes
  deriving DecidableEq, Repr

/-- An echo reply: type and code are zero. -/
structure Reply where
  srcIp : String
  dstIp : String
  id : Nat
  seq : Nat
  ttl : Nat
  payload : Bytes
  deriving DecidableEq, Repr

/-- Who waits for an answer of the helper. -/
structure Pending where
  srcIp : String
  srcNodeId : String
  deriving DecidableEq, Repr

/-- What is written to the helper: `REQ dstIp id seq payload`. -/
structure Command where
  dstIp : String
  id : Nat
  seq : Nat
  payload : Bytes
  deriving DecidableEq, Repr

structure EchoNat where
  localVirtualIp : String
  icmpHelper : Bool
  icmpPending : Nat × Nat → Option Pending
  icmpBuffer : List Char
  /-- What the helper was told, and what was sent to which node, in order. -/
  commands : List Command
  delivered : List (String × Reply)

def EchoNat.init (localVirtualIp : String) (icmpHelper : Bool) : EchoNat :=
  ⟨localVirtualIp, icmpHelper, fun _ => none, [], [], []⟩

/-- The identifier and the sequence number, zero where the data are too short. -/
def echoNumbers : Bytes → Nat × Nat
  | a :: b :: c :: d :: _ => (Bytes.toUInt16 a b, Bytes.toUInt16 c d)
  | _ => (0, 0)

def buildICMPEchoReply (packet : Packet) : Reply where
  srcIp := packet.dstIp
  dstIp := packet.srcIp
  id := (echoNumbers packet.icmpData).1
  seq := (echoNumbers packet.icmpData).2
  ttl := 64
  payload := packet.icmpData.drop 4

/-- A request that goes to the helper. -/
def EchoNat.asksHelper (nat : EchoNat) (packet : Packet) : Bool :=
  packet.icmpType == 8 && packet.dstIp != nat.localVirtualIp && nat.icmpHelper &&
    4 ≤ packet.icmpData.length

/-- A request that the exit answers itself. -/
def EchoNat.answersItself (nat : EchoNat) (packet : Packet) : Bool :=
  packet.icmpType == 8 && packet.dstIp == nat.localVirtualIp

def EchoNat.send (nat : EchoNat) (node : String) (reply : Reply) : EchoNat :=
  { nat with delivered := nat.delivered ++ [(node, reply)] }

def EchoNat.handleICMP (nat : EchoNat) (packet : Packet) (srcNodeId : String) : EchoNat :=
  if nat.answersItself packet then nat.send srcNodeId (buildICMPEchoReply packet)
  else if nat.asksHelper packet then
    let numbers := echoNumbers packet.icmpData
    { nat with
      icmpPending := Function.update nat.icmpPending numbers (some ⟨packet.srcIp, srcNodeId⟩)
      commands := nat.commands ++
        [⟨packet.dstIp, numbers.1, numbers.2, packet.icmpData.drop 4⟩] }
  else nat

inductive Line where
  | rep (srcIp : String) (numbers : Nat × Nat) (ttl : Nat) (payloadHex : List Char)
  | timeout (numbers : Nat × Nat)
  | other
  deriving DecidableEq, Repr

/-- `parseInt(text, 10)` of what the helper prints; `none` is NaN. -/
def parseInt (text : List Char) : Option Nat :=
  match text.takeWhile Char.isDigit with
  | [] => none
  | ds => some (ds.foldl (fun n c => 10 * n + (c.toNat - '0'.toNat)) 0)

/-- The key of two numbers. A NaN is in no key of the table. -/
def numbersOf (id seq : Option (List Char)) : Option (Nat × Nat) :=
  match id.bind parseInt, seq.bind parseInt with
  | some id, some seq => some (id, seq)
  | _, _ => none

def parseLine (line : List Char) : Line :=
  let parts := Text.cut ' ' line
  if parts[0]? = some "REP".toList then
    match numbersOf parts[2]? parts[3]? with
    | some numbers =>
      .rep (String.ofList (parts[1]?.getD [])) numbers ((parts[4]?.bind parseInt).getD 0)
        (parts[5]?.getD [])
    | none => .other
  else if parts[0]? = some "TIMEOUT".toList then
    match numbersOf parts[1]? parts[2]? with
    | some numbers => .timeout numbers
    | none => .other
  else .other

def hexDigit (c : Char) : Option Nat :=
  if c.isDigit then some (c.toNat - '0'.toNat)
  else if 'a' ≤ c ∧ c ≤ 'f' then some (c.toNat - 'a'.toNat + 10)
  else if 'A' ≤ c ∧ c ≤ 'F' then some (c.toNat - 'A'.toNat + 10)
  else none

/-- `Buffer.from(text, 'hex')`: the pairs up to the first that is none. -/
def fromHex : List Char → Bytes
  | a :: b :: rest =>
    match hexDigit a, hexDigit b with
    | some high, some low => UInt8.ofNat (16 * high + low) :: fromHex rest
    | _, _ => []
  | _ => []

def buildICMPReplyFromExternal (extSrcIp clientIp : String) (numbers : Nat × Nat) (ttl : Nat)
    (payloadHex : List Char) : Reply :=
  ⟨extSrcIp, clientIp, numbers.1, numbers.2, ttl, fromHex payloadHex⟩

/-- `this.icmpPending.delete(key)`. -/
def EchoNat.forget (nat : EchoNat) (numbers : Nat × Nat) : EchoNat :=
  { nat with icmpPending := Function.update nat.icmpPending numbers none }

@[simp] theorem forget_pending_self (nat : EchoNat) (numbers : Nat × Nat) :
    (nat.forget numbers).icmpPending numbers = none := by
  simp [EchoNat.forget]

theorem forget_pending_other (nat : EchoNat) {numbers other : Nat × Nat} (hne : other ≠ numbers) :
    (nat.forget numbers).icmpPending other = nat.icmpPending other :=
  Function.update_of_ne hne _ _

/-- One pass of the loop of `_processICMPResponses`. A blank line parses as none. -/
def EchoNat.processLine (nat : EchoNat) : Line → EchoNat
  | .rep srcIp numbers ttl payloadHex =>
    match nat.icmpPending numbers with
    | none => nat
    | some pending =>
      (nat.forget numbers).send pending.srcNodeId
        (buildICMPReplyFromExternal srcIp pending.srcIp numbers ttl payloadHex)
  | .timeout numbers => nat.forget numbers
  | .other => nat

/-- The complete lines of the buffer with new output behind it, and what remains. -/
def EchoNat.linesOf (nat : EchoNat) (data : List Char) : List Line × List Char :=
  let pieces := Text.cut '\n' (nat.icmpBuffer ++ data)
  (pieces.dropLast.map parseLine, pieces.getLast?.getD [])

/-- The `data` handler of the helper's output, with `_processICMPResponses`. -/
def EchoNat.processICMPResponses (nat : EchoNat) (data : List Char) : EchoNat :=
  (nat.linesOf data).1.foldl EchoNat.processLine { nat with icmpBuffer := (nat.linesOf data).2 }

inductive Event where
  | packet (packet : Packet) (srcNodeId : String)
  | output (data : List Char)
  /-- The helper has exited or failed. -/
  | helperGone
  | stop

def EchoNat.step (nat : EchoNat) : Event → EchoNat
  | .packet packet srcNodeId => nat.handleICMP packet srcNodeId
  | .output data => nat.processICMPResponses data
  | .helperGone => { nat with icmpHelper := false }
  | .stop => { nat with icmpHelper := false, icmpPending := fun _ => none }

/-- An echo request, as the client that sent it sees it. -/
structure Request where
  node : String
  srcIp : String
  dstIp : String
  numbers : Nat × Nat
  deriving DecidableEq, Repr

def requestOf (packet : Packet) (node : String) : Request :=
  ⟨node, packet.srcIp, packet.dstIp, echoNumbers packet.icmpData⟩

/-- The echo requests among some events, in order. -/
def requestsOf : List Event → List Request
  | [] => []
  | .packet packet node :: events =>
    (if packet.icmpType == 8 then [requestOf packet node] else []) ++ requestsOf events
  | _ :: events => requestsOf events

def EchoNat.run (nat : EchoNat) (events : List Event) : EchoNat := events.foldl EchoNat.step nat

/-- The reply has come to the client of the request, from the address and with
the numbers it asked for. -/
def Answers (request : Request) (delivery : String × Reply) : Prop :=
  delivery.1 = request.node ∧ delivery.2.dstIp = request.srcIp ∧
    delivery.2.srcIp = request.dstIp ∧ (delivery.2.id, delivery.2.seq) = request.numbers

/-- Every delivery answers a request, and no two of them the same one. -/
def Attributed (requests : List Request) (delivered : List (String × Reply)) : Prop :=
  ∃ served : List Nat, served.Nodup ∧
    List.Forall₂ (fun k delivery => ∃ request, requests[k]? = some request ∧
      Answers request delivery) served delivered

/-- The NAT, the requests so far, and those whose answer is outstanding, each
with its place among all. -/
structure Watched where
  nat : EchoNat
  requests : List Request
  waiting : List (Nat × Request)

def Watched.init (nat : EchoNat) : Watched := ⟨nat, [], []⟩

/-- A `REP` line from this address with these numbers may answer the request. -/
def candidate (srcIp : String) (numbers : Nat × Nat) (entry : Nat × Request) : Bool :=
  entry.2.dstIp == srcIp && entry.2.numbers == numbers

def Watched.packet (w : Watched) (packet : Packet) (node : String) : Watched where
  nat := w.nat.handleICMP packet node
  requests := w.requests ++ if packet.icmpType == 8 then [requestOf packet node] else []
  waiting := w.waiting ++
    if w.nat.asksHelper packet then [(w.requests.length, requestOf packet node)] else []

/-- A `REP` line settles the oldest request it may answer, and a `TIMEOUT` line
the oldest with its numbers. -/
def Watched.line (w : Watched) (line : Line) : Watched where
  nat := w.nat.processLine line
  requests := w.requests
  waiting :=
    match line with
    | .rep srcIp numbers _ _ => w.waiting.eraseP (candidate srcIp numbers)
    | .timeout numbers => w.waiting.eraseP fun entry => entry.2.numbers == numbers
    | .other => w.waiting

def Watched.buffered (w : Watched) (buffer : List Char) : Watched :=
  { w with nat := { w.nat with icmpBuffer := buffer } }

def Watched.step (w : Watched) : Event → Watched
  | .packet packet node => w.packet packet node
  | .output data => (w.nat.linesOf data).1.foldl Watched.line (w.buffered (w.nat.linesOf data).2)
  | .helperGone => { w with nat := w.nat.step .helperGone }
  | .stop => { w with nat := w.nat.step .stop, waiting := [] }

/-- What the line sends goes to the client of every request it may answer, and
there is one. -/
def Watched.LineRight (w : Watched) : Line → Prop
  | .rep srcIp numbers _ _ => ∀ pending, w.nat.icmpPending numbers = some pending →
      (∃ entry ∈ w.waiting, candidate srcIp numbers entry = true) ∧
        ∀ entry ∈ w.waiting, candidate srcIp numbers entry = true →
          entry.2.node = pending.srcNodeId ∧ entry.2.srcIp = pending.srcIp
  | _ => True

/-- A `REP` line with the numbers of waiting requests comes from where they went. -/
def Watched.LineOk (w : Watched) : Line → Prop
  | .rep srcIp numbers _ _ =>
      ∀ entry ∈ w.waiting, entry.2.numbers = numbers → entry.2.dstIp = srcIp
  | _ => True

/-- A condition on each line, over the lines of one piece of output. -/
def Watched.Lines (condition : Watched → Line → Prop) : Watched → List Line → Prop
  | _, [] => True
  | w, line :: lines => condition w line ∧ (w.line line).Lines condition lines

/-- The replies of an event go where they should. -/
def Watched.EventRight (w : Watched) : Event → Prop
  | .output data =>
      (w.buffered (w.nat.linesOf data).2).Lines Watched.LineRight (w.nat.linesOf data).1
  | _ => True

/-- A request for the helper does not take the numbers of a waiting request of
another client or to another target, and the lines are in order. -/
def Watched.EventOk (w : Watched) : Event → Prop
  | .packet packet node =>
      w.nat.asksHelper packet = true → ∀ entry ∈ w.waiting,
        entry.2.numbers = echoNumbers packet.icmpData → entry.2 = requestOf packet node
  | .output data =>
      (w.buffered (w.nat.linesOf data).2).Lines Watched.LineOk (w.nat.linesOf data).1
  | _ => True

/-- A condition on each event of a run. -/
def Watched.Along (condition : Watched → Event → Prop) : Watched → List Event → Prop
  | _, [] => True
  | w, event :: events => condition w event ∧ (w.step event).Along condition events

theorem foldl_line_nat (w : Watched) (lines : List Line) :
    (lines.foldl Watched.line w).nat = lines.foldl EchoNat.processLine w.nat := by
  induction lines generalizing w with
  | nil => rfl
  | cons line lines ih => exact ih (w.line line)

theorem step_nat (w : Watched) (event : Event) : (w.step event).nat = w.nat.step event := by
  cases event with
  | packet packet node => rfl
  | output data => exact foldl_line_nat _ _
  | helperGone => rfl
  | stop => rfl

theorem foldl_line_requests (w : Watched) (lines : List Line) :
    (lines.foldl Watched.line w).requests = w.requests := by
  induction lines generalizing w with
  | nil => rfl
  | cons line lines ih => exact ih (w.line line)

theorem step_requests (w : Watched) (event : Event) :
    (w.step event).requests = w.requests ++ requestsOf [event] := by
  cases event with
  | packet packet node => simp [Watched.step, Watched.packet, requestsOf]
  | output data => simp [Watched.step, requestsOf, foldl_line_requests, Watched.buffered]
  | helperGone => simp [Watched.step, requestsOf]
  | stop => simp [Watched.step, requestsOf]

theorem requestsOf_cons (event : Event) (events : List Event) :
    requestsOf (event :: events) = requestsOf [event] ++ requestsOf events := by
  cases event <;> simp [requestsOf]

theorem watched_run (w : Watched) (events : List Event) :
    (events.foldl Watched.step w).nat = w.nat.run events ∧
      (events.foldl Watched.step w).requests = w.requests ++ requestsOf events := by
  induction events generalizing w with
  | nil => exact ⟨rfl, by simp [requestsOf]⟩
  | cons event events ih =>
    obtain ⟨hnat, hrequests⟩ := ih (w.step event)
    refine ⟨?_, ?_⟩
    · rw [List.foldl_cons, hnat, step_nat]
      rfl
    · rw [List.foldl_cons, hrequests, step_requests, requestsOf_cons event events,
        List.append_assoc]

/-- The table has entries only of waiting requests, and waiting requests with the
same numbers are alike; none of them has been served. -/
structure Watched.Sound (w : Watched) (served : List Nat) : Prop where
  listed : ∀ numbers pending, w.nat.icmpPending numbers = some pending →
    ∃ entry ∈ w.waiting, entry.2.numbers = numbers
  owner : ∀ numbers pending, w.nat.icmpPending numbers = some pending →
    ∀ entry ∈ w.waiting, entry.2.numbers = numbers →
      entry.2.node = pending.srcNodeId ∧ entry.2.srcIp = pending.srcIp
  places : ∀ entry ∈ w.waiting, w.requests[entry.1]? = some entry.2 ∧ entry.1 ∉ served
  distinct : (w.waiting.map Prod.fst).Nodup
  bounded : ∀ k ∈ served, k < w.requests.length
  nodup : served.Nodup
  answered : List.Forall₂ (fun k delivery => ∃ request, w.requests[k]? = some request ∧
    Answers request delivery) served w.nat.delivered

theorem init_sound (nat : EchoNat) (hpending : nat.icmpPending = fun _ => none)
    (hdelivered : nat.delivered = []) : (Watched.init nat).Sound [] where
  listed _ _ h := by simp [Watched.init, hpending] at h
  owner _ _ h := by simp [Watched.init, hpending] at h
  places := by simp [Watched.init]
  distinct := by simp [Watched.init]
  bounded := by simp
  nodup := List.nodup_nil
  answered := by
    simp only [Watched.init, hdelivered]
    exact .nil

section Sound

variable {w : Watched} {served : List Nat} (h : w.Sound served)
include h

theorem Watched.Sound.close (numbers : Nat × Nat) {left : List (Nat × Request)}
    (hleft : left.Sublist w.waiting)
    (hothers : ∀ entry ∈ w.waiting, entry.2.numbers ≠ numbers → entry ∈ left) :
    Watched.Sound ⟨w.nat.forget numbers, w.requests, left⟩ served where
  listed found pending hpending := by
    have hfound : found ≠ numbers := fun heq => by simp [heq] at hpending
    obtain ⟨entry, hentry, hnumbers⟩ :=
      h.listed found pending ((forget_pending_other w.nat hfound).symm.trans hpending)
    exact ⟨entry, hothers entry hentry (hnumbers ▸ hfound), hnumbers⟩
  owner found pending hpending entry hentry hnumbers := by
    have hfound : found ≠ numbers := fun heq => by simp [heq] at hpending
    exact h.owner found pending ((forget_pending_other w.nat hfound).symm.trans hpending) entry
      (hleft.subset hentry) hnumbers
  places entry hentry := h.places entry (hleft.subset hentry)
  distinct := h.distinct.sublist (hleft.map _)
  bounded := h.bounded
  nodup := h.nodup
  answered := h.answered

theorem Watched.Sound.right {line : Line} (hline : w.LineOk line) : w.LineRight line := by
  cases line with
  | rep srcIp numbers ttl payloadHex =>
    intro pending hpending
    obtain ⟨entry, hentry, hnumbers⟩ := h.listed numbers pending hpending
    refine ⟨⟨entry, hentry, ?_⟩, fun other hother hcandidate => ?_⟩
    · simp [candidate, hnumbers, hline entry hentry hnumbers]
    · simp only [candidate, Bool.and_eq_true, beq_iff_eq] at hcandidate
      exact h.owner numbers pending hpending other hother hcandidate.2
  | timeout numbers => trivial
  | other => trivial

theorem Watched.Sound.reply {srcIp : String} {numbers : Nat × Nat} {ttl : Nat}
    {payloadHex : List Char} (hline : w.LineOk (.rep srcIp numbers ttl payloadHex))
    {pending : Pending} (hpending : w.nat.icmpPending numbers = some pending) :
    ∃ more, (w.line (.rep srcIp numbers ttl payloadHex)).Sound more := by
  obtain ⟨⟨witness, hwitness, hcandidate⟩, howners⟩ := h.right hline pending hpending
  obtain ⟨entry, older, newer, _, hentry, hwaiting, herased⟩ :=
    List.exists_of_eraseP hwitness hcandidate
  have hmember : entry ∈ w.waiting := by rw [hwaiting]; simp
  obtain ⟨hplace, hunserved⟩ := h.places entry hmember
  obtain ⟨hnode, hsrcIp⟩ := howners entry hmember hentry
  simp only [candidate, Bool.and_eq_true, beq_iff_eq] at hentry
  have hclosed : Watched.Sound ⟨w.nat.forget numbers, w.requests,
      w.waiting.eraseP (candidate srcIp numbers)⟩ served :=
    h.close numbers List.eraseP_sublist fun other hother hne =>
      (List.mem_eraseP_of_neg (by simp [candidate, hne])).mpr hother
  have hleft : ∀ other ∈ w.waiting.eraseP (candidate srcIp numbers), other.1 ≠ entry.1 := by
    have hdistinct := h.distinct
    rw [hwaiting, List.map_append, List.map_cons] at hdistinct
    rw [herased]
    intro other hother hsame
    refine (List.nodup_middle.mp hdistinct).notMem ?_
    rw [← hsame, ← List.map_append]
    exact List.mem_map_of_mem hother
  have hnat : (w.line (.rep srcIp numbers ttl payloadHex)).nat =
      (w.nat.forget numbers).send pending.srcNodeId
        (buildICMPReplyFromExternal srcIp pending.srcIp numbers ttl payloadHex) := by
    simp [Watched.line, EchoNat.processLine, hpending]
  refine ⟨served ++ [entry.1], ?_, ?_, ?_, hclosed.distinct, ?_, ?_, ?_⟩
  · rw [hnat]
    exact hclosed.listed
  · rw [hnat]
    exact hclosed.owner
  · intro other hother
    obtain ⟨hrequest, hother'⟩ := hclosed.places other hother
    refine ⟨hrequest, ?_⟩
    rw [List.mem_append, List.mem_singleton, not_or]
    exact ⟨hother', hleft other hother⟩
  · intro k hk
    rcases List.mem_append.mp hk with hold | hnew
    · exact h.bounded k hold
    · rw [List.mem_singleton.mp hnew]
      exact (List.getElem?_eq_some_iff.mp hplace).1
  · refine List.nodup_append.mpr ⟨h.nodup, by simp, ?_⟩
    rintro k hk j hj rfl
    exact hunserved (List.mem_singleton.mp hj ▸ hk)
  · rw [hnat]
    refine List.rel_append h.answered (.cons ⟨entry.2, hplace, ?_⟩ .nil)
    exact ⟨hnode.symm, hsrcIp.symm, hentry.1.symm, hentry.2.symm⟩

theorem Watched.Sound.line {line : Line} (hline : w.LineOk line) :
    ∃ more, (w.line line).Sound more := by
  cases line with
  | other =>
    exact ⟨served, h.listed, h.owner, h.places, h.distinct, h.bounded, h.nodup, h.answered⟩
  | timeout numbers =>
    refine ⟨served, h.close numbers List.eraseP_sublist fun other hother hne => ?_⟩
    exact (List.mem_eraseP_of_neg (by simp [hne])).mpr hother
  | rep srcIp numbers ttl payloadHex =>
    cases hpending : w.nat.icmpPending numbers with
    | some pending => exact h.reply hline hpending
    | none =>
      have hforget : w.nat.forget numbers = w.nat := by
        simp [EchoNat.forget, ← hpending]
      have hnat : (w.line (.rep srcIp numbers ttl payloadHex)).nat = w.nat.forget numbers := by
        simp [Watched.line, EchoNat.processLine, hpending, hforget]
      have hclosed : Watched.Sound ⟨w.nat.forget numbers, w.requests,
          w.waiting.eraseP (candidate srcIp numbers)⟩ served :=
        h.close numbers List.eraseP_sublist fun other hother hne =>
          (List.mem_eraseP_of_neg (by simp [candidate, hne])).mpr hother
      refine ⟨served, ?_⟩
      rw [← hnat] at hclosed
      exact hclosed

theorem Watched.Sound.lines {lines : List Line} (hlines : w.Lines Watched.LineOk lines) :
    w.Lines Watched.LineRight lines ∧ ∃ more, (lines.foldl Watched.line w).Sound more := by
  induction lines generalizing w served with
  | nil => exact ⟨trivial, served, h⟩
  | cons line lines ih =>
    obtain ⟨more, hmore⟩ := h.line hlines.1
    obtain ⟨hright, hlast⟩ := ih hmore hlines.2
    exact ⟨⟨h.right hlines.1, hright⟩, hlast⟩

theorem Watched.Sound.grow (more : List Request) :
    Watched.Sound { w with requests := w.requests ++ more } served where
  listed := h.listed
  owner := h.owner
  places entry hentry := by
    obtain ⟨hplace, hunserved⟩ := h.places entry hentry
    refine ⟨?_, hunserved⟩
    rw [List.getElem?_append_left (List.getElem?_eq_some_iff.mp hplace).1]
    exact hplace
  distinct := h.distinct
  bounded k hk := by
    have := h.bounded k hk
    simp only [List.length_append]
    omega
  nodup := h.nodup
  answered := by
    refine h.answered.imp ?_
    rintro k delivery ⟨request, hplace, hanswers⟩
    refine ⟨request, ?_, hanswers⟩
    rw [List.getElem?_append_left (List.getElem?_eq_some_iff.mp hplace).1]
    exact hplace

theorem Watched.Sound.place_lt {entry : Nat × Request} (hentry : entry ∈ w.waiting) :
    entry.1 < w.requests.length :=
  (List.getElem?_eq_some_iff.mp (h.places entry hentry).1).1

theorem Watched.Sound.served_itself {packet : Packet} (node : String)
    (hself : w.nat.answersItself packet = true) :
    (w.packet packet node).Sound (served ++ [w.requests.length]) := by
  simp only [EchoNat.answersItself, Bool.and_eq_true, beq_iff_eq] at hself
  have hasks : w.nat.asksHelper packet = false := by simp [EchoNat.asksHelper, hself.2]
  have hpacket : w.packet packet node =
      ⟨w.nat.send node (buildICMPEchoReply packet), w.requests ++ [requestOf packet node],
        w.waiting⟩ := by
    simp [Watched.packet, EchoNat.handleICMP, EchoNat.answersItself, hself, hasks]
  have hgrown := h.grow [requestOf packet node]
  rw [hpacket]
  refine ⟨h.listed, h.owner, ?_, h.distinct, ?_, ?_, ?_⟩
  · intro entry hentry
    have hplace := h.place_lt hentry
    refine ⟨(hgrown.places entry hentry).1, ?_⟩
    rw [List.mem_append, List.mem_singleton, not_or]
    exact ⟨(h.places entry hentry).2, by omega⟩
  · intro k hk
    rcases List.mem_append.mp hk with hold | hnew
    · exact hgrown.bounded k hold
    · simp [List.mem_singleton.mp hnew]
  · refine List.nodup_append.mpr ⟨h.nodup, by simp, ?_⟩
    rintro k hk j hj rfl
    have := h.bounded k hk
    rw [List.mem_singleton.mp hj] at this
    omega
  · refine List.rel_append hgrown.answered (.cons ⟨requestOf packet node, by simp, ?_⟩ .nil)
    exact ⟨rfl, rfl, rfl, rfl⟩

theorem Watched.Sound.asked {packet : Packet} (node : String)
    (hasks : w.nat.asksHelper packet = true)
    (hevent : ∀ entry ∈ w.waiting, entry.2.numbers = echoNumbers packet.icmpData →
      entry.2 = requestOf packet node) : (w.packet packet node).Sound served := by
  have htype : packet.icmpType = 8 ∧ packet.dstIp ≠ w.nat.localVirtualIp := by
    simp only [EchoNat.asksHelper, Bool.and_eq_true, beq_iff_eq, bne_iff_ne] at hasks
    exact hasks.1.1
  have hself : w.nat.answersItself packet = false := by
    simp [EchoNat.answersItself, htype.2]
  have hgrown := h.grow [requestOf packet node]
  have hrequests : (w.packet packet node).requests = w.requests ++ [requestOf packet node] := by
    simp [Watched.packet, htype.1]
  have hwaiting : (w.packet packet node).waiting =
      w.waiting ++ [(w.requests.length, requestOf packet node)] := by
    simp [Watched.packet, hasks]
  have hpending : (w.packet packet node).nat.icmpPending =
      Function.update w.nat.icmpPending (echoNumbers packet.icmpData)
        (some ⟨packet.srcIp, node⟩) := by
    simp [Watched.packet, EchoNat.handleICMP, hself, hasks]
  have hdelivered : (w.packet packet node).nat.delivered = w.nat.delivered := by
    simp [Watched.packet, EchoNat.handleICMP, hself, hasks]
  refine ⟨?_, ?_, ?_, ?_, ?_, h.nodup, ?_⟩
  · intro numbers pending hsome
    rw [hpending] at hsome
    rw [hwaiting]
    by_cases hnumbers : numbers = echoNumbers packet.icmpData
    · exact ⟨(w.requests.length, requestOf packet node), by simp, hnumbers.symm⟩
    rw [Function.update_of_ne hnumbers] at hsome
    obtain ⟨entry, hentry, hfound⟩ := h.listed numbers pending hsome
    exact ⟨entry, List.mem_append_left _ hentry, hfound⟩
  · intro numbers pending hsome entry hentry hfound
    rw [hpending] at hsome
    rw [hwaiting] at hentry
    by_cases hnumbers : numbers = echoNumbers packet.icmpData
    · have hrequest : entry.2 = requestOf packet node := by
        rcases List.mem_append.mp hentry with hold | hnew
        · exact hevent entry hold (hfound.trans hnumbers)
        · rw [List.mem_singleton.mp hnew]
      rw [hnumbers, Function.update_self] at hsome
      cases hsome
      simp [hrequest, requestOf]
    · rw [Function.update_of_ne hnumbers] at hsome
      rcases List.mem_append.mp hentry with hold | hnew
      · exact h.owner numbers pending hsome entry hold hfound
      · rw [List.mem_singleton.mp hnew] at hfound
        exact absurd hfound.symm hnumbers
  · intro entry hentry
    rw [hwaiting] at hentry
    rw [hrequests]
    rcases List.mem_append.mp hentry with hold | hnew
    · exact hgrown.places entry hold
    rw [List.mem_singleton.mp hnew]
    refine ⟨by simp, fun hserved => ?_⟩
    have := h.bounded _ hserved
    omega
  · rw [hwaiting, List.map_append]
    refine List.nodup_append.mpr ⟨h.distinct, by simp, ?_⟩
    rintro k hk j hj rfl
    obtain ⟨entry, hentry, rfl⟩ := List.mem_map.mp hk
    have := h.place_lt hentry
    simp only [List.map_cons, List.map_nil, List.mem_singleton] at hj
    omega
  · rw [hrequests]
    exact hgrown.bounded
  · rw [hrequests, hdelivered]
    exact hgrown.answered

theorem Watched.Sound.packet {packet : Packet} {node : String}
    (hevent : w.EventOk (.packet packet node)) : ∃ more, (w.packet packet node).Sound more := by
  by_cases hself : w.nat.answersItself packet = true
  · exact ⟨_, h.served_itself node hself⟩
  by_cases hasks : w.nat.asksHelper packet = true
  · exact ⟨_, h.asked node hasks (hevent hasks)⟩
  have hpacket : w.packet packet node =
      { w with requests := w.requests ++
          if packet.icmpType == 8 then [requestOf packet node] else [] } := by
    simp [Watched.packet, EchoNat.handleICMP, hself, hasks]
  rw [hpacket]
  exact ⟨served, h.grow _⟩

theorem Watched.Sound.step {event : Event} (hevent : w.EventOk event) :
    w.EventRight event ∧ ∃ more, (w.step event).Sound more := by
  cases event with
  | packet packet node => exact ⟨trivial, h.packet hevent⟩
  | output data =>
    have hbuffered : (w.buffered (w.nat.linesOf data).2).Sound served :=
      ⟨h.listed, h.owner, h.places, h.distinct, h.bounded, h.nodup, h.answered⟩
    exact hbuffered.lines hevent
  | helperGone =>
    exact ⟨trivial, served, h.listed, h.owner, h.places, h.distinct, h.bounded, h.nodup,
      h.answered⟩
  | stop =>
    refine ⟨trivial, served, ?_, ?_, ?_, ?_, h.bounded, h.nodup, h.answered⟩
    · intro numbers pending hpending
      cases hpending
    · intro numbers pending hpending
      cases hpending
    · simp [Watched.step]
    · simp [Watched.step]

theorem Watched.Sound.run {events : List Event} (hevents : w.Along Watched.EventOk events) :
    w.Along Watched.EventRight events ∧ ∃ more, (events.foldl Watched.step w).Sound more := by
  induction events generalizing w served with
  | nil => exact ⟨trivial, served, h⟩
  | cons event events ih =>
    obtain ⟨hright, more, hmore⟩ := h.step hevents.1
    obtain ⟨hrest, hlast⟩ := ih hmore hevents.2
    exact ⟨⟨hright, hrest⟩, hlast⟩

end Sound

/-- An echo request with identifier 1, sequence number 1 and no payload. -/
def samplePing (srcIp dstIp : String) : Packet := ⟨srcIp, dstIp, 8, [0, 1, 0, 1]⟩

/-- The helper's line for an answer of 8.8.8.8 to such a request. -/
def sampleOutput : List Char := "REP 8.8.8.8 1 1 57 \n".toList

def loneEvents : List Event :=
  [.packet (samplePing "10.0.0.2" "8.8.8.8") "a", .output sampleOutput]

/-- A second client pings another host with the same numbers before the answer. -/
def collidingEvents : List Event :=
  [.packet (samplePing "10.0.0.2" "8.8.8.8") "a", .packet (samplePing "10.0.0.3" "1.1.1.1") "b",
    .output sampleOutput]

end Meshpn.Exit.Icmp
