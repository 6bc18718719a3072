import Meshpn.Lib.Bytes

/-!
Packets over a byte stream: four bytes of length before each packet. The writer
joins frames into batches and flushes them on the next turn of the event loop or
on a timer; the reader keeps the chunks it was given, cuts packets off their
front and joins the chunks when there are many of them.
-/

namespace Meshpn.Bridge

open Meshpn.Lib

def maxPkt : Nat := 65535

def encodeCleanVpnFramedPkt (pkt : Bytes) : Bytes := Bytes.ofUInt32 pkt.length ++ pkt

structure StreamFramer where
  chunks : List Bytes
  len : Nat
deriving DecidableEq

namespace StreamFramer

def init : StreamFramer := ⟨[], 0⟩

/-- At how many chunks they are joined. -/
def chunkMergeAfter : Nat := 24

/-- The loop that copies `need` bytes from the front of the chunks. -/
def copyFront : Nat → List Bytes → Bytes
  | _, [] => []
  | need, chunk :: rest =>
    if need = 0 then []
    else if need ≤ chunk.length then chunk.take need
    else chunk ++ copyFront (need - chunk.length) rest

def peekUInt32BE (framer : StreamFramer) : Option Nat :=
  if framer.len < 4 then none
  else
    match framer.chunks with
    | [] => none
    | first :: _ =>
      if 4 ≤ first.length then Bytes.readUInt32 first
      else
        let copied := copyFront 4 framer.chunks
        if 4 ≤ copied.length then Bytes.readUInt32 copied else none

/-- Takes `n` bytes off the front; without a chunk to take them from the code throws. -/
def consume : Nat → List Bytes → Nat → Option (Bytes × StreamFramer)
  | 0, chunks, len => some ([], ⟨chunks, len⟩)
  | _ + 1, [], _ => none
  | n + 1, first :: rest, len =>
    if first.length ≤ n + 1 then
      (consume (n + 1 - first.length) rest (len - first.length)).map fun taken =>
        (first ++ taken.1, taken.2)
    else some (first.take (n + 1), ⟨first.drop (n + 1) :: rest, len - (n + 1)⟩)

/-- The joined buffer has the recorded length, whatever is copied into it. -/
def mergeChunksIfNeeded (framer : StreamFramer) : StreamFramer :=
  if framer.chunks.length < chunkMergeAfter ∨ framer.len = 0 then framer
  else
    { framer with
      chunks := [(framer.chunks.flatten ++ List.replicate framer.len 0).take framer.len] }

inductive Fault where
  | badFrameLength (packedLen : Nat)
  | noChunk
deriving DecidableEq

/-- What a push leaves: the framer, the packets it handed over, each with the framer as the
callback finds it, and what was thrown. -/
structure Pushed where
  framer : StreamFramer
  delivered : List (Bytes × StreamFramer)
  fault : Option Fault
deriving DecidableEq

def Pushed.packets (pushed : Pushed) : List Bytes := pushed.delivered.map Prod.fst

/-- The loop of a push. Every pass takes at least five bytes, so that the length is fuel
enough. -/
def deliver : Nat → StreamFramer → Pushed
  | 0, framer => ⟨framer, [], none⟩
  | fuel + 1, framer =>
    match framer.peekUInt32BE with
    | none => ⟨framer.mergeChunksIfNeeded, [], none⟩
    | some packedLen =>
      if packedLen = 0 ∨ packedLen > maxPkt then ⟨init, [], some (.badFrameLength packedLen)⟩
      else if framer.len < 4 + packedLen then ⟨framer.mergeChunksIfNeeded, [], none⟩
      else
        match consume (4 + packedLen) framer.chunks framer.len with
        | none => ⟨framer, [], some .noChunk⟩
        | some (frame, next) =>
          let more := deliver fuel next
          { more with delivered := (frame.drop 4, next) :: more.delivered }

def add (framer : StreamFramer) (chunk : Bytes) : StreamFramer :=
  if chunk = [] then framer else ⟨framer.chunks ++ [chunk], framer.len + chunk.length⟩

def push (framer : StreamFramer) (chunk : Bytes) : Pushed :=
  deliver ((framer.add chunk).len + 1) (framer.add chunk)

/-- Chunk after chunk, up to the first error. -/
def pushAll (framer : StreamFramer) : List Bytes → Pushed
  | [] => ⟨framer, [], none⟩
  | chunk :: rest =>
    let pushed := framer.push chunk
    match pushed.fault with
    | some _ => pushed
    | none =>
      let more := pushAll pushed.framer rest
      { more with delivered := pushed.delivered ++ more.delivered }

end StreamFramer

/-- The two settings from the environment. -/
structure WriterConfig where
  maxBatch : Nat
  flushMs : Nat

/-- The closure's variables, the `setImmediate` callbacks that are still to run, and the
buffers handed to the endpoint. -/
structure Writer where
  batch : List Bytes
  batchLen : Nat
  flushTimer : Bool
  flushDeferred : Bool
  immediates : Nat
  written : List Bytes
deriving DecidableEq

namespace Writer

def init : Writer := ⟨[], 0, false, false, 0, []⟩

def concat (batch : List Bytes) (batchLen : Nat) : Bytes :=
  (batch.flatten ++ List.replicate batchLen 0).take batchLen

def flush (writer : Writer) : Writer :=
  let idle := { writer with flushTimer := false, flushDeferred := false }
  if writer.batchLen = 0 then idle
  else
    let payload :=
      match writer.batch with
      | [only] => only
      | batch => concat batch writer.batchLen
    { idle with batch := [], batchLen := 0, written := writer.written ++ [payload] }

def scheduleFlush (config : WriterConfig) (writer : Writer) : Writer :=
  if writer.batchLen = 0 then writer
  else if config.flushMs = 0 then
    if writer.flushDeferred then writer
    else { writer with flushDeferred := true, immediates := writer.immediates + 1 }
  else { writer with flushTimer := true }

def push (config : WriterConfig) (writer : Writer) (pkt : Bytes) : Writer :=
  if config.maxBatch = 0 then
    { writer with written := writer.written ++ [encodeCleanVpnFramedPkt pkt] }
  else
    let piece := encodeCleanVpnFramedPkt pkt
    let grown := { writer with
      batch := writer.batch ++ [piece]
      batchLen := writer.batchLen + piece.length }
    if grown.batchLen ≥ config.maxBatch then grown.flush else grown.scheduleFlush config

end Writer

inductive WriterEvent where
  | push (pkt : Bytes)
  | immediate
  | timer

/-- A callback runs only where it was scheduled; a flush cancels the timer, but not the
immediates. -/
def Writer.step (config : WriterConfig) (writer : Writer) : WriterEvent → Writer
  | .push pkt => writer.push config pkt
  | .immediate =>
    if writer.immediates = 0 then writer
    else { writer with immediates := writer.immediates - 1 }.flush
  | .timer => if writer.flushTimer then { writer with flushTimer := false }.flush else writer

def Writer.run (config : WriterConfig) (writer : Writer) (events : List WriterEvent) : Writer :=
  events.foldl (Writer.step config) writer

end Meshpn.Bridge
