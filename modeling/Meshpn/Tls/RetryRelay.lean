import Meshpn.Tls.RetryRewrite

/-!
Two guards with a connection between them. The client's bytes go through the
guard of the client and then through the one of the exit, the server's bytes the
other way; the connection keeps the bytes in order and delivers them in chunks of
any size, and the four directions take turns in any order.

What holds of both guards together rests on what the server has said: the guard
of the client has seen a part of what the one of the exit has seen.
-/

namespace Meshpn.Tls

open Meshpn.Lib List
open Meshpn.Lib.Bytes

/-- All that one direction of a guard has been given and has put out. -/
structure Passage where
  input : Bytes
  output : Bytes
  deriving DecidableEq, Repr

def Passage.add (passage : Passage) (chunk out : Bytes) : Passage :=
  ⟨passage.input ++ chunk, passage.output ++ out⟩

structure Relay where
  client : RetryGuard
  exit : RetryGuard
  clientUp : Passage
  exitUp : Passage
  exitDown : Passage
  clientDown : Passage
  deriving DecidableEq, Repr

inductive RelayEvent where
  -- bytes of the application, and of the server
  | app (chunk : Bytes)
  | origin (chunk : Bytes)
  -- the connection delivers up to so many bytes
  | up (count : Nat)
  | down (count : Nat)
  deriving DecidableEq, Repr

namespace Relay

def init (client exit : RetryGuard) : Relay :=
  ⟨client, exit, ⟨[], []⟩, ⟨[], []⟩, ⟨[], []⟩, ⟨[], []⟩⟩

def upward (relay : Relay) : Bytes := relay.clientUp.output.drop relay.exitUp.input.length

def downward (relay : Relay) : Bytes := relay.exitDown.output.drop relay.clientDown.input.length

def step (relay : Relay) : RelayEvent → Relayed Relay
  | .app chunk => (relay.client.feed .client chunk).map fun (guard, out) =>
      { relay with client := guard, clientUp := relay.clientUp.add chunk out }
  | .up count => (relay.exit.feed .client (relay.upward.take count)).map fun (guard, out) =>
      { relay with exit := guard, exitUp := relay.exitUp.add (relay.upward.take count) out }
  | .origin chunk => (relay.exit.feed .server chunk).map fun (guard, out) =>
      { relay with exit := guard, exitDown := relay.exitDown.add chunk out }
  | .down count => (relay.client.feed .server (relay.downward.take count)).map fun (guard, out) =>
      { relay with
        client := guard
        clientDown := relay.clientDown.add (relay.downward.take count) out }

def run (relay : Relay) : List RelayEvent → Relayed Relay
  | [] => .ok relay
  | event :: events => (relay.step event).bind fun relay => relay.run events

end Relay

namespace RetryGuard

/-- What has gone through a guard, with what it has been given and has put out. -/
structure Carries (g : RetryGuard) (t : RetryTrace) (up down : Passage) : Prop where
  follows : g.Follows t
  upInput : up.input = t.input .client ++ g.client.held
  upOutput : up.output = t.output .client
  downInput : down.input = t.input .server ++ g.server.held
  downOutput : down.output = t.output .server
  clientPartial : Partial g.client.pending
  serverPartial : Partial g.server.pending

variable {g g' : RetryGuard} {t : RetryTrace} {up down : Passage} {chunk out : Bytes}

theorem Carries.forward (h : g.Carries t up down) (hfeed : g.feed .client chunk = .ok (g', out)) :
    SameConfig g g' ∧ ∃ t', g'.Carries t' (up.add chunk out) down := by
  obtain ⟨t', hfollows, hmoves, hbegun⟩ := h.follows.feed hfeed
  have hother : g'.server = g.server := hmoves.other
  refine ⟨hmoves.config, t', hfollows, ?_, ?_, ?_, ?_, hbegun, ?_⟩
  · exact (congrArg (· ++ chunk) h.upInput).trans hmoves.input.symm
  · exact (congrArg (· ++ out) h.upOutput).trans hmoves.output.symm
  · rw [h.downInput, hother]
    exact congrArg (· ++ g.server.held) hmoves.otherInput.symm
  · rw [h.downOutput]
    exact hmoves.otherOutput.symm
  · rw [hother]
    exact h.serverPartial

theorem Carries.reverse (h : g.Carries t up down) (hfeed : g.feed .server chunk = .ok (g', out)) :
    SameConfig g g' ∧ ∃ t', g'.Carries t' up (down.add chunk out) := by
  obtain ⟨t', hfollows, hmoves, hbegun⟩ := h.follows.feed hfeed
  have hother : g'.client = g.client := hmoves.other
  refine ⟨hmoves.config, t', hfollows, ?_, ?_, ?_, ?_, ?_, hbegun⟩
  · rw [h.upInput, hother]
    exact congrArg (· ++ g.client.held) hmoves.otherInput.symm
  · rw [h.upOutput]
    exact hmoves.otherOutput.symm
  · exact (congrArg (· ++ chunk) h.downInput).trans hmoves.input.symm
  · exact (congrArg (· ++ out) h.downOutput).trans hmoves.output.symm
  · rw [hother]
    exact h.clientPartial

end RetryGuard

/-- What holds of the two guards in every run. -/
structure Relay.Sound (client exit : RetryGuard) (relay : Relay) : Prop where
  clientConfig : RetryGuard.SameConfig client relay.client
  exitConfig : RetryGuard.SameConfig exit relay.exit
  client : ∃ t, relay.client.Carries t relay.clientUp relay.clientDown
  exit : ∃ t, relay.exit.Carries t relay.exitUp relay.exitDown
  up : relay.exitUp.input <+: relay.clientUp.output
  down : relay.clientDown.input <+: relay.exitDown.output

def RetryGuard.Fresh (g : RetryGuard) : Prop :=
  g.client = ⟨[], none⟩ ∧ g.server = ⟨[], none⟩ ∧ g.phase = .serverFirst

variable {hellos : List ServerHello} {phase : Phase} {g : RetryGuard}

theorem RetryGuard.Fresh.carries (h : g.Fresh) :
    g.Carries RetryTrace.init ⟨[], []⟩ ⟨[], []⟩ := by
  obtain ⟨hclient, hserver, hphase⟩ := h
  have hfollows : g.Follows RetryTrace.init := {
    agrees := by rw [hphase]; exact .serverFirst
    answers := fun _ hpiece => absurd hpiece not_mem_nil
    first := fun _ hbytes => absurd hbytes not_mem_nil
    second := fun _ hbytes => absurd hbytes not_mem_nil
    swap := fun _ _ hswap => by cases hswap
    served := fun _ => rfl
    sent := fun _ => rfl
    unswapped := fun _ => rfl
    clientHello := fun _ hsome => by rw [hclient] at hsome; cases hsome
    serverHello := fun _ hsome => by rw [hserver] at hsome; cases hsome }
  refine ⟨hfollows, ?_, rfl, ?_, rfl, ?_, ?_⟩
  · rw [hclient]
    rfl
  · rw [hserver]
    rfl
  · rw [hclient]
    exact RetryGuard.partial_nil
  · rw [hserver]
    exact RetryGuard.partial_nil

theorem prefix_append_take {sent got : Bytes} (h : got <+: sent) (count : Nat) :
    got ++ (sent.drop got.length).take count <+: sent := by
  obtain ⟨rest, rfl⟩ := h
  rw [drop_left]
  exact (prefix_append_right_inj _).mpr <| take_prefix _ _

namespace Relay

variable {client exit : RetryGuard} {relay next : Relay}

theorem Sound.step (h : relay.Sound client exit) (event : RelayEvent)
    (hstep : relay.step event = .ok next) : next.Sound client exit := by
  obtain ⟨tc, hc⟩ := h.client
  obtain ⟨te, he⟩ := h.exit
  cases event with
  | app chunk =>
    cases hfeed : relay.client.feed .client chunk with
    | error code =>
      rw [Relay.step, hfeed] at hstep
      cases hstep
    | ok result =>
      rw [Relay.step, hfeed] at hstep
      cases hstep
      obtain ⟨hconfig, hcarries⟩ := hc.forward hfeed
      exact { h with
        clientConfig := h.clientConfig.trans hconfig
        client := hcarries
        up := h.up.trans (prefix_append _ _) }
  | up count =>
    cases hfeed : relay.exit.feed .client (relay.upward.take count) with
    | error code =>
      rw [Relay.step, hfeed] at hstep
      cases hstep
    | ok result =>
      rw [Relay.step, hfeed] at hstep
      cases hstep
      obtain ⟨hconfig, hcarries⟩ := he.forward hfeed
      exact { h with
        exitConfig := h.exitConfig.trans hconfig
        exit := hcarries
        up := prefix_append_take h.up count }
  | origin chunk =>
    cases hfeed : relay.exit.feed .server chunk with
    | error code =>
      rw [Relay.step, hfeed] at hstep
      cases hstep
    | ok result =>
      rw [Relay.step, hfeed] at hstep
      cases hstep
      obtain ⟨hconfig, hcarries⟩ := he.reverse hfeed
      exact { h with
        exitConfig := h.exitConfig.trans hconfig
        exit := hcarries
        down := h.down.trans (prefix_append _ _) }
  | down count =>
    cases hfeed : relay.client.feed .server (relay.downward.take count) with
    | error code =>
      rw [Relay.step, hfeed] at hstep
      cases hstep
    | ok result =>
      rw [Relay.step, hfeed] at hstep
      cases hstep
      obtain ⟨hconfig, hcarries⟩ := hc.reverse hfeed
      exact { h with
        clientConfig := h.clientConfig.trans hconfig
        client := hcarries
        down := prefix_append_take h.down count }

theorem Sound.run {events : List RelayEvent} (h : relay.Sound client exit)
    (hrun : relay.run events = .ok next) : next.Sound client exit := by
  induction events generalizing relay with
  | nil =>
    cases hrun
    exact h
  | cons event events ih =>
    rw [Relay.run] at hrun
    cases hstep : relay.step event with
    | error code =>
      rw [hstep] at hrun
      cases hrun
    | ok after =>
      rw [hstep] at hrun
      exact ih (h.step event hstep) hrun

theorem sound_init (hclient : client.Fresh) (hexit : exit.Fresh) :
    (init client exit).Sound client exit where
  clientConfig := {}
  exitConfig := {}
  client := ⟨_, hclient.carries⟩
  exit := ⟨_, hexit.carries⟩
  up := nil_prefix
  down := nil_prefix

end Relay

theorem Agrees.swapped (h : Agrees phase hellos true) :
    ∃ hrr rest, hellos = hrr :: rest ∧ hrr.retry = true := by
  cases h with
  | serverFinal hretry => exact ⟨_, [], rfl, hretry⟩
  | retried hretry _ => exact ⟨_, _, rfl, hretry⟩

theorem Agrees.unswapped (h : Agrees phase hellos false)
    (hdone : phase = .done) : ∃ last, hellos = [last] ∧ last.retry = false := by
  subst hdone
  cases h with
  | answered hfinal => exact ⟨_, rfl, hfinal⟩

theorem Agrees.final_mem {swapped : Bool}
    (h : Agrees phase hellos swapped) (hdone : phase = .done) :
    ∃ last ∈ hellos, last.retry = false := by
  subst hdone
  cases h with
  | answered hfinal => exact ⟨_, mem_cons_self, hfinal⟩
  | retried _ hfinal => exact ⟨_, mem_cons_of_mem _ mem_cons_self, hfinal⟩

theorem Agrees.early (h : Agrees phase hellos false)
    (hphase : phase ≠ .done) : ∀ hrr ∈ hellos, hrr.retry = true := by
  cases h with
  | serverFirst => exact fun _ hmem => absurd hmem not_mem_nil
  | clientRetry hretry =>
    intro hrr hmem
    rw [mem_singleton.mp hmem]
    exact hretry
  | answered => exact absurd rfl hphase

theorem Agrees.last {phase phase' : Phase} {hellos more : List ServerHello} {swapped swapped' : Bool}
    (h : Agrees phase hellos swapped) (hdone : phase = .done) (h' : Agrees phase' more swapped')
    (hmore : hellos <+: more) : more = hellos := by
  subst hdone
  cases h with
  | answered hfinal =>
    cases h' with
    | serverFirst => simp at hmore
    | clientRetry => exact (hmore.eq_of_length rfl).symm
    | serverFinal => exact (hmore.eq_of_length rfl).symm
    | answered => exact (hmore.eq_of_length rfl).symm
    | retried hretry _ =>
      have hsame := (cons_prefix_cons.mp hmore).1
      rw [hsame, hretry] at hfinal
      cases hfinal
  | retried hretry hfinal =>
    cases h' with
    | serverFirst => simp at hmore
    | clientRetry => simp at hmore
    | serverFinal => simp at hmore
    | answered => simp at hmore
    | retried => exact (hmore.eq_of_length rfl).symm

namespace RetryGuard

variable {c e : RetryGuard} {tc te : RetryTrace}

theorem hellos_le (hc : c.Follows tc) (he : e.Follows te)
    (hdown : tc.input .server <+: te.output .server) : tc.hellos <+: te.hellos := by
  have hanswers : tc.answers.flatMap List.flatten <+:
      te.answers.flatMap List.flatten ++ te.served := (prefix_append _ _).trans hdown
  obtain ⟨rest, hrest⟩ := hanswers
  rcases Piece.prefixCode.compare hc.answers he.answers hrest with hless | hmore
  · exact hless.filterMap _
  by_cases hdone : e.phase = .done
  · rw [he.agrees.last hdone hc.agrees (hmore.filterMap _)]
  · have hnone := he.served hdone
    rw [hnone, append_nil] at hrest
    exact (Piece.prefixCode.begins_of_flatMap hc.answers he.answers ⟨rest, hrest⟩).filterMap _

def singles (records : List Bytes) : List (List Bytes) := records.map fun bytes => [bytes]

theorem singles_flatten (records : List Bytes) :
    (singles records).flatMap List.flatten = records.flatten := by
  induction records with
  | nil => rfl
  | cons bytes records ih =>
    rw [singles] at ih
    rw [singles, map_cons, flatMap_cons, ih, flatten_singleton, flatten_cons]

theorem singles_inj {records more : List Bytes} (h : singles records = singles more) :
    records = more :=
  map_injective_iff.mpr (fun _ _ heq => (List.cons.inj heq).1) h

def IsHello (piece : List Bytes) : Prop := ∃ bytes ∈ piece, IsHandshake bytes

theorem singles_other {records : List Bytes}
    (h : ∀ bytes ∈ records, Whole bytes ∧ ¬IsHandshake bytes) :
    ∀ piece ∈ singles records, Piece piece ∧ ¬IsHello piece := by
  intro piece hpiece
  obtain ⟨bytes, hbytes, rfl⟩ := mem_map.mp hpiece
  obtain ⟨hwhole, hother⟩ := h bytes hbytes
  refine ⟨.single hwhole hother, ?_⟩
  rintro ⟨other, hmem, hkind⟩
  rw [mem_singleton.mp hmem] at hkind
  exact hother hkind

theorem isHello_of {piece : List Bytes} (hpiece : Piece piece)
    (h : ∀ bytes ∈ piece, IsHandshake bytes) : IsHello piece := by
  obtain ⟨bytes, hbytes⟩ := exists_mem_of_ne_nil _ hpiece.ne_nil
  exact ⟨bytes, hbytes, h bytes hbytes⟩

section Align

variable {xs ys : List (List Bytes)} {x y : List Bytes}

theorem align (hxs : ∀ u ∈ xs, ¬IsHello u) (hys : ∀ u ∈ ys, ¬IsHello u) (hx : IsHello x)
    (hy : IsHello y) (h : xs ++ [x] <+: ys ++ [y]) : xs = ys ∧ x = y := by
  induction xs generalizing ys with
  | nil =>
    cases ys with
    | nil => exact ⟨rfl, (cons_prefix_cons.mp h).1⟩
    | cons u ys =>
      have hsame : x = u := (cons_prefix_cons.mp h).1
      exact absurd (hsame ▸ hx) (hys u mem_cons_self)
  | cons u xs ih =>
    cases ys with
    | nil =>
      have hsame : u = y := (cons_prefix_cons.mp h).1
      exact absurd (hsame ▸ hy) (hxs u mem_cons_self)
    | cons v ys =>
      obtain ⟨rfl, hrest⟩ := cons_prefix_cons.mp h
      obtain ⟨rfl, hsame⟩ := ih (fun w hw => hxs w (mem_cons_of_mem _ hw))
        (fun w hw => hys w (mem_cons_of_mem _ hw)) hrest
      exact ⟨rfl, hsame⟩

theorem before_hello (hxs : ∀ u ∈ xs, ¬IsHello u) (hy : IsHello y)
    (h : xs <+: ys ++ [y] ∨ ys ++ [y] <+: xs) : xs <+: ys := by
  rcases h with hless | hmore
  · rcases prefix_concat_iff.mp hless with hall | hpart
    · exact absurd hy (hxs y (by rw [hall]; simp))
    · exact hpart
  · exact absurd hy (hxs y (hmore.mem (by simp)))

end Align

theorem Follows.first_singles {g : RetryGuard} {t : RetryTrace} (h : g.Follows t) :
    (∀ piece ∈ singles t.first, Piece piece) ∧ ∀ piece ∈ singles t.first, ¬IsHello piece :=
  ⟨fun piece hpiece => (singles_other h.first piece hpiece).1,
    fun piece hpiece => (singles_other h.first piece hpiece).2⟩

theorem pieces_to {first : List Bytes} {piece : List Bytes} :
    (singles first ++ [piece]).flatMap List.flatten = first.flatten ++ piece.flatten := by
  rw [flatMap_append, singles_flatten]
  simp

section Both

variable {c e : RetryGuard} {tc te : RetryTrace}

theorem swapped_of_swapped (hc : c.Follows tc) (he : e.Follows te)
    (hup : te.input .client <+: tc.output .client)
    (hle : tc.hellos <+: te.hellos) (hswap : te.swap ≠ none) : tc.swap ≠ none := by
  intro hnone
  obtain ⟨⟨old, new⟩, hsome⟩ := Option.ne_none_iff_exists'.mp hswap
  obtain ⟨hpiece, hkinds, _⟩ := he.swap old new hsome
  have heagrees := he.agrees
  have hcagrees := hc.agrees
  rw [hsome] at heagrees
  rw [hnone] at hcagrees
  obtain ⟨hrr, rest, hhellos, hretry⟩ := heagrees.swapped
  have hphase : c.phase ≠ .done := by
    intro hdone
    obtain ⟨last, hlast, hfinal⟩ := hcagrees.unswapped hdone
    rw [hlast, hhellos] at hle
    rw [(cons_prefix_cons.mp hle).1, hretry] at hfinal
    cases hfinal
  have hout : tc.output .client = (singles tc.first).flatMap List.flatten := by
    rw [singles_flatten]
    simp [RetryTrace.output, RetryTrace.new, hnone, hc.unswapped hnone, hc.sent hphase]
  have hin : (singles te.first ++ [old]).flatMap List.flatten <+: te.input .client := by
    rw [pieces_to]
    simp only [RetryTrace.input, RetryTrace.old, hsome]
    exact ⟨te.second.flatten ++ te.sent, by simp⟩
  have hpieces : ∀ piece ∈ singles te.first ++ [old], Piece piece :=
    mem_concat he.first_singles.1 hpiece
  have hbegins := Piece.prefixCode.begins_of_flatMap hpieces hc.first_singles.1
    (hout ▸ hin.trans hup)
  exact hc.first_singles.2 old (hbegins.mem (by simp)) (isHello_of hpiece hkinds)

/-- What the two guards are made for. -/
structure Facing (c e : RetryGuard) : Prop where
  client : c.role = .client
  exit : e.role = .exit
  ascii : IsAscii c.inputSni
  nonempty : 1 ≤ c.inputSni.length
  origin : e.originHost = c.inputSni

theorem Facing.congr {c' e' : RetryGuard} (h : Facing c e) (hc : SameConfig c c')
    (he : SameConfig e e') : Facing c' e' where
  client := hc.role.trans h.client
  exit := he.role.trans h.exit
  ascii := hc.inputSni.symm ▸ h.ascii
  nonempty := hc.inputSni.symm ▸ h.nonempty
  origin := by rw [he.originHost, hc.inputSni, h.origin]

theorem swapped_piece (h : Facing c e) (hc : c.Follows tc) {old : List Bytes} {new : Bytes}
    (hswap : tc.swap = some (old, new)) :
    (∃ p heads newHeads extra, Replaces c old new p heads newHeads extra) ∧
      ∃ records, Piece records ∧ IsHello records ∧ records.flatten = new ∧
        ∃ body exts, handshake (content records) = some (.ok body) ∧
          readHello true body = .ok (.ok exts) ∧ ∀ name ∈ exts.sni, name = c.relayHost := by
  obtain ⟨hpiece, _, hrewrote⟩ := hc.swap old new hswap
  obtain ⟨p, heads, newHeads, extra, hreplaces⟩ :=
    replaces_of_rewrote h.client h.ascii h.nonempty hpiece hrewrote
  obtain ⟨records, hrecords, hkinds, hnew, hnames⟩ := hreplaces.piece h.nonempty
  exact ⟨⟨p, heads, newHeads, extra, hreplaces⟩, records, hrecords, isHello_of hrecords hkinds,
    hnew, hnames⟩

/-- Both guards have the second hello at the same place, and the exit puts it back as it was. -/
theorem same_swap (h : Facing c e) (hc : c.Follows tc) (he : e.Follows te)
    (hup : te.input .client <+: tc.output .client) {old old' : List Bytes} {new new' : Bytes}
    (hswap : tc.swap = some (old, new)) (hswap' : te.swap = some (old', new')) :
    te.first = tc.first ∧ old'.flatten = new ∧ new' = old.flatten := by
  obtain ⟨⟨p, heads, newHeads, extra, hreplaces⟩, records, hrecords, hhello, hnew, _⟩ :=
    swapped_piece h hc hswap
  obtain ⟨hpiece, hkinds, hrewrote⟩ := he.swap old' new' hswap'
  have hall : (singles te.first ++ [old']).flatMap List.flatten <+:
      (singles tc.first ++ [records]).flatMap List.flatten ++ (tc.second.flatten ++ tc.sent) := by
    rw [pieces_to, pieces_to, hnew]
    refine List.IsPrefix.trans ⟨te.second.flatten ++ te.sent, ?_⟩ (hup.trans ⟨[], ?_⟩)
    · simp [RetryTrace.input, RetryTrace.old, hswap']
    · simp [RetryTrace.output, RetryTrace.new, hswap]
  obtain ⟨rest, hrest⟩ := hall
  have hcompare := Piece.prefixCode.compare (mem_concat he.first_singles.1 hpiece)
    (mem_concat hc.first_singles.1 hrecords) hrest
  have haligned : singles te.first = singles tc.first ∧ old' = records := by
    rcases hcompare with hless | hmore
    · exact align he.first_singles.2 hc.first_singles.2 (isHello_of hpiece hkinds) hhello hless
    obtain ⟨hfirst, hsame⟩ :=
      align hc.first_singles.2 he.first_singles.2 hhello (isHello_of hpiece hkinds) hmore
    exact ⟨hfirst.symm, hsame.symm⟩
  obtain ⟨hfirst, rfl⟩ := haligned
  rw [hnew] at hrewrote
  exact ⟨singles_inj hfirst, hnew,
    hreplaces.restored h.nonempty h.exit h.origin hrewrote⟩

/-- Without a second hello of its own, and before the final hello, the exit has passed records
that the client has sent ahead of its second hello. -/
theorem first_le (h : Facing c e) (hc : c.Follows tc) (he : e.Follows te)
    (hup : te.input .client <+: tc.output .client) {old : List Bytes} {new : Bytes}
    (hswap : tc.swap = some (old, new)) : te.first <+: tc.first := by
  obtain ⟨_, records, hrecords, hhello, hnew, _⟩ := swapped_piece h hc hswap
  have hall : (singles te.first).flatMap List.flatten <+:
      (singles tc.first ++ [records]).flatMap List.flatten ++ (tc.second.flatten ++ tc.sent) := by
    rw [pieces_to, singles_flatten, hnew]
    refine List.IsPrefix.trans (prefix_append _ _) (hup.trans ⟨[], ?_⟩)
    simp [RetryTrace.output, RetryTrace.new, hswap]
  obtain ⟨rest, hrest⟩ := hall
  have hcompare := Piece.prefixCode.compare he.first_singles.1
    (mem_concat hc.first_singles.1 hrecords) hrest
  have hbegins := before_hello he.first_singles.2 hhello hcompare
  obtain ⟨more, hmore⟩ := hbegins
  have hlength : singles te.first = (singles tc.first).take te.first.length := by
    rw [← hmore, take_left' (by simp [singles])]
  rw [singles, singles, ← map_take] at hlength
  exact singles_inj hlength ▸ take_prefix _ _

theorem unswapped_of_done (hc : c.Follows tc) (he : e.Follows te) (hle : tc.hellos <+: te.hellos)
    (hdone : e.phase = .done) (hnone : te.swap = none) : tc.swap = none := by
  have heagrees := he.agrees
  rw [hnone] at heagrees
  obtain ⟨last, hlast, hfinal⟩ := heagrees.unswapped hdone
  rcases hsome : tc.swap with _ | swap
  · rfl
  have hcagrees := hc.agrees
  rw [hsome] at hcagrees
  obtain ⟨hrr, rest, hhellos, hretry⟩ := hcagrees.swapped
  rw [hhellos, hlast] at hle
  rw [← (cons_prefix_cons.mp hle).1, hretry] at hfinal
  cases hfinal

theorem output_le (h : Facing c e) (hc : c.Follows tc) (he : e.Follows te)
    (hup : te.input .client <+: tc.output .client) (hle : tc.hellos <+: te.hellos) :
    te.output .client <+: tc.input .client := by
  have hsame : ∀ t : RetryTrace, t.swap = none → t.output .client = t.input .client := by
    intro t hnone
    simp [RetryTrace.output, RetryTrace.input, RetryTrace.new, RetryTrace.old, hnone]
  cases hswap' : te.swap with
  | none =>
    rcases hswap : tc.swap with _ | swap
    · rwa [hsame te hswap', ← hsame tc hswap]
    have hphase : e.phase ≠ .done := by
      intro hdone
      rw [unswapped_of_done hc he hle hdone hswap'] at hswap
      cases hswap
    obtain ⟨more, hmore⟩ := first_le h hc he hup hswap
    have hout : te.output .client = te.first.flatten := by
      simp [RetryTrace.output, RetryTrace.new, hswap', he.unswapped hswap', he.sent hphase]
    rw [hout, RetryTrace.input, ← hmore, flatten_append, append_assoc]
    exact prefix_append _ _
  | some swap' =>
    have hsome := swapped_of_swapped hc he hup hle (by rw [hswap']; exact Option.some_ne_none _)
    obtain ⟨⟨old, new⟩, hswap⟩ := Option.ne_none_iff_exists'.mp hsome
    obtain ⟨hfirst, hold, hnew⟩ := same_swap h hc he hup hswap hswap'
    simp only [RetryTrace.input, RetryTrace.output, RetryTrace.old, RetryTrace.new, hswap, hswap',
      Option.map_some, Option.getD_some, hfirst, hold, hnew, prefix_append_right_inj]
      at hup ⊢
    exact hup

theorem records_le {records more : List Bytes} {rest : Bytes} (hrecords : ∀ r ∈ records, Whole r)
    (hmore : ∀ r ∈ more, Whole r) (h : records.flatten ++ rest = more.flatten) :
    ∃ left, more = records ++ left ∧ rest = left.flatten := by
  have hid : ∀ xs : List Bytes, (xs.flatMap fun r => r) = xs.flatten := fun xs =>
    flatMap_id
  obtain ⟨left, rfl⟩ := Whole.prefixCode.begins_of_flatMap hrecords hmore
    (by rw [hid, hid]; exact ⟨rest, h⟩)
  rw [flatten_append] at h
  exact ⟨left, rfl, append_cancel_left h⟩

theorem split_records {first first' rest rest' : List Bytes} (hfirst : ∀ r ∈ first, ¬IsHandshake r)
    (hfirst' : ∀ r ∈ first', ¬IsHandshake r) (hrest : ∀ r ∈ rest.head?, IsHandshake r)
    (hrest' : ∀ r ∈ rest'.head?, IsHandshake r) (h : first ++ rest = first' ++ rest') :
    first = first' ∧ rest = rest' := by
  induction first generalizing first' with
  | nil =>
    cases first' with
    | nil => exact ⟨rfl, h⟩
    | cons r first' =>
      rw [nil_append] at h
      exact absurd (hrest r (by rw [h]; rfl)) (hfirst' r mem_cons_self)
  | cons r first ih =>
    cases first' with
    | nil =>
      rw [nil_append] at h
      exact absurd (hrest' r (by rw [← h]; rfl)) (hfirst r mem_cons_self)
    | cons r' first' =>
      simp only [cons_append, List.cons.injEq] at h
      obtain ⟨rfl, h⟩ := h
      obtain ⟨rfl, hsame⟩ := ih (fun s hs => hfirst s (mem_cons_of_mem _ hs))
        (fun s hs => hfirst' s (mem_cons_of_mem _ hs)) h
      exact ⟨rfl, hsame⟩

theorem Follows.collecting {g : RetryGuard} {t : RetryTrace} (h : g.Follows t) :
    ∃ records : List Bytes, g.client.collected = records.flatten ∧
      (∀ bytes ∈ records, Whole bytes ∧ IsHandshake bytes) ∧ ¬Complete (content records) := by
  cases hstream : g.client.hello with
  | none =>
    refine ⟨[], ?_, fun _ hbytes => absurd hbytes not_mem_nil, id⟩
    rw [HelloStream.collected, hstream]
    rfl
  | some hello =>
    obtain ⟨hcollecting, _⟩ := h.clientHello hello hstream
    refine ⟨hello.records, ?_, hcollecting.records, hcollecting.incomplete⟩
    rw [HelloStream.collected, hstream]
    rfl

theorem new_records (h : Facing c e) (hc : c.Follows tc) :
    ∃ records : List Bytes, tc.new = records.flatten ∧
      (∀ bytes ∈ records, Whole bytes ∧ IsHandshake bytes) ∧
      (tc.swap = none → records = []) ∧ (tc.swap ≠ none → Complete (content records)) := by
  cases hswap : tc.swap with
  | none =>
    refine ⟨[], ?_, fun _ hbytes => absurd hbytes not_mem_nil, fun _ => rfl,
      fun hsome => absurd rfl hsome⟩
    rw [RetryTrace.new, hswap]
    rfl
  | some swap =>
    obtain ⟨_, records, hpiece, hhello, hnew, body, _, hbody, _⟩ := swapped_piece h hc hswap
    refine ⟨records, ?_, ?_, fun hnone => (by cases hnone), fun _ => complete_of_some hbody⟩
    · rw [RetryTrace.new, hswap, hnew]
      rfl
    · cases hpiece with
      | single _ hother =>
        obtain ⟨bytes, hbytes, hkind⟩ := hhello
        rw [mem_singleton.mp hbytes] at hkind
        exact absurd hkind hother
      | hello hrecords => exact hrecords

/-- Before the final hello and without a second one of its own, the exit that has all of what the
client's guard has put out has passed all of it, and that guard has had no second hello. -/
theorem early_delivered (h : Facing c e) (hc : c.Follows tc) (he : e.Follows te)
    (hle : tc.hellos <+: te.hellos) (hphase : e.phase ≠ .done) (hnone : te.swap = none)
    (hall : te.input .client ++ e.client.held = tc.output .client)
    (hbegun : Partial e.client.pending) : tc.swap = none ∧ e.client.collected = [] := by
  have hcphase : c.phase ≠ .done := by
    intro hdone
    obtain ⟨last, hlast, hfinal⟩ := hc.agrees.final_mem hdone
    have heagrees := he.agrees
    rw [hnone] at heagrees
    have hretry := heagrees.early hphase last (hle.mem hlast)
    rw [hretry] at hfinal
    cases hfinal
  obtain ⟨coll, hcoll, hcollected, hincomplete⟩ := he.collecting
  obtain ⟨recs, hnew, hrecs, hnorecs, hcomplete⟩ := new_records h hc
  have hbytes : (te.first ++ coll).flatten ++ e.client.pending =
      (tc.first ++ (recs ++ tc.second)).flatten := by
    simp only [RetryTrace.input, RetryTrace.output, RetryTrace.old, hnone, hnew, he.unswapped hnone,
      he.sent hphase, hc.sent hcphase, HelloStream.held, hcoll] at hall
    simpa using hall
  have hwhole : ∀ r ∈ te.first ++ coll, Whole r := by
    intro r hr
    rcases mem_append.mp hr with hfirst | hlast
    · exact (he.first r hfirst).1
    · exact (hcollected r hlast).1
  have hwhole' : ∀ r ∈ tc.first ++ (recs ++ tc.second), Whole r := by
    intro r hr
    rcases mem_append.mp hr with hfirst | hrest
    · exact (hc.first r hfirst).1
    rcases mem_append.mp hrest with hlast | hsecond
    · exact (hrecs r hlast).1
    · exact (hc.second r hsecond).1
  obtain ⟨left, hleft, hpending⟩ := records_le hwhole hwhole' hbytes
  have hempty : left = [] := by
    rcases left with _ | ⟨r, rest⟩
    · rfl
    refine absurd ⟨r, rest.flatten, hwhole' r ?_, ?_⟩ hbegun
    · rw [hleft]
      simp
    · rw [hpending, flatten_cons]
  rw [hempty, append_nil] at hleft
  have hsame : recs ++ tc.second = coll := by
    refine (split_records (fun r hr => (hc.first r hr).2) (fun r hr => (he.first r hr).2) ?_
      (fun r hr => (hcollected r (mem_of_mem_head? hr)).2) hleft).2
    intro r hr
    cases hswap : tc.swap with
    | none =>
      rw [hnorecs hswap, hc.unswapped hswap] at hr
      cases hr
    | some swap =>
      have hwhole := hcomplete (by rw [hswap]; exact Option.some_ne_none _)
      cases recs with
      | nil => exact absurd hwhole id
      | cons first rest =>
        cases hr
        exact (hrecs r mem_cons_self).2
  have hswap : tc.swap = none := by
    by_contra hsome
    apply hincomplete
    rw [← hsame, content, flatMap_append]
    exact (hcomplete hsome).append _
  rw [hnorecs hswap, hc.unswapped hswap] at hsame
  exact ⟨hswap, by rw [hcoll, ← hsame]; rfl⟩

/-- Once the exit has all that the client's guard has put out, nothing is missing but what the two
guards hold. -/
theorem delivered (h : Facing c e) (hc : c.Follows tc) (he : e.Follows te)
    (hup : te.input .client <+: tc.output .client) (hle : tc.hellos <+: te.hellos)
    (hall : te.input .client ++ e.client.held = tc.output .client)
    (hbegun : Partial e.client.pending) :
    tc.input .client = te.output .client ++ e.client.pending := by
  have hsame : ∀ t : RetryTrace, t.swap = none → t.output .client = t.input .client := by
    intro t hnone
    simp [RetryTrace.output, RetryTrace.input, RetryTrace.new, RetryTrace.old, hnone]
  cases hswap' : te.swap with
  | none =>
    have hearly : tc.swap = none ∧ e.client.collected = [] := by
      by_cases hdone : e.phase = .done
      · exact ⟨unswapped_of_done hc he hle hdone hswap',
          @Follows.collected_done _ _ .client he hdone⟩
      · exact early_delivered h hc he hle hdone hswap' hall hbegun
    obtain ⟨hswap, hcollected⟩ := hearly
    rw [HelloStream.held, hcollected, nil_append] at hall
    rw [← hsame tc hswap, ← hall, hsame te hswap']
  | some swap' =>
    have hsome := swapped_of_swapped hc he hup hle (by rw [hswap']; exact Option.some_ne_none _)
    obtain ⟨⟨old, new⟩, hswap⟩ := Option.ne_none_iff_exists'.mp hsome
    obtain ⟨hfirst, hold, hnew⟩ := same_swap h hc he hup hswap hswap'
    have hcollected : e.client.collected = [] := by
      cases hstream : e.client.hello with
      | none =>
        rw [HelloStream.collected, hstream]
        rfl
      | some hello =>
        have hagrees := he.agrees
        rw [(he.clientHello hello hstream).2] at hagrees
        have hunswapped := (hagrees.second rfl).1
        rw [hswap'] at hunswapped
        cases hunswapped
    simp only [RetryTrace.input, RetryTrace.output, RetryTrace.old, RetryTrace.new, hswap, hswap',
      Option.map_some, Option.getD_some, hfirst, hold, hnew, HelloStream.held, hcollected,
      nil_append, append_assoc, append_cancel_left_eq] at hall ⊢
    exact hall.symm

end Both

end RetryGuard

/-- What a direction holds back: the records of a hello, and ahead of more bytes a record, neither
of which is whole. -/
def HelloStream.Incomplete (stream : HelloStream) : Prop :=
  Partial stream.pending ∧ ∀ hello, stream.hello = some hello →
    (∀ bytes ∈ hello.records, Whole bytes ∧ IsHandshake bytes) ∧ ¬Complete (content hello.records)

theorem RetryGuard.Carries.incomplete {t : RetryTrace} {up down : Passage}
    (h : g.Carries t up down) (way : Way) : (g.stream way).Incomplete := by
  cases way with
  | client =>
    refine ⟨h.clientPartial, fun hello hsome => ?_⟩
    obtain ⟨hcollecting, _⟩ := h.follows.clientHello hello hsome
    exact ⟨hcollecting.records, hcollecting.incomplete⟩
  | server =>
    refine ⟨h.serverPartial, fun hello hsome => ?_⟩
    obtain ⟨hcollecting, _⟩ := h.follows.serverHello hello hsome
    exact ⟨hcollecting.records, hcollecting.incomplete⟩

/-- A record that is not of the handshake, or a hello in which `relayHost` is the only name. -/
def Hides (relayHost : Bytes) (piece : List Bytes) : Prop :=
  (∃ bytes, piece = [bytes] ∧ Whole bytes ∧ ¬IsHandshake bytes) ∨
    Piece piece ∧ ∃ body exts, handshake (content piece) = some (.ok body) ∧
      readHello true body = .ok (.ok exts) ∧ ∀ name ∈ exts.sni, name = relayHost

theorem RetryGuard.hides {c e : RetryGuard} {t : RetryTrace} (h : RetryGuard.Facing c e)
    (hc : c.Follows t) (hphase : c.phase ≠ .done) :
    ∃ pieces : List (List Bytes), t.output .client = pieces.flatMap List.flatten ∧
      ∀ piece ∈ pieces, Hides c.relayHost piece := by
  have hsingle : ∀ records : List Bytes, (∀ bytes ∈ records, Whole bytes ∧ ¬IsHandshake bytes) →
      ∀ piece ∈ singles records, Hides c.relayHost piece := by
    intro records hrecords piece hpiece
    obtain ⟨bytes, hbytes, rfl⟩ := mem_map.mp hpiece
    exact Or.inl ⟨bytes, rfl, hrecords bytes hbytes⟩
  cases hswap : t.swap with
  | none =>
    refine ⟨singles t.first, ?_, hsingle _ hc.first⟩
    rw [singles_flatten]
    simp [RetryTrace.output, RetryTrace.new, hswap, hc.unswapped hswap, hc.sent hphase]
  | some swap =>
    obtain ⟨_, records, hpiece, _, hnew, hnames⟩ := swapped_piece h hc hswap
    refine ⟨singles t.first ++ (records :: singles t.second), ?_, ?_⟩
    · rw [flatMap_append, flatMap_cons, singles_flatten, singles_flatten, hnew]
      simp [RetryTrace.output, RetryTrace.new, hswap, hc.sent hphase]
    · intro piece hmem
      rcases mem_append.mp hmem with hfirst | hrest
      · exact hsingle _ hc.first piece hfirst
      rcases mem_cons.mp hrest with rfl | hsecond
      · exact Or.inr ⟨hpiece, hnames⟩
      · exact hsingle _ hc.second piece hsecond

theorem createHelloRetryGuard_some {limits : GuardLimits} {parsed : Hello} {wire : Bytes}
    {role : Role} {relayHost originHost : Bytes}
    (h : createHelloRetryGuard limits parsed wire role relayHost originHost = .ok (some g)) :
    g.Fresh ∧ g.role = role ∧ g.relayHost = relayHost ∧ g.originHost = originHost ∧
      parsed.extensions.sni.map toText = [g.inputSni] := by
  rw [createHelloRetryGuard] at h
  split at h
  case isTrue => cases h
  split at h
  case h_1 name hname =>
    cases hsize : payloadBytes wire (wire.length + 1) 0 with
    | error code =>
      rw [hsize] at h
      cases h
    | ok size =>
      rw [hsize] at h
      simp only [Except.bind] at h
      split at h
      case isTrue => cases h
      cases h
      exact ⟨⟨rfl, rfl, rfl⟩, rfl, rfl, rfl, by rw [hname]; rfl⟩
  case h_2 => cases h

/-- The guards at both ends, in every run in which neither fails: what the server has sent passes
as it is, what the client has sent comes out at the exit as it was, and before the final hello no
name but the relay's leaves the guard of the client. -/
theorem retry_guards_transparent {clientLimits exitLimits : GuardLimits} {first rewritten : Hello}
    {wire rewrittenWire relayHost origin : Bytes} {client exit : RetryGuard}
    {events : List RelayEvent} {relay : Relay}
    (hclient : createHelloRetryGuard clientLimits first wire .client relayHost origin =
      .ok (some client))
    (hexit : createHelloRetryGuard exitLimits rewritten rewrittenWire .exit relayHost origin =
      .ok (some exit))
    (hsni : first.extensions.sni.map toText = [origin]) (hascii : IsAscii origin)
    (hnonempty : 1 ≤ origin.length) (hrun : (Relay.init client exit).run events = .ok relay) :
    (relay.exitDown.input = relay.exitDown.output ++ relay.exit.server.held ∧
      relay.clientDown.input = relay.clientDown.output ++ relay.client.server.held ∧
      relay.clientDown.input <+: relay.exitDown.output) ∧
    (relay.exitUp.output <+: relay.clientUp.input ∧
      (relay.upward = [] → relay.clientUp.input =
        relay.exitUp.output ++ (relay.exit.client.pending ++ relay.client.client.held))) ∧
    (∀ way, (relay.client.stream way).Incomplete ∧ (relay.exit.stream way).Incomplete) ∧
    (relay.client.phase ≠ .done → ∃ pieces : List (List Bytes), relay.clientUp.output = pieces.flatMap List.flatten ∧
      ∀ piece ∈ pieces, Hides relayHost piece) := by
  obtain ⟨hfresh, hrole, hrelay, _, hinput⟩ := createHelloRetryGuard_some hclient
  obtain ⟨hfresh', hrole', _, horigin, _⟩ := createHelloRetryGuard_some hexit
  rw [hsni, List.cons.injEq] at hinput
  have hfacing : RetryGuard.Facing client exit :=
    ⟨hrole, hrole', hinput.1 ▸ hascii, hinput.1 ▸ hnonempty, by rw [horigin, hinput.1]⟩
  have hsound := (Relay.sound_init hfresh hfresh').run hrun
  have h := hfacing.congr hsound.clientConfig hsound.exitConfig
  obtain ⟨tc, hc⟩ := hsound.client
  obtain ⟨te, he⟩ := hsound.exit
  have hdown : tc.input .server <+: te.output .server := by
    have hbytes := hsound.down
    rw [hc.downInput, he.downOutput] at hbytes
    exact (List.prefix_append _ _).trans hbytes
  have hup : te.input .client <+: tc.output .client := by
    have hbytes := hsound.up
    rw [he.upInput, hc.upOutput] at hbytes
    exact (List.prefix_append _ _).trans hbytes
  have hle := RetryGuard.hellos_le hc.follows he.follows hdown
  refine ⟨⟨?_, ?_, hsound.down⟩, ⟨?_, ?_⟩, fun way => ⟨hc.incomplete way, he.incomplete way⟩, ?_⟩
  · rw [he.downInput, he.downOutput]
    rfl
  · rw [hc.downInput, hc.downOutput]
    rfl
  · rw [he.upOutput, hc.upInput]
    exact (RetryGuard.output_le h hc.follows he.follows hup hle).trans (List.prefix_append _ _)
  · intro hempty
    have hall : te.input .client ++ relay.exit.client.held = tc.output .client := by
      rw [← he.upInput, ← hc.upOutput]
      refine hsound.up.eq_of_length_le ?_
      exact List.drop_eq_nil_iff.mp hempty
    rw [hc.upInput, he.upOutput,
      RetryGuard.delivered h hc.follows he.follows hup hle hall he.clientPartial,
      List.append_assoc]
  · intro hphase
    rw [hc.upOutput, ← hrelay, ← hsound.clientConfig.relayHost]
    exact RetryGuard.hides h hc.follows hphase

/-- A hello that offers TLS 1.3 to the server of this name. -/
def offerBody (name : Bytes) : Bytes :=
  [3, 3] ++ List.replicate 32 7 ++ [0, 0, 2, 0x13, 1, 1, 0] ++ ofUInt16 (name.length + 16) ++
    [0, 0] ++ ofUInt16 (name.length + 5) ++ ofUInt16 (name.length + 3) ++ [0] ++
    ofUInt16 name.length ++ name ++ [0, 43, 0, 3, 2, 3, 4]

def offer (name : Bytes) : Bytes :=
  [0x16, 3, 1] ++ ofUInt16 ((offerBody name).length + 4) ++ [1, 0] ++
    ofUInt16 (offerBody name).length ++ offerBody name

def offered (name : Bytes) : Hello := ⟨⟨[name], [], [0x0304]⟩, (offer name).length, offerBody name⟩

def answer (random : Bytes) : Bytes :=
  [0x16, 3, 3, 0, 50, 2, 0, 0, 46, 3, 3] ++ random ++ [0, 0x13, 1, 0, 0, 6, 0, 43, 0, 2, 3, 4]

/-- The guards for `a.b` behind `r.e`. -/
def sampleGuard (role : Role) (input : Bytes) (phase : Phase) : RetryGuard where
  limits := ⟨16384, 65536⟩
  role := role
  relayHost := [0x72, 0x2e, 0x65]
  originHost := [0x61, 0x2e, 0x62]
  identity := [3, 3] ++ List.replicate 32 7 ++ [0]
  inputSni := input
  client := ⟨[], none⟩
  server := ⟨[], none⟩
  phase := phase

/-- The guards after the server's hello and one of the client, which left the client's guard as
`out`. -/
def sampleRelay (phase : Phase) (random out : Bytes) : Relay where
  client := sampleGuard .client [0x61, 0x2e, 0x62] phase
  exit := sampleGuard .exit [0x72, 0x2e, 0x65] phase
  clientUp := ⟨offer [0x61, 0x2e, 0x62], out⟩
  exitUp := ⟨out, offer [0x61, 0x2e, 0x62]⟩
  exitDown := ⟨answer random, answer random⟩
  clientDown := ⟨answer random, answer random⟩

/-- A second hello that answers a HelloRetryRequest leaves without the name of the server. -/
theorem second_hello_hidden :
    (offer [0x61, 0x2e, 0x62] <+: offer [0x61, 0x2e, 0x62]) ∧
      ∃ pieces : List (List Bytes), offer [0x72, 0x2e, 0x65] = pieces.flatMap List.flatten ∧
        ∀ piece ∈ pieces, Hides [0x72, 0x2e, 0x65] piece := by
  obtain ⟨_, ⟨hup, _⟩, _, hhides⟩ := @retry_guards_transparent ⟨16384, 65536⟩ ⟨16384, 65536⟩
    (offered [0x61, 0x2e, 0x62]) (offered [0x72, 0x2e, 0x65]) (offer [0x61, 0x2e, 0x62])
    (offer [0x72, 0x2e, 0x65]) [0x72, 0x2e, 0x65] [0x61, 0x2e, 0x62]
    (sampleGuard .client [0x61, 0x2e, 0x62] .serverFirst)
    (sampleGuard .exit [0x72, 0x2e, 0x65] .serverFirst)
    [.origin (answer hrrRandom), .down 20, .down 35, .app ((offer [0x61, 0x2e, 0x62]).take 9),
      .app ((offer [0x61, 0x2e, 0x62]).drop 9), .up 100]
    (sampleRelay .serverFinal hrrRandom (offer [0x72, 0x2e, 0x65]))
    (by decide +kernel) (by decide +kernel) (by decide +kernel) (by decide) (by decide)
    (by decide +kernel)
  exact ⟨hup, hhides (by decide)⟩

/-- A hello of the client behind the final hello of the server passes both guards as it is. -/
theorem late_hello_unhidden :
    createHelloRetryGuard ⟨16384, 65536⟩ (offered [0x61, 0x2e, 0x62]) (offer [0x61, 0x2e, 0x62])
        .client [0x72, 0x2e, 0x65] [0x61, 0x2e, 0x62] =
      .ok (some (sampleGuard .client [0x61, 0x2e, 0x62] .serverFirst)) ∧
    createHelloRetryGuard ⟨16384, 65536⟩ (offered [0x72, 0x2e, 0x65]) (offer [0x72, 0x2e, 0x65])
        .exit [0x72, 0x2e, 0x65] [0x61, 0x2e, 0x62] =
      .ok (some (sampleGuard .exit [0x72, 0x2e, 0x65] .serverFirst)) ∧
    (Relay.init (sampleGuard .client [0x61, 0x2e, 0x62] .serverFirst)
        (sampleGuard .exit [0x72, 0x2e, 0x65] .serverFirst)).run
        [.origin (answer (List.replicate 32 9)), .down 100, .app (offer [0x61, 0x2e, 0x62]),
          .up 100] =
      .ok (sampleRelay .done (List.replicate 32 9) (offer [0x61, 0x2e, 0x62])) ∧
    parseFirstTlsClientHelloFromTcpBuf (offer [0x61, 0x2e, 0x62]) =
      .ok (.ok (offered [0x61, 0x2e, 0x62])) := by
  decide +kernel

end Meshpn.Tls
