import Meshpn.Tls.HelloNames
import Meshpn.Tls.RetryFlow
import Meshpn.Tls.SniInverse

/-!
The second hello at the two ends. What the client's guard puts in its place is
again one piece, in which the relay is the only name; and where the guard at the
exit takes that piece, it puts out the one that the client has sent.
-/

namespace Meshpn.Tls

open Meshpn.Lib
open Meshpn.Lib.Bytes

namespace RetryGuard

variable {g : RetryGuard} {old : List Bytes} {new : Bytes}

theorem rebuild_client (hrole : g.role = .client) {wire : Bytes}
    (h : g.rebuild wire = .ok (some new)) :
    ∃ r, replaceFirstSniInTcpBuffer wire g.relayHost = .ok (.ok r) ∧ r.prefixBuf = new := by
  rw [rebuild, hrole] at h
  cases hreplace : replaceFirstSniInTcpBuffer wire g.relayHost with
  | error fault =>
    rw [hreplace] at h
    cases h
  | ok result =>
    rw [hreplace] at h
    cases result with
    | error refusal => cases h
    | ok r =>
      cases h
      exact ⟨r, rfl, rfl⟩

theorem rebuild_exit (hrole : g.role = .exit) {wire : Bytes}
    (h : g.rebuild wire = .ok (some new)) :
    ∃ r, restoreFirstSniInTcpBuffer wire g.relayHost g.originHost = .ok (.ok r) ∧
      r.prefixBuf = new := by
  rw [rebuild, hrole] at h
  cases hrestore : restoreFirstSniInTcpBuffer wire g.relayHost g.originHost with
  | error fault =>
    rw [hrestore] at h
    cases h
  | ok result =>
    rw [hrestore] at h
    cases result with
    | error reason => cases h
    | ok r =>
      cases h
      exact ⟨r, rfl, rfl⟩

/-- A hello that a piece is, on the pieces of its body and on its records. -/
structure Replaces (g : RetryGuard) (old : List Bytes) (new : Bytes) (p : HelloPieces)
    (heads newHeads : List RecordHead) (extra : Bytes) : Prop where
  framed : Framed old.flatten heads p.body extra []
  rewritten : Rewritten p g.relayHost heads newHeads
  host : p.host = g.inputSni
  new : new = frame newHeads (message (p.rename g.relayHost).body ++ extra)
  one : ∃ exts, readHello true p.body = .ok (.ok exts) ∧ exts.sni.length = 1

theorem replaces_of_rewrote (hrole : g.role = .client) (hascii : IsAscii g.inputSni)
    (hnonempty : 1 ≤ g.inputSni.length) (hold : Piece old) (h : g.Rewrote old.flatten new) :
    ∃ p heads newHeads extra, Replaces g old new p heads newHeads extra := by
  obtain ⟨next, hparse, hnames, hrebuild⟩ := h
  obtain ⟨r, hreplace, rfl⟩ := rebuild_client hrole hrebuild
  obtain ⟨host, hsni, hhost⟩ : ∃ host, next.extensions.sni = [host] ∧ toText host = g.inputSni := by
    cases hlist : next.extensions.sni with
    | nil =>
      rw [hlist] at hnames
      cases hnames
    | cons host more =>
      rw [hlist, List.map_cons, List.cons.injEq, List.map_eq_nil_iff] at hnames
      exact ⟨host, by rw [hnames.2], hnames.1⟩
  have hplain : host = g.inputSni := by
    rw [← hhost] at hascii
    rw [← hhost, toText_eq_of_ascii hascii]
  subst hplain
  obtain ⟨p, heads, newHeads, extra, hbody, hp, _, hframed, hr, hnew⟩ :=
    replace_ok hparse (by rw [hsni]; rfl) hnonempty hreplace
  have htail : r.tailAfterPrefix = [] := by
    obtain ⟨records, hpiece, _, hrecords, _⟩ := frame_piece hframed.holds hframed.last hframed.short
    have hsplit := hframed.bytes
    rw [← hrecords] at hsplit
    have hsame := Piece.prefixCode.eq_of_append hold hpiece
      (show old.flatten ++ [] = records.flatten ++ r.tailAfterPrefix by
        rw [List.append_nil, hsplit])
    exact hsame.2.symm
  rw [htail] at hframed
  refine ⟨p, heads, newHeads, extra, hframed, hr, hp, hnew, next.extensions, ?_, by rw [hsni]; rfl⟩
  rw [hbody]
  exact (parse_ok_iff.mp hparse).2.2

variable {p : HelloPieces} {heads newHeads : List RecordHead} {extra : Bytes}

/-- What stands in the place of the second hello is one piece, and its only name is the relay's. -/
theorem Replaces.piece (h : Replaces g old new p heads newHeads extra)
    (hnonempty : 1 ≤ g.inputSni.length) :
    ∃ records, Piece records ∧ (∀ bytes ∈ records, IsHandshake bytes) ∧ records.flatten = new ∧
      ∃ body exts, handshake (content records) = some (.ok body) ∧
        readHello true body = .ok (.ok exts) ∧ ∀ name ∈ exts.sni, name = g.relayHost := by
  have hhost : 1 ≤ p.host.length := by rw [h.host]; exact hnonempty
  have hr := h.rewritten
  obtain ⟨hholds, hlast, _⟩ := HelloPieces.resized_holds hhost h.framed.holds h.framed.last
    hr.fits.nonempty hr.resized
  obtain ⟨records, hpiece, hkinds, hwire, hcontent⟩ := frame_piece hholds hlast hr.short
  obtain ⟨exts, hread, hone⟩ := h.one
  obtain ⟨renamed, hrenamed, hsni⟩ := HelloPieces.rename_names hr.wellFormed hr.fits hread hone
  refine ⟨records, hpiece, hkinds, by rw [hwire, h.new], _, renamed, ?_, hrenamed, ?_⟩
  · rw [hcontent, handshake_message hr.short]
  intro name hname
  rw [hsni] at hname
  split at hname
  · exact List.mem_singleton.mp hname
  · exact absurd hname List.not_mem_nil

theorem Replaces.restored {exit : RetryGuard} {out : Bytes}
    (h : Replaces g old new p heads newHeads extra) (hnonempty : 1 ≤ g.inputSni.length)
    (hrole : exit.role = .exit)
    (horigin : exit.originHost = g.inputSni) (hrewrote : exit.Rewrote new out) :
    out = old.flatten := by
  obtain ⟨next, hparse, hnames, hrebuild⟩ := hrewrote
  obtain ⟨r, hrestore, rfl⟩ := rebuild_exit hrole hrebuild
  have hhost : 1 ≤ p.host.length := by rw [h.host]; exact hnonempty
  have hr := h.rewritten
  obtain ⟨hholds, hlast, _⟩ := HelloPieces.resized_holds hhost h.framed.holds h.framed.last
    hr.fits.nonempty hr.resized
  obtain ⟨hsize, hmessage, hread⟩ := parse_ok_iff.mp hparse
  have hframed : Framed new newHeads (p.rename g.relayHost).body extra [] := by
    refine ⟨by rw [h.new, List.append_nil], hholds, hlast, hr.short, ?_⟩
    rw [← h.new]
    exact hsize
  -- the name that the exit has found tells that the list of names still reaches it
  have hbody : next.clientHelloBody = (p.rename g.relayHost).body := by
    rw [hframed.assemble, Assembly.message.injEq] at hmessage
    exact hmessage.1.symm
  obtain ⟨exts, hread', hone⟩ := h.one
  obtain ⟨renamed, hrenamed, hsni⟩ := HelloPieces.rename_names hr.wellFormed hr.fits hread' hone
  rw [hbody, hrenamed] at hread
  cases hread
  have hreaches : p.others.length + 3 + p.host.length ≤ p.list + g.relayHost.length := by
    by_contra hshort
    rw [hsni, if_neg hshort] at hnames
    cases hnames
  obtain ⟨next', hparse', hrebuilt⟩ := restore_steps hrestore
  rw [hparse] at hparse'
  cases hparse'
  have hq := hr.wellFormed.rename hr.fits (by omega)
  have hconsumed : next = ⟨next.extensions,
      (frame newHeads (message (p.rename g.relayHost).body ++ extra)).length,
      (p.rename g.relayHost).body⟩ := by
    rw [hframed.assemble, Assembly.message.injEq] at hmessage
    cases next
    rw [hmessage.2, hmessage.1]
  rw [hconsumed] at hrebuilt
  obtain ⟨oldHeads, hback, hout⟩ := (rebuilt_iff hq hr.fits.nonempty hframed).mp hrebuilt
  -- the sizes that come back are those that the records had
  have hheads : oldHeads = heads := by
    have hundone := resize_back (Nat.zero_le _) hr.resized
      fun head hhead => (h.framed.holds.1 head hhead).1
    have hresized := hback.resized
    rw [horigin, ← h.host] at hresized
    rw [Int.neg_sub] at hundone
    have hsame := hresized.symm.trans hundone
    cases hsame
    rfl
  rw [hout, hheads, horigin, ← h.host, HelloPieces.rename_back hr.fits]
  rw [h.framed.bytes, List.append_nil]

end RetryGuard

end Meshpn.Tls
