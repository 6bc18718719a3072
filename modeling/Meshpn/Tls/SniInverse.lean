import Meshpn.Tls.HelloBody
import Meshpn.Tls.RecordFrames

/-!
The two directions of the rewriting are inverse to each other. Both are read
off the pieces of the body and the sizes of the records: one direction renames
the pieces and resizes the records, and the other one undoes both.
-/

namespace Meshpn.Tls

open Meshpn.Lib
open Meshpn.Lib.Bytes

namespace HelloPieces

variable {p : HelloPieces}

theorem hostStart_lt (h : 1 ≤ p.host.length) : p.hostStart < p.body.length := by
  simp only [body, List.length_append, ofUInt16_length, block_length, ext_length, hostStart]
  omega

def resized (p : HelloPieces) (name : Bytes) (heads : List RecordHead) :
    Except RewriteReason (List RecordHead) :=
  resize (4 + p.hostStart) (name.length - p.host.length) 0 heads

theorem resized_holds {name extra : Bytes} {heads newHeads : List RecordHead}
    (hhost : 1 ≤ p.host.length) (hholds : Holds heads (message p.body ++ extra))
    (hlast : totalSize heads.dropLast < 4 + p.body.length) (hname : 1 ≤ name.length)
    (hresized : p.resized name heads = .ok newHeads) :
    Holds newHeads (message (p.rename name).body ++ extra) ∧
      totalSize newHeads.dropLast < 4 + (p.rename name).body.length ∧
      (totalSize newHeads : Int) = totalSize heads + (name.length - p.host.length) := by
  have hstart := hostStart_lt hhost
  have hstart' := @hostStart_lt (p.rename name) hname
  have hsame : (p.rename name).hostStart = p.hostStart := rfl
  have hlength := rename_body_length p name
  have hcontent := hholds.2
  rw [List.length_append, message_length] at hcontent
  obtain ⟨htotal, hneeded⟩ := resize_total (Nat.zero_le _) hresized
    (show 4 + p.hostStart < 0 + totalSize heads by omega)
    (show 0 + totalSize heads.dropLast < 4 + p.body.length by omega) (by omega)
  refine ⟨⟨resize_sizes hresized, ?_⟩, by omega, htotal⟩
  rw [List.length_append, message_length]
  omega

theorem rebuildTcpPrefix_iff {buf name extra tail : Bytes} {heads : List RecordHead}
    {exts : Extensions} (h : p.WellFormed) (hhost : 1 ≤ p.host.length)
    (hframed : Framed buf heads p.body extra tail) (hname : 1 ≤ name.length) {out : Bytes} :
    rebuildTcpPrefixWithClientHelloBody buf
        ⟨exts, (frame heads (message p.body ++ extra)).length, p.body⟩ (p.rename name).body =
      .ok out ↔
    ∃ newHeads, p.resized name heads = .ok newHeads ∧
      (p.rename name).body.length < 16777216 ∧
      out = frame newHeads (message (p.rename name).body ++ extra) := by
  obtain ⟨hlayout, _, _⟩ := body_walk h
  have hdelta : ((p.rename name).body.length : Int) - p.body.length =
      name.length - p.host.length := by
    have hlength := rename_body_length p name
    omega
  have hfuel : heads.length < buf.length + 1 := by
    have hlength := frame_length hframed.holds
    rw [hframed.bytes, List.length_append]
    omega
  have hsized := @sizeRecords_eq buf tail (4 + p.hostStart) (name.length - p.host.length) heads _
    hframed.holds _ 0 0 (by rw [List.drop_zero]; exact hframed.bytes) hfuel
  have holdTail : (message p.body ++ extra).drop (4 + p.body.length) = extra :=
    List.drop_left' (message_length p.body)
  rw [Nat.zero_add] at hsized
  rw [rebuildTcpPrefixWithClientHelloBody, attempt_eq_ok.mpr hlayout]
  change ((sizeRecords buf _ (4 + p.hostStart) _ _ 0 0).bind _) = _ ↔ _
  rw [hdelta, hsized, resized]
  cases hresized : resize (4 + p.hostStart) (name.length - p.host.length) 0 heads with
  | error reason => simp [Except.map, Except.bind]
  | ok newHeads =>
    obtain ⟨hholds, _, htotal⟩ :=
      resized_holds hhost hframed.holds hframed.last hname hresized
    have hwritten := writeRecords_eq (resize_same hresized)
      (message (p.rename name).body ++ extra) 0
    rw [List.drop_zero] at hwritten
    have hlength : ((frame heads (message p.body ++ extra)).length +
        (name.length - p.host.length : Int)).toNat =
          (frame newHeads (message (p.rename name).body ++ extra)).length := by
      have hcount := congrArg List.length (resize_same hresized)
      rw [List.length_map, List.length_map] at hcount
      rw [frame_length hframed.holds, frame_length hholds]
      omega
    simp only [Except.map, Except.bind, holdTail, handshakeHeader]
    by_cases hshort : (p.rename name).body.length < 16777216
    case neg => simp [attempt, hshort]
    have hmessage : (1 :: UInt8.ofNat ((p.rename name).body.length / 65536) ::
        ofUInt16 ((p.rename name).body.length % 65536)) ++ (p.rename name).body ++ extra =
          message (p.rename name).body ++ extra := rfl
    rw [if_pos hshort]
    simp only [attempt]
    rw [hmessage, hwritten, hlength, Nat.sub_self, List.replicate_zero, List.append_nil,
      List.take_length, Except.ok.injEq]
    constructor
    · rintro rfl
      exact ⟨newHeads, rfl, hshort, rfl⟩
    · rintro ⟨_, hheads, _, rfl⟩
      cases hheads
      rfl

end HelloPieces

theorem parse_ok_iff {buf : Bytes} {hello : Hello} :
    parseFirstTlsClientHelloFromTcpBuf buf = .ok (.ok hello) ↔
      buf.length ≤ maxClientBuf ∧
      assemble 0 [] buf = .message hello.clientHelloBody hello.bytesConsumed ∧
      readHello true hello.clientHelloBody = .ok (.ok hello.extensions) := by
  by_cases hsize : buf.length ≤ maxClientBuf
  case neg =>
    rw [parseFirstTlsClientHelloFromTcpBuf, if_pos (Nat.not_le.mp hsize)]
    simp [hsize]
  rw [parseFirstTlsClientHelloFromTcpBuf_eq hsize]
  cases assemble 0 [] buf with
  | needMore minTotal => simp [Assembly.finish]
  | error reason => simp [Assembly.finish]
  | message body consumed =>
    rw [Assembly.finish]
    cases hread : readHello true body with
    | error fault =>
      simp only [Except.map, reduceCtorEq, Assembly.message.injEq, false_iff]
      rintro ⟨_, ⟨rfl, _⟩, hread'⟩
      rw [hread] at hread'
      cases hread'
    | ok result =>
      cases result with
      | error reason =>
        simp only [Except.map, Except.ok.injEq, reduceCtorEq, Assembly.message.injEq, false_iff]
        rintro ⟨_, ⟨rfl, _⟩, hread'⟩
        rw [hread] at hread'
        cases hread'
      | ok exts =>
        simp only [Except.map, Except.ok.injEq, Parse.ok.injEq, Assembly.message.injEq]
        constructor
        · rintro rfl
          exact ⟨hsize, ⟨rfl, rfl⟩, hread⟩
        · rintro ⟨_, ⟨rfl, rfl⟩, hread'⟩
          rw [hread] at hread'
          cases hread'
          rfl

theorem pieces_of_rebuilt {chBody name out : Bytes} {exts : Extensions}
    (hread : readHello true chBody = .ok (.ok exts))
    (h : rebuildClientHelloBodyWithHostname chBody name = .ok out) :
    ∃ p : HelloPieces, p.WellFormed ∧ p.body = chBody ∧ exts.sni.head? = some p.host ∧
      p.Fits name ∧ out = (p.rename name).body := by
  have hfound : ∃ found, findFirstSniLayoutInClientHelloBody chBody = .ok (some found) := by
    rw [rebuildClientHelloBodyWithHostname] at h
    cases hblocked : clientHelloBlockedForEncSni chBody with
    | error fault =>
      rw [hblocked] at h
      cases h
    | ok blocked =>
      rw [hblocked] at h
      cases blocked with
      | true => cases h
      | false =>
        cases hlayout : findFirstSniLayoutInClientHelloBody chBody with
        | error fault =>
          rw [hlayout] at h
          cases h
        | ok layout =>
          cases layout with
          | none =>
            rw [hlayout] at h
            cases h
          | some found => exact ⟨found, rfl⟩
  obtain ⟨found, hfound⟩ := hfound
  obtain ⟨p, hp, rfl⟩ := HelloPieces.exists_pieces hread hfound
  obtain ⟨_, _, exts', hread', hhost⟩ := HelloPieces.body_walk hp
  rw [hread] at hread'
  cases hread'
  obtain ⟨hfits, hout⟩ := (HelloPieces.rebuild_iff hp name).mp h
  exact ⟨p, hp, rfl, hhost, hfits, hout⟩

/-- One direction, on the pieces and on the records. -/
structure Rewritten (p : HelloPieces) (name : Bytes) (heads newHeads : List RecordHead) : Prop where
  wellFormed : p.WellFormed
  fits : p.Fits name
  resized : p.resized name heads = .ok newHeads
  short : (p.rename name).body.length < 16777216

theorem rebuilt_iff {buf tail extra name : Bytes} {p : HelloPieces} {heads : List RecordHead}
    {exts : Extensions} (hp : p.WellFormed) (hhost : 1 ≤ p.host.length)
    (hframed : Framed buf heads p.body extra tail) {out : Bytes} :
    (rebuildClientHelloBodyWithHostname p.body name).bind
        (rebuildTcpPrefixWithClientHelloBody buf
          ⟨exts, (frame heads (message p.body ++ extra)).length, p.body⟩) = .ok out ↔
      ∃ newHeads, Rewritten p name heads newHeads ∧
        out = frame newHeads (message (p.rename name).body ++ extra) := by
  constructor
  · intro h
    cases hbody : rebuildClientHelloBodyWithHostname p.body name with
    | error reason =>
      rw [hbody] at h
      cases h
    | ok newBody =>
      obtain ⟨hfits, rfl⟩ := (HelloPieces.rebuild_iff hp name).mp hbody
      rw [hbody] at h
      obtain ⟨newHeads, hresized, hshort, hout⟩ :=
        (HelloPieces.rebuildTcpPrefix_iff hp hhost hframed hfits.nonempty).mp h
      exact ⟨newHeads, ⟨hp, hfits, hresized, hshort⟩, hout⟩
  · rintro ⟨newHeads, hr, hout⟩
    rw [(HelloPieces.rebuild_iff hp name).mpr ⟨hr.fits, rfl⟩]
    exact (HelloPieces.rebuildTcpPrefix_iff hp hhost hframed hr.fits.nonempty).mpr
      ⟨newHeads, hr.resized, hr.short, hout⟩

theorem replace_steps {buf relay : Bytes} {r : Replaced}
    (h : replaceFirstSniInTcpBuffer buf relay = .ok (.ok r)) :
    ∃ hello host, parseFirstTlsClientHelloFromTcpBuf buf = .ok (.ok hello) ∧
      hello.extensions.sni.head? = some host ∧
      (rebuildClientHelloBodyWithHostname hello.clientHelloBody relay).bind
        (rebuildTcpPrefixWithClientHelloBody buf hello) = .ok r.prefixBuf ∧
      r.originHost = toText host ∧ r.tailAfterPrefix = buf.drop hello.bytesConsumed := by
  rw [replaceFirstSniInTcpBuffer] at h
  cases hparse : parseFirstTlsClientHelloFromTcpBuf buf with
  | error fault =>
    rw [hparse] at h
    cases h
  | ok parsed =>
    rw [hparse] at h
    cases parsed with
    | needMore minTotal => cases h
    | error reason => cases h
    | ok hello =>
      obtain ⟨_, _, hread⟩ := parse_ok_iff.mp hparse
      simp only [Except.bind, parseTlsClientHelloReadableExtensions, hread] at h
      cases hsni : hello.extensions.sni with
      | nil =>
        rw [hsni] at h
        cases h
      | cons host more =>
        rw [hsni] at h
        simp only at h
        cases hblocked : clientHelloBlockedForEncSni hello.clientHelloBody with
        | error fault =>
          rw [hblocked] at h
          cases h
        | ok blocked =>
          rw [hblocked] at h
          cases blocked with
          | true => cases h
          | false =>
            simp only [Bool.false_eq_true, if_false] at h
            split at h
            case h_1 => cases h
            rename_i prefixBuf hrebuilt
            simp only [Except.ok.injEq] at h
            subst h
            exact ⟨hello, host, rfl, by rw [hsni, List.head?_cons], hrebuilt, rfl, rfl⟩

theorem replace_ok {buf origin relay : Bytes} {hello : Hello} {r : Replaced}
    (hparsed : parseFirstTlsClientHelloFromTcpBuf buf = .ok (.ok hello))
    (hsni : hello.extensions.sni.head? = some origin) (horigin : 1 ≤ origin.length)
    (h : replaceFirstSniInTcpBuffer buf relay = .ok (.ok r)) :
    ∃ (p : HelloPieces) (heads newHeads : List RecordHead) (extra : Bytes),
      p.body = hello.clientHelloBody ∧ p.host = origin ∧
      hello.bytesConsumed = (frame heads (message p.body ++ extra)).length ∧
      Framed buf heads p.body extra r.tailAfterPrefix ∧ Rewritten p relay heads newHeads ∧
      r.prefixBuf = frame newHeads (message (p.rename relay).body ++ extra) := by
  obtain ⟨hello', host, hparsed', _, hrebuilt, _, htail⟩ := replace_steps h
  rw [hparsed] at hparsed'
  cases hparsed'
  obtain ⟨exts, consumed, chBody⟩ := hello
  obtain ⟨_, hmessage, hread⟩ := parse_ok_iff.mp hparsed
  simp only at hmessage hread hsni htail
  cases hbody : rebuildClientHelloBodyWithHostname chBody relay with
  | error reason =>
    simp only [hbody] at hrebuilt
    cases hrebuilt
  | ok newBody =>
    obtain ⟨p, hp, rfl, hhead, _, _⟩ := pieces_of_rebuilt hread hbody
    obtain ⟨heads, extra, tail, hframed, rfl⟩ := Framed.of_assemble hmessage
    rw [hsni, Option.some.injEq] at hhead
    subst hhead
    obtain ⟨newHeads, hr, hout⟩ := (rebuilt_iff hp horigin hframed).mp hrebuilt
    rw [hframed.bytes, List.drop_left] at htail
    exact ⟨p, heads, newHeads, extra, rfl, rfl, rfl, htail ▸ hframed, hr, hout⟩

theorem restore_steps {buf relay origin : Bytes} {r : Restored}
    (h : restoreFirstSniInTcpBuffer buf relay origin = .ok (.ok r)) :
    ∃ hello, parseFirstTlsClientHelloFromTcpBuf buf = .ok (.ok hello) ∧
      (rebuildClientHelloBodyWithHostname hello.clientHelloBody origin).bind
        (rebuildTcpPrefixWithClientHelloBody buf hello) = .ok r.prefixBuf := by
  rw [restoreFirstSniInTcpBuffer] at h
  cases hparse : parseFirstTlsClientHelloFromTcpBuf buf with
  | error fault =>
    rw [hparse] at h
    cases h
  | ok parsed =>
    rw [hparse] at h
    cases parsed with
    | needMore minTotal => cases h
    | error reason => cases h
    | ok hello =>
      obtain ⟨_, _, hread⟩ := parse_ok_iff.mp hparse
      simp only [Except.bind, parseTlsClientHelloReadableExtensions, hread] at h
      split at h
      case isTrue => cases h
      split at h
      case h_1 => cases h
      rename_i prefixBuf hrebuilt
      simp only [Except.ok.injEq] at h
      subst h
      exact ⟨hello, rfl, hrebuilt⟩

theorem restore_of {buf relay origin extra tail : Bytes} {p : HelloPieces}
    {heads newHeads : List RecordHead} (hframed : Framed buf heads p.body extra tail)
    (hsize : buf.length ≤ maxClientBuf) (hhost : 1 ≤ p.host.length)
    (hrelay : toText p.host = relay) (hr : Rewritten p origin heads newHeads) :
    restoreFirstSniInTcpBuffer buf relay origin =
      .ok (.ok ⟨frame newHeads (message (p.rename origin).body ++ extra), tail⟩) := by
  obtain ⟨_, _, exts, hread, hhead⟩ := HelloPieces.body_walk hr.wellFormed
  have hparse : parseFirstTlsClientHelloFromTcpBuf buf =
      .ok (.ok ⟨exts, (frame heads (message p.body ++ extra)).length, p.body⟩) :=
    parse_ok_iff.mpr ⟨hsize, hframed.assemble, hread⟩
  have hname : exts.sni.head?.map toText = some relay := by rw [hhead, Option.map_some, hrelay]
  have hrebuilt := (@rebuilt_iff _ _ _ _ _ _ exts hr.wellFormed hhost hframed _).mpr
    ⟨newHeads, hr, rfl⟩
  have htail : buf.drop (frame heads (message p.body ++ extra)).length = tail := by
    rw [hframed.bytes, List.drop_left]
  rw [restoreFirstSniInTcpBuffer, hparse]
  simp only [Except.bind, parseTlsClientHelloReadableExtensions, hread, hname, ne_eq,
    not_true_eq_false, if_false]
  simp only [Except.bind] at hrebuilt
  rw [hrebuilt, htail]

theorem Rewritten.back {p : HelloPieces} {name : Bytes} {heads newHeads : List RecordHead}
    (h : Rewritten p name heads newHeads) (hsizes : ∀ head ∈ heads, 1 ≤ head.size)
    (hbody : p.body.length < 16777216) (hnonempty : 1 ≤ p.host.length)
    (hshort : p.host.length ≤ 253)
    (hcovers : p.others.length + 3 + p.host.length ≤ p.list + name.length) :
    Rewritten (p.rename name) p.host newHeads heads where
  wellFormed := h.wellFormed.rename h.fits (by omega)
  fits := HelloPieces.fits_back h.wellFormed h.fits hnonempty hshort
  resized := by
    have hback := resize_back (Nat.zero_le _) h.resized hsizes
    rw [HelloPieces.resized]
    rw [Int.neg_sub] at hback
    exact hback
  short := by rwa [HelloPieces.rename_back h.fits]

/-- The list of server names, of the length that it declares, still goes on to the first host name
when that name has the length `length`. -/
def ListReachesHost (chBody : Bytes) (length : Nat) : Prop :=
  ∃ layout list, findFirstSniLayoutInClientHelloBody chBody = .ok (some layout) ∧
    readUInt16BE chBody (.int layout.sniListLenPos) = .ok list ∧
    layout.hostnameStartChBodyAbs + layout.hostnameLenBytes ≤
      layout.sniListLenPos + 2 + list + length

theorem HelloPieces.reaches_iff {p : HelloPieces} (h : p.WellFormed) (length : Nat) :
    ListReachesHost p.body length ↔
      p.others.length + 3 + p.host.length ≤ p.list + length := by
  have hlist : readUInt16BE p.body (.int p.layout.sniListLenPos) = .ok p.list := by
    have hat := @readUInt16BE_at p.body (p.others ++ 0 :: (ofUInt16 p.host.length ++ (p.host ++
      (p.names ++ (p.after ++ p.trailing))))) 0 (UInt8.ofNat (p.list / 256))
      (UInt8.ofNat (p.list % 256)) p.layout.sniListLenPos
      (p.front ++ ofUInt16 p.block.length ++ p.before ++ [0, 0] ++ ofUInt16 p.ext.length)
      (by simp [layout]; omega) (by rw [body_eq_raw, raw_at_list]; rfl)
    rw [Nat.zero_add] at hat
    rw [hat, toUInt16_ofNat h.list]
  obtain ⟨hlayout, _, _⟩ := body_walk h
  constructor
  · rintro ⟨layout, list, hfound, hread, hreaches⟩
    rw [hlayout] at hfound
    cases hfound
    rw [hlist] at hread
    cases hread
    simp only [HelloPieces.layout] at hreaches
    omega
  · intro hreaches
    refine ⟨p.layout, p.list, hlayout, hlist, ?_⟩
    simp only [HelloPieces.layout]
    omega

/-- A stream whose first server name has been replaced by that of a relay differs from the old
one in the name, in the lengths around it and in the sizes of records, and has its old name
restored to the byte, whatever follows the ClientHello. -/
theorem restore_inverts_replace {buf origin relay : Bytes} {hello : Hello} {r : Replaced}
    (hparsed : parseFirstTlsClientHelloFromTcpBuf buf = .ok (.ok hello))
    (hsni : hello.extensions.sni.head? = some origin) (hascii : IsAscii origin)
    (hnonempty : 1 ≤ origin.length) (hshort : origin.length ≤ 253) (hrelay : IsAscii relay)
    (h : replaceFirstSniInTcpBuffer buf relay = .ok (.ok r)) :
    r.originHost = origin ∧
    (∃ (p : HelloPieces) (heads newHeads : List RecordHead) (extra : Bytes),
      p.WellFormed ∧ p.body = hello.clientHelloBody ∧ p.host = origin ∧
      buf = frame heads (message p.body ++ extra) ++ r.tailAfterPrefix ∧
      hello.bytesConsumed = (frame heads (message p.body ++ extra)).length ∧
      r.prefixBuf = frame newHeads (message (p.rename relay).body ++ extra) ∧
      SameRecords heads newHeads) ∧
    ∀ tail, (r.prefixBuf ++ tail).length ≤ maxClientBuf →
      ListReachesHost hello.clientHelloBody relay.length →
      restoreFirstSniInTcpBuffer (r.prefixBuf ++ tail) relay origin =
        .ok (.ok ⟨buf.take hello.bytesConsumed, tail⟩) := by
  obtain ⟨p, heads, newHeads, extra, hbody, rfl, hconsumed, hframed, hr, hwire⟩ :=
    replace_ok hparsed hsni hnonempty h
  have hname : r.originHost = p.host := by
    obtain ⟨hello', host, hparsed', hhead, _, hname, _⟩ := replace_steps h
    rw [hparsed] at hparsed'
    cases hparsed'
    rw [hsni, Option.some.injEq] at hhead
    rw [hname, ← hhead, toText_ascii hascii]
  refine ⟨hname, ⟨p, heads, newHeads, extra, hr.wellFormed, hbody, rfl, hframed.bytes, hconsumed,
    hwire, resize_same hr.resized⟩, fun tail hsize hreaches => ?_⟩
  rw [← hbody, HelloPieces.reaches_iff hr.wellFormed] at hreaches
  have hback := hr.back (fun head hhead => (hframed.holds.1 head hhead).1) hframed.short hnonempty
    hshort hreaches
  obtain ⟨hholds, hlast, _⟩ := HelloPieces.resized_holds hnonempty hframed.holds hframed.last
    hr.fits.nonempty hr.resized
  have hframed' : Framed (r.prefixBuf ++ tail) newHeads (p.rename relay).body extra tail := by
    refine ⟨by rw [hwire], hholds, hlast, hr.short, ?_⟩
    rw [hwire, List.length_append] at hsize
    omega
  have hrestored := restore_of hframed' hsize hr.fits.nonempty
    (show toText (p.rename relay).host = relay from toText_ascii hrelay) hback
  rw [hrestored, HelloPieces.rename_back hr.fits, hconsumed, hframed.bytes, List.take_left]

/-- A hello for `a.b`, with a list of names that declares a length of its own. -/
def sampleBody (list : Nat) : Bytes :=
  [3, 3] ++ List.replicate 32 7 ++ [0, 0, 2, 0x13, 1, 1, 0, 0, 12, 0, 0, 0, 8] ++ ofUInt16 list ++
    [0, 0, 3, 0x61, 0x2e, 0x62]

def sampleHello (list cut : Nat) : Bytes :=
  [0x16, 3, 1, 0, UInt8.ofNat (4 + cut), 1, 0, 0, 55] ++ (sampleBody list).take cut ++
    [0x16, 3, 3, 0, UInt8.ofNat (57 - cut)] ++ (sampleBody list).drop cut ++ [9, 9]

/-- The name `r.exam` in the place of `a.b`, which the two records share. -/
def sampleReplaced : Replaced where
  originHost := [0x61, 0x2e, 0x62]
  relayHost := [0x72, 0x2e, 0x65, 0x78, 0x61, 0x6d]
  prefixBuf :=
    [0x16, 3, 1, 0, 60, 1, 0, 0, 58, 3, 3] ++ List.replicate 32 7 ++
      [0, 0, 2, 0x13, 1, 1, 0, 0, 15, 0, 0, 0, 11, 0, 9, 0, 0, 6, 0x72, 0x2e, 0x65, 0x78,
        0x16, 3, 3, 0, 4, 0x61, 0x6d, 9, 9]
  tailAfterPrefix := [4]

theorem shared_name_restored :
    restoreFirstSniInTcpBuffer (sampleReplaced.prefixBuf ++ [5, 6]) sampleReplaced.relayHost
        sampleReplaced.originHost =
      .ok (.ok ⟨sampleHello 6 53, [5, 6]⟩) := by
  have hreaches : ListReachesHost (sampleBody 6) 6 :=
    ⟨⟨52, 3, 47, 45, 41⟩, 6, by decide +kernel, by decide +kernel, by decide⟩
  obtain ⟨_, _, hrestored⟩ := @restore_inverts_replace (sampleHello 6 53 ++ [4])
    sampleReplaced.originHost sampleReplaced.relayHost
    ⟨⟨[sampleReplaced.originHost], [], []⟩, 71, sampleBody 6⟩ sampleReplaced (by decide +kernel) rfl
    (by decide) (by decide) (by decide) (by decide) (by decide +kernel)
  exact hrestored [5, 6] (by decide) hreaches

/-- Two hellos whose names are not restored: one followed by so much that the parser refuses to
look at the whole, and one whose list of names declares too little for the shorter name of the
relay to be found. -/
theorem names_not_restored :
    (replaceFirstSniInTcpBuffer (sampleHello 6 53 ++ [4]) sampleReplaced.relayHost =
        .ok (.ok sampleReplaced) ∧
      restoreFirstSniInTcpBuffer (sampleReplaced.prefixBuf ++ List.replicate maxClientBuf 0)
        sampleReplaced.relayHost sampleReplaced.originHost = .ok (.error (.parse .bufferMax))) ∧
    ∃ r, replaceFirstSniInTcpBuffer (sampleHello 4 46) [0x72] = .ok (.ok r) ∧
      r.originHost = [0x61, 0x2e, 0x62] ∧
      restoreFirstSniInTcpBuffer r.prefixBuf [0x72] r.originHost =
        .ok (.error .sniHostnameNotRelayExpectation) := by
  refine ⟨⟨by decide +kernel, ?_⟩, ?_⟩
  · rw [restoreFirstSniInTcpBuffer, parseFirstTlsClientHelloFromTcpBuf, if_pos]
    · rfl
    · rw [List.length_append, List.length_replicate]
      exact Nat.lt_add_of_pos_left (by decide)
  · refine ⟨⟨[0x61, 0x2e, 0x62], [0x72], [0x16, 3, 1, 0, 50, 1, 0, 0, 53, 3, 3] ++
      List.replicate 32 7 ++ [0, 0, 2, 0x13, 1, 1, 0, 0, 10, 0, 0, 0, 0x16, 3, 3, 0, 9, 6, 0, 2, 0,
        0, 1, 0x72, 9, 9], []⟩, ?_⟩
    decide +kernel

end Meshpn.Tls
