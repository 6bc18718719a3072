import Meshpn.Tls.HelloPieces

/-!
A ClientHello body as the pieces around its first server name, and what its
rewriting does to them: the name is replaced, four lengths follow it, and every
other piece stays. The length of the server name list is kept apart from the
list, because nobody checks the one against the other.
-/

namespace Meshpn.Tls

open Meshpn.Lib
open Meshpn.Lib.Bytes

structure HelloPieces where
  -- all fields ahead of the extensions, and the extensions ahead of the server names
  front : Bytes
  before : Bytes
  -- the list's length, the names ahead of the host name, the host name, and the other names
  list : Nat
  others : Bytes
  host : Bytes
  names : Bytes
  after : Bytes
  trailing : Bytes

namespace HelloPieces

def ext (p : HelloPieces) : Bytes :=
  ofUInt16 p.list ++ (p.others ++ 0 :: (ofUInt16 p.host.length ++ (p.host ++ p.names)))

def block (p : HelloPieces) : Bytes :=
  p.before ++ 0 :: 0 :: (ofUInt16 p.ext.length ++ (p.ext ++ p.after))

def body (p : HelloPieces) : Bytes :=
  p.front ++ (ofUInt16 p.block.length ++ (p.block ++ p.trailing))

def layout (p : HelloPieces) : SniLayout where
  hostnameStartChBodyAbs := p.front.length + 2 + (p.before.length + 4) + (2 + p.others.length + 3)
  hostnameLenBytes := p.host.length
  sniListLenPos := p.front.length + 2 + (p.before.length + 4)
  sniExtLenPos := p.front.length + 2 + (p.before.length + 4) - 2
  extensionsTotalLenPos := p.front.length + 2 - 2

/-- The lengths ahead of the extensions lead to where the extensions begin. -/
def Fronts (front : Bytes) : Prop :=
  ∃ sidLen csLen compLen, index front (.int 34) = .int sidLen ∧
    readUInt16BE front (.int (35 + sidLen)) = .ok csLen ∧
    index front (.int (35 + sidLen + 2 + csLen)) = .int compLen ∧
    front.length = 35 + sidLen + 2 + csLen + 1 + compLen

structure WellFormed (p : HelloPieces) : Prop where
  front : Fronts p.front
  before : OtherExts p.before
  others : OtherNames p.others
  after : Exts p.after
  list : p.list < 65536
  block : p.block.length < 65536
  -- the list goes on at least to where the host name begins
  covers : p.others.length + 3 ≤ p.list

variable {p : HelloPieces}

theorem ext_length (p : HelloPieces) :
    p.ext.length = 2 + p.others.length + 3 + p.host.length + p.names.length := by
  simp only [ext, List.length_append, List.length_cons, ofUInt16_length]
  omega

theorem block_length (p : HelloPieces) :
    p.block.length = p.before.length + 4 + p.ext.length + p.after.length := by
  simp only [block, List.length_append, List.length_cons, ofUInt16_length]
  omega

theorem WellFormed.ext (h : p.WellFormed) : p.ext.length < 65536 := by
  have hblock := h.block
  rw [block_length] at hblock
  omega

theorem WellFormed.host (h : p.WellFormed) : p.host.length < 65536 := by
  have hext := h.ext
  rw [ext_length] at hext
  omega

theorem extensionBlock_body (hfront : Fronts p.front) (hsize : p.block.length < 65536) :
    extensionBlock p.body = .ok (.ok (p.front.length + 2, p.block)) := by
  obtain ⟨sidLen, csLen, compLen, hsid, hcs, hcomp, hlength⟩ := hfront
  have hbody : p.body.length = p.front.length + 2 + p.block.length + p.trailing.length := by
    simp only [body, List.length_append, ofUInt16_length]
    omega
  have hindex : ∀ o, o < p.front.length → index p.body (.int o) = index p.front (.int o) := by
    intro o ho
    simp [body, index, List.getElem?_append_left ho]
  have hread : readUInt16BE p.body (.int (35 + sidLen)) = .ok csLen := by
    rw [← hcs]
    simp only [readUInt16BE, body]
    rw [List.getElem?_append_left (by omega), List.getElem?_append_left (by omega)]
  have hext : readUInt16BE p.body (.int p.front.length) = .ok p.block.length := by
    have hat := @readUInt16BE_at p.body (p.block ++ p.trailing) 0
      (UInt8.ofNat (p.block.length / 256)) (UInt8.ofNat (p.block.length % 256))
      p.front.length p.front rfl rfl
    rw [Nat.zero_add] at hat
    rw [hat, toUInt16_ofNat hsize]
  have hblock : subarray p.body (p.front.length + 2) (p.front.length + 2 + p.block.length) =
      p.block := by
    have hat := @subarray_at p.body p.trailing 0 p.block (p.front.length + 2)
      (p.front ++ ofUInt16 p.block.length) (by simp) (by simp [body])
    rwa [Nat.zero_add] at hat
  have hlong : ¬p.body.length < 34 := by omega
  have hsidLen : ¬p.body.length < 35 + sidLen + 2 := by omega
  have hcsLen : ¬p.body.length < 35 + sidLen + 2 + csLen + 1 := by omega
  have hcompLen : ¬p.body.length < p.front.length + 2 := by omega
  have hextLen : ¬p.body.length < p.front.length + 2 + p.block.length := by omega
  rw [extensionBlock, if_neg hlong]
  simp only [hindex 34 (by omega), hsid, Num.int_add, Num.exceeds_int, hsidLen, decide_false,
    Bool.false_eq_true, if_false, hread, Except.bind, hcsLen,
    hindex (35 + sidLen + 2 + csLen) (by omega), hcomp, ← hlength, hcompLen, hext, hextLen, hblock]

theorem ext_name (h : p.WellFormed) :
    nameOf 0 p.ext = .ok (some (2 + p.others.length + 3, p.host.length)) ∧
      ∀ found, ∃ next, readExtension 0 p.ext found = .ok next ∧
        ∃ more, next.sni = found.sni ++ p.host :: more := by
  have hlength := ext_length p
  have hlist : readUInt16BE p.ext (.int 0) = .ok p.list := by
    have hat := @readUInt16BE_at p.ext
      (p.others ++ 0 :: (ofUInt16 p.host.length ++ (p.host ++ p.names))) 0
      (UInt8.ofNat (p.list / 256)) (UInt8.ofNat (p.list % 256)) 0 [] rfl rfl
    rw [Nat.zero_add] at hat
    rw [hat, toUInt16_ofNat h.list]
  have hleft : p.ext.drop 2 = p.others ++ 0 :: UInt8.ofNat (p.host.length / 256) ::
      UInt8.ofNat (p.host.length % 256) :: (p.host ++ p.names) := rfl
  have hcovers : ((p.others.length + 3 : Nat) : Int) ≤ p.list := by exact_mod_cast h.covers
  obtain ⟨hfind, hread⟩ := names_of h.others (toUInt16_ofNat h.host).symm hleft (by omega) hcovers
    (show p.ext.length < p.ext.length + 1 + 2 by omega)
  have hname : (0 : Nat) = 0 ∧ 2 ≤ p.ext.length := ⟨rfl, by omega⟩
  refine ⟨?_, fun found => ?_⟩
  · rw [nameOf, if_pos hname, hlist]
    exact hfind
  · obtain ⟨more, hmore⟩ := hread found.sni
    refine ⟨{ found with sni := found.sni ++ p.host :: more }, ?_, more, rfl⟩
    rw [readExtension, if_pos hname, hlist]
    simp only [Except.bind, hmore, Except.map]

theorem body_walk (h : p.WellFormed) :
    findFirstSniLayoutInClientHelloBody p.body = .ok (some p.layout) ∧
      clientHelloBlockedForEncSni p.body = .ok false ∧
      ∃ exts, readHello true p.body = .ok (.ok exts) ∧ exts.sni.head? = some p.host := by
  have hblock := extensionBlock_body h.front h.block
  obtain ⟨hname, hnames⟩ := ext_name h
  have hleft : p.block.drop 0 = p.before ++ 0 :: 0 :: UInt8.ofNat (p.ext.length / 256) ::
      UInt8.ofNat (p.ext.length % 256) :: (p.ext ++ p.after) := rfl
  obtain ⟨hfind, exts, hread, more, hmore⟩ := @block_of p.block p.before p.ext p.after p.host _ _ _ _
    h.before h.after (toUInt16_ofNat h.ext).symm hname hnames (p.front.length + 2)
    (p.block.length + 1) 0 ⟨[], [], []⟩ hleft (Nat.zero_le _) (by omega)
  refine ⟨?_, clientHelloBlockedForEncSni_accepted hblock, exts, ?_, by rw [hmore]; rfl⟩
  · rw [findFirstSniLayoutInClientHelloBody, hblock]
    simp only [Except.bind]
    rw [hfind]
    simp only [layout, Nat.zero_add]
  · rw [readHello, hblock]
    exact hread

theorem two_of_read {buf : Bytes} {o n : Nat} (h : readUInt16BE buf (.int o) = .ok n) :
    ∃ high low, buf.drop o = high :: low :: buf.drop (o + 2) ∧ n = toUInt16 high low := by
  rw [readUInt16BE] at h
  split at h
  case h_1 high low hhigh hlow =>
    simp only [Except.ok.injEq] at h
    obtain ⟨ho, rfl⟩ := List.getElem?_eq_some_iff.mp hhigh
    obtain ⟨ho', rfl⟩ := List.getElem?_eq_some_iff.mp hlow
    refine ⟨_, _, ?_, h.symm⟩
    rw [List.drop_eq_getElem_cons ho, List.drop_eq_getElem_cons ho']
  case h_2 => cases h

theorem exists_ext {ed : Bytes} {so nl : Nat} (h : nameOf 0 ed = .ok (some (so, nl))) :
    ∃ list others host names, list < 65536 ∧ OtherNames others ∧ others.length + 3 ≤ list ∧
      ed = ofUInt16 list ++ (others ++ 0 :: (ofUInt16 host.length ++ (host ++ names))) := by
  rw [nameOf] at h
  split at h
  case isFalse => cases h
  rename_i hname
  obtain ⟨list, hlt, hlist⟩ := readUInt16BE_int ed 0 (by omega)
  obtain ⟨n1, n0, htwo, hn⟩ := two_of_read hlist
  rw [hlist] at h
  obtain ⟨others, high, low, host, rest, hleft, hothers, hhost, _, _, hcovers⟩ :=
    findName_some h
  refine ⟨list, others, host, rest, hlt, hothers, by exact_mod_cast hcovers, ?_⟩
  rw [hhost, ofUInt16_toUInt16, hn, ofUInt16_toUInt16]
  rw [List.drop_zero, hleft] at htwo
  exact htwo

/-- A body that the strict reader takes, and that has a host name, is made of pieces. -/
theorem exists_pieces {chBody : Bytes} {exts : Extensions} {found : SniLayout}
    (hread : readHello true chBody = .ok (.ok exts))
    (hfound : findFirstSniLayoutInClientHelloBody chBody = .ok (some found)) :
    ∃ p : HelloPieces, p.WellFormed ∧ p.body = chBody := by
  rw [readHello] at hread
  rw [findFirstSniLayoutInClientHelloBody] at hfound
  cases hblock : extensionBlock chBody with
  | error fault =>
    rw [hblock] at hread
    cases hread
  | ok result =>
    rw [hblock] at hread hfound
    rcases result with reason | value
    · cases hread
    obtain ⟨start, extBlock⟩ := value
    obtain ⟨sidLen, csLen, compLen, extLen, hlong, hsid, hcs, hcomp, hext, hstart, hend, hcut⟩ :=
      extensionBlock_fields hblock
    obtain ⟨before, high, low, ed, after, so, nl, hpieces, hbefore, hafter, hed, hname, _⟩ :=
      findSni_some hread (Nat.zero_le _) hfound
    obtain ⟨list, others, host, names, hlist, hothers, hcovers, rfl⟩ := exists_ext hname
    obtain ⟨e1, e0, htwo, hlen⟩ := two_of_read hext
    have hlength : extBlock.length = extLen := by
      rw [hcut, subarray_length hend]
      omega
    let p : HelloPieces :=
      ⟨chBody.take (35 + sidLen + 2 + csLen + 1 + compLen), before, list, others, host, names,
        after, chBody.drop (start + extLen)⟩
    have hp : p.block = extBlock := by
      rw [List.drop_zero] at hpieces
      rw [hpieces]
      simp only [HelloPieces.block, p]
      rw [show p.ext.length = toUInt16 high low from hed, ofUInt16_toUInt16]
      rfl
    have hfront : p.front.length = 35 + sidLen + 2 + csLen + 1 + compLen := by
      simp only [p, List.length_take]
      omega
    have hbody : p.body = chBody := by
      have hrest : chBody.drop start = extBlock ++ chBody.drop (start + extLen) := by
        rw [hcut, subarray, List.drop_take, Nat.add_sub_cancel_left, ← List.drop_drop,
          List.take_append_drop]
      rw [HelloPieces.body, hp, hlength, hlen, ofUInt16_toUInt16]
      conv_rhs => rw [← List.take_append_drop (35 + sidLen + 2 + csLen + 1 + compLen) chBody,
        htwo, ← hstart, hrest]
      rfl
    have hindex : ∀ o, o < p.front.length → index p.front (.int o) = index chBody (.int o) := by
      intro o ho
      rw [← hbody, HelloPieces.body]
      simp [index, List.getElem?_append_left ho]
    have hreads : readUInt16BE p.front (.int (35 + sidLen)) = .ok csLen := by
      rw [← hcs, ← hbody, HelloPieces.body]
      simp only [readUInt16BE]
      rw [List.getElem?_append_left (by omega), List.getElem?_append_left (by omega)]
    refine ⟨p, ?_, hbody⟩
    exact {
      front := ⟨sidLen, csLen, compLen, (hindex 34 (by omega)).trans hsid, hreads,
        (hindex _ (by omega)).trans hcomp, hfront⟩
      before := hbefore
      others := hothers
      after := hafter
      list := hlist
      block := by
        rw [hp, hlength, hlen]
        exact toUInt16_lt _ _
      covers := hcovers }

def rename (p : HelloPieces) (name : Bytes) : HelloPieces :=
  { p with
    host := name
    list := ((p.list : Int) + (name.length - p.host.length)).toNat }

/-- The lengths that go with another host name fit into their fields. -/
structure Fits (p : HelloPieces) (name : Bytes) : Prop where
  nonempty : 1 ≤ name.length
  short : name.length ≤ 253
  listLow : 0 ≤ (p.list : Int) + (name.length - p.host.length)
  listHigh : (p.list : Int) + (name.length - p.host.length) < 65536
  block : (p.block.length : Int) + (name.length - p.host.length) < 65536

theorem writeUInt16BE_at {a b : Bytes} {n : Nat} {value : Int} {pos : Nat} (hpos : a.length = pos)
    (hlow : 0 ≤ value) (hhigh : value < 65536) :
    writeUInt16BE (a ++ (ofUInt16 n ++ b)) value pos = .ok (a ++ (ofUInt16 value.toNat ++ b)) := by
  subst hpos
  have hroom : a.length + 2 ≤ (a ++ (ofUInt16 n ++ b)).length := by
    simp only [List.length_append, ofUInt16_length]
    omega
  rw [writeUInt16BE, if_pos ⟨hlow, hhigh, hroom⟩, List.take_left, ← List.drop_drop, List.drop_left]
  simp [ofUInt16]

theorem addUInt16BE_at {a b : Bytes} {n : Nat} {delta : Int} {pos : Nat} (hpos : a.length = pos)
    (hn : n < 65536) :
    addUInt16BE (a ++ (ofUInt16 n ++ b)) delta pos =
      if 0 ≤ n + delta ∧ n + delta < 65536 then .ok (a ++ (ofUInt16 (n + delta).toNat ++ b))
      else .error .range := by
  have hread : readUInt16BE (a ++ (ofUInt16 n ++ b)) (.int pos) = .ok n := by
    have hat := @readUInt16BE_at (a ++ (ofUInt16 n ++ b)) b 0 (UInt8.ofNat (n / 256))
      (UInt8.ofNat (n % 256)) pos a hpos rfl
    rw [Nat.zero_add] at hat
    rw [hat, toUInt16_ofNat hn]
  rw [addUInt16BE, hread]
  simp only [Except.bind]
  split
  case isTrue hrange => exact writeUInt16BE_at hpos hrange.1 hrange.2
  case isFalse hrange => rw [writeUInt16BE, if_neg fun h => hrange ⟨h.1, h.2.1⟩]

/-- The pieces with any lengths between them. -/
def raw (p : HelloPieces) (total ext list length : Nat) (name : Bytes) : Bytes :=
  p.front ++ (ofUInt16 total ++ (p.before ++ 0 :: 0 :: (ofUInt16 ext ++ (ofUInt16 list ++
    (p.others ++ 0 :: (ofUInt16 length ++ (name ++ (p.names ++ (p.after ++ p.trailing)))))))))

theorem body_eq_raw (p : HelloPieces) :
    p.body = p.raw p.block.length p.ext.length p.list p.host.length p.host := by
  simp [body, block, ext, raw]

def hostStart (p : HelloPieces) : Nat :=
  p.front.length + 2 + (p.before.length + 4) + (2 + p.others.length + 3)

section Writes

variable (total ext list length : Nat) (name : Bytes)

theorem raw_at_host : p.raw total ext list length name =
    (p.front ++ ofUInt16 total ++ p.before ++ [0, 0] ++ ofUInt16 ext ++ ofUInt16 list ++ p.others ++
      [0] ++ ofUInt16 length) ++ (name ++ (p.names ++ (p.after ++ p.trailing))) := by
  simp [raw]

theorem raw_at_length : p.raw total ext list length name =
    (p.front ++ ofUInt16 total ++ p.before ++ [0, 0] ++ ofUInt16 ext ++ ofUInt16 list ++ p.others ++
      [0]) ++ (ofUInt16 length ++ (name ++ (p.names ++ (p.after ++ p.trailing)))) := by
  simp [raw]

theorem raw_at_list : p.raw total ext list length name =
    (p.front ++ ofUInt16 total ++ p.before ++ [0, 0] ++ ofUInt16 ext) ++ (ofUInt16 list ++
      (p.others ++ 0 :: (ofUInt16 length ++ (name ++ (p.names ++ (p.after ++ p.trailing)))))) := by
  simp [raw]

theorem raw_at_ext : p.raw total ext list length name =
    (p.front ++ ofUInt16 total ++ p.before ++ [0, 0]) ++ (ofUInt16 ext ++ (ofUInt16 list ++
      (p.others ++ 0 :: (ofUInt16 length ++ (name ++ (p.names ++ (p.after ++ p.trailing))))))) := by
  simp [raw]

theorem raw_splice :
    (p.raw total ext list length p.host).take p.hostStart ++ name ++
      (p.raw total ext list length p.host).drop (p.hostStart + p.host.length) =
    p.raw total ext list length name := by
  have hstart : (p.front ++ ofUInt16 total ++ p.before ++ [0, 0] ++ ofUInt16 ext ++
      ofUInt16 list ++ p.others ++ [0] ++ ofUInt16 length).length = p.hostStart := by
    simp only [hostStart, List.length_append, ofUInt16_length, List.length_cons, List.length_nil]
    omega
  rw [raw_at_host, raw_at_host total ext list length name, ← hstart, List.take_left,
    ← List.drop_drop, List.drop_left, List.drop_left, List.append_assoc]

end Writes

theorem host_at (p : HelloPieces) :
    subarray p.body p.hostStart (p.hostStart + p.host.length) = p.host := by
  have hstart : (p.front ++ ofUInt16 p.block.length ++ p.before ++ [0, 0] ++
      ofUInt16 p.ext.length ++ ofUInt16 p.list ++ p.others ++ [0] ++
      ofUInt16 p.host.length).length = p.hostStart := by
    simp only [hostStart, List.length_append, ofUInt16_length, List.length_cons, List.length_nil]
    omega
  have hat := @subarray_at p.body (p.names ++ (p.after ++ p.trailing)) 0 p.host p.hostStart _ hstart
    (by rw [List.drop_zero, body_eq_raw, raw_at_host])
  rwa [Nat.zero_add] at hat

theorem rename_ext_length (p : HelloPieces) (name : Bytes) :
    ((p.rename name).ext.length : Int) = p.ext.length + (name.length - p.host.length) := by
  rw [ext_length, ext_length]
  simp only [rename]
  omega

theorem rename_block_length (p : HelloPieces) (name : Bytes) :
    ((p.rename name).block.length : Int) = p.block.length + (name.length - p.host.length) := by
  have hext := rename_ext_length p name
  rw [block_length, block_length]
  simp only [rename] at hext ⊢
  omega

theorem rebuild_lengths (h : p.WellFormed) {name out : Bytes} :
    ((addUInt16BE (p.raw p.block.length p.ext.length p.list name.length name)
        (name.length - p.host.length) (p.front.length + 2 + (p.before.length + 4))).bind fun out =>
      (addUInt16BE out (name.length - p.host.length)
        (p.front.length + 2 + (p.before.length + 4) - 2)).bind fun out =>
      addUInt16BE out (name.length - p.host.length) (p.front.length + 2 - 2)) = .ok out ↔
    (0 ≤ (p.list : Int) + (name.length - p.host.length) ∧
      (p.list : Int) + (name.length - p.host.length) < 65536 ∧
      (p.block.length : Int) + (name.length - p.host.length) < 65536) ∧
      out = (p.rename name).body := by
  have hext := rename_ext_length p name
  have hblock := rename_block_length p name
  have hnewExt : (p.rename name).ext.length ≤ (p.rename name).block.length := by
    rw [block_length (p.rename name)]
    omega
  have hposList : (p.front ++ ofUInt16 p.block.length ++ p.before ++ [0, 0] ++
      ofUInt16 p.ext.length).length = p.front.length + 2 + (p.before.length + 4) := by
    simp only [List.length_append, ofUInt16_length, List.length_cons, List.length_nil]
    omega
  have hposExt : (p.front ++ ofUInt16 p.block.length ++ p.before ++ [0, 0]).length =
      p.front.length + 2 + (p.before.length + 4) - 2 := by
    simp only [List.length_append, ofUInt16_length, List.length_cons, List.length_nil]
    omega
  have hposTotal : p.front.length = p.front.length + 2 - 2 := by omega
  rw [raw_at_list, addUInt16BE_at hposList h.list]
  by_cases hlist : 0 ≤ (p.list : Int) + (name.length - p.host.length) ∧
      (p.list : Int) + (name.length - p.host.length) < 65536
  case neg =>
    rw [if_neg hlist]
    simp only [Except.bind]
    constructor
    · intro hout
      cases hout
    · rintro ⟨⟨hlow, hhigh, _⟩, _⟩
      exact absurd ⟨hlow, hhigh⟩ hlist
  case pos =>
    rw [if_pos hlist]
    simp only [Except.bind]
    rw [← raw_at_list, raw_at_ext, addUInt16BE_at hposExt h.ext]
    by_cases hfits : (p.block.length : Int) + (name.length - p.host.length) < 65536
    case neg =>
      refine ⟨fun hout => ?_, fun hall => absurd hall.1.2.2 hfits⟩
      split at hout
      case h_1 => cases hout
      rename_i written hwritten
      split at hwritten
      case isFalse => cases hwritten
      cases hwritten
      rw [← raw_at_ext, raw, addUInt16BE_at hposTotal h.block, if_neg fun hr => hfits hr.2] at hout
      cases hout
    case pos =>
      have htotal : ((p.block.length : Int) + (name.length - p.host.length)).toNat =
          (p.rename name).block.length := by omega
      have hsize : ((p.ext.length : Int) + (name.length - p.host.length)).toNat =
          (p.rename name).ext.length := by omega
      rw [if_pos (by omega)]
      simp only
      rw [← raw_at_ext, raw, addUInt16BE_at hposTotal h.block, if_pos (by omega), htotal, hsize]
      have hbody := body_eq_raw (p.rename name)
      constructor
      · intro hout
        cases hout
        exact ⟨⟨hlist.1, hlist.2, hfits⟩, hbody.symm⟩
      · rintro ⟨_, rfl⟩
        rw [hbody]
        rfl

theorem attempt_eq_ok {α : Type} {result : Except Fault α} {value : α} :
    attempt result = .ok value ↔ result = .ok value := by
  cases result <;> simp [attempt]

theorem rebuild_iff (h : p.WellFormed) (name : Bytes) {out : Bytes} :
    rebuildClientHelloBodyWithHostname p.body name = .ok out ↔
      p.Fits name ∧ out = (p.rename name).body := by
  obtain ⟨hlayout, hblocked, _⟩ := body_walk h
  have hposLength : (p.front ++ ofUInt16 p.block.length ++ p.before ++ [0, 0] ++
      ofUInt16 p.ext.length ++ ofUInt16 p.list ++ p.others ++ [0]).length = p.hostStart - 2 := by
    simp only [hostStart, List.length_append, ofUInt16_length, List.length_cons, List.length_nil]
    omega
  have hsplice := raw_splice (p := p) p.block.length p.ext.length p.list p.host.length name
  rw [← body_eq_raw] at hsplice
  have hhost : subarray p.body p.layout.hostnameStartChBodyAbs
      (p.layout.hostnameStartChBodyAbs + p.layout.hostnameLenBytes) = p.host := host_at p
  rw [rebuildClientHelloBodyWithHostname, attempt_eq_ok.mpr hblocked, attempt_eq_ok.mpr hlayout]
  change (if name.length < 1 ∨ 253 < name.length then _ else attempt
    ((writeUInt16BE (p.body.take p.hostStart ++ name ++ p.body.drop (p.hostStart + p.host.length))
      name.length (p.hostStart - 2)).bind _)) = _ ↔ _
  rw [hsplice]
  by_cases hlength : name.length < 1 ∨ 253 < name.length
  case pos =>
    rw [if_pos hlength]
    constructor
    · intro hout
      cases hout
    · rintro ⟨hfits, _⟩
      have hnonempty := hfits.nonempty
      have hshort := hfits.short
      omega
  case neg =>
    have hwrite : writeUInt16BE (p.raw p.block.length p.ext.length p.list p.host.length name)
        name.length (p.hostStart - 2) =
        .ok (p.raw p.block.length p.ext.length p.list name.length name) := by
      rw [raw_at_length, writeUInt16BE_at hposLength (by omega) (by omega), ← raw_at_length,
        Int.toNat_natCast]
    rw [if_neg hlength, hwrite, attempt_eq_ok, hhost]
    refine (rebuild_lengths h).trans ?_
    constructor
    · rintro ⟨⟨hlow, hhigh, hblock⟩, hout⟩
      exact ⟨⟨by omega, by omega, hlow, hhigh, hblock⟩, hout⟩
    · rintro ⟨hfits, hout⟩
      exact ⟨⟨hfits.listLow, hfits.listHigh, hfits.block⟩, hout⟩

/-- The body with the new name is walked as the old one, as long as the list still goes on to
where the host name begins. -/
theorem WellFormed.rename {name : Bytes} (h : p.WellFormed) (hfits : p.Fits name)
    (hcovers : ((p.others.length + 3 : Nat) : Int) ≤ p.list + (name.length - p.host.length)) :
    (p.rename name).WellFormed where
  front := h.front
  before := h.before
  others := h.others
  after := h.after
  list := by
    have hhigh := hfits.listHigh
    simp only [HelloPieces.rename]
    omega
  block := by
    have hblock := rename_block_length p name
    have hhigh := hfits.block
    omega
  covers := by
    simp only [HelloPieces.rename]
    omega

theorem rename_back {name : Bytes} (hfits : p.Fits name) : (p.rename name).rename p.host = p := by
  have hlist : (((p.rename name).list : Int) + (p.host.length - (p.rename name).host.length)).toNat =
      p.list := by
    have hlow := hfits.listLow
    simp only [rename]
    omega
  cases p
  simp only [rename] at hlist ⊢
  rw [hlist]

theorem fits_back {name : Bytes} (h : p.WellFormed) (hfits : p.Fits name)
    (hnonempty : 1 ≤ p.host.length) (hshort : p.host.length ≤ 253) :
    (p.rename name).Fits p.host := by
  have hlow := hfits.listLow
  have hlist := h.list
  have hblock := h.block
  have hlength := rename_block_length p name
  have hhost : (p.rename name).host = name := rfl
  have hlist' : (((p.rename name).list : Nat) : Int) = p.list + (name.length - p.host.length) := by
    simp only [rename]
    omega
  exact ⟨hnonempty, hshort, by rw [hlist', hhost]; omega, by rw [hlist', hhost]; omega,
    by rw [hhost]; omega⟩

theorem rename_body_length (p : HelloPieces) (name : Bytes) :
    ((p.rename name).body.length : Int) = p.body.length + (name.length - p.host.length) := by
  have hblock := rename_block_length p name
  simp only [body, List.length_append, ofUInt16_length]
  simp only [rename] at hblock ⊢
  omega

end HelloPieces

end Meshpn.Tls
