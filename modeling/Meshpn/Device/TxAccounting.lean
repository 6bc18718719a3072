import Meshpn.Device.FrameRoundTrip
import Meshpn.Device.RxBatchSafety

/-!
What a batch reports while it is written. The end of every frame is kept; a write that
passes some of them reports as many packets, and the bytes of these, whatever parts the
frames were written in.
-/

namespace Meshpn.Device

open Meshpn.Lib List

theorem within_eq_take (n : Nat) (packets : List Bytes) :
    within n packets = packets.take (within n packets).length := by
  induction packets generalizing n with
  | nil => rfl
  | cons pkt rest ih =>
    rw [within]
    split
    · rw [length_cons, take_succ_cons, ← ih]
    · rfl

theorem within_length_le (n : Nat) (packets : List Bytes) :
    (within n packets).length ≤ packets.length := by
  rw [within_eq_take, length_take]
  exact Nat.min_le_right _ _

theorem lt_within_iff {n i : Nat} {packets : List Bytes} :
    i < (within n packets).length ↔
      i < packets.length ∧ (Bridge.frames (packets.take (i + 1))).length ≤ n := by
  induction packets generalizing n i with
  | nil => simp [within]
  | cons pkt rest ih =>
    have hframes : (Bridge.frames ((pkt :: rest).take (i + 1))).length =
        4 + pkt.length + (Bridge.frames (rest.take i)).length := by
      rw [take_succ_cons, Bridge.frames_cons, length_append,
        Bridge.encodeCleanVpnFramedPkt_length]
    rw [hframes, within, length_cons]
    split
    case isTrue hfirst =>
      rw [length_cons]
      cases i with
      | zero => simp [hfirst]
      | succ i =>
        rw [Nat.add_lt_add_iff_right, ih, Nat.add_lt_add_iff_right]
        omega
    case isFalse hfirst =>
      simp only [length_nil, Nat.not_lt_zero, false_iff, not_and]
      omega

theorem within_zero (packets : List Bytes) : within 0 packets = [] := by
  cases packets with
  | nil => rfl
  | cons pkt rest => rw [within, if_neg (by omega)]

namespace TxBatch

/-- The ends of the frames of the packets, from the start of the batch. -/
def endsOf (packets : List Bytes) : List Nat :=
  (List.range packets.length).map fun i => (Bridge.frames (packets.take (i + 1))).length

/-- The batch is that of the packets, written up to `used`. -/
structure Accounts (b : TxBatch) (packets : List Bytes) : Prop where
  data : b.data = Bridge.frames packets
  ends : b.ends = endsOf packets
  used : b.used ≤ b.data.length
  completed : b.completed = (within b.used packets).length

theorem empty_accounts : empty.Accounts [] := ⟨rfl, rfl, Nat.le_refl 0, rfl⟩

theorem endsOf_length (packets : List Bytes) : (endsOf packets).length = packets.length := by
  rw [endsOf, length_map, length_range]

theorem endsOf_getD {packets : List Bytes} {i : Nat} (hi : i < packets.length) :
    (endsOf packets).getD i 0 = (Bridge.frames (packets.take (i + 1))).length := by
  rw [getD_eq_getElem?_getD, endsOf, getElem?_map, getElem?_range hi]
  rfl

theorem endsOf_append (packets : List Bytes) (p : Bytes) :
    endsOf (packets ++ [p]) = endsOf packets ++ [(Bridge.frames (packets ++ [p])).length] := by
  have hlength : (packets ++ [p]).length = packets.length + 1 := by
    rw [length_append, length_singleton]
  unfold endsOf
  rw [hlength, range_succ, map_append, map_singleton]
  congr 1
  · apply map_congr_left
    intro i hi
    rw [mem_range] at hi
    rw [take_append_of_le_length (by omega)]
  · rw [take_of_length_le (by omega)]

section Settle

variable {b : TxBatch} {packets : List Bytes}

theorem frame_between {i : Nat} (hi : i < packets.length) :
    (endsOf packets).getD i 0 - (if i = 0 then 0 else (endsOf packets).getD (i - 1) 0) - 4 =
      (packets.getD i []).length := by
  have htake : packets.take (i + 1) = packets.take i ++ [packets.getD i []] := by
    rw [take_add_one, getD_eq_getElem?_getD, getElem?_eq_getElem hi]
    rfl
  have hbefore : (if i = 0 then 0 else (endsOf packets).getD (i - 1) 0) =
      (Bridge.frames (packets.take i)).length := by
    split
    case isTrue hzero =>
      rw [hzero]
      rfl
    case isFalse hpos =>
      rw [endsOf_getD (by omega), Nat.sub_add_cancel (by omega)]
  rw [hbefore, endsOf_getD hi, htake, Bridge.frames_append, length_append, Bridge.frames_cons,
    Bridge.frames_nil, append_nil, Bridge.encodeCleanVpnFramedPkt_length]
  omega

/-- The loop goes on to the last packet that is completed, and reports those that it passes. -/
theorem settle_accounts (hends : b.ends = endsOf packets)
    (hcompleted : b.completed ≤ (within b.used packets).length) {fuel : Nat}
    (hfuel : (within b.used packets).length ≤ b.completed + fuel) :
    b.settle fuel = ({ b with completed := (within b.used packets).length },
      ((within b.used packets).drop b.completed).length,
      totalLength ((within b.used packets).drop b.completed)) := by
  induction fuel generalizing b with
  | zero =>
    have hall : (within b.used packets).length = b.completed := by omega
    rw [settle, hall, drop_of_length_le (by omega)]
    rfl
  | succ fuel ih =>
    have hcount : b.count = packets.length := by rw [count, hends, endsOf_length]
    have hgoes : (b.completed < b.count ∧ b.ends.getD b.completed 0 ≤ b.used) ↔
        b.completed < (within b.used packets).length := by
      rw [hcount, lt_within_iff, hends]
      refine and_congr_right fun hlt => ?_
      rw [endsOf_getD hlt]
    rw [settle]
    by_cases hmore : b.completed < (within b.used packets).length
    case neg =>
      have hall : (within b.used packets).length = b.completed := by omega
      rw [if_neg (fun h => hmore (hgoes.mp h)), hall, drop_of_length_le (by omega)]
      rfl
    have hlt := (lt_within_iff.mp hmore).1
    have hnext := @ih { b with completed := b.completed + 1 } hends hmore (by dsimp only; omega)
    have hfirst : (within b.used packets).drop b.completed =
        packets.getD b.completed [] :: (within b.used packets).drop (b.completed + 1) := by
      rw [drop_eq_getElem_cons hmore]
      congr 1
      rw [getD_eq_getElem?_getD, getElem?_eq_getElem hlt]
      have hsame := congrArg (fun l => l[b.completed]?) (within_eq_take b.used packets)
      rw [getElem?_take_of_lt hmore, getElem?_eq_getElem hmore,
        getElem?_eq_getElem hlt] at hsame
      exact Option.some.inj hsame
    rw [if_pos (hgoes.mpr hmore)]
    dsimp only at hnext ⊢
    rw [hnext, hfirst, length_cons, totalLength_cons, hends, frame_between hlt,
      Nat.add_comm (totalLength _)]

end Settle

end TxBatch

inductive TxOp where
  | append (p : Bytes)
  | advance (sent : Nat)

/-- The result of `meshvpn_vpn_tx_append` and the batch that it leaves. -/
def txAppend (batchFrames : Nat) (b : TxBatch) (p : Bytes) : Bool × TxBatch :=
  match b.append batchFrames p with
  | some after => (true, after)
  | none => (false, b)

/-- The result of `meshvpn_vpn_tx_advance`, the batch that it leaves, and what it reports. -/
def txAdvance (b : TxBatch) (sent : Nat) : Bool × TxBatch × Nat × Nat :=
  match b.advance sent with
  | some (after, packets, bytes) => (true, after, packets, bytes)
  | none => (false, b, 0, 0)

/-- A batch, the packets that it took, the bytes that were sent of it, and the reports. -/
structure TxLedger where
  batch : TxBatch
  accepted : List Bytes
  sent : Nat
  reports : List (Nat × Nat)

namespace TxLedger

def init : TxLedger := ⟨TxBatch.empty, [], 0, []⟩

def step (batchFrames : Nat) (t : TxLedger) : TxOp → TxLedger
  | .append p =>
    let (taken, batch) := txAppend batchFrames t.batch p
    { t with batch := batch, accepted := if taken then t.accepted ++ [p] else t.accepted }
  | .advance sent =>
    let (taken, batch, packets, bytes) := txAdvance t.batch sent
    ⟨batch, t.accepted, if taken then t.sent + sent else t.sent, t.reports ++ [(packets, bytes)]⟩

def run (batchFrames : Nat) (ops : List TxOp) : TxLedger := ops.foldl (step batchFrames) init

/-- What a report says about the packets that it is about. -/
def report (packets : List Bytes) : Nat × Nat := (packets.length, totalLength packets)

/-- The reports are about the completed packets, in pieces. -/
structure Sound (batchFrames : Nat) (t : TxLedger) : Prop where
  accounts : t.batch.Accounts t.accepted
  used : t.batch.used = t.sent
  count : t.accepted.length ≤ batchFrames
  sizes : ∀ p ∈ t.accepted, p.length ≤ mtu
  reports : ∃ named : List (List Bytes),
    named.flatten = within t.sent t.accepted ∧ t.reports = named.map report

variable {batchFrames : Nat} {t : TxLedger}

theorem init_sound : init.Sound batchFrames :=
  ⟨TxBatch.empty_accounts, rfl, Nat.zero_le _, (fun _ h => by cases h), [], rfl, rfl⟩

/-- An append that is not refused leaves room, and puts one more frame behind the others. -/
theorem append_accounts {b after : TxBatch} {packets : List Bytes} {p : Bytes}
    (h : b.Accounts packets) (happend : b.append batchFrames p = some after) :
    b.used = 0 ∧ after.used = 0 ∧ packets.length ≠ batchFrames ∧ p.length ≤ mtu ∧
      after.Accounts (packets ++ [p]) := by
  unfold TxBatch.append at happend
  split at happend
  case isTrue => cases happend
  rename_i hfits
  have hused : b.used = 0 := by omega
  have hcount : b.count = packets.length := by
    rw [TxBatch.count, h.ends, TxBatch.endsOf_length]
  have hcompleted := h.completed
  rw [hused, within_zero] at hcompleted
  have hdata : b.data ++ frameHeader p.length ++ p = Bridge.frames (packets ++ [p]) := by
    rw [h.data, frameHeader_eq (by omega), append_assoc, Bridge.frames_append,
      Bridge.frames_cons, Bridge.frames_nil, append_nil, Bridge.encodeCleanVpnFramedPkt]
  obtain rfl := Option.some.inj happend
  refine ⟨hused, hused, by omega, by omega, hdata, ?_, ?_, ?_⟩
  · dsimp only
    rw [hdata, h.ends, TxBatch.endsOf_append]
  · dsimp only
    omega
  · dsimp only
    rw [hused, within_zero, hcompleted]

theorem advance_accounts {b after : TxBatch} {packets : List Bytes} {sent n bytes : Nat}
    (h : b.Accounts packets) (hadvance : b.advance sent = some (after, n, bytes)) :
    after.Accounts packets ∧ after.used = b.used + sent ∧
      ∃ news, within (b.used + sent) packets = within b.used packets ++ news ∧
        (n, bytes) = report news := by
  unfold TxBatch.advance at hadvance
  split at hadvance
  case isTrue => cases hadvance
  rename_i hfits
  have hused := h.used
  have hgrows : (within b.used packets).length ≤ (within (b.used + sent) packets).length := by
    by_contra hless
    have hlast := @lt_within_iff (b.used + sent)
      (within (b.used + sent) packets).length packets
    have hold := lt_within_iff.mp (Nat.not_le.mp hless)
    exact absurd (hlast.mpr ⟨hold.1, by omega⟩) (Nat.lt_irrefl _)
  have hsplit : within (b.used + sent) packets =
      within b.used packets ++
        (within (b.used + sent) packets).drop (within b.used packets).length := by
    conv_lhs => rw [← take_append_drop (within b.used packets).length
      (within (b.used + sent) packets)]
    congr 1
    rw [within_eq_take (b.used + sent), take_take, Nat.min_eq_left hgrows,
      ← within_eq_take]
  have hcount : b.count = packets.length := by
    rw [TxBatch.count, h.ends, TxBatch.endsOf_length]
  have hsettle := @TxBatch.settle_accounts { b with used := b.used + sent } packets h.ends
    (by rw [← h.completed] at hgrows; exact hgrows) b.count
    (by
      have hle := within_length_le (b.used + sent) packets
      dsimp only
      omega)
  dsimp only at hsettle
  have hresult := hsettle.symm.trans (Option.some.inj hadvance)
  rw [Prod.mk.injEq, h.completed] at hresult
  obtain ⟨rfl, hreport⟩ := hresult
  refine ⟨⟨h.data, h.ends, ?_, rfl⟩, rfl, _, hsplit, hreport.symm⟩
  dsimp only
  omega

theorem Sound.step (h : t.Sound batchFrames) (op : TxOp) :
    (t.step batchFrames op).Sound batchFrames := by
  obtain ⟨named, hflat, hreports⟩ := h.reports
  cases op with
  | append p =>
    unfold TxLedger.step txAppend
    dsimp only
    split
    case h_1 after happend =>
      obtain ⟨hused, hafter, hroom, hsize, haccounts⟩ := append_accounts h.accounts happend
      have hsent : t.sent = 0 := h.used.symm.trans hused
      have hcount := h.count
      refine ⟨haccounts, hafter.trans hsent.symm, ?_, ?_, named, ?_, hreports⟩
      · dsimp only [if_true]
        rw [if_pos rfl, length_append, length_singleton]
        omega
      · intro other hother
        rcases mem_append.mp hother with hold | hnew
        · exact h.sizes other hold
        · rw [mem_singleton.mp hnew]
          exact hsize
      · rw [hflat, hsent, within_zero]
        exact (within_zero _).symm
    case h_2 => exact ⟨h.accounts, h.used, h.count, h.sizes, named, hflat, hreports⟩
  | advance sent =>
    unfold TxLedger.step txAdvance
    dsimp only
    split
    case h_1 after n bytes hadvance =>
      obtain ⟨haccounts, hused, news, hnews, hreport⟩ := advance_accounts h.accounts hadvance
      rw [h.used] at hused hnews
      refine ⟨haccounts, hused, h.count, h.sizes, named ++ [news], ?_, ?_⟩
      · rw [flatten_append, flatten_singleton, hflat]
        exact hnews.symm
      · rw [hreports, map_append, map_singleton, hreport]
    case h_2 =>
      refine ⟨h.accounts, h.used, h.count, h.sizes, named ++ [[]], ?_, ?_⟩
      · rw [flatten_append, flatten_singleton, append_nil]
        exact hflat
      · rw [hreports, map_append, map_singleton]
        rfl

theorem run_sound (batchFrames : Nat) (ops : List TxOp) :
    (run batchFrames ops).Sound batchFrames := by
  have hall : ∀ (ops : List TxOp) (t : TxLedger), t.Sound batchFrames →
      (ops.foldl (TxLedger.step batchFrames) t).Sound batchFrames := by
    intro ops
    induction ops with
    | nil => exact fun _ h => h
    | cons op ops ih => exact fun t h => ih _ (h.step op)
  exact hall ops init init_sound

theorem frames_length_le {packets : List Bytes} (h : ∀ p ∈ packets, p.length ≤ mtu) :
    (Bridge.frames packets).length ≤ packets.length * (mtu + 4) := by
  induction packets with
  | nil => exact Nat.zero_le _
  | cons p rest ih =>
    have hp := h p mem_cons_self
    have hrest := ih fun other hother => h other (mem_cons_of_mem _ hother)
    rw [Bridge.frames_cons, length_append, Bridge.encodeCleanVpnFramedPkt_length,
      length_cons, Nat.succ_mul]
    omega

/-- After any calls the batch is the frames of the packets that it took, and they fit in its array.
Every write reports the packets that it completes, so that all reports together are about those
that are sent to their end, each in one of them. A call that is refused changes nothing. -/
theorem transmit_accounted (batchFrames : Nat) (ops : List TxOp) :
    (run batchFrames ops).batch.data = Bridge.frames (run batchFrames ops).accepted ∧
    (run batchFrames ops).batch.data.length ≤ batchFrames * (mtu + 4) ∧
    (∃ named : List (List Bytes),
      named.flatten = within (run batchFrames ops).sent (run batchFrames ops).accepted ∧
      (run batchFrames ops).reports = named.map report) ∧
    (∀ sent, sent ≤ (run batchFrames ops).batch.unsent.length → ∃ after news,
      txAdvance (run batchFrames ops).batch sent = (true, after, report news) ∧
      within ((run batchFrames ops).sent + sent) (run batchFrames ops).accepted =
        within (run batchFrames ops).sent (run batchFrames ops).accepted ++ news) ∧
    (∀ sent, (run batchFrames ops).batch.unsent.length < sent →
      txAdvance (run batchFrames ops).batch sent = (false, (run batchFrames ops).batch, 0, 0)) ∧
    ∀ p, (txAppend batchFrames (run batchFrames ops).batch p).1 = false →
      (txAppend batchFrames (run batchFrames ops).batch p).2 = (run batchFrames ops).batch := by
  have h := run_sound batchFrames ops
  generalize run batchFrames ops = t at h
  have hunsent : t.batch.unsent.length = t.batch.data.length - t.batch.used := List.length_drop
  have hlength := frames_length_le h.sizes
  have hcount := Nat.mul_le_mul_right (mtu + 4) h.count
  rw [← h.accounts.data] at hlength
  refine ⟨h.accounts.data, hlength.trans hcount, h.reports, fun sent hsent => ?_,
    fun sent hsent => ?_, fun p hrefused => ?_⟩
  · obtain ⟨after, n, bytes, hadvance, -⟩ := TxBatch.advance_some h.accounts.used hsent
    obtain ⟨-, -, news, hnews, hreport⟩ := advance_accounts h.accounts hadvance
    rw [h.used] at hnews
    refine ⟨after, news, ?_, hnews⟩
    rw [txAdvance, hadvance, ← hreport]
  · rw [txAdvance, TxBatch.advance, if_pos (by omega)]
  · unfold txAppend at hrefused ⊢
    split
    case h_1 after happend =>
      rw [happend] at hrefused
      cases hrefused
    case h_2 => rfl

end TxLedger

end Meshpn.Device
