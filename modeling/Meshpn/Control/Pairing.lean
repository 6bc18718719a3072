import Meshpn.Control.Discovery
import Mathlib.Data.List.Basic

/-!
The key exchange without its tasks: two sessions and two streams of letters.
A request makes the other side draw a key and reply; a reply completes the
session that is there. As long as a request is under way, the last letter of its
sender carries the sender's current key; so once the requests are gone, the
replies under way lead to one key on both sides.
-/

namespace Meshpn.Control

structure Letter (Pub : Type) where
  request : Bool
  pub : Pub

/-- The sessions of both sides and the letters on their way from each side. -/
structure View (Priv Pub Key : Type) where
  session : Side → Option (Session Priv Key)
  stream : Side → List (Letter Pub)

namespace View

variable {Priv Pub Secret Key : Type} (kx : KeyExchange Priv Pub Secret Key)

def key (view : View Priv Pub Key) (side : Side) : Option Key :=
  (view.session side).bind Session.key

def finalKey (view : View Priv Pub Key) (side : Side) : Option Key :=
  match (view.stream side.other).getLast? with
  | none => view.key side
  | some letter =>
    (view.session side).map fun session => kx.deriveSessionKey session.privateKey letter.pub

/-- What can happen to the sessions and the letters. -/
inductive Step (view : View Priv Pub Key) : View Priv Pub Key → Prop where
  | forget (side : Side) :
      Step view { view with session := Function.update view.session side none }
  | ask (side : Side) (priv : Priv) :
      Step view {
        session := Function.update view.session side (some ⟨priv, none, false⟩)
        stream := Function.update view.stream side
          (view.stream side ++ [⟨true, kx.getPublicKey priv⟩]) }
  | answer (side : Side) (priv : Priv) (theirs : Pub) (rest : List (Letter Pub))
      (hhead : view.stream side.other = ⟨true, theirs⟩ :: rest) :
      Step view {
        session := Function.update view.session side
          (some (Session.complete kx ⟨priv, none, false⟩ theirs))
        stream := Function.update (Function.update view.stream side.other rest) side
          (view.stream side ++ [⟨false, kx.getPublicKey priv⟩]) }
  | complete (side : Side) (theirs : Pub) (rest : List (Letter Pub))
      (hhead : view.stream side.other = ⟨false, theirs⟩ :: rest) :
      Step view {
        session := Function.update view.session side
          ((view.session side).map fun session => session.complete kx theirs)
        stream := Function.update view.stream side.other rest }
  | breakOff (initiator : Side) (hkey : view.key initiator = none) :
      Step view { view with stream := fun _ => [] }

/-- With a request of a side under way, the last letter of that side has its current key; with
none under way, what both sides will hold is the same. -/
structure Paired (view : View Priv Pub Key) : Prop where
  current : ∀ side, (∃ letter ∈ view.stream side, letter.request = true) →
    ∀ session ∈ view.session side, ∃ letter ∈ (view.stream side).getLast?,
      letter.pub = kx.getPublicKey session.privateKey
  agreed : (∀ side, ∀ letter ∈ view.stream side, letter.request = false) →
    ∀ key ∈ view.finalKey kx .left, ∀ key' ∈ view.finalKey kx .right, key = key'

end View

theorem Side.other_other (side : Side) : side.other.other = side := by
  cases side <;> rfl

theorem Side.other_ne (side : Side) : side.other ≠ side := by
  cases side <;> decide

theorem Side.eq_or_other (side acting : Side) : side = acting ∨ side = acting.other := by
  cases side <;> cases acting <;> decide

namespace View

variable {Priv Pub Secret Key : Type} {kx : KeyExchange Priv Pub Secret Key}
  {view next : View Priv Pub Key}

theorem Paired.of_side (acting : Side)
    (hcurrent : ∀ side, (∃ letter ∈ view.stream side, letter.request = true) →
      ∀ session ∈ view.session side, ∃ letter ∈ (view.stream side).getLast?,
        letter.pub = kx.getPublicKey session.privateKey)
    (hagreed : (∀ side, ∀ letter ∈ view.stream side, letter.request = false) →
      ∀ key ∈ view.finalKey kx acting, ∀ key' ∈ view.finalKey kx acting.other, key = key') :
    view.Paired kx := by
  refine ⟨hcurrent, ?_⟩
  cases acting with
  | left => exact hagreed
  | right =>
    intro hnone key hkey key' hkey'
    exact (hagreed hnone key' hkey' key hkey).symm

theorem Paired.from_side (hpaired : view.Paired kx) (acting : Side)
    (hnone : ∀ side, ∀ letter ∈ view.stream side, letter.request = false) :
    ∀ key ∈ view.finalKey kx acting, ∀ key' ∈ view.finalKey kx acting.other, key = key' := by
  cases acting with
  | left => exact hpaired.agreed hnone
  | right =>
    intro key hkey key' hkey'
    exact (hpaired.agreed hnone key' hkey' key hkey).symm

theorem getLast?_cons {letter : Letter Pub} {rest : List (Letter Pub)} (hrest : rest ≠ []) :
    (letter :: rest).getLast? = rest.getLast? := by
  rw [List.getLast?_cons]
  cases hlast : rest.getLast? with
  | none => exact absurd (List.getLast?_eq_none_iff.mp hlast) hrest
  | some last => rfl

theorem Paired.forget (hpaired : view.Paired kx) (side : Side) :
    Paired kx { view with session := Function.update view.session side none } := by
  refine .of_side side ?_ ?_
  · intro other hrequest session hsession
    rcases eq_or_ne other side with rfl | hne
    · simp at hsession
    dsimp only at hsession
    rw [Function.update_of_ne hne] at hsession
    exact hpaired.current other hrequest session hsession
  · intro _ key hkey
    unfold finalKey View.key at hkey
    split at hkey <;> simp at hkey

theorem Paired.ask (hpaired : view.Paired kx) (side : Side) (priv : Priv) :
    Paired kx {
      session := Function.update view.session side (some ⟨priv, none, false⟩)
      stream := Function.update view.stream side
        (view.stream side ++ [⟨true, kx.getPublicKey priv⟩]) } := by
  refine .of_side side ?_ ?_
  · intro other hrequest session hsession
    rcases eq_or_ne other side with rfl | hne
    · simp only [Function.update_self, Option.mem_some_iff] at hsession
      subst hsession
      exact ⟨⟨true, kx.getPublicKey priv⟩, by simp, rfl⟩
    · dsimp only at hrequest hsession ⊢
      rw [Function.update_of_ne hne] at hrequest hsession ⊢
      exact hpaired.current other hrequest session hsession
  · intro hnone
    have hasked := hnone side ⟨true, kx.getPublicKey priv⟩ (by simp)
    cases hasked

theorem Paired.current_rest (hpaired : view.Paired kx) {side : Side} {letter : Letter Pub}
    {rest : List (Letter Pub)} (hhead : view.stream side = letter :: rest)
    (hrequest : ∃ letter ∈ rest, letter.request = true) :
    ∀ session ∈ view.session side, ∃ letter ∈ rest.getLast?,
      letter.pub = kx.getPublicKey session.privateKey := by
  intro session hsession
  obtain ⟨asked, hasked, htrue⟩ := hrequest
  have hlast := hpaired.current side
    ⟨asked, by rw [hhead]; exact List.mem_cons_of_mem _ hasked, htrue⟩ session hsession
  rwa [hhead, getLast?_cons (List.ne_nil_of_mem hasked)] at hlast

theorem Paired.answer (hpaired : view.Paired kx) (side : Side) (priv : Priv) (theirs : Pub)
    (rest : List (Letter Pub)) (hhead : view.stream side.other = ⟨true, theirs⟩ :: rest) :
    Paired kx {
      session := Function.update view.session side
        (some (Session.complete kx ⟨priv, none, false⟩ theirs))
      stream := Function.update (Function.update view.stream side.other rest) side
        (view.stream side ++ [⟨false, kx.getPublicKey priv⟩]) } := by
  refine .of_side side ?_ ?_
  · intro other hrequest session hsession
    rcases Side.eq_or_other other side with rfl | rfl
    · simp only [Function.update_self, Option.mem_some_iff] at hsession
      subst hsession
      exact ⟨⟨false, kx.getPublicKey priv⟩, by simp, rfl⟩
    · simp only [Function.update_of_ne (Side.other_ne side), Function.update_self]
        at hrequest hsession ⊢
      exact hpaired.current_rest hhead hrequest session hsession
  · -- the reply is for the current key of the asking side, and so is its last letter
    intro _ key hkey key' hkey'
    simp only [finalKey, View.key, Side.other_other, Function.update_self,
      Function.update_of_ne (Side.other_ne side), List.getLast?_concat, Option.map_eq_some_iff,
      Option.mem_def] at hkey hkey'
    obtain ⟨session, hsession, rfl⟩ := hkey'
    obtain ⟨letter, hletter, hpub⟩ := hpaired.current side.other
      ⟨⟨true, theirs⟩, by rw [hhead]; exact List.mem_cons_self, rfl⟩ session hsession
    have hderived : key = kx.deriveSessionKey priv letter.pub := by
      rw [hhead, Option.mem_def] at hletter
      by_cases hrest : rest = []
      · subst hrest
        cases hletter
        simpa [Session.key, Session.complete] using hkey.symm
      · rw [getLast?_cons hrest] at hletter
        rw [hletter] at hkey
        simpa [Session.complete] using hkey.symm
    rw [hderived, hpub]
    exact congrArg kx.hkdf (kx.comm _ _)

theorem Paired.complete (hpaired : view.Paired kx) (side : Side) (theirs : Pub)
    (rest : List (Letter Pub)) (hhead : view.stream side.other = ⟨false, theirs⟩ :: rest) :
    Paired kx {
      session := Function.update view.session side
        ((view.session side).map fun session => session.complete kx theirs)
      stream := Function.update view.stream side.other rest } := by
  refine .of_side side ?_ ?_
  · intro other hrequest session hsession
    rcases Side.eq_or_other other side with rfl | rfl
    · simp only [Function.update_self, Function.update_of_ne (Side.other_ne other).symm,
        Option.mem_def, Option.map_eq_some_iff] at hrequest hsession ⊢
      obtain ⟨before, hbefore, rfl⟩ := hsession
      exact hpaired.current other hrequest before hbefore
    · simp only [Function.update_of_ne (Side.other_ne side), Function.update_self]
        at hrequest hsession ⊢
      exact hpaired.current_rest hhead hrequest session hsession
  · -- a reply that is taken moves from the stream into the session
    intro hnone key hkey key' hkey'
    have hbefore : ∀ other, ∀ letter ∈ view.stream other, letter.request = false := by
      intro other letter hletter
      rcases Side.eq_or_other other side with rfl | rfl
      · refine hnone other letter ?_
        simpa [Function.update_of_ne (Side.other_ne other).symm] using hletter
      · rw [hhead] at hletter
        rcases List.mem_cons.mp hletter with rfl | hin
        · rfl
        · exact hnone side.other letter (by simpa using hin)
    refine hpaired.from_side side hbefore key ?_ key' ?_
    · unfold finalKey View.key at hkey ⊢
      simp only [Function.update_self] at hkey
      rw [hhead]
      by_cases hrest : rest = []
      · subst hrest
        cases hsession : view.session side with
        | none => simp [hsession] at hkey
        | some session =>
          rw [hsession] at hkey
          simpa [Session.key, Session.complete] using hkey
      · rw [getLast?_cons hrest]
        obtain ⟨last, hlast⟩ := Option.ne_none_iff_exists'.mp
          (mt List.getLast?_eq_none_iff.mp hrest)
        rw [hlast] at hkey ⊢
        simpa [Session.complete, Function.comp_def] using hkey
    · unfold finalKey View.key at hkey' ⊢
      simpa only [Side.other_other, Function.update_of_ne (Side.other_ne side),
        Function.update_of_ne (Side.other_ne side).symm] using hkey'

theorem paired_of_silence (initiator : Side) (hkey : view.key initiator = none) :
    Paired kx { view with stream := fun _ => [] } := by
  refine .of_side initiator ?_ ?_
  · rintro side ⟨letter, hletter, -⟩
    cases hletter
  · intro _ key hfinal
    change key ∈ view.key initiator at hfinal
    rw [hkey] at hfinal
    cases hfinal

theorem Paired.step (hpaired : view.Paired kx) (hstep : Step kx view next) : next.Paired kx := by
  cases hstep with
  | forget side => exact hpaired.forget side
  | ask side priv => exact hpaired.ask side priv
  | answer side priv theirs rest hhead => exact hpaired.answer side priv theirs rest hhead
  | complete side theirs rest hhead => exact hpaired.complete side theirs rest hhead
  | breakOff initiator hkey => exact paired_of_silence initiator hkey

theorem ext_side {a b : View Priv Pub Key} (acting : Side)
    (hsession : a.session acting = b.session acting)
    (hsession' : a.session acting.other = b.session acting.other)
    (hstream : a.stream acting = b.stream acting)
    (hstream' : a.stream acting.other = b.stream acting.other) : a = b := by
  obtain ⟨sessions, streams⟩ := a
  obtain ⟨sessions', streams'⟩ := b
  congr 1
  · funext side
    rcases Side.eq_or_other side acting with rfl | rfl
    · exact hsession
    · exact hsession'
  · funext side
    rcases Side.eq_or_other side acting with rfl | rfl
    · exact hstream
    · exact hstream'

end View

end Meshpn.Control
