import Meshpn.Mesh.Packet

/-!
Layered encryption, `onion.js`. One layer is a flag byte, the next hop where
there is one, and the layer below. `build` wraps from the last node to the
first, so that the first node of the route peels the outermost layer.
-/

namespace Meshpn.Mesh

open Meshpn.Lib

/-- `encrypt.js`: AES-256-GCM, twelve bytes of nonce and sixteen of tag ahead
of the ciphertext. A message opens under its own key and under no other. -/
structure Aead (Key Nonce : Type) where
  encrypt : Key → Nonce → Bytes → Bytes
  decrypt : Key → Bytes → Option Bytes
  encrypt_length : ∀ key nonce message,
    (encrypt key nonce message).length = message.length + 28
  decrypt_encrypt : ∀ key nonce message, decrypt key (encrypt key nonce message) = some message
  decrypt_other : ∀ key other nonce message, other ≠ key →
    decrypt other (encrypt key nonce message) = none

/-- An empty `nextHop` stands for null. -/
structure Layer where
  nextHop : Id
  isExit : Bool
  payload : Bytes
  deriving DecidableEq, Repr

def flagIsExit : UInt8 := 1
def flagHasNextHop : UInt8 := 2

def layerFlags (nextHop : Id) (isExit : Bool) : UInt8 :=
  (if isExit then flagIsExit else 0) ||| (if nextHop.isEmpty then 0 else flagHasNextHop)

def encodeLayer (nextHop : Id) (isExit : Bool) (payload : Bytes) : Bytes :=
  layerFlags nextHop isExit :: ((if nextHop.isEmpty then [] else padId nextHop) ++ payload)

/-- `none` where the flag byte is missing and the read throws. -/
def decodeLayer : Bytes → Option Layer
  | [] => none
  | flags :: data =>
    let hasNextHop := flags &&& flagHasNextHop != 0
    some {
      nextHop := if hasNextHop then stripId (data.take 16) else []
      isExit := flags &&& flagIsExit != 0
      payload := if hasNextHop then data.drop 16 else data }

theorem decodeLayer_exit (payload : Bytes) :
    decodeLayer (encodeLayer [] true payload) = some ⟨[], true, payload⟩ := rfl

theorem decodeLayer_relay {nextHop : Id} (h : ValidId nextHop) (payload : Bytes) :
    decodeLayer (encodeLayer nextHop false payload) = some ⟨nextHop, false, payload⟩ := by
  have hflags : layerFlags nextHop false = 2 := by
    simp only [layerFlags, h.named]
    rfl
  have hhop : (2 : UInt8) &&& flagHasNextHop != 0 := by decide
  have hexit : ((2 : UInt8) &&& flagIsExit != 0) = false := by decide
  simp only [encodeLayer, h.named, Bool.false_eq_true, if_false, decodeLayer, hflags, hhop, hexit,
    if_true, List.take_left' (padId_length nextHop), List.drop_left' (padId_length nextHop),
    stripId_padId h.short]

variable {Key Nonce : Type} (aead : Aead Key Nonce)

/-- The loop of `build`. `wrapped` covers the layers so far, `after` is the
node of the last of them, and layer `i` takes the `i`th nonce. -/
def buildFrom (nonces : Nat → Nonce) : Nat → Id → List (Id × Key) → Bytes → Bytes
  | _, _, [], wrapped => wrapped
  | i, after, (nodeId, sessionKey) :: layers, wrapped =>
    buildFrom nonces (i + 1) nodeId layers
      (aead.encrypt sessionKey (nonces i) (encodeLayer after (i == 0) wrapped))

def createOnionPacket (nonces : Nat → Nonce) (payload : Bytes)
    (routeWithKeys : List (Id × Key)) : Bytes :=
  buildFrom aead nonces 0 [] routeWithKeys.reverse payload

def peelOnionLayer (encryptedData : Bytes) (sessionKey : Key) : Option Layer :=
  (aead.decrypt sessionKey encryptedData).bind decodeLayer

/-- The node that follows in what is still to be wrapped around. -/
def firstNode : List (Id × Key) → Id
  | [] => []
  | (nodeId, _) :: _ => nodeId

theorem buildFrom_append (nonces : Nat → Nonce) (layers : List (Id × Key)) (i : Nat) (after : Id)
    (nodeId : Id) (sessionKey : Key) (wrapped : Bytes) :
    buildFrom aead nonces i after (layers ++ [(nodeId, sessionKey)]) wrapped =
      aead.encrypt sessionKey (nonces (i + layers.length))
        (encodeLayer ((layers.getLast?.map Prod.fst).getD after) (i + layers.length == 0)
          (buildFrom aead nonces i after layers wrapped)) := by
  induction layers generalizing i after wrapped with
  | nil => rfl
  | cons layer layers ih =>
    simp only [List.cons_append, buildFrom]
    rw [ih, Nat.add_right_comm]
    rcases layers with _ | ⟨next, rest⟩
    · rfl
    -- the default only serves an empty list
    rfl

theorem createOnionPacket_cons (nonces : Nat → Nonce) (payload : Bytes) (nodeId : Id)
    (sessionKey : Key) (rest : List (Id × Key)) :
    createOnionPacket aead nonces payload ((nodeId, sessionKey) :: rest) =
      aead.encrypt sessionKey (nonces rest.length)
        (encodeLayer (firstNode rest) rest.isEmpty
          (createOnionPacket aead nonces payload rest)) := by
  have hafter : (rest.reverse.getLast?.map Prod.fst).getD [] = firstNode rest := by
    cases rest with
    | nil => rfl
    | cons layer rest => simp [firstNode]
  have hlast : (0 + rest.reverse.length == 0) = rest.isEmpty := by
    cases rest with
    | nil => rfl
    | cons layer rest => simp
  rw [createOnionPacket, List.reverse_cons, buildFrom_append, hafter, hlast,
    List.length_reverse, Nat.zero_add]
  rfl

section Peel

variable (nonces : Nat → Nonce) (payload : Bytes) (nodeId : Id) (sessionKey : Key)

theorem peelOnionLayer_exit :
    peelOnionLayer aead (createOnionPacket aead nonces payload [(nodeId, sessionKey)])
      sessionKey = some ⟨[], true, payload⟩ := by
  rw [createOnionPacket_cons, peelOnionLayer, aead.decrypt_encrypt]
  exact decodeLayer_exit payload

theorem peelOnionLayer_relay {nextHop : Id} (h : ValidId nextHop) (nextKey : Key)
    (rest : List (Id × Key)) :
    peelOnionLayer aead (createOnionPacket aead nonces payload
      ((nodeId, sessionKey) :: (nextHop, nextKey) :: rest)) sessionKey =
      some ⟨nextHop, false,
        createOnionPacket aead nonces payload ((nextHop, nextKey) :: rest)⟩ := by
  rw [createOnionPacket_cons, peelOnionLayer, aead.decrypt_encrypt]
  exact decodeLayer_relay h _

theorem peelOnionLayer_other {other : Key} (h : other ≠ sessionKey) (rest : List (Id × Key)) :
    peelOnionLayer aead (createOnionPacket aead nonces payload ((nodeId, sessionKey) :: rest))
      other = none := by
  rw [createOnionPacket_cons, peelOnionLayer, aead.decrypt_other _ _ _ _ h, Option.bind_none]

end Peel

/-- Each layer adds 28 bytes of encryption and a flag byte, and every layer
but the innermost sixteen bytes of next hop. -/
theorem createOnionPacket_length (nonces : Nat → Nonce) (payload : Bytes)
    (layers : List (Id × Key)) (hids : ∀ layer ∈ layers, ValidId layer.1) :
    (createOnionPacket aead nonces payload layers).length + (if layers.isEmpty then 0 else 16) =
      payload.length + 45 * layers.length := by
  induction layers with
  | nil => rfl
  | cons layer layers ih =>
    have hrest := ih fun layer h => hids layer (by simp [h])
    rw [createOnionPacket_cons, aead.encrypt_length, encodeLayer]
    simp only [List.isEmpty_cons, Bool.false_eq_true, if_false, List.length_cons,
      List.length_append]
    cases layers with
    | nil =>
      simp only [List.isEmpty_nil, if_true, firstNode, List.length_nil] at hrest ⊢
      omega
    | cons next rest =>
      have hnamed : next.1.isEmpty = false := (hids next (by simp)).named
      have hfirst : firstNode (next :: rest) = next.1 := rfl
      simp only [List.isEmpty_cons, Bool.false_eq_true, if_false, hfirst, hnamed,
        padId_length, List.length_cons] at hrest ⊢
      omega

end Meshpn.Mesh
