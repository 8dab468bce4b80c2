import Mathlib.Tactic
import WireGuardControl.Command.Show
/-!
Keys that stay hidden.

* `Peer.AlikeButSecrets`, `Device.AlikeButSecrets`: peers and devices that differ at most in the
  value of private and preshared keys that both have.
* `ofDevice_of_alike`: a view that does not reveal keys is the same for such devices. It holds all
  that any format prints.
* `printed_of_alike`: nothing that is printed without revealing keys depends on them.
-/

namespace WireGuardControl

/-- Peers that differ at most in the value of a preshared key, which both have or both lack. -/
structure Peer.AlikeButSecrets (p q : Peer) : Prop where
  /-- Whether there is a preshared key. -/
  presharedKey : p.presharedKey.isZero = q.presharedKey.isZero
  /-- All else is the same. -/
  rest : p = { q with presharedKey := p.presharedKey }

/-- Devices that differ at most in the values of the private key and of preshared keys of peers,
each of which both have or both lack. -/
structure Device.AlikeButSecrets (d e : Device) : Prop where
  /-- Whether there is a private key. -/
  privateKey : d.privateKey.isZero = e.privateKey.isZero
  /-- The peers are alike one by one. -/
  peers : List.Forall₂ Peer.AlikeButSecrets d.peers e.peers
  /-- All else is the same. -/
  rest : d = { e with privateKey := d.privateKey, peers := d.peers }

namespace Show

variable {p q : Peer} {d e : Device} {ds es : List Device}

/-! ### Views -/

/-- What does not tell related elements apart gives one list for lists that are related. -/
lemma map_eq_map_of_forall₂ {α β : Type} {R : α → α → Prop} {f : α → β} {xs ys : List α}
    (hf : ∀ x y, R x y → f x = f y) (h : List.Forall₂ R xs ys) : xs.map f = ys.map f := by
  rw [← List.forall₂_eq_eq_eq, List.forall₂_map_left_iff, List.forall₂_map_right_iff]
  exact h.imp hf

/-- What is shown of a hidden key is only whether there is one. -/
lemma secret_false_congr {k l : Key} (h : k.isZero = l.isZero) :
    secret false k = secret false l := by
  simp only [secret, h, Bool.false_eq_true, if_false]

lemma ofPeer_of_alike (h : p.AlikeButSecrets q) :
    PeerView.ofPeer false p = PeerView.ofPeer false q := by
  rw [h.rest]
  simp only [PeerView.ofPeer, secret_false_congr h.presharedKey]

/-- A view that does not reveal keys does not depend on them. -/
lemma ofDevice_of_alike (h : d.AlikeButSecrets e) :
    DeviceView.ofDevice false d = DeviceView.ofDevice false e := by
  have hpeers : d.peers.map (PeerView.ofPeer false) = e.peers.map (PeerView.ofPeer false) :=
    map_eq_map_of_forall₂ (fun _ _ => ofPeer_of_alike) h.peers
  rw [h.rest]
  simp only [DeviceView.ofDevice, secret_false_congr h.privateKey, hpeers]

lemma map_ofDevice_of_alike (h : List.Forall₂ Device.AlikeButSecrets ds es) :
    ds.map (DeviceView.ofDevice false) = es.map (DeviceView.ofDevice false) :=
  map_eq_map_of_forall₂ (fun _ _ => ofDevice_of_alike) h

/-! ### What is printed -/

/-- **Hidden keys do not leak.** Devices that differ at most in the values of their keys are
printed alike at the same time in every format, alone, in a list or by a request, unless the keys
are to be revealed. -/
theorem printed_of_alike (f : Format) (now : ℕ) :
    (∀ d e : Device, d.AlikeButSecrets e →
      f.one now (DeviceView.ofDevice false d) = f.one now (DeviceView.ofDevice false e)) ∧
    ∀ ds es : List Device, List.Forall₂ Device.AlikeButSecrets ds es →
      f.all now (ds.map (DeviceView.ofDevice false)) =
        f.all now (es.map (DeviceView.ofDevice false)) ∧
      ∀ r : Command.Request, r.reveal = false → r.print f now ds = r.print f now es := by
  refine ⟨fun d e h => ?_, fun ds es h => ⟨?_, fun r hr => ?_⟩⟩
  · rw [ofDevice_of_alike h]
  · rw [map_ofDevice_of_alike h]
  · rw [Command.Request.print, Command.Request.print, hr, map_ofDevice_of_alike h]

/-- A device with two other keys, next to one without keys, printed by a request for all. -/
theorem printed_of_alike_rekeyed :
    let key (x : UInt8) : Key := ⟨List.replicate 32 x, rfl⟩
    let device (x : UInt8) : Device :=
      { name := "wg0", privateKey := key x, peers := [{}, { presharedKey := key (x + 1) }] }
    (device 1).privateKey ≠ (device 2).privateKey ∧ (device 1).AlikeButSecrets (device 2) ∧
      ∀ f now, ({ } : Command.Request).print f now [device 1, {}] =
        ({ } : Command.Request).print f now [device 2, {}] := by
  intro key device
  have hdevice : (device 1).AlikeButSecrets (device 2) :=
    ⟨by decide, .cons ⟨rfl, rfl⟩ (.cons ⟨by decide, rfl⟩ .nil), rfl⟩
  have hempty : ({} : Device).AlikeButSecrets {} := ⟨rfl, .nil, rfl⟩
  refine ⟨by decide, hdevice, fun f now => ?_⟩
  exact ((printed_of_alike f now).2 _ _ (.cons hdevice (.cons hempty .nil))).2 {} rfl

end Show

end WireGuardControl
