import Mathlib.Tactic
import WireGuardControl.OpenBsd.Client
import WireGuardControl.Proofs.Listing
/-!
Malformed records of the OpenBSD driver.

* `failsOnly_readDevice`: records that do not describe a device are a malformed answer and nothing
  else. It follows the reader: records of networks, of peers and of the interface, and runs of them.
* `Client.device_of_rejects`, `Client.devices_of_rejects`: an operation fails with what the records
  of a device are rejected with.
-/

namespace WireGuardControl.OpenBsd

/-! ### Records -/

lemma failsOnly_takeRecord (n : ℕ) (what : String) (b : Bytes) :
    FailsOnly Error.IsDecode (takeRecord n what b) := by
  rw [takeRecord]
  split
  · exact .ok _
  · exact .error rfl

lemma failsOnly_readEndpoint (b : Block endpointLength) :
    FailsOnly Error.IsDecode (readEndpoint b) :=
  .ite (.ok _) (.ite (.ok _) (.error rfl))

lemma failsOnly_readNetwork (b : Block networkLength) :
    FailsOnly Error.IsDecode (readNetwork b) := by
  rw [readNetwork]
  refine .ite (.error rfl) ?_
  generalize (if UInt8.ofNat (Bytes.toNatLE (b.field 0 1)) = familyIPv4 then _ else _) = address?
  cases address? with
  | none => exact .error rfl
  | some x =>
      simp only
      split
      · exact .ok _
      · exact .error rfl

lemma failsOnly_readNetworks (count : ℕ) (b : Bytes) :
    FailsOnly Error.IsDecode (readNetworks count b) := by
  induction count generalizing b with
  | zero => exact .ok _
  | succ count ih =>
      rw [readNetworks]
      refine (failsOnly_takeRecord _ _ b).bind fun (record, rest) => ?_
      refine (failsOnly_readNetwork record).bind fun n => ?_
      exact (ih rest).bind fun (networks, rest) => .ok (n :: networks, rest)

lemma failsOnly_readPeerRecord (b : Block peerLength) :
    FailsOnly Error.IsDecode (readPeerRecord b) := by
  refine .ite (.error rfl) ?_
  -- what follows the endpoint stands in both branches of the choice whether there is one
  refine .ite (FailsOnly.bind (.ok none) fun endpoint => ?_)
    (((failsOnly_readEndpoint _).map some).bind fun endpoint => ?_)
  all_goals exact (Instant.failsOnly_ofSignedHandshake (.decode _) _ _).pure_bind _

lemma failsOnly_readPeer (b : Bytes) : FailsOnly Error.IsDecode (readPeer b) := by
  refine (failsOnly_takeRecord _ _ b).bind fun (record, rest) => ?_
  refine (failsOnly_readPeerRecord record).bind fun p => ?_
  exact (failsOnly_readNetworks _ rest).bind fun (networks, rest) =>
    .ok ({ p with allowedIps := networks }, rest)

lemma failsOnly_readPeers (count : ℕ) (b : Bytes) :
    FailsOnly Error.IsDecode (readPeers count b) := by
  induction count generalizing b with
  | zero => exact .ok _
  | succ count ih =>
      rw [readPeers]
      refine (failsOnly_readPeer b).bind fun (p, rest) => ?_
      exact (ih rest).bind fun (peers, rest) => .ok (p :: peers, rest)

lemma failsOnly_readInterface (name : String) (b : Block interfaceLength) :
    FailsOnly Error.IsDecode (readInterface name b) := by
  rw [readInterface]
  exact .ite (.error rfl) (.ok _)

/-- **Records that do not describe a device** are a malformed answer. -/
theorem failsOnly_readDevice (name : String) (b : Bytes) :
    FailsOnly Error.IsDecode (readDevice name b) := by
  refine (failsOnly_takeRecord _ _ b).bind fun (record, rest) => ?_
  refine (failsOnly_readInterface name record).bind fun d => ?_
  exact (failsOnly_readPeers _ rest).bind fun (peers, _) => .ok { d with peers := peers }

/-! ### Rejected answers -/

namespace Client

variable {σ : Type} {k : Kernel (StateM σ)} {name : String} {e : Error} {s s' : σ}

/-- The records that the driver gives for a device are rejected with the failure `e`. -/
def RejectsRecords (k : Kernel (StateM σ)) (name : String) (s : σ) (e : Error) (s' : σ) : Prop :=
  ∃ field b, interfaceName name = .ok field ∧
    transfer "SIOCGWG" (k.getDevice field) s = (.ok b, s') ∧ readDevice name b = .error e

lemma RejectsRecords.isDecode (h : RejectsRecords k name s e s') : e.IsDecode := by
  obtain ⟨field, b, -, -, hread⟩ := h
  exact failsOnly_readDevice name b e hread

lemma get_of_rejects (h : RejectsRecords k name s e s') : get k name s = (.error e, s') := by
  obtain ⟨field, b, hfield, htransfer, hread⟩ := h
  rw [get, hfield]
  simp only [bind, StateT.bind, htransfer, hread]
  rfl

lemma device_of_rejects (hname : name ≠ "") (h : RejectsRecords k name s e s') :
    device k name s = (.error e, s') := by
  rw [device, if_neg (by simpa using hname), get_of_rejects h]

/-- The records of a device are rejected in a listing, behind others that were read. -/
def RejectsListing (k : Kernel (StateM σ)) (s : σ) (e : Error) (s' : σ) : Prop :=
  ∃ before name after ds s₁ s₂, interfaces k s = (.ok (before ++ name :: after), s₁) ∧
    devicesNamed k before s₁ = (.ok ds, s₂) ∧ RejectsRecords k name s₂ e s'

lemma RejectsListing.isDecode (h : RejectsListing k s e s') : e.IsDecode := by
  obtain ⟨_, _, _, _, _, _, -, -, hrejects⟩ := h
  exact hrejects.isDecode

lemma devicesNamed_eq (k : Kernel (StateM σ)) (reported : List String) :
    devicesNamed k reported = readEach (get k) reported := by
  induction reported with
  | nil => rfl
  | cons name rest ih => exact congrArg (readThen (get k name)) ih

lemma devices_of_rejects (h : RejectsListing k s e s') : devices k s = (.error e, s') := by
  have he : e.IsRejection := .inl h.isDecode
  obtain ⟨before, name, after, ds, s₁, s₂, hnames, hbefore, hrejects⟩ := h
  rw [devices]
  simp only [bind, StateT.bind, hnames]
  rw [devicesNamed_eq] at hbefore ⊢
  exact readEach_append_of_fails hbefore (get_of_rejects hrejects) he.ne_notExist after

end Client

end WireGuardControl.OpenBsd
