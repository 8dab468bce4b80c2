import Mathlib.Tactic
import WireGuardControl.Proofs.Listing
import WireGuardControl.Uapi.Client
/-!
Malformed responses of a WireGuard program.

* `failsOnly_readGet`, `failsOnly_readSet`: a response that is not read is malformed, or reports an
  error number that is not zero. Each follows the reader: values, pairs, drafts of peers and of the
  device.
* `Client.device_of_rejects`, `Client.devices_of_rejects`, `Client.configure_of_rejects`: an
  operation fails with what a response is rejected with.
-/

namespace WireGuardControl.Uapi

open Text

/-! ### Values -/

lemma failsOnly_number {α : Type} (read : List Char → Except Decimal.Fault α) (key : String)
    (v : List Char) : FailsOnly Error.IsDecode (number read key v) :=
  .mapError fun _ => .decode _

lemma failsOnly_hexKey (key : String) (v : List Char) :
    FailsOnly Error.IsDecode (hexKey key v) := .mapError fun _ => .decode _

lemma failsOnly_network (v : List Char) : FailsOnly Error.IsDecode (network v) := by
  rw [network]
  split
  · exact .ok _
  · exact .error rfl

lemma failsOnly_readEndpoint (s : List Char) : FailsOnly Error.IsDecode (readEndpoint s) := by
  rw [readEndpoint.eq_def]
  simp only
  split
  · exact .ok _
  · exact .error rfl

lemma Pairs.failsOnly_foldM {σ : Type} {f : σ → String × List Char → Except Error σ}
    (hf : ∀ s pair, FailsOnly Error.IsDecode (f s pair)) (s : σ) (p : Pairs) :
    FailsOnly Error.IsDecode (p.foldM f s) := by
  refine (FailsOnly.foldlM hf s p.items).bind fun s => ?_
  cases p.fault with
  | none => exact .ok s
  | some fault => exact .error rfl

/-! ### Devices -/

lemma PeerDraft.failsOnly_finish (d : PeerDraft) : FailsOnly Error.IsDecode d.finish :=
  (Instant.failsOnly_ofHandshake _ _).pure_bind _

lemma PeerDraft.failsOnly_step (d : PeerDraft) (key : String) (v : List Char) :
    FailsOnly Error.IsDecode (d.step key v) := by
  rw [step]
  split_ifs
  · exact (failsOnly_hexKey key v).pure_bind _
  · exact (failsOnly_readEndpoint v).pure_bind _
  · exact (failsOnly_number _ key v).pure_bind _
  · exact (failsOnly_number _ key v).pure_bind _
  · exact (failsOnly_number _ key v).pure_bind _
  · exact (failsOnly_number _ key v).pure_bind _
  · exact (failsOnly_number _ key v).pure_bind _
  · exact (failsOnly_network v).pure_bind _
  · exact (failsOnly_number _ key v).pure_bind _
  · exact .ok d

namespace DeviceDraft

lemma failsOnly_finishPeer (d : DeviceDraft) : FailsOnly Error.IsDecode d.finishPeer := by
  rw [finishPeer]
  split
  · exact .ok d
  · next draft _ => exact draft.failsOnly_finish.pure_bind _

lemma failsOnly_interfaceStep (d : Device) (key : String) (v : List Char) :
    FailsOnly Error.IsDecode (interfaceStep d key v) := by
  rw [interfaceStep]
  split_ifs
  · exact (failsOnly_hexKey key v).pure_bind _
  · exact (failsOnly_number _ key v).pure_bind _
  · exact (failsOnly_number _ key v).pure_bind _
  · exact .ok d

lemma failsOnly_step (d : DeviceDraft) (pair : String × List Char) :
    FailsOnly Error.IsDecode (d.step pair) := by
  obtain ⟨key, v⟩ := pair
  rw [step]
  split_ifs
  · exact (failsOnly_number _ key v).pure_bind _
  · exact d.failsOnly_finishPeer.bind fun d => (failsOnly_hexKey key v).pure_bind _
  · split
    · next draft _ => exact (draft.failsOnly_step key v).pure_bind _
    · exact (failsOnly_interfaceStep d.device key v).pure_bind _

end DeviceDraft

/-! ### Responses -/

lemma failsOnly_checkStatus (operation : String) (code : Option Int32) :
    FailsOnly Error.IsRejection (checkStatus operation code) := by
  cases code with
  | none => exact .error (.inl rfl)
  | some code =>
      rw [checkStatus]
      split_ifs with hzero
      · exact .ok ()
      · exact .error (.inr ⟨operation, code, rfl, hzero⟩)

lemma failsOnly_setStep (code : Option Int32) (pair : String × List Char) :
    FailsOnly Error.IsDecode (setStep code pair) :=
  .ite ((failsOnly_number _ _ _).map some) (.ok code)

/-- **A response to an update** that is not read is malformed, or reports an error number. -/
theorem failsOnly_readSet (response : List Char) :
    FailsOnly Error.IsRejection (readSet response) :=
  ((Pairs.failsOnly_foldM failsOnly_setStep none _).mono fun _ => .inl).bind
    (failsOnly_checkStatus "set")

/-- **A response that does not describe a device** is malformed, or reports an error number. -/
theorem failsOnly_readGet (name : String) (response : List Char) :
    FailsOnly Error.IsRejection (readGet name response) := by
  refine .bind ((Pairs.failsOnly_foldM DeviceDraft.failsOnly_step _ _).mono fun _ => .inl)
    fun d => ?_
  refine .bind (d.failsOnly_finishPeer.mono fun _ => .inl) fun d => ?_
  exact (failsOnly_checkStatus "get" d.code).pure_bind _

lemma failsOnly_responseText (stream : Bytes) : FailsOnly Error.IsDecode (responseText stream) :=
  .mapError fun _ => .decode _

/-! ### Rejected responses -/

namespace Client

variable {σ α : Type} {c : Client (StateM σ)} {name : String} {config : Config} {e : Error}
  {s s' : σ}

/-- The octets with which a socket responds to a request are rejected with the failure `e`, as no
text or by `read`. -/
def RejectsResponse (c : Client (StateM σ)) (path : Bytes) (request : List Char)
    (read : List Char → Except Error α) (s : σ) (e : Error) (s' : σ) : Prop :=
  ∃ stream, c.host.exchange path (Utf8.encode request) s = (.ok stream, s') ∧
    (responseText stream).bind read = .error e

lemma RejectsResponse.isRejection {path : Bytes} {request : List Char}
    {read : List Char → Except Error α} (h : c.RejectsResponse path request read s e s')
    (hread : ∀ response, FailsOnly Error.IsRejection (read response)) : e.IsRejection := by
  obtain ⟨stream, -, he⟩ := h
  exact ((failsOnly_responseText stream).mono fun _ => .inl).bind hread e he

lemma ask_of_rejects {path : Bytes} {request : List Char} {read : List Char → Except Error α}
    (h : c.RejectsResponse path request read s e s') :
    (do return (← c.ask path request).bind read : StateM σ (Except Error α)) s =
      (.error e, s') := by
  obtain ⟨stream, hstream, he⟩ := h
  have hask : c.ask path request s = (responseText stream, s') := by
    rw [ask]
    simp only [bind, StateT.bind, hstream]
    rfl
  simp only [bind, StateT.bind, hask, he]
  rfl

/-- The response of the socket of a device is rejected. -/
def RejectsDevice (c : Client (StateM σ)) (name : String) (s : σ) (e : Error) (s' : σ) : Prop :=
  ∃ path s₁, c.socket name s = (.ok path, s₁) ∧
    c.RejectsResponse path Uapi.getRequest (readGet name) s₁ e s'

lemma RejectsDevice.isRejection (h : c.RejectsDevice name s e s') : e.IsRejection := by
  obtain ⟨path, s₁, -, hresponse⟩ := h
  exact hresponse.isRejection (failsOnly_readGet name)

lemma device_of_rejects (h : c.RejectsDevice name s e s') : c.device name s = (.error e, s') := by
  obtain ⟨path, s₁, hsocket, hresponse⟩ := h
  rw [device]
  simp only [bind, StateT.bind, hsocket]
  exact ask_of_rejects hresponse

/-- The response to an update is rejected. -/
def RejectsUpdate (c : Client (StateM σ)) (name : String) (config : Config) (s : σ) (e : Error)
    (s' : σ) : Prop :=
  ∃ path s₁, c.socket name s = (.ok path, s₁) ∧
    c.RejectsResponse path (setRequest config) readSet s₁ e s'

lemma RejectsUpdate.isRejection (h : c.RejectsUpdate name config s e s') : e.IsRejection := by
  obtain ⟨path, s₁, -, hresponse⟩ := h
  exact hresponse.isRejection failsOnly_readSet

lemma configure_of_rejects (h : c.RejectsUpdate name config s e s') :
    c.configure name config s = (.error e, s') := by
  obtain ⟨path, s₁, hsocket, hresponse⟩ := h
  rw [configure]
  simp only [bind, StateT.bind, hsocket]
  exact ask_of_rejects hresponse

/-- The response of the socket of a device is rejected in a listing, behind others that were
read. -/
def RejectsListing (c : Client (StateM σ)) (s : σ) (e : Error) (s' : σ) : Prop :=
  ∃ before path after name ds s₁ s₂,
    findSockets c.host c.directories s = (.ok (before ++ path :: after), s₁) ∧
    c.devicesAt before s₁ = (.ok ds, s₂) ∧ deviceName? path = some name ∧
    c.RejectsResponse path Uapi.getRequest (readGet name) s₂ e s'

lemma RejectsListing.isRejection (h : c.RejectsListing s e s') : e.IsRejection := by
  obtain ⟨_, _, _, name, _, _, _, -, -, -, hresponse⟩ := h
  exact hresponse.isRejection (failsOnly_readGet name)

/-- Reads the device to which the socket at a path belongs; a path without a name has none. -/
def deviceAt (c : Client (StateM σ)) (path : Bytes) : StateM σ (Except Error Device) :=
  match deviceName? path with
  | none => pure (.error .notExist)
  | some name => c.get path name

lemma devicesAt_eq (c : Client (StateM σ)) (paths : List Bytes) :
    c.devicesAt paths = readEach c.deviceAt paths := by
  induction paths with
  | nil => rfl
  | cons path rest ih =>
      rw [devicesAt, readEach, deviceAt]
      cases deviceName? path with
      | none => exact ih
      | some name => exact congrArg (readThen (c.get path name)) ih

lemma devices_of_rejects (h : c.RejectsListing s e s') : c.devices s = (.error e, s') := by
  have he := h.isRejection
  obtain ⟨before, path, after, name, ds, s₁, s₂, hpaths, hbefore, hname, hresponse⟩ := h
  have hpath : c.deviceAt path s₂ = (.error e, s') := by
    rw [deviceAt, hname]
    exact ask_of_rejects hresponse
  rw [devices]
  simp only [bind, StateT.bind, hpaths]
  rw [devicesAt_eq] at hbefore ⊢
  exact readEach_append_of_fails hbefore hpath he.ne_notExist after

end Client

end WireGuardControl.Uapi
