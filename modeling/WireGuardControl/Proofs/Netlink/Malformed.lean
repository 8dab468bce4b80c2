import Mathlib.Tactic
import WireGuardControl.Proofs.Listing
import WireGuardControl.Proofs.Netlink.Delivery
/-!
Malformed messages of the Linux kernel.

* `failsOnly_ofDump`, `failsOnly_wireguardName?`: messages that cannot be read are malformed answers
  and nothing else. Each follows the reader: values of attributes, rows of them, and steps.
* `Client.device_eq_notExist_iff`: when the kernel is taken to have no such device. A malformed
  message is no such case.
* `Client.device_of_rejects`, `Client.devices_of_rejects`, `Client.configure_of_rejects`: an
  operation fails with what the answer to one of its requests is rejected with.
-/

namespace WireGuardControl

namespace Netlink

/-! ### Attributes -/

namespace Attributes

lemma failsOnly_check (xs : Attributes) : FailsOnly Error.IsDecode xs.check := by
  rw [check]
  split
  · exact .ok ()
  · exact .error rfl

lemma failsOnly_foldM {σ : Type} {f : σ → Attribute → Except Error σ}
    (hf : ∀ s a, FailsOnly Error.IsDecode (f s a)) (s : σ) (xs : Attributes) :
    FailsOnly Error.IsDecode (xs.foldM f s) :=
  (FailsOnly.foldlM hf s xs.items).bind fun s => (failsOnly_check xs).pure_bind fun _ => s

lemma failsOnly_collect {α : Type} {f : Attribute → Except Error α}
    (hf : ∀ a, FailsOnly Error.IsDecode (f a)) (xs : Attributes) :
    FailsOnly Error.IsDecode (xs.collect f) :=
  (FailsOnly.mapM hf xs.items).bind fun values => (failsOnly_check xs).pure_bind fun _ => values

end Attributes

namespace Attribute

lemma failsOnly_block (a : Attribute) (width : ℕ) (what : String) :
    FailsOnly Error.IsDecode (a.block width what) := .dite (fun _ => .ok _) fun _ => .error rfl

lemma failsOnly_u8 (a : Attribute) : FailsOnly Error.IsDecode a.u8 := (failsOnly_block a _ _).map _

lemma failsOnly_u16 (a : Attribute) : FailsOnly Error.IsDecode a.u16 :=
  (failsOnly_block a _ _).map _

lemma failsOnly_u32 (a : Attribute) : FailsOnly Error.IsDecode a.u32 :=
  (failsOnly_block a _ _).map _

lemma failsOnly_u64 (a : Attribute) : FailsOnly Error.IsDecode a.u64 :=
  (failsOnly_block a _ _).map _

lemma failsOnly_key (a : Attribute) : FailsOnly Error.IsDecode a.key :=
  (failsOnly_block a _ _).map _

lemma failsOnly_string (a : Attribute) : FailsOnly Error.IsDecode a.string := by
  rw [string]
  split
  · exact .ok _
  · exact .error rfl

lemma failsOnly_ipAddress (a : Attribute) : FailsOnly Error.IsDecode a.ipAddress :=
  .dite (fun _ => .ok _) fun _ => .dite (fun _ => .ok _) fun _ => .error rfl

end Attribute

lemma SocketAddress.failsOnly_decode (b : Bytes) :
    FailsOnly Error.IsDecode (SocketAddress.decode b) :=
  .dite (fun _ => .ok _) fun _ => .dite (fun _ => .ok _) fun _ => .error rfl

/-! ### Devices -/

namespace NetworkDraft

lemma failsOnly_step (d : NetworkDraft) (a : Attribute) : FailsOnly Error.IsDecode (d.step a) := by
  rw [step]
  split_ifs
  · exact a.failsOnly_u16.pure_bind _
  · exact a.failsOnly_ipAddress.pure_bind _
  · exact a.failsOnly_u8.pure_bind _
  · exact .ok d

lemma failsOnly_finish (d : NetworkDraft) : FailsOnly Error.IsDecode d.finish := by
  rw [finish]
  split
  · exact .error rfl
  · next x _ =>
      generalize (if x.isIPv4 then familyIPv4 else familyIPv6) = own,
        (if x.isIPv4 then 32 else 128) = width
      simp only
      split
      · exact .error rfl
      · split
        · exact .ok _
        · exact .error rfl

end NetworkDraft

lemma failsOnly_readNetwork (entry : Attribute) : FailsOnly Error.IsDecode (readNetwork entry) :=
  (Attributes.failsOnly_foldM NetworkDraft.failsOnly_step {} entry.children).bind
    NetworkDraft.failsOnly_finish

lemma failsOnly_readTimespec (b : Bytes) : FailsOnly Error.IsDecode (readTimespec b) := by
  rw [readTimespec]
  split_ifs
  · exact Instant.failsOnly_ofSignedHandshake (by split_ifs <;> rfl) _ _
  · exact Instant.failsOnly_ofSignedHandshake (by split_ifs <;> rfl) _ _
  · exact .error rfl

lemma failsOnly_peerStep (p : Peer) (a : Attribute) :
    FailsOnly Error.IsDecode (peerStep p a) := by
  rw [peerStep]
  split_ifs
  · exact a.failsOnly_key.pure_bind _
  · exact a.failsOnly_key.pure_bind _
  · exact (SocketAddress.failsOnly_decode a.payload).pure_bind _
  · exact a.failsOnly_u16.pure_bind _
  · exact (failsOnly_readTimespec a.payload).pure_bind _
  · exact a.failsOnly_u64.pure_bind _
  · exact a.failsOnly_u64.pure_bind _
  · exact (Attributes.failsOnly_collect failsOnly_readNetwork a.children).pure_bind _
  · exact a.failsOnly_u32.pure_bind _
  · exact .ok p

lemma failsOnly_readPeer (entry : Attribute) : FailsOnly Error.IsDecode (readPeer entry) :=
  Attributes.failsOnly_foldM failsOnly_peerStep {} entry.children

lemma failsOnly_deviceStep (d : Device) (a : Attribute) :
    FailsOnly Error.IsDecode (deviceStep d a) := by
  rw [deviceStep]
  split_ifs
  · exact a.failsOnly_string.pure_bind _
  · exact a.failsOnly_key.pure_bind _
  · exact a.failsOnly_key.pure_bind _
  · exact a.failsOnly_u16.pure_bind _
  · exact a.failsOnly_u32.pure_bind _
  · exact (Attributes.failsOnly_collect failsOnly_readPeer a.children).pure_bind _
  · exact .ok d

lemma failsOnly_readDevice (data : Bytes) : FailsOnly Error.IsDecode (readDevice data) :=
  Attributes.failsOnly_foldM failsOnly_deviceStep _ _

/-- **Messages that do not describe a device** are malformed answers. -/
theorem failsOnly_ofDump (messages : List Bytes) : FailsOnly Error.IsDecode (ofDump messages) := by
  cases messages with
  | nil => exact .error rfl
  | cons first rest =>
      refine (failsOnly_readDevice first).bind fun target => ?_
      exact FailsOnly.foldlM (fun d data => (failsOnly_readDevice data).map (merge d)) target rest

/-! ### Interfaces -/

namespace LinkDraft

lemma failsOnly_infoStep (d : LinkDraft) (a : Attribute) :
    FailsOnly Error.IsDecode (d.infoStep a) :=
  .ite (a.failsOnly_string.pure_bind _) (.ok d)

lemma failsOnly_step (d : LinkDraft) (a : Attribute) : FailsOnly Error.IsDecode (d.step a) := by
  rw [step]
  split_ifs
  · exact a.failsOnly_string.pure_bind _
  · exact Attributes.failsOnly_foldM failsOnly_infoStep d a.children
  · exact .ok d

end LinkDraft

/-- **A message about an interface** that cannot be read is a malformed answer. -/
theorem failsOnly_wireguardName? (payload : Bytes) :
    FailsOnly Error.IsDecode (wireguardName? payload) :=
  .ite (.error rfl) ((Attributes.failsOnly_foldM LinkDraft.failsOnly_step {} _).pure_bind _)

/-! ### Answers -/

lemma GenericMessage.failsOnly_decode :
    (payload : Bytes) → FailsOnly Error.IsDecode (GenericMessage.decode payload)
  | [] => .error rfl
  | [_] => .error rfl
  | [_, _] => .error rfl
  | [_, _, _] => .error rfl
  | _ :: _ :: _ :: _ :: _ => .ok _

namespace Client

lemma failsOnly_names (messages : List Message) : FailsOnly Error.IsDecode (names messages) :=
  (FailsOnly.mapM (fun x : Message => failsOnly_wireguardName? x.payload) _).pure_bind _

lemma failsOnly_ofAnswer {messages : List Message} (h : messages ≠ []) :
    FailsOnly Error.IsDecode (ofAnswer messages) := by
  rw [ofAnswer, if_neg (by simpa using h)]
  refine FailsOnly.bind (FailsOnly.mapM (fun x : Message => ?_) messages) failsOnly_ofDump
  exact (GenericMessage.failsOnly_decode x.payload).map _

variable {σ : Type} {c : Client (StateM σ)} {name : String}

/-- The payload of the request for a device that is named by the attributes `data`. -/
def getRequest (data : Bytes) : Bytes := GenericMessage.encode ⟨commandGet, wireguardVersion, data⟩

/-- The channel gives an answer to the request for a device. -/
def Answers (c : Client (StateM σ)) (name : String) (s : σ)
    (answer : Except Error (List Message)) (s' : σ) : Prop :=
  ∃ data, nameRequest name = .ok data ∧
    c.generic.execute c.family (flagRequest ||| flagDump) (getRequest data) s = (answer, s')

lemma device_empty (s : σ) : c.device "" s = (.error .notExist, s) := rfl

lemma device_of_unnamed (hname : name ≠ "") {e : Error} (h : nameRequest name = .error e) (s : σ) :
    c.device name s = (.error e, s) := by
  rw [device, if_neg (by simpa using hname), h]
  rfl

lemma device_of_answers (hname : name ≠ "") {answer : Except Error (List Message)} {s s' : σ}
    (h : Answers c name s answer s') :
    c.device name s = ((answer.mapError noteAbsence).bind ofAnswer, s') := by
  obtain ⟨data, hdata, hanswer⟩ := h
  rw [getRequest] at hanswer
  rw [device, if_neg (by simpa using hname), hdata]
  simp only [execute, bind, StateT.bind, hanswer]
  rfl

lemma kind_of_nameRequest_error {e : Error} (h : nameRequest name = .error e) :
    e.kind = .invalidArgument := by
  refine kind_of_encodeAll_error ?_ h
  exact List.forall_mem_singleton.mpr (failsByArgument_plain _ _)

/-- A channel that fails only where a call to the system does. -/
def FailsByIo (channel : Channel (StateM σ)) : Prop :=
  ∀ kind flags payload s e s', channel.execute kind flags payload s = (.error e, s') →
    ∃ fault, e = .io fault

/-- **When the kernel is taken to have no such device**, if its channel fails only where a call to
the system does: the name is empty, the request is refused as one for a device that is not there or
of another sort, or the answer has no message. -/
lemma device_eq_notExist_iff (hio : FailsByIo c.generic) {s s' : σ} :
    c.device name s = (.error .notExist, s') ↔
      (name = "" ∧ s = s') ∨ (name ≠ "" ∧ ((∃ e, DeniesDevice e ∧ Answers c name s (.error e) s') ∨
        Answers c name s (.ok []) s')) := by
  constructor
  · intro h
    by_cases hname : name = ""
    · rw [hname, device_empty] at h
      exact .inl ⟨hname, congrArg Prod.snd h⟩
    refine .inr ⟨hname, ?_⟩
    cases hdata : nameRequest name with
    | error e =>
        rw [device_of_unnamed hname hdata] at h
        obtain rfl := Except.error.inj (congrArg Prod.fst h)
        cases kind_of_nameRequest_error hdata
    | ok data =>
        rcases hanswer : c.generic.execute c.family (flagRequest ||| flagDump) (getRequest data) s
          with ⟨answer, s₁⟩
        have hanswers : Answers c name s answer s₁ := ⟨data, hdata, hanswer⟩
        rw [device_of_answers hname hanswers] at h
        obtain ⟨hout, rfl⟩ := Prod.mk.inj h
        cases answer with
        | error e =>
            rcases noteAbsence_eq_notExist_iff.mp (Except.error.inj hout) with rfl | hdenies
            · obtain ⟨fault, hfault⟩ := hio _ _ _ _ _ _ hanswer
              cases hfault
            · exact .inl ⟨e, hdenies, hanswers⟩
        | ok messages =>
            by_cases hnone : messages = []
            · rw [hnone] at hanswers
              exact .inr hanswers
            · cases failsOnly_ofAnswer hnone .notExist hout
  · rintro (⟨rfl, rfl⟩ | ⟨hname, ⟨e, hdenies, hanswers⟩ | hanswers⟩)
    · exact device_empty s
    · rw [device_of_answers hname hanswers, Except.mapError, noteAbsence_of_deniesDevice hdenies]
      rfl
    · rw [device_of_answers hname hanswers]
      rfl

/-! ### Rejected answers -/

/-- An answer is rejected with the failure `e`: the channel finds it malformed, or it has messages
that `read` does not take. -/
def Rejects {α : Type} (read : List Message → Except Error α)
    (answer : Except Error (List Message)) (e : Error) : Prop :=
  (answer = .error e ∧ e.IsDecode) ∨
    ∃ messages, messages ≠ [] ∧ answer = .ok messages ∧ read messages = .error e

lemma Rejects.isDecode {α : Type} {read : List Message → Except Error α}
    (hread : ∀ messages ≠ [], FailsOnly Error.IsDecode (read messages))
    {answer : Except Error (List Message)} {e : Error} (h : Rejects read answer e) :
    e.IsDecode := by
  rcases h with ⟨-, he⟩ | ⟨messages, hne, -, he⟩
  · exact he
  · exact hread messages hne e he

lemma noteAbsence_of_isDecode {e : Error} (h : e.IsDecode) : noteAbsence e = e := by
  refine noteAbsence_of_not_deniesDevice ?_
  rintro (rfl | rfl) <;> cases h

/-- The answer to the request for a device is rejected. -/
def RejectsDevice (c : Client (StateM σ)) (name : String) (s : σ) (e : Error) (s' : σ) : Prop :=
  name ≠ "" ∧ ∃ answer, Answers c name s answer s' ∧ Rejects ofAnswer answer e

lemma RejectsDevice.isDecode {e : Error} {s s' : σ} (h : RejectsDevice c name s e s') :
    e.IsDecode := by
  obtain ⟨-, answer, -, hrejects⟩ := h
  exact hrejects.isDecode fun _ hne => failsOnly_ofAnswer hne

lemma device_of_rejects {e : Error} {s s' : σ} (h : RejectsDevice c name s e s') :
    c.device name s = (.error e, s') := by
  have he := h.isDecode
  obtain ⟨hname, answer, hanswers, ⟨rfl, -⟩ | ⟨messages, -, rfl, hread⟩⟩ := h
  · rw [device_of_answers hname hanswers, Except.mapError, noteAbsence_of_isDecode he]
    rfl
  · rw [device_of_answers hname hanswers, Except.mapError, Except.bind, hread]

/-- The answer to a request of a listing is rejected: the one for the interfaces, or one for a
device behind others that were read. -/
def RejectsListing (c : Client (StateM σ)) (s : σ) (e : Error) (s' : σ) : Prop :=
  (∃ answer, c.links.execute Link.kindGet (flagRequest ||| flagDump) linkDumpRequest s =
    (answer, s') ∧ Rejects names answer e) ∨
  ∃ before name after ds s₁ s₂, c.interfaces s = (.ok (before ++ name :: after), s₁) ∧
    c.devicesNamed before s₁ = (.ok ds, s₂) ∧ RejectsDevice c name s₂ e s'

lemma RejectsListing.isDecode {e : Error} {s s' : σ} (h : RejectsListing c s e s') :
    e.IsDecode := by
  rcases h with ⟨answer, -, hrejects⟩ | ⟨_, _, _, _, _, _, -, -, hrejects⟩
  · exact hrejects.isDecode fun messages _ => failsOnly_names messages
  · exact hrejects.isDecode

lemma devicesNamed_eq (c : Client (StateM σ)) (reported : List String) :
    c.devicesNamed reported = readEach c.device reported := by
  induction reported with
  | nil => rfl
  | cons name rest ih => exact congrArg (readThen (c.device name)) ih

lemma devices_of_rejects {e : Error} {s s' : σ} (h : RejectsListing c s e s') :
    c.devices s = (.error e, s') := by
  have he : e.IsRejection := .inl h.isDecode
  rw [devices]
  rcases h with ⟨answer, hanswer, hrejects⟩ | ⟨before, name, after, ds, s₁, s₂, hnames, hbefore,
    hrejects⟩
  · have hnames : c.interfaces s = (.error e, s') := by
      rw [interfaces]
      simp only [bind, StateT.bind, hanswer]
      rcases hrejects with ⟨rfl, -⟩ | ⟨messages, -, rfl, hread⟩
      · rfl
      · rw [Except.bind, hread]
        rfl
    simp only [bind, StateT.bind, hnames]
    rfl
  · simp only [bind, StateT.bind, hnames]
    rw [devicesNamed_eq] at hbefore ⊢
    exact readEach_append_of_fails hbefore (device_of_rejects hrejects) he.ne_notExist after

/-- An update is stopped by the answer to one of its batches, which the channel finds malformed. -/
def RejectsUpdate (c : Client (StateM σ)) (name : String) (config : Config) (s : σ) (e : Error)
    (s' : σ) : Prop :=
  e.IsDecode ∧ ∃ sent, StopsAfter c name config.batches sent e s s'

lemma configure_of_rejects {config : Config} {e : Error} {s s' : σ}
    (h : RejectsUpdate c name config s e s') : c.configure name config s = (.error e, s') := by
  obtain ⟨he, sent, hstops⟩ := h
  exact send_eq_error_iff.mpr (.inr ⟨sent, e, hstops, noteAbsence_of_isDecode he⟩)

end Client

end Netlink

end WireGuardControl
