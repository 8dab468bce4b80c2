import Mathlib.Tactic
import WireGuardControl.Proofs.Chain.Calls
import WireGuardControl.Proofs.Netlink.Malformed
import WireGuardControl.Proofs.OpenBsd.Malformed
import WireGuardControl.Proofs.Uapi.Malformed
/-!
Malformed answers in a chain.

* `ListedOver`: a run over backends each of which lists its devices or passes, as `PassedOver` is
  one over backends that pass.
* `gives_first_of_passedOver`, `gives_gather_of_listedOver`: behind such a run, a failure that does
  not pass is what the chain gives, and no backend behind it is called.
* `RejectsDevice`, `RejectsUpdate`, `RejectsListing`: what the system answers a backend is rejected.
* `emptyMessages`, `emptyRecords`, `emptyResponses`: systems whose answers are rejected.
* `malformed_answers`: a malformed answer never looks like a device that is not there.
-/

namespace WireGuardControl.Chain

variable {σ α : Type}

/-! ### Runs that end with a failure -/

/-- Backends that list their devices one after the other, each of them successfully or passing. -/
inductive ListedOver : List (Backend (StateM σ)) → σ → σ → Prop
  /-- Nobody is asked. -/
  | nil (s : σ) : ListedOver [] s s
  /-- A backend is asked first. -/
  | cons {b : Backend (StateM σ)} {bs : List (Backend (StateM σ))}
      {a : Except Error (List Device)} {s s₁ s' : σ} (answer : b.devices s = (a, s₁))
      (lists : ListsOrPasses a) (later : ListedOver bs s₁ s') : ListedOver (b :: bs) s s'

lemma not_passes_of_isRejection {e : Error} (he : e.IsRejection) :
    ¬ Passes (.error e : Except Error α) := by
  rw [passes_error_iff, he.passes]
  exact Bool.false_ne_true

lemma not_listsOrPasses_of_isRejection {e : Error} (he : e.IsRejection) :
    ¬ ListsOrPasses (.error e) := by
  rintro (⟨found, hfound⟩ | hpasses)
  · cases hfound
  · exact not_passes_of_isRejection he hpasses

/-- **A failure that does not pass** is what a chain gives that gets to it. -/
lemma gives_first_of_passedOver (ask : (τ : Type) → Backend (StateM τ) → StateM τ (Except Error α))
    {call : Call} (hask : ∀ i (b : Backend (StateM σ)),
      ask _ (b.noted i) = noting (i, call) (ask σ b)) {before : List (Backend (StateM σ))}
    {b : Backend (StateM σ)} {e : Error} {s s₁ s₂ : σ} (hbefore : PassedOver (ask σ) before s s₁)
    (hb : ask σ b s₁ = (.error e, s₂)) (he : e.IsRejection) (later : List (Backend (StateM σ)))
    (i : ℕ) :
    Gives (first (ask σ) (before ++ b :: later))
      (first (ask _) (notedFrom i (before ++ b :: later))) s (.error e) s₂
      (callsFrom i (before.length + 1) call) := by
  induction hbefore generalizing i with
  | nil s => exact gives_first_of_stops hask later i hb (not_passes_of_isRejection he)
  | cons answer passes _ ih =>
      exact gives_first_of_passes hask answer (passes_error_iff.mpr passes) (ih hb (i + 1))

/-- **A failure that does not pass** is what a chain gives that lists devices and gets to it. -/
lemma gives_gather_of_listedOver {before : List (Backend (StateM σ))} {b : Backend (StateM σ)}
    {e : Error} {s s₁ s₂ : σ} (hbefore : ListedOver before s s₁)
    (hb : b.devices s₁ = (.error e, s₂)) (he : e.IsRejection) (later : List (Backend (StateM σ)))
    (i : ℕ) :
    Gives (gather (before ++ b :: later)) (gather (notedFrom i (before ++ b :: later)))
      s (.error e) s₂ (callsFrom i (before.length + 1) .devices) := by
  induction hbefore generalizing i with
  | nil s => exact gives_gather_of_stops later i hb (not_listsOrPasses_of_isRejection he)
  | cons answer lists _ ih => exact gives_gather_of_continues answer lists (ih hb (i + 1))

/-! ### Rejected answers -/

/-- A backend that is asked for the device `name` rejects what the system answers, with the
failure `e`. -/
inductive RejectsDevice (name : String) : Backend (StateM σ) → σ → Error → σ → Prop
  /-- A message of the Linux kernel. -/
  | netlink {c : Netlink.Client (StateM σ)} {e : Error} {s s' : σ}
      (h : c.RejectsDevice name s e s') : RejectsDevice name c.backend s e s'
  /-- Records of the OpenBSD driver. -/
  | openBsd {k : OpenBsd.Kernel (StateM σ)} {e : Error} {s s' : σ} (hname : name ≠ "")
      (h : OpenBsd.Client.RejectsRecords k name s e s') :
      RejectsDevice name (OpenBsd.Client.backend k) s e s'
  /-- The response of a program. -/
  | userspace {c : Uapi.Client (StateM σ)} {e : Error} {s s' : σ}
      (h : c.RejectsDevice name s e s') : RejectsDevice name c.backend s e s'

/-- A backend that is to update the device `name` rejects what the system answers. -/
inductive RejectsUpdate (name : String) (config : Config) :
    Backend (StateM σ) → σ → Error → σ → Prop
  /-- The acknowledgement of the Linux kernel. -/
  | netlink {c : Netlink.Client (StateM σ)} {e : Error} {s s' : σ}
      (h : c.RejectsUpdate name config s e s') : RejectsUpdate name config c.backend s e s'
  /-- The response of a program. -/
  | userspace {c : Uapi.Client (StateM σ)} {e : Error} {s s' : σ}
      (h : c.RejectsUpdate name config s e s') : RejectsUpdate name config c.backend s e s'

/-- A backend that lists its devices rejects one of the answers of the system. -/
inductive RejectsListing : Backend (StateM σ) → σ → Error → σ → Prop
  /-- A message of the Linux kernel, about the interfaces or about a device. -/
  | netlink {c : Netlink.Client (StateM σ)} {e : Error} {s s' : σ}
      (h : c.RejectsListing s e s') : RejectsListing c.backend s e s'
  /-- Records of the OpenBSD driver. -/
  | openBsd {k : OpenBsd.Kernel (StateM σ)} {e : Error} {s s' : σ}
      (h : OpenBsd.Client.RejectsListing k s e s') :
      RejectsListing (OpenBsd.Client.backend k) s e s'
  /-- The response of a program. -/
  | userspace {c : Uapi.Client (StateM σ)} {e : Error} {s s' : σ}
      (h : c.RejectsListing s e s') : RejectsListing c.backend s e s'

variable {b : Backend (StateM σ)} {name : String} {config : Config} {e : Error} {s s' : σ}

lemma RejectsDevice.fails (h : RejectsDevice name b s e s') :
    b.device name s = (.error e, s') ∧ e.IsRejection := by
  cases h with
  | netlink h => exact ⟨Netlink.Client.device_of_rejects h, .inl h.isDecode⟩
  | openBsd hname h => exact ⟨OpenBsd.Client.device_of_rejects hname h, .inl h.isDecode⟩
  | userspace h => exact ⟨Uapi.Client.device_of_rejects h, h.isRejection⟩

lemma RejectsUpdate.fails (h : RejectsUpdate name config b s e s') :
    b.configure name config s = (.error e, s') ∧ e.IsRejection := by
  cases h with
  | netlink h => exact ⟨Netlink.Client.configure_of_rejects h, .inl h.1⟩
  | userspace h => exact ⟨Uapi.Client.configure_of_rejects h, h.isRejection⟩

lemma RejectsListing.fails (h : RejectsListing b s e s') :
    b.devices s = (.error e, s') ∧ e.IsRejection := by
  cases h with
  | netlink h => exact ⟨Netlink.Client.devices_of_rejects h, .inl h.isDecode⟩
  | openBsd h => exact ⟨OpenBsd.Client.devices_of_rejects h, .inl h.isDecode⟩
  | userspace h => exact ⟨Uapi.Client.devices_of_rejects h, h.isRejection⟩

/-! ### Systems that answer with nothing -/

/-- A Linux kernel that answers every request with a message about an interface, without content. -/
def emptyMessages : Netlink.Client (StateM Unit) :=
  let channel : Netlink.Channel (StateM Unit) :=
    ⟨fun _ _ _ => pure (.ok [{ kind := Netlink.Link.kindNew }]), pure (.ok ())⟩
  ⟨channel, channel, 27⟩

/-- An OpenBSD kernel that answers every question with no octets. -/
def emptyRecords : OpenBsd.Kernel (StateM Unit) where
  groupMembers := fun _ _ => pure (.ok (0, []))
  getDevice := fun _ _ => pure (.ok (0, []))
  setDevice := fun _ _ => pure (.ok ())
  close := pure (.ok ())

/-- A program with the device `wg0` that responds to every request with no octets. -/
def emptyResponses : Uapi.Client (StateM Unit) where
  host.entries := fun _ => pure (.ok [⟨[119, 103, 48], true⟩])
  host.exchange := fun _ _ => pure (.ok [])
  directories := [[Uapi.slash]]

lemma rejectsDevice_emptyRecords :
    ∃ e, RejectsDevice "wg0" (OpenBsd.Client.backend emptyRecords) () e () :=
  ⟨_, .openBsd (by decide) ⟨_, [], rfl, rfl, rfl⟩⟩

lemma rejectsListing_emptyMessages : ∃ e, RejectsListing emptyMessages.backend () e () :=
  ⟨_, .netlink (.inl ⟨_, rfl, .inr ⟨_, by simp, rfl, rfl⟩⟩)⟩

lemma rejectsUpdate_emptyResponses :
    ∃ e, RejectsUpdate "wg0" {} emptyResponses.backend () e () := by
  have hname : Uapi.deviceName? [Uapi.slash, 119, 103, 48] = some "wg0" := by decide +kernel
  have hsocket : emptyResponses.socket "wg0" () = (.ok [Uapi.slash, 119, 103, 48], ()) := by
    have hsorted : Uapi.socketPaths [Uapi.slash] [⟨[119, 103, 48], true⟩] =
        [[Uapi.slash, 119, 103, 48]] :=
      congrArg (List.map (Uapi.childPath [Uapi.slash])) (List.mergeSort_singleton _)
    have hpaths : Uapi.findSockets emptyResponses.host emptyResponses.directories () =
        (.ok [[Uapi.slash, 119, 103, 48]], ()) :=
      congrArg (fun paths => (Except.ok (paths ++ []), ())) hsorted
    rw [Uapi.Client.socket]
    simp only [bind, StateT.bind, hpaths, List.find?, hname, decide_true]
    rfl
  have hread : Uapi.readSet [] = .error (.decode "response missing errno") := by
    rw [Uapi.readSet, Uapi.Pairs.ofText, Uapi.Pairs.body, Text.Lines.split]
    rfl
  refine ⟨.decode "response missing errno", .userspace ⟨_, (), hsocket, [], rfl, ?_⟩⟩
  rw [Uapi.responseText, Uapi.responseOf, Text.Utf8.decode, Text.Utf8.decodeFrom]
  exact hread

/-! ### Malformed answers -/

/-- **A malformed answer never looks like a device that is not there.** What reads the messages of
the Linux kernel or the records of the OpenBSD driver fails only because they are malformed; what
reads the responses of a program fails only because they are malformed or report an error number
that is not zero. None of these failures is one that lets a device be looked for elsewhere or that
blames an argument. The Linux kernel is taken to have no device only if the name is empty, the
request is refused as one for a device that is not there or of another sort, or the answer is empty.
A chain that gets to a backend which rejects an answer gives that failure, and calls no backend
behind it. -/
theorem malformed_answers :
    (∀ messages, FailsOnly Error.IsDecode (Netlink.ofDump messages)) ∧
    (∀ payload, FailsOnly Error.IsDecode (Netlink.wireguardName? payload)) ∧
    (∀ name b, FailsOnly Error.IsDecode (OpenBsd.readDevice name b)) ∧
    (∀ name response, FailsOnly Error.IsRejection (Uapi.readGet name response)) ∧
    (∀ response, FailsOnly Error.IsRejection (Uapi.readSet response)) ∧
    (∀ e : Error, e.IsRejection →
      e.kind ≠ .notExist ∧ e.kind ≠ .unimplemented ∧ e.kind ≠ .invalidArgument) ∧
    (∀ c : Netlink.Client (StateM σ), Netlink.Client.FailsByIo c.generic →
      ∀ name s s', c.device name s = (.error .notExist, s') ↔
        (name = "" ∧ s = s') ∨ (name ≠ "" ∧
          ((∃ e, Netlink.Client.DeniesDevice e ∧ c.Answers name s (.error e) s') ∨
            c.Answers name s (.ok []) s'))) ∧
    ∀ (before later : List (Backend (StateM σ))) (b : Backend (StateM σ)) (e : Error) (s s₁ s₂ : σ),
      (∀ name, PassedOver (·.device name) before s s₁ → RejectsDevice name b s₁ e s₂ →
        e.IsRejection ∧ Gives ((Chain.mk (before ++ b :: later)).backend.device name)
          ((Chain.mk (notedFrom 0 (before ++ b :: later))).backend.device name) s (.error e) s₂
          (callsFrom 0 (before.length + 1) (.device name))) ∧
      (∀ name config, PassedOver (·.configure name config) before s s₁ →
        RejectsUpdate name config b s₁ e s₂ →
        e.IsRejection ∧ Gives ((Chain.mk (before ++ b :: later)).backend.configure name config)
          ((Chain.mk (notedFrom 0 (before ++ b :: later))).backend.configure name config) s
          (.error e) s₂ (callsFrom 0 (before.length + 1) (.configure name config))) ∧
      (ListedOver before s s₁ → RejectsListing b s₁ e s₂ →
        e.IsRejection ∧ Gives (Chain.mk (before ++ b :: later)).backend.devices
          (Chain.mk (notedFrom 0 (before ++ b :: later))).backend.devices s (.error e) s₂
          (callsFrom 0 (before.length + 1) .devices)) := by
  refine ⟨Netlink.failsOnly_ofDump, Netlink.failsOnly_wireguardName?, OpenBsd.failsOnly_readDevice,
    Uapi.failsOnly_readGet, Uapi.failsOnly_readSet, fun e he => ?_,
    fun c hio name s s' => Netlink.Client.device_eq_notExist_iff hio,
    fun before later b e s s₁ s₂ => ⟨fun name hbefore h => ?_, fun name config hbefore h => ?_,
      fun hbefore h => ?_⟩⟩
  · rcases he.kind with hkind | hkind <;> simp [hkind]
  · obtain ⟨hfails, he⟩ := h.fails
    exact ⟨he, gives_first_of_passedOver (fun _ b => b.device name) (fun _ _ => rfl) hbefore hfails
      he later 0⟩
  · obtain ⟨hfails, he⟩ := h.fails
    exact ⟨he, gives_first_of_passedOver (fun _ b => b.configure name config) (fun _ _ => rfl)
      hbefore hfails he later 0⟩
  · obtain ⟨hfails, he⟩ := h.fails
    exact ⟨he, gives_gather_of_listedOver hbefore hfails he later 0⟩

/-- Systems that answer with nothing, behind a backend that is not available. -/
theorem malformed_answers_empty :
    let away : Backend (StateM Unit) := .unavailable "kernel" "no driver"
    (Netlink.Client.FailsByIo emptyMessages.generic ∧
      emptyMessages.device "wg0" () ≠ (.error .notExist, ())) ∧
    (∃ e, e.IsRejection ∧ e.kind ≠ .notExist ∧
      Gives ((Chain.mk [away, OpenBsd.Client.backend emptyRecords, away]).backend.device "wg0")
        ((Chain.mk (notedFrom 0 [away, OpenBsd.Client.backend emptyRecords, away])).backend.device
          "wg0") () (.error e) () [(0, .device "wg0"), (1, .device "wg0")]) ∧
    (∃ e, e.IsRejection ∧
      Gives ((Chain.mk [away, emptyResponses.backend, away]).backend.configure "wg0" {})
        ((Chain.mk (notedFrom 0 [away, emptyResponses.backend, away])).backend.configure "wg0" {})
        () (.error e) () [(0, .configure "wg0" {}), (1, .configure "wg0" {})]) ∧
    ∃ e, e.IsRejection ∧
      Gives (Chain.mk [away, emptyMessages.backend, away]).backend.devices
        (Chain.mk (notedFrom 0 [away, emptyMessages.backend, away])).backend.devices () (.error e)
        () [(0, .devices), (1, .devices)] := by
  intro away
  obtain ⟨-, -, -, -, -, hkind, hnotExist, hchain⟩ := malformed_answers (σ := Unit)
  have hio : Netlink.Client.FailsByIo emptyMessages.generic := by
    rintro _ _ _ _ _ _ ⟨⟩
  refine ⟨⟨hio, fun h => ?_⟩, ?_, ?_, ?_⟩
  · rcases (hnotExist _ hio _ _ _).mp h with
      ⟨hname, -⟩ | ⟨-, ⟨_, -, _, -, hanswer⟩ | ⟨_, -, hanswer⟩⟩
    · exact absurd hname (by decide)
    · cases hanswer
    · cases hanswer
  · obtain ⟨e, h⟩ := rejectsDevice_emptyRecords
    obtain ⟨he, hgives⟩ := (hchain [away] [away] _ e () () ()).1 "wg0" (.cons rfl rfl (.nil ())) h
    exact ⟨e, he, (hkind e he).1, hgives⟩
  · obtain ⟨e, h⟩ := rejectsUpdate_emptyResponses
    exact ⟨e, (hchain [away] [away] _ e () () ()).2.1 "wg0" {} (.cons rfl rfl (.nil ())) h⟩
  · obtain ⟨e, h⟩ := rejectsListing_emptyMessages
    have hpasses : ListsOrPasses (.error (.unimplemented "kernel" "no driver")) :=
      .inr ⟨_, rfl, .inr rfl⟩
    exact ⟨e, (hchain [away] [away] _ e () () ()).2.2 (.cons rfl hpasses (.nil ())) h⟩

end WireGuardControl.Chain
