import Mathlib.Tactic
import WireGuardControl.Netlink.Client
import WireGuardControl.Netlink.Rehearsal
import WireGuardControl.Proofs.Batch.Parts
import WireGuardControl.Proofs.Chain.Asking
import WireGuardControl.Proofs.Netlink.Room
/-!
How the batches of an update are delivered.

* `Client.Acknowledged`: a run over batches each of which is written, sent and acknowledged.
* `Client.StopsAfter`: such a run that ends with a batch which the channel refuses; the batches
  behind it are not sent.
* `Client.send_eq_error_iff`: where sending batches can fail.
* `Client.configure_notExist_iff`: when a device is reported as absent, some batches may have been
  acknowledged before, and only then does a chain ask the backends behind.
-/

namespace WireGuardControl.Netlink

/-- The payload of the request for an update with the attributes `data`. -/
def setRequest (data : Bytes) : Bytes := GenericMessage.encode ⟨commandSet, wireguardVersion, data⟩

namespace Client

variable {σ : Type}

/-! ### Runs over batches -/

/-- Batches that are written, sent and acknowledged one after the other. -/
inductive Acknowledged (c : Client (StateM σ)) (name : String) : List Config → σ → σ → Prop
  /-- Nothing is sent. -/
  | nil (s : σ) : Acknowledged c name [] s s
  /-- A batch is sent first, and acknowledged. -/
  | cons {b : Config} {bs : List Config} {data : Bytes} {reply : List Message} {s s₁ s' : σ}
      (written : encodeConfig name b = .ok data)
      (answer : c.generic.execute c.family (flagRequest ||| flagAck) (setRequest data) s =
        (.ok reply, s₁))
      (later : Acknowledged c name bs s₁ s') : Acknowledged c name (b :: bs) s s'

/-- A batch that is written and sent, and that the channel refuses with `e`. -/
def Refused (c : Client (StateM σ)) (name : String) (b : Config) (e : Error) (s s' : σ) : Prop :=
  ∃ data, encodeConfig name b = .ok data ∧
    c.generic.execute c.family (flagRequest ||| flagAck) (setRequest data) s = (.error e, s')

/-- The batches `sent` are acknowledged, the next one is refused with `e`, and those behind it
are not sent. -/
def StopsAfter (c : Client (StateM σ)) (name : String) (batches sent : List Config) (e : Error)
    (s s' : σ) : Prop :=
  ∃ b later s₁, batches = sent ++ b :: later ∧ Acknowledged c name sent s s₁ ∧
    Refused c name b e s₁ s'

variable {c : Client (StateM σ)} {name : String}

lemma execute_set (data : Bytes) (s : σ) :
    c.execute commandSet (flagRequest ||| flagAck) data s =
      ((c.generic.execute c.family (flagRequest ||| flagAck) (setRequest data) s).1.mapError
        noteAbsence,
        (c.generic.execute c.family (flagRequest ||| flagAck) (setRequest data) s).2) := rfl

lemma send_cons_of_error {b : Config} {bs : List Config} {e : Error}
    (h : encodeConfig name b = .error e) (s : σ) : c.send name (b :: bs) s = (.error e, s) := by
  rw [send, h]
  rfl

lemma send_cons_of_ok {b : Config} {bs : List Config} {data : Bytes} {reply : List Message}
    {s s₁ : σ} (h : encodeConfig name b = .ok data)
    (answer : c.generic.execute c.family (flagRequest ||| flagAck) (setRequest data) s =
      (.ok reply, s₁)) : c.send name (b :: bs) s = c.send name bs s₁ := by
  rw [send, h]
  simp only [bind, StateT.bind, execute_set, answer, Except.mapError]

lemma send_cons_of_refused {b : Config} {bs : List Config} {data : Bytes} {e : Error}
    {s s₁ : σ} (h : encodeConfig name b = .ok data)
    (answer : c.generic.execute c.family (flagRequest ||| flagAck) (setRequest data) s =
      (.error e, s₁)) : c.send name (b :: bs) s = (.error (noteAbsence e), s₁) := by
  rw [send, h]
  simp only [bind, StateT.bind, execute_set, answer, Except.mapError]
  rfl

/-- Behind acknowledged batches, the others are sent. -/
lemma send_append_of_acknowledged {sent rest : List Config} {s s₁ : σ}
    (h : Acknowledged c name sent s s₁) : c.send name (sent ++ rest) s = c.send name rest s₁ := by
  induction h with
  | nil s => rfl
  | cons written answer _ ih => rw [List.cons_append, send_cons_of_ok written answer, ih]

/-- Sending batches fails at one that cannot be written, or at one that is refused. -/
lemma send_eq_error_iff {bs : List Config} {e : Error} {s s' : σ} :
    c.send name bs s = (.error e, s') ↔
      (∃ sent b later, bs = sent ++ b :: later ∧ Acknowledged c name sent s s' ∧
        encodeConfig name b = .error e) ∨
      ∃ sent e₀, StopsAfter c name bs sent e₀ s s' ∧ noteAbsence e₀ = e := by
  constructor
  · intro h
    induction bs generalizing s with
    | nil => cases h
    | cons b bs ih =>
        cases hdata : encodeConfig name b with
        | error cause =>
            rw [send_cons_of_error hdata] at h
            obtain ⟨hcause, rfl⟩ := Prod.mk.inj h
            obtain rfl := Except.error.inj hcause
            exact Or.inl ⟨[], b, bs, rfl, .nil s, hdata⟩
        | ok data =>
            rcases hanswer : c.generic.execute c.family (flagRequest ||| flagAck)
              (setRequest data) s with ⟨cause | reply, s₁⟩
            · rw [send_cons_of_refused hdata hanswer] at h
              obtain ⟨hcause, rfl⟩ := Prod.mk.inj h
              exact Or.inr ⟨[], cause, ⟨b, bs, s, rfl, .nil s, data, hdata, hanswer⟩,
                Except.error.inj hcause⟩
            · rw [send_cons_of_ok hdata hanswer] at h
              rcases ih h with ⟨sent, b', later, rfl, hack, hb'⟩ |
                ⟨sent, e₀, ⟨b', later, s₂, rfl, hack, hrefused⟩, he₀⟩
              · exact Or.inl ⟨b :: sent, b', later, rfl, .cons hdata hanswer hack, hb'⟩
              · exact Or.inr ⟨b :: sent, e₀,
                  ⟨b', later, s₂, rfl, .cons hdata hanswer hack, hrefused⟩, he₀⟩
  · rintro (⟨sent, b, later, rfl, hack, hb⟩ |
      ⟨sent, e₀, ⟨b, later, s₁, rfl, hack, data, hdata, hanswer⟩, rfl⟩)
    · rw [send_append_of_acknowledged hack, send_cons_of_error hb]
    · rw [send_append_of_acknowledged hack, send_cons_of_refused hdata hanswer]

/-! ### Devices that are reported as absent -/

/-- Whether a failure says that the kernel has no such device, or one of another sort. -/
def DeniesDevice (e : Error) : Prop :=
  e = .io (.code codeNoDevice) ∨ e = .io (.code codeNotSupported)

lemma noteAbsence_of_deniesDevice {e : Error} (h : DeniesDevice e) : noteAbsence e = .notExist := by
  rcases h with rfl | rfl <;> rfl

lemma noteAbsence_of_not_deniesDevice {e : Error} (h : ¬ DeniesDevice e) : noteAbsence e = e := by
  have hcode : ∀ n, e.hasCode n = true → e = .io (.code n) := by
    intro n hn
    rcases e with _ | _ | _ | _ | _ | _ | _ | _ | (k | _) | _ <;>
      simp only [Error.hasCode, Bool.false_eq_true, beq_iff_eq] at hn
    rw [hn]
  rw [noteAbsence, if_neg]
  rw [Bool.or_eq_true]
  rintro (hn | hn)
  · exact h (Or.inl (hcode _ hn))
  · exact h (Or.inr (hcode _ hn))

lemma noteAbsence_eq_notExist_iff {e : Error} :
    noteAbsence e = .notExist ↔ e = .notExist ∨ DeniesDevice e := by
  by_cases h : DeniesDevice e
  · simp only [noteAbsence_of_deniesDevice h, h, or_true]
  · simp only [noteAbsence_of_not_deniesDevice h, h, or_false]

lemma passes_noteAbsence_iff {e : Error} :
    (noteAbsence e).passes = true ↔ e.passes = true ∨ DeniesDevice e := by
  by_cases h : DeniesDevice e
  · simp only [noteAbsence_of_deniesDevice h, h, or_true, iff_true]
    rfl
  · simp only [noteAbsence_of_not_deniesDevice h, h, or_false]

lemma passes_of_kind_invalidArgument {e : Error} (h : e.kind = .invalidArgument) :
    e.passes = false := by
  rw [Error.passes, h]

/-- An update that is not split stops before anything is acknowledged. -/
lemma StopsAfter.sent_eq_nil {config : Config} {sent : List Config} {e : Error} {s s' : σ}
    (h : StopsAfter c name config.batches sent e s s') (hc : config.isLarge = false) :
    sent = [] := by
  obtain ⟨b, later, s₁, hbatches, -, -⟩ := h
  rw [Config.batches_of_not_isLarge hc] at hbatches
  cases sent with
  | nil => rfl
  | cons first rest => simp at hbatches

/-- Netlink passes an update on exactly when a batch is refused in a way that is passed on. -/
lemma configure_passes_iff {config : Config} {s s' : σ} :
    (∃ e, c.configure name config s = (.error e, s') ∧ e.passes = true) ↔
      ∃ sent e, StopsAfter c name config.batches sent e s s' ∧
        (e.passes = true ∨ DeniesDevice e) := by
  constructor
  · rintro ⟨e, he, hpasses⟩
    rcases send_eq_error_iff.mp he with ⟨sent, b, later, -, -, hb⟩ | ⟨sent, e₀, hstops, rfl⟩
    · rw [passes_of_kind_invalidArgument (kind_of_encodeConfig_error hb)] at hpasses
      cases hpasses
    · exact ⟨sent, e₀, hstops, passes_noteAbsence_iff.mp hpasses⟩
  · rintro ⟨sent, e, hstops, he⟩
    exact ⟨noteAbsence e, send_eq_error_iff.mpr (Or.inr ⟨sent, e, hstops, rfl⟩),
      passes_noteAbsence_iff.mpr he⟩

/-- A device is reported as absent exactly when a batch is refused in a way that says so. -/
lemma configure_eq_notExist_iff {config : Config} {s s' : σ} :
    c.configure name config s = (.error .notExist, s') ↔
      ∃ sent e, StopsAfter c name config.batches sent e s s' ∧
        (e = .notExist ∨ DeniesDevice e) := by
  constructor
  · intro h
    rcases send_eq_error_iff.mp h with ⟨sent, b, later, -, -, hb⟩ | ⟨sent, e, hstops, he⟩
    · cases kind_of_encodeConfig_error hb
    · exact ⟨sent, e, hstops, noteAbsence_eq_notExist_iff.mp he⟩
  · rintro ⟨sent, e, hstops, he⟩
    exact send_eq_error_iff.mpr (Or.inr ⟨sent, e, hstops, noteAbsence_eq_notExist_iff.mpr he⟩)

/-- The backends behind netlink in a chain are asked exactly after a batch was refused in a way
that is passed on. -/
lemma passedOver_backend_iff {config : Config} {before between : List (Backend (StateM σ))}
    {s s' : σ} :
    Chain.PassedOver (·.configure name config) (before ++ c.backend :: between) s s' ↔
      ∃ sent e s₁ s₂, Chain.PassedOver (·.configure name config) before s s₁ ∧
        StopsAfter c name config.batches sent e s₁ s₂ ∧ (e.passes = true ∨ DeniesDevice e) ∧
        Chain.PassedOver (·.configure name config) between s₂ s' := by
  rw [Chain.passedOver_append]
  constructor
  · rintro ⟨s₁, hbefore, hrest⟩
    obtain ⟨e, s₂, answer, passes, hbetween⟩ := Chain.passedOver_cons.mp hrest
    obtain ⟨sent, e₀, hstops, he₀⟩ := configure_passes_iff.mp ⟨e, answer, passes⟩
    exact ⟨sent, e₀, s₁, s₂, hbefore, hstops, he₀, hbetween⟩
  · rintro ⟨sent, e, s₁, s₂, hbefore, hstops, he, hbetween⟩
    obtain ⟨e', answer, passes⟩ := configure_passes_iff.mpr ⟨sent, e, hstops, he⟩
    exact ⟨s₁, hbefore, Chain.passedOver_cons.mpr ⟨e', s₂, answer, passes, hbetween⟩⟩

/-- A chain that begins with netlink goes on with the backends behind after such a refusal, and
otherwise answers as netlink does. -/
lemma configure_chain_cases (c : Client (StateM σ)) (name : String) (config : Config)
    (later : List (Backend (StateM σ))) (s : σ) :
    (∃ sent e s', StopsAfter c name config.batches sent e s s' ∧
      (e.passes = true ∨ DeniesDevice e) ∧
      (Chain.mk (c.backend :: later)).backend.configure name config s =
        (Chain.mk later).backend.configure name config s') ∨
    (∀ sent e s', StopsAfter c name config.batches sent e s s' →
      ¬ (e.passes = true ∨ DeniesDevice e)) ∧
      (Chain.mk (c.backend :: later)).backend.configure name config s =
        c.configure name config s := by
  by_cases hpasses : ∃ e s', c.configure name config s = (.error e, s') ∧ e.passes = true
  · obtain ⟨e, s', answer, passes⟩ := hpasses
    obtain ⟨sent, e₀, hstops, he₀⟩ := configure_passes_iff.mp ⟨e, answer, passes⟩
    have hpassed : Chain.PassedOver (fun b => b.configure name config) [c.backend] s s' :=
      .cons answer passes (.nil s')
    exact Or.inl ⟨sent, e₀, s', hstops, he₀, Chain.first_append_of_passedOver hpassed⟩
  · have hstays : ∀ e s', c.configure name config s = (.error e, s') → e.passes = false :=
      fun e s' answer => eq_false_of_ne_true fun passes => hpasses ⟨e, s', answer, passes⟩
    refine Or.inr ⟨fun sent e s' hstops he => ?_, ?_⟩
    · obtain ⟨e', answer⟩ := configure_passes_iff.mpr ⟨sent, e, hstops, he⟩
      exact hpasses ⟨e', s', answer⟩
    · exact @Chain.first_cons_of_stops _ _ (fun b => b.configure name config) c.backend later s
        hstays

/-- **What a report of absence leaves open.** An update is answered by saying that the device does
not exist exactly when its batches are acknowledged up to one which the kernel refuses as it
refuses a device that it does not have; those behind it are not sent, and an update that is not
split is refused before anything is acknowledged. In a chain, the backends behind are asked after
such a run and after no other. -/
theorem configure_notExist_iff (c : Client (StateM σ)) (name : String) (config : Config) :
    (∀ s s', c.configure name config s = (.error .notExist, s') ↔
      ∃ sent e, StopsAfter c name config.batches sent e s s' ∧
        (e = .notExist ∨ DeniesDevice e)) ∧
    (∀ before between s s',
      Chain.PassedOver (·.configure name config) (before ++ c.backend :: between) s s' ↔
        ∃ sent e s₁ s₂, Chain.PassedOver (·.configure name config) before s s₁ ∧
          StopsAfter c name config.batches sent e s₁ s₂ ∧ (e.passes = true ∨ DeniesDevice e) ∧
          Chain.PassedOver (·.configure name config) between s₂ s') ∧
    (∀ later s,
      (∃ sent e s', StopsAfter c name config.batches sent e s s' ∧
        (e.passes = true ∨ DeniesDevice e) ∧
        (Chain.mk (c.backend :: later)).backend.configure name config s =
          (Chain.mk later).backend.configure name config s') ∨
      (∀ sent e s', StopsAfter c name config.batches sent e s s' →
        ¬ (e.passes = true ∨ DeniesDevice e)) ∧
        (Chain.mk (c.backend :: later)).backend.configure name config s =
          c.configure name config s) ∧
    ∀ sent e s s', StopsAfter c name config.batches sent e s s' → config.isLarge = false →
      sent = [] :=
  ⟨fun _ _ => configure_eq_notExist_iff, fun _ _ _ _ => passedOver_backend_iff,
    configure_chain_cases c name config, fun _ _ _ _ hstops => hstops.sent_eq_nil⟩

/-- An update of thirty-three peers whose first batch is acknowledged and whose second finds the
device gone: the device is reported as absent, and a chain hands the update on. -/
theorem configure_notExist_acknowledged :
    let c : Client (StateM Rehearsal) :=
      ⟨Rehearsal.channel .generic (.ok ()), Rehearsal.channel .links (.ok ()), 27⟩
    let config : Config := { peers := List.replicate 33 {} }
    let s : Rehearsal := { generic := [.ok [], .error (.io (.code codeNoDevice))] }
    ∃ first ∈ config.batches, ∃ s₁ s', Acknowledged c "wg0" [first] s s₁ ∧
      c.configure "wg0" config s = (.error .notExist, s') ∧
      ∀ later : List (Backend (StateM Rehearsal)),
        (Chain.mk (c.backend :: later)).backend.configure "wg0" config s =
          (Chain.mk later).backend.configure "wg0" config s' := by
  intro c config s
  have hlarge : config.isLarge = true := by decide
  have hkeepalive : ∀ p ∈ config.peers, ∀ i, p.keepalive = some i →
      i.seconds.toNat ≤ maxKeepalive := by
    intro p hp i hi
    rw [List.eq_of_mem_replicate hp] at hi
    cases hi
  have hwritten : ∀ b ∈ config.batches, ∃ data, encodeConfig "wg0" b = .ok data :=
    fun b hb => exists_encodeConfig_of_mem_batches (by decide) hkeepalive hb
  -- thirty-three updates have at least as many parts, and so there is a second batch
  obtain ⟨first, rest, hparts, hbatches⟩ := Config.batches_of_isLarge hlarge
  have hlen := PeerConfig.length_le_length_allParts [] config.peers
  rw [hparts, List.length_cons, List.length_replicate] at hlen
  obtain ⟨second, later, rfl⟩ := List.exists_cons_of_length_pos (by omega : 0 < rest.length)
  rw [List.map_cons] at hbatches
  set b₁ := config.onePeer first
  set b₂ := (config.onePeer second).keepingPeers
  obtain ⟨data₁, hdata₁⟩ := hwritten b₁ (by simp [hbatches])
  obtain ⟨data₂, hdata₂⟩ := hwritten b₂ (by simp [hbatches])
  let s₁ : Rehearsal :=
    { generic := [.error (.io (.code codeNoDevice))]
      log := [.request .generic 27 (flagRequest ||| flagAck) (setRequest data₁)] }
  let s₂ : Rehearsal :=
    { log := .request .generic 27 (flagRequest ||| flagAck) (setRequest data₂) :: s₁.log }
  have hanswer₁ : c.generic.execute 27 (flagRequest ||| flagAck) (setRequest data₁) s =
      (.ok [], s₁) := rfl
  have hanswer₂ : c.generic.execute 27 (flagRequest ||| flagAck) (setRequest data₂) s₁ =
      (.error (.io (.code codeNoDevice)), s₂) := rfl
  have hconfigure : c.configure "wg0" config s = (.error .notExist, s₂) := by
    rw [configure, hbatches, send_cons_of_ok hdata₁ hanswer₁, send_cons_of_refused hdata₂ hanswer₂]
    rfl
  refine ⟨b₁, by simp [hbatches], s₁, s₂, .cons hdata₁ hanswer₁ (.nil s₁), hconfigure,
    fun later => ?_⟩
  have hpassed : Chain.PassedOver (fun b => b.configure "wg0" config) [c.backend] s s₂ :=
    .cons hconfigure rfl (.nil s₂)
  exact Chain.first_append_of_passedOver hpassed

end Client

end WireGuardControl.Netlink
