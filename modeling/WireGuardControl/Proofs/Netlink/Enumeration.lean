import Mathlib.Tactic
import WireGuardControl.Proofs.Netlink.Links
import WireGuardControl.Proofs.Netlink.Room
import WireGuardControl.Proofs.Netlink.Transcript
/-!
The requests that a listing makes, in their order.

* `Client.AsksForDevice`: an event is the request for a device; `Event.device`: what its reply says.
* `Client.device_inquires`: a device is read with one such request, if its name is not empty and has
  room in an attribute.
* `Client.devices_transcript`: what a listing asks for, and what it makes of the replies. The
  requests for devices are an instance of `readEach_lists`.
-/

namespace WireGuardControl.Netlink

open Text

variable {σ : Type}

/-- What the reply to a request for a device says. -/
def Event.device (event : Event) : Except Error Device :=
  (event.reply.mapError noteAbsence).bind Client.ofAnswer

/-- The request for all interfaces, with its reply. -/
def linksEvent (reply : Reply) : Event :=
  ⟨.request .links Link.kindGet (flagRequest ||| flagDump) linkDumpRequest, reply⟩

namespace Client

variable {c : Client (StateM σ)} {name : String}

/-- An event is the request for a device: over the channel of generic netlink, to the WireGuard
family, with the wish for a dump, and with the name behind the header of a reading. -/
def AsksForDevice (c : Client (StateM σ)) (name : String) (event : Event) : Prop :=
  ∃ data, nameRequest name = .ok data ∧
    event.call = .request .generic c.family (flagRequest ||| flagDump) (getRequest data)

/-- There is room for a name in an attribute, with its header and a zero octet. -/
lemma exists_nameRequest (h : (Utf8.ofString name).length < 65531) :
    ∃ data, nameRequest name = .ok data := by
  rcases fitsOr_name name with ⟨data, hdata, -⟩ | ⟨e, -, hlong, -⟩
  · exact ⟨data, hdata⟩
  · simp only [Encoder.maxLength] at hlong
    omega

/-- **A device is read with one request.** -/
lemma device_inquires (hname : name ≠ "") (hlength : (Utf8.ofString name).length < 65531) (s : σ) :
    ∃ event s', AsksForDevice c name event ∧
      Inquires (fun x => [x]) Event.device (c.device name) (c.noted.device name) s event s' := by
  obtain ⟨data, hdata⟩ := exists_nameRequest hlength
  rcases hanswer : c.generic.execute c.family (flagRequest ||| flagDump) (getRequest data) s
    with ⟨reply, s'⟩
  have hnoted := Channel.noted_execute .generic hanswer
  refine ⟨⟨.request .generic c.family (flagRequest ||| flagDump) (getRequest data), reply⟩, s',
    ⟨data, hdata, rfl⟩, device_of_answers hname ⟨data, hdata, hanswer⟩, fun log => ?_⟩
  exact device_of_answers (c := c.noted) hname ⟨data, hdata, hnoted log⟩

lemma interfaces_run {reply : Reply} {s s₁ : σ}
    (h : c.links.execute Link.kindGet (flagRequest ||| flagDump) linkDumpRequest s = (reply, s₁)) :
    c.interfaces s = (reply.bind names, s₁) := by
  rw [interfaces]
  simp only [bind, StateT.bind, h]
  rfl

lemma devices_of_names {reported : List String} {s s₁ : σ}
    (h : c.interfaces s = (.ok reported, s₁)) : c.devices s = readEach c.device reported s₁ := by
  rw [devices]
  simp only [bind, StateT.bind, h]
  rw [devicesNamed_eq]

lemma devices_of_error {e : Error} {s s₁ : σ} (h : c.interfaces s = (.error e, s₁)) :
    c.devices s = (.error e, s₁) := by
  rw [devices]
  simp only [bind, StateT.bind, h]
  rfl

/-- Devices are read one after the other, with one request for each that has a name. -/
lemma readEach_transcript (c : Client (StateM σ)) {reported : List String}
    (hshort : ∀ name ∈ reported, (Utf8.ofString name).length < 65531) (s : σ) :
    ∃ outcome s' asked requests, readEach c.device reported s = (outcome, s') ∧
      (∀ log, readEach c.noted.device reported (s, log) = (outcome, (s', log ++ requests))) ∧
      List.Forall₂ (AsksForDevice c) asked requests ∧
      Lists (reported.filter (· ≠ "")) asked (requests.map Event.device) outcome := by
  have hread : ∀ name ∈ reported.filter (· ≠ ""), ∀ s, ∃ event s', AsksForDevice c name event ∧
      Inquires (fun x => [x]) Event.device (c.device name) (c.noted.device name) s event s' := by
    intro name hname s
    obtain ⟨hmem, hne⟩ := List.mem_filter.mp hname
    exact device_inquires (of_decide_eq_true hne) (hshort name hmem) s
  -- Without a name nothing is asked for, so that such interfaces may be left out in front.
  have hunnamed {τ : Type} (c : Client (StateM τ)) (name : String)
      (h : decide (name ≠ "") = false) (s : τ) : c.device name s = (.error .notExist, s) := by
    obtain rfl := not_not.mp (of_decide_eq_false h)
    exact device_empty s
  obtain ⟨outcome, s', asked, requests, hplain, hlog, hall, hlists⟩ := readEach_lists _ hread s
  refine ⟨outcome, s', asked, requests, ?_, fun log => ?_, hall, hlists⟩
  · rw [← hplain, readEach_filter (hunnamed c)]
  · rw [← readEach_filter (hunnamed c.noted), hlog, List.flatMap_singleton']

/-- **A listing asks for the interfaces once, and then for one device after the other.** If a
message about an interface is malformed, then so is the answer, and no device is asked for.
Otherwise the devices that are asked for are those of the dump whose interfaces have a name and tell
WireGuard as their kind, in the order of the dump and whatever the order of their attributes. A
reply that is a failure, and does not say that its device is gone, is the last one and the outcome.
If there is none, then all are asked for, and those that are not gone are listed in order. -/
theorem devices_transcript (c : Client (StateM σ)) (s : σ) {reply : Reply} {s₁ : σ}
    (hreply : c.links.execute Link.kindGet (flagRequest ||| flagDump) linkDumpRequest s =
      (reply, s₁))
    (hshort : ∀ reported, reply.bind names = .ok reported →
      ∀ name ∈ reported, (Utf8.ofString name).length < 65531) :
    ∃ outcome s' requests, c.devices s = (outcome, s') ∧
      (∀ log, c.noted.devices (s, log) = (outcome, (s', log ++ linksEvent reply :: requests))) ∧
      (∀ e, reply = .error e → requests = [] ∧ outcome = .error e) ∧
      ∀ messages, reply = .ok messages →
        ((∃ x ∈ linkMessages messages, ¬ IsLink x.payload) →
          requests = [] ∧ ∃ detail, outcome = .error (.decode detail)) ∧
        ((∀ x ∈ linkMessages messages, IsLink x.payload) →
          ∃ asked, List.Forall₂ (AsksForDevice c) asked requests ∧
            Lists ((linkNames messages).filter (· ≠ "")) asked (requests.map Event.device)
              outcome) := by
  have hrun := interfaces_run hreply
  have hnoted (log : List Event) : c.noted.interfaces (s, log) =
      (reply.bind names, (s₁, log ++ [linksEvent reply])) :=
    interfaces_run (c := c.noted) (Channel.noted_execute .links hreply log)
  cases hnames : reply.bind names with
  | error e =>
      rw [hnames] at hrun hnoted
      refine ⟨.error e, s₁, [], devices_of_error hrun,
        fun log => devices_of_error (c := c.noted) (hnoted log), ?_, ?_⟩
      · rintro e' rfl
        exact ⟨rfl, congrArg _ (Except.error.inj hnames).symm⟩
      · rintro messages rfl
        refine ⟨fun _ => ⟨rfl, ?_⟩, fun hall => ?_⟩
        · obtain ⟨detail, rfl⟩ := (failsOnly_names messages e hnames).exists_eq
          exact ⟨detail, rfl⟩
        · have hok := (names_eq_ok_iff messages _).mpr ⟨hall, rfl⟩
          cases hok.symm.trans hnames
  | ok reported =>
      rw [hnames] at hrun hnoted
      obtain ⟨outcome, s', asked, requests, hplain, hlog, hall, hlists⟩ :=
        readEach_transcript c (hshort reported hnames) s₁
      refine ⟨outcome, s', requests, (devices_of_names hrun).trans hplain, fun log => ?_, ?_, ?_⟩
      · rw [devices_of_names (c := c.noted) (hnoted log), hlog, List.append_assoc,
          List.singleton_append]
      · rintro e rfl
        cases hnames
      · rintro messages rfl
        obtain ⟨hlinks, rfl⟩ := (names_eq_ok_iff messages _).mp hnames
        exact ⟨fun ⟨x, hx, hbad⟩ => absurd (hlinks x hx) hbad, fun _ => ⟨asked, hall, hlists⟩⟩

/-- A message about an interface. -/
def linkMessage (attributes : Bytes) : Message where
  kind := Link.kindNew
  payload := List.replicate Link.infoLength 0 ++ attributes

/-- The attribute that names an interface. -/
def linkNamed (name : String) : Bytes := record Link.name (Utf8.ofString name ++ [0])

/-- The attribute that tells what an interface is. -/
def linkOfKind (kind : String) : Bytes :=
  record Link.info (record Link.infoKind (Utf8.ofString kind ++ [0]))

/-- A dump of four interfaces and a message of another type. One interface is of another kind, one
has no name, and one tells its kind before its name. -/
def linkDump : List Message :=
  [linkMessage (linkOfKind wireguard ++ linkNamed "wg0"),
    linkMessage (linkNamed "eth0" ++ linkOfKind "veth"), { kind := 3 },
    linkMessage (linkNamed "" ++ linkOfKind wireguard),
    linkMessage (linkNamed "wg1" ++ linkOfKind wireguard)]

/-- The first device answers with its name, and the second one vanishes. -/
theorem devices_transcript_vanished :
    let c : Client (StateM Rehearsal) :=
      { generic := Rehearsal.channel .generic (.ok ())
        links := Rehearsal.channel .links (.ok ())
        family := 30 }
    let described := GenericMessage.encode
      ⟨commandGet, wireguardVersion, record DeviceField.name (Utf8.ofString "wg0" ++ [0])⟩
    let s : Rehearsal :=
      { generic := [.ok [{ kind := 30, payload := described }], .error (.io (.code codeNoDevice))]
        links := [.ok linkDump] }
    let listed : List Device := [{ name := "wg0", deviceType := .linuxKernel }]
    (c.devices s).1 = .ok listed ∧
      ∃ asked requests s', (∀ log, c.noted.devices (s, log) =
          (.ok listed, (s', log ++ linksEvent (.ok linkDump) :: requests))) ∧
        List.Forall₂ (AsksForDevice c) asked requests ∧
        Lists ["wg0", "wg1"] asked (requests.map Event.device) (.ok listed) := by
  intro c described s listed
  have hlisted : (c.devices s).1 = .ok listed := by decide +kernel
  have hnames : names linkDump = .ok ["wg0", "", "wg1"] := by decide +kernel
  obtain ⟨hlinks, hreported⟩ := (names_eq_ok_iff linkDump _).mp hnames
  have hreply : c.links.execute Link.kindGet (flagRequest ||| flagDump) linkDumpRequest s =
      (.ok linkDump, _) := rfl
  have hshort : ∀ reported, Except.bind (.ok linkDump) names = .ok reported →
      ∀ name ∈ reported, (Utf8.ofString name).length < 65531 := by
    intro reported h
    obtain rfl := Except.ok.inj (hnames.symm.trans h)
    decide +kernel
  obtain ⟨outcome, s', requests, hplain, hnoted, -, hread⟩ :=
    devices_transcript c s hreply hshort
  obtain ⟨asked, hall, hlists⟩ := (hread linkDump rfl).2 hlinks
  rw [hplain] at hlisted
  obtain rfl : outcome = .ok listed := hlisted
  have hfilter : (linkNames linkDump).filter (· ≠ "") = ["wg0", "wg1"] := by
    rw [← hreported]
    decide
  exact ⟨by rw [hplain], asked, requests, s', hnoted, hall, hfilter ▸ hlists⟩

end Client

end WireGuardControl.Netlink
