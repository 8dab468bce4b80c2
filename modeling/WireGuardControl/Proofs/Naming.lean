import Mathlib.Data.List.TakeWhile
import Mathlib.Tactic
import WireGuardControl.OpenBsd.Record
import WireGuardControl.Proofs.Netlink.Readback
import WireGuardControl.Proofs.Netlink.Transcript
/-!
The interface that a request addresses.

* `beforeNul`: a name up to its first zero character.
* `Netlink.Addresses`: who reads the name in a row of attributes finds a given interface there.
  `addresses_iff_of_items` says which one it is, for a row that begins with a name and has no other.
* `Netlink.Call.Addresses`: the same for the payload of a request. All requests about a device are
  such (`Client.addresses_of_mem_configure`, `Client.addresses_of_mem_device`).
* `OpenBsd.interfaceName_eq_ok_iff`: a field of sixteen octets is made only of names that can be
  read back from it.
* `request_addresses`: the requests to the Linux kernel address the interface whose name stands in
  front of the first zero character, those to the OpenBSD kernel the one that was given.
-/

namespace WireGuardControl

open Text

/-! ### Names -/

/-- A name up to its first zero character. -/
def beforeNul (name : String) : String :=
  String.ofList (name.toList.takeWhile (· != '\x00'))

lemma beforeNul_eq_iff {name : String} : beforeNul name = name ↔ '\x00' ∉ name.toList := by
  rw [beforeNul, ← String.toList_inj, String.toList_ofList, List.takeWhile_eq_self_iff]
  constructor
  · intro h hmem
    simpa using h _ hmem
  · intro h c hc
    simpa using fun hzero : c = '\x00' => h (hzero ▸ hc)

/-! ### Requests to the Linux kernel -/

namespace Netlink

/-- A row of attributes has one name, which is read as `target`. -/
def Addresses (data : Bytes) (target : String) : Prop :=
  ∃ a, (Attributes.ofBytes data).items.filter (·.kind = DeviceField.name) = [a] ∧
    (Attributes.ofBytes data).fault = none ∧ a.string = .ok target

/-- An item is read as an attribute that is not a name. -/
def Item.Unnamed (i : Item) : Prop := ∀ a, i.asRead = .ok a → a.kind ≠ DeviceField.name

lemma Item.unnamed_plain {kind : UInt16} (h : kind &&& kindMask ≠ DeviceField.name)
    (payload : Bytes) : (plain kind payload).Unnamed := by
  rintro a ⟨⟩
  exact h

lemma Item.unnamed_nested {kind : UInt16}
    (h : (kind ||| nestedFlag) &&& kindMask ≠ DeviceField.name) (items : List Item) :
    (nested kind items).Unnamed := by
  intro a ha
  cases hitems : encodeAll items with
  | error cause =>
      rw [asRead, content, hitems] at ha
      cases ha
  | ok b =>
      rw [asRead_nested hitems] at ha
      obtain rfl := Except.ok.inj ha
      exact h

lemma filter_of_unnamed {items : List Item} {attributes : List Attribute}
    (h : ∀ i ∈ items, i.Unnamed)
    (hread : List.Forall₂ (fun i a => Item.asRead i = .ok a) items attributes) :
    attributes.filter (·.kind = DeviceField.name) = [] := by
  rw [List.filter_eq_nil_iff]
  induction hread with
  | nil => simp
  | cons hi _ ih =>
      rw [List.forall_mem_cons] at h ⊢
      exact ⟨by simpa using h.1 _ hi, ih h.2⟩

/-- **The interface that a row addresses** is the one whose name it begins with, up to the first
zero character, if it has no other name. -/
lemma addresses_iff_of_items {name : String} {rest : List Item} (hrest : ∀ i ∈ rest, i.Unnamed)
    {data : Bytes} (h : Item.encodeAll (.string DeviceField.name name :: rest) = .ok data)
    (target : String) : Addresses data target ↔ target = beforeNul name := by
  obtain ⟨hfault, hitems⟩ := Item.ofBytes_encodeAll h
  obtain ⟨a, attributes, ha, hattributes, hall⟩ := List.forall₂_cons_left_iff.mp hitems
  obtain rfl := Except.ok.inj ha
  have hname : (Attribute.ofRecord DeviceField.name (Utf8.ofString name ++ [0])).string =
      .ok (beforeNul name) := Attribute.string_ofRecord_takeWhile _ name
  have hfilter : (Attributes.ofBytes data).items.filter (·.kind = DeviceField.name) =
      [Attribute.ofRecord DeviceField.name (Utf8.ofString name ++ [0])] := by
    have hkind : (Attribute.ofRecord DeviceField.name (Utf8.ofString name ++ [0])).kind =
        DeviceField.name := rfl
    rw [hall, List.filter_cons, if_pos (decide_eq_true hkind), filter_of_unnamed hrest hattributes]
  constructor
  · rintro ⟨a, ha, -, hstring⟩
    obtain rfl := List.singleton_inj.mp (hfilter.symm.trans ha)
    exact Except.ok.inj (hstring.symm.trans hname)
  · rintro rfl
    exact ⟨_, hfilter, hfault, hname⟩

lemma unnamed_of_mem_configItems (name : String) (c : Config) :
    ∀ i ∈ (configItems name c).tail, i.Unnamed := by
  have hplain {α : Type} (o : Option α) {kind : UInt16} (payload : α → Bytes)
      (h : kind &&& kindMask ≠ DeviceField.name) :
      ∀ i ∈ (o.map fun x => Item.plain kind (payload x)).toList, i.Unnamed := by
    intro i hi
    obtain ⟨x, -, rfl⟩ := Option.map_eq_some_iff.mp (Option.mem_toList.mp hi)
    exact Item.unnamed_plain h _
  change ∀ i ∈ [] ++ _ ++ _ ++ _ ++ _ ++ _, Item.Unnamed i
  simp only [List.forall_mem_append]
  refine ⟨⟨⟨⟨⟨by simp, hplain _ _ (by decide)⟩, hplain _ _ (by decide)⟩,
    hplain _ _ (by decide)⟩, ?_⟩, ?_⟩
  · split_ifs
    · exact List.forall_mem_singleton.mpr (Item.unnamed_plain (by decide) _)
    · simp
  · split_ifs
    · simp
    · exact List.forall_mem_singleton.mpr (Item.unnamed_nested (by decide) _)

lemma addresses_encodeConfig {name : String} {c : Config} {data : Bytes}
    (h : encodeConfig name c = .ok data) (target : String) :
    Addresses data target ↔ target = beforeNul name :=
  addresses_iff_of_items (unnamed_of_mem_configItems name c) h target

lemma addresses_nameRequest {name : String} {data : Bytes} (h : nameRequest name = .ok data)
    (target : String) : Addresses data target ↔ target = beforeNul name :=
  addresses_iff_of_items (by simp) h target

/-- The attributes in the payload of a request to a generic family have one name, which is read as
`target`. -/
def Call.Addresses (call : Call) (target : String) : Prop :=
  ∃ family flags payload message, call = .request .generic family flags payload ∧
    GenericMessage.decode payload = .ok message ∧ Netlink.Addresses message.data target

lemma Call.addresses_iff {family flags : UInt16} {command version : UInt8} {data : Bytes}
    {target : String} :
    (Call.request .generic family flags
      (GenericMessage.encode ⟨command, version, data⟩)).Addresses target ↔
        Netlink.Addresses data target := by
  constructor
  · rintro ⟨_, _, _, message, hcall, hdecode, h⟩
    obtain ⟨-, rfl, rfl, rfl⟩ := Call.request.inj hcall
    obtain rfl := Except.ok.inj hdecode
    exact h
  · intro h
    exact ⟨_, _, _, _, rfl, GenericMessage.decode_encode _, h⟩

namespace Client

variable {σ : Type} (c : Client (StateM σ)) (name : String) (s : σ)

lemma addresses_of_asksFor {b : Config} {event : Event} (h : AsksFor c name b event)
    (target : String) : event.call.Addresses target ↔ target = beforeNul name := by
  obtain ⟨data, hdata, hcall⟩ := h
  rw [hcall]
  exact Call.addresses_iff.trans (addresses_encodeConfig hdata target)

/-- All requests of an update address one interface. -/
lemma addresses_of_mem_configure (config : Config) :
    ∀ event ∈ (c.noted.configure name config (s, [])).2.2, ∀ target,
      event.call.Addresses target ↔ target = beforeNul name := by
  obtain ⟨outcome, s', asked, events, -, hnoted, -, hall, -⟩ :=
    send_transcript c name config.batches s
  rw [configure, hnoted, List.nil_append]
  clear hnoted
  induction hall with
  | nil => simp
  | cons hasks _ ih => exact List.forall_mem_cons.mpr ⟨addresses_of_asksFor c name hasks, ih⟩

/-- The request for a device addresses one interface. -/
lemma addresses_of_mem_device :
    ∀ event ∈ (c.noted.device name (s, [])).2.2, ∀ target,
      event.call.Addresses target ↔ target = beforeNul name := by
  intro event hevent target
  rw [device] at hevent
  split_ifs at hevent with hempty
  · cases hevent
  · cases hdata : nameRequest name with
    | error e =>
        rw [hdata] at hevent
        cases hevent
    | ok data =>
        rw [hdata] at hevent
        obtain rfl := List.mem_singleton.mp hevent
        exact Call.addresses_iff.trans (addresses_nameRequest hdata target)

end Client

end Netlink

/-! ### Requests to the OpenBSD kernel -/

namespace OpenBsd

lemma zero_mem_ofString_iff {name : String} : 0 ∈ Utf8.ofString name ↔ '\x00' ∈ name.toList := by
  constructor
  · intro h
    by_contra hnone
    exact Utf8.notMem_encode (c := '\x00') (by decide) hnone h
  · intro h
    exact List.mem_flatMap.mpr ⟨'\x00', h, by decide⟩

/-- The names that have a field, and their fields. -/
lemma interfaceName_eq_ok_iff {name : String} {field : Block nameLength} :
    interfaceName name = .ok field ↔
      (Utf8.ofString name).length < nameLength ∧ '\x00' ∉ name.toList ∧
        field.bytes = Utf8.ofString name ++
          List.replicate (nameLength - (Utf8.ofString name).length) 0 := by
  obtain ⟨octets, hoctets⟩ := field
  have hzero : 0 ∉ Utf8.ofString name ↔ '\x00' ∉ name.toList := zero_mem_ofString_iff.not
  rw [interfaceName, ← hzero]
  simp only
  split_ifs with h
  · simp [h.1, h.2, eq_comm]
  · rw [not_and] at h
    exact iff_of_false (by simp) fun ⟨hlength, hnone, _⟩ => h hlength hnone

/-- **A name is read back from its field**, as an interface name and as one of the members of a
group. -/
lemma read_interfaceName {name : String} {field : Block nameLength}
    (h : interfaceName name = .ok field) :
    Utf8.toString? field.bytes.untilNul = .ok name ∧
      (name ≠ "" → groupMembers field.bytes = [name]) := by
  obtain ⟨hlength, hzero, hbytes⟩ := interfaceName_eq_ok_iff.mp h
  have hnul : field.bytes.untilNul = Utf8.ofString name := by
    obtain ⟨k, hk⟩ : ∃ k, nameLength - (Utf8.ofString name).length = k + 1 :=
      ⟨nameLength - (Utf8.ofString name).length - 1, by omega⟩
    rw [hbytes, hk, List.replicate_succ, Utf8.untilNul_ofString hzero]
  refine ⟨by rw [hnul, Utf8.toString?_ofString], fun hname => ?_⟩
  have hne : Utf8.ofString name ≠ [] := Utf8.encode_ne_nil (by simpa using hname)
  have hfield : field.bytes.take memberLength = field.bytes :=
    List.take_of_length_le field.length_bytes.le
  have hrest : field.bytes.drop memberLength = [] :=
    List.drop_of_length_le field.length_bytes.le
  have hend : groupMembers [] = [] := by
    rw [groupMembers]
    rfl
  rw [groupMembers, if_neg (by rw [field.length_bytes]; decide), hfield, hrest, hend, hnul]
  simp only [Utf8.ofString, Utf8.lossy_encode, String.ofList_toList]
  exact if_neg hne

end OpenBsd

/-! ### Names that are given and interfaces that are addressed -/

/-- **The interface that a request addresses.** What is sent to the Linux kernel about a device, be
it an update, the request for the device or any request that one of the two makes on the way, has
one name, and who reads it finds the given name up to its first zero character. That is the given
one exactly if it has no zero character; two accepted names address one interface exactly if they
agree up to there. For the OpenBSD kernel a name with a zero character, or without room, is refused,
and every other one is read back from its field, so that no two names have one field. -/
theorem request_addresses {σ : Type} (name : String) :
    (beforeNul name = name ↔ '\x00' ∉ name.toList) ∧
    (∀ config data, Netlink.encodeConfig name config = .ok data →
      ∀ target, Netlink.Addresses data target ↔ target = beforeNul name) ∧
    (∀ data, Netlink.nameRequest name = .ok data →
      ∀ target, Netlink.Addresses data target ↔ target = beforeNul name) ∧
    (∀ (c : Netlink.Client (StateM σ)) s,
      (∀ config, ∀ event ∈ (c.noted.configure name config (s, [])).2.2,
        ∀ target, event.call.Addresses target ↔ target = beforeNul name) ∧
      ∀ event ∈ (c.noted.device name (s, [])).2.2,
        ∀ target, event.call.Addresses target ↔ target = beforeNul name) ∧
    (∀ config data name' config' data', Netlink.encodeConfig name config = .ok data →
      Netlink.encodeConfig name' config' = .ok data' →
        ((∃ target, Netlink.Addresses data target ∧ Netlink.Addresses data' target) ↔
          beforeNul name = beforeNul name')) ∧
    ((∃ field, OpenBsd.interfaceName name = .ok field) ↔
      (Utf8.ofString name).length < OpenBsd.nameLength ∧ '\x00' ∉ name.toList) ∧
    (∀ field, OpenBsd.interfaceName name = .ok field →
      Utf8.toString? field.bytes.untilNul = .ok name ∧
        (name ≠ "" → OpenBsd.groupMembers field.bytes = [name])) ∧
    ∀ field name' field', OpenBsd.interfaceName name = .ok field →
      OpenBsd.interfaceName name' = .ok field' →
        (field.bytes.untilNul = field'.bytes.untilNul ↔ name = name') := by
  refine ⟨beforeNul_eq_iff, fun config data h => Netlink.addresses_encodeConfig h,
    fun data h => Netlink.addresses_nameRequest h, fun c s =>
      ⟨c.addresses_of_mem_configure name s, c.addresses_of_mem_device name s⟩, ?_, ?_,
    fun field h => OpenBsd.read_interfaceName h, ?_⟩
  · intro config data name' config' data' h h'
    simp only [Netlink.addresses_encodeConfig h, Netlink.addresses_encodeConfig h',
      exists_eq_left]
  · constructor
    · rintro ⟨field, h⟩
      obtain ⟨hlength, hzero, -⟩ := OpenBsd.interfaceName_eq_ok_iff.mp h
      exact ⟨hlength, hzero⟩
    · rintro ⟨hlength, hzero⟩
      refine ⟨⟨_, ?_⟩, OpenBsd.interfaceName_eq_ok_iff.mpr ⟨hlength, hzero, rfl⟩⟩
      rw [List.length_append, List.length_replicate]
      omega
  · intro field name' field' h h'
    constructor
    · intro hsame
      have hread := (OpenBsd.read_interfaceName h).1
      rw [hsame, (OpenBsd.read_interfaceName h').1] at hread
      exact (Except.ok.inj hread).symm
    · rintro rfl
      obtain rfl := Except.ok.inj (h.symm.trans h')
      rfl

/-- The names `wg0` and `wg1`, the first of them also with more behind a zero character. -/
theorem request_addresses_wg0 :
    let given : Bytes := [8, 0, 2, 0, 119, 103, 48, 0]
    let longer : Bytes := [10, 0, 2, 0, 119, 103, 48, 0, 120, 0, 0, 0]
    (Netlink.encodeConfig "wg0" {} = .ok given ∧ Netlink.nameRequest "wg0" = .ok given ∧
      Netlink.encodeConfig "wg0\x00x" {} = .ok longer) ∧
    (∀ target, Netlink.Addresses given target ↔ target = beforeNul "wg0") ∧
    (∃ target, Netlink.Addresses given target ∧ Netlink.Addresses longer target) ∧
    ∃ field field', OpenBsd.interfaceName "wg0" = .ok field ∧
      OpenBsd.interfaceName "wg1" = .ok field' ∧
      Utf8.toString? field.bytes.untilNul = .ok "wg0" ∧ OpenBsd.groupMembers field.bytes = ["wg0"] ∧
      (field.bytes.untilNul = field'.bytes.untilNul ↔ "wg0" = "wg1") := by
  intro given longer
  have hgiven : Netlink.encodeConfig "wg0" {} = .ok given := by decide +kernel
  have hname : Netlink.nameRequest "wg0" = .ok given := by decide +kernel
  have hlonger : Netlink.encodeConfig "wg0\x00x" {} = .ok longer := by decide +kernel
  obtain ⟨-, -, hrequest, -, hsame, hfield, hread, hdifferent⟩ :=
    request_addresses (σ := Unit) "wg0"
  obtain ⟨-, -, -, -, -, hfield', -⟩ := request_addresses (σ := Unit) "wg1"
  obtain ⟨field, h⟩ := hfield.mpr (by decide)
  obtain ⟨field', h'⟩ := hfield'.mpr (by decide)
  obtain ⟨hstring, hmembers⟩ := hread _ h
  exact ⟨⟨hgiven, hname, hlonger⟩, hrequest _ hname,
    (hsame _ _ _ _ _ hgiven hlonger).mpr (by decide), field, field', h, h', hstring,
    hmembers (by decide), hdifferent _ _ _ h h'⟩

/-- **Another interface is addressed** by a request about a name with a zero character, which the
OpenBSD kernel is not asked about. -/
theorem request_addresses_another :
    let name := "wg0\x00x"
    ∃ data, Netlink.encodeConfig name {} = .ok data ∧ Netlink.nameRequest name = .ok data ∧
      Netlink.Addresses data "wg0" ∧ ¬ Netlink.Addresses data name ∧
      ∃ e, OpenBsd.interfaceName name = .error e := by
  intro name
  have hconfig : Netlink.encodeConfig name {} =
      .ok [10, 0, 2, 0, 119, 103, 48, 0, 120, 0, 0, 0] := by decide +kernel
  have hname : Netlink.nameRequest name =
      .ok [10, 0, 2, 0, 119, 103, 48, 0, 120, 0, 0, 0] := by decide +kernel
  have hbefore : beforeNul name = "wg0" := by decide
  have haddresses := Netlink.addresses_encodeConfig hconfig
  rw [hbefore] at haddresses
  exact ⟨_, hconfig, hname, (haddresses _).mpr rfl, mt (haddresses _).mp (by decide), _,
    dif_neg (by decide)⟩

end WireGuardControl
