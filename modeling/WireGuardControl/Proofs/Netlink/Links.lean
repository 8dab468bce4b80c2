import Mathlib.Tactic
import WireGuardControl.Proofs.Netlink.Malformed
/-!
The interfaces in a dump.

* `Attributes.texts`: the texts of the attributes of one kind in a row; `Attributes.Tells` says that
  nothing is wrong with the row and that each of these attributes is a text.
* `LinkDraft.note`: what one attribute of an interface adds, whatever the others are. A step that
  succeeds adds that and no more, and so do the steps of a row, by induction on it.
* `IsLink`: a payload that describes an interface; `linkName?`: its name, if it is a WireGuard one.
  `wireguardName?_eq_ok_iff`: only such payloads are read, and this name is what they give.
* `names_eq_ok_iff`: a dump is read if all its messages about interfaces are.
-/

namespace WireGuardControl.Netlink

/-! ### Texts in a row of attributes -/

/-- The text of an attribute, if it is of a kind and is a text. -/
def Attribute.textOf (kind : UInt16) (a : Attribute) : Option String :=
  if a.kind = kind then a.string.toOption else none

/-- The texts of the attributes of a kind, in their order. -/
def Attributes.texts (xs : Attributes) (kind : UInt16) : List String :=
  xs.items.filterMap (Attribute.textOf kind)

/-- An attribute is a text if it is of a kind. -/
def Attribute.Tells (kind : UInt16) (a : Attribute) : Prop :=
  a.kind = kind → ∃ text, a.string = .ok text

/-- Nothing is wrong with a row, and its attributes of a kind are texts. -/
structure Attributes.Tells (xs : Attributes) (kind : UInt16) : Prop where
  /-- There is no fault behind the last attribute. -/
  faultless : xs.fault = none
  /-- The payload of an attribute of the kind is a text up to its first zero octet. -/
  isText : ∀ a ∈ xs.items, a.Tells kind

lemma Attributes.foldM_eq_ok_iff {σ : Type} {f : σ → Attribute → Except Error σ}
    {P : Attribute → Prop} {g : σ → Attribute → σ}
    (h : ∀ s a s', f s a = .ok s' ↔ P a ∧ s' = g s a) {s s' : σ} {xs : Attributes} :
    xs.foldM f s = .ok s' ↔
      xs.fault = none ∧ (∀ a ∈ xs.items, P a) ∧ s' = xs.items.foldl g s := by
  rw [foldM, Except.bind_eq_ok_iff]
  simp only [Except.foldlM_eq_ok_iff h]
  constructor
  · rintro ⟨s₁, ⟨hall, rfl⟩, hcheck⟩
    cases hfault : xs.fault with
    | none =>
        rw [check, hfault] at hcheck
        exact ⟨rfl, hall, (Except.ok.inj hcheck).symm⟩
    | some fault =>
        rw [check, hfault] at hcheck
        cases hcheck
  · rintro ⟨hfault, hall, rfl⟩
    refine ⟨_, ⟨hall, rfl⟩, ?_⟩
    rw [check, hfault]
    rfl

/-! ### Interfaces -/

/-- The texts that say what an interface is, in one attribute of an interface. -/
def Attribute.infoKinds (a : Attribute) : List String :=
  if a.kind = Link.info then a.children.texts Link.infoKind else []

namespace LinkDraft

/-- What one attribute of what an interface is adds. -/
def noteInfo (d : LinkDraft) (a : Attribute) : LinkDraft :=
  { d with isWireguard := d.isWireguard || a.textOf Link.infoKind = some wireguard }

lemma infoStep_eq_ok_iff (d : LinkDraft) (a : Attribute) (d' : LinkDraft) :
    d.infoStep a = .ok d' ↔ a.Tells Link.infoKind ∧ d' = d.noteInfo a := by
  rw [infoStep, noteInfo, Attribute.textOf, Attribute.Tells]
  by_cases ha : a.kind = Link.infoKind
  · cases a.string <;>
      simp [ha, bind, Except.bind, pure, Except.pure, Except.toOption, eq_comm]
  · simp [ha, pure, Except.pure, eq_comm (a := d)]

lemma foldl_noteInfo (d : LinkDraft) (xs : Attributes) :
    xs.items.foldl noteInfo d =
      { d with isWireguard := d.isWireguard || wireguard ∈ xs.texts Link.infoKind } := by
  rw [Attributes.texts]
  induction xs.items generalizing d with
  | nil => simp
  | cons a rest ih =>
      rw [List.foldl_cons, ih, noteInfo]
      cases h : a.textOf Link.infoKind <;>
        simp [h, Bool.or_assoc, eq_comm (a := wireguard)]

/-- What one attribute of an interface adds. -/
def note (d : LinkDraft) (a : Attribute) : LinkDraft where
  name := (a.textOf Link.name).or d.name
  isWireguard := d.isWireguard || wireguard ∈ a.infoKinds

lemma step_eq_ok_iff (d : LinkDraft) (a : Attribute) (d' : LinkDraft) :
    d.step a = .ok d' ↔ (a.Tells Link.name ∧
      (a.kind = Link.info → a.children.Tells Link.infoKind)) ∧ d' = d.note a := by
  rw [step, note, Attribute.textOf, Attribute.infoKinds, Attribute.Tells]
  -- A name is no place for what an interface is, so that an attribute is one of the two at most.
  by_cases hname : a.kind = Link.name
  · have hinfo : a.kind ≠ Link.info := by rw [hname]; decide
    rw [if_pos hname, if_pos hname, if_neg hinfo]
    cases a.string <;>
      simp [hname, hname ▸ hinfo, bind, Except.bind, pure, Except.pure, Except.toOption, eq_comm]
  rw [if_neg hname, if_neg hname]
  by_cases hinfo : a.kind = Link.info
  · rw [if_pos hinfo, if_pos hinfo, Attributes.foldM_eq_ok_iff infoStep_eq_ok_iff, foldl_noteInfo]
    constructor
    · rintro ⟨hfault, hall, hd⟩
      exact ⟨⟨fun h => absurd h hname, fun _ => ⟨hfault, hall⟩⟩, hd⟩
    · rintro ⟨⟨-, htells⟩, hd⟩
      exact ⟨(htells hinfo).faultless, (htells hinfo).isText, hd⟩
  · simp [hname, hinfo, pure, Except.pure, eq_comm (a := d)]

lemma foldl_note (d : LinkDraft) (xs : Attributes) :
    xs.items.foldl note d =
      { name := (xs.texts Link.name).getLast?.or d.name
        isWireguard := d.isWireguard || wireguard ∈ xs.items.flatMap Attribute.infoKinds } := by
  rw [Attributes.texts]
  induction xs.items generalizing d with
  | nil => simp
  | cons a rest ih =>
      rw [List.foldl_cons, ih, note]
      cases h : a.textOf Link.name with
      | none => simp [h, Bool.or_assoc]
      | some text =>
          cases hlast : (rest.filterMap (Attribute.textOf Link.name)).getLast? <;>
            simp [h, hlast, Bool.or_assoc, List.getLast?_cons]

end LinkDraft

/-- The attributes of an interface. -/
def linkAttributes (payload : Bytes) : Attributes :=
  Attributes.ofBytes (payload.drop Link.infoLength)

/-- A payload describes an interface: there is room for what stands in front of the attributes, and
the attributes that tell its name or what it is are texts. -/
structure IsLink (payload : Bytes) : Prop where
  /-- There is room for what stands in front of the attributes. -/
  room : Link.infoLength ≤ payload.length
  /-- The attributes have no fault, and the names are texts. -/
  names : (linkAttributes payload).Tells Link.name
  /-- So it is with the attributes in those that tell what the interface is, and with its kinds. -/
  kinds : ∀ a ∈ (linkAttributes payload).items, a.kind = Link.info → a.children.Tells Link.infoKind

/-- The name of an interface, if one of the kinds that are told is that of WireGuard. Of several
names it is the last. -/
def linkName? (payload : Bytes) : Option String :=
  if wireguard ∈ (linkAttributes payload).items.flatMap Attribute.infoKinds then
    ((linkAttributes payload).texts Link.name).getLast?
  else none

lemma filter_name (attributes : Attributes) :
    (attributes.items.foldl LinkDraft.note {}).name.filter
        (fun _ => (attributes.items.foldl LinkDraft.note {}).isWireguard) =
      if wireguard ∈ attributes.items.flatMap Attribute.infoKinds then
        (attributes.texts Link.name).getLast?
      else none := by
  rw [LinkDraft.foldl_note]
  split_ifs with h <;> simp only [h, Option.or_none, Bool.false_or] <;>
    cases (attributes.texts Link.name).getLast? <;> simp

lemma wireguardName?_eq_ok_iff (payload : Bytes) (name : Option String) :
    wireguardName? payload = .ok name ↔ IsLink payload ∧ name = linkName? payload := by
  rw [wireguardName?, linkName?, ← filter_name]
  by_cases hroom : payload.length < Link.infoLength
  · rw [if_pos hroom]
    exact iff_of_false (by simp) fun ⟨h, _⟩ => absurd hroom h.room.not_gt
  · rw [if_neg hroom, Except.bind_eq_ok_iff]
    simp only [Attributes.foldM_eq_ok_iff LinkDraft.step_eq_ok_iff]
    constructor
    · rintro ⟨d, ⟨hfault, hall, rfl⟩, hname⟩
      exact ⟨⟨not_lt.mp hroom, ⟨hfault, fun a ha => (hall a ha).1⟩, fun a ha => (hall a ha).2⟩,
        (Except.ok.inj hname).symm⟩
    · rintro ⟨h, rfl⟩
      exact ⟨_, ⟨h.names.faultless, fun a ha => ⟨h.names.isText a ha, h.kinds a ha⟩, rfl⟩, rfl⟩

/-! ### Dumps of interfaces -/

/-- The messages of a dump that are about an interface. -/
def linkMessages (messages : List Message) : List Message :=
  messages.filter fun x => x.kind = Link.kindNew

/-- The names of the WireGuard interfaces in a dump, in its order. -/
def linkNames (messages : List Message) : List String :=
  (linkMessages messages).filterMap fun x => linkName? x.payload

lemma names_eq_ok_iff (messages : List Message) (reported : List String) :
    Client.names messages = .ok reported ↔
      (∀ x ∈ linkMessages messages, IsLink x.payload) ∧ reported = linkNames messages := by
  have hnames : ((linkMessages messages).map fun x => linkName? x.payload).filterMap id =
      linkNames messages := List.filterMap_map
  rw [Client.names, Except.bind_eq_ok_iff, ← hnames]
  simp only [Except.mapM_eq_ok_iff fun x : Message => wireguardName?_eq_ok_iff x.payload]
  constructor
  · rintro ⟨_, ⟨hall, rfl⟩, h⟩
    exact ⟨hall, (Except.ok.inj h).symm⟩
  · rintro ⟨hall, hreported⟩
    exact ⟨_, ⟨hall, rfl⟩, congrArg Except.ok hreported.symm⟩

end WireGuardControl.Netlink
