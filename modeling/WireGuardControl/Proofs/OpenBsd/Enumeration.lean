import Mathlib.Tactic
import WireGuardControl.OpenBsd.Rehearsal
import WireGuardControl.Proofs.Naming
import WireGuardControl.Proofs.OpenBsd.Malformed
import WireGuardControl.Proofs.OpenBsd.Snapshot
/-!
The calls that a listing makes, in their order.

* `IsMember`: a name that a member of a group can have. `groupMembers_flatMap`: such names are read
  back from their fields, by induction on the row.
* `Kernel.noted`: a kernel that notes every call to it next to its state. `transfer_matches`: a
  transfer goes by the answers alone, so that what is noted does not change it.
* `Query`: the calls for one device and what they fetch. `Query.Asks.answer_eq_notExist_iff`: its
  device is gone exactly if a call says so.
* `Client.devices_inquiries`: what a listing asks for, and what it makes of the answers. The queries
  for devices are an instance of `readEach_lists`.
-/

namespace WireGuardControl.OpenBsd

open Text

variable {σ τ : Type}

/-! ### Names in a row -/

/-- A name that a member of a group can have. -/
structure IsMember (name : String) : Prop where
  /-- It is not empty. -/
  pos : 1 ≤ (Utf8.ofString name).length
  /-- There is room for it and a zero octet in a field. -/
  le : (Utf8.ofString name).length ≤ 15
  /-- It has no zero character. -/
  nonzero : '\x00' ∉ name.toList

instance : DecidablePred IsMember := fun _ =>
  decidable_of_iff _ ⟨fun ⟨pos, le, nonzero⟩ => ⟨pos, le, nonzero⟩,
    fun h => And.intro h.pos (And.intro h.le h.nonzero)⟩

lemma IsMember.ne_empty {name : String} (h : IsMember name) : name ≠ "" := by
  rintro rfl
  exact absurd h.pos (by decide)

lemma IsMember.exists_field {name : String} (h : IsMember name) :
    ∃ field, interfaceName name = .ok field := by
  refine ⟨⟨Utf8.ofString name ++ List.replicate (nameLength - (Utf8.ofString name).length) 0, ?_⟩,
    interfaceName_eq_ok_iff.mpr ⟨Nat.lt_succ_of_le h.le, h.nonzero, rfl⟩⟩
  rw [List.length_append, List.length_replicate]
  have := h.le
  simp only [nameLength]
  omega

/-- The first name in a row is that of its first field. -/
lemma groupMembers_append {name : String} {field : Block nameLength}
    (h : interfaceName name = .ok field) (hname : name ≠ "") (rest : Bytes) :
    groupMembers (field.bytes ++ rest) = name :: groupMembers rest := by
  have hend : groupMembers [] = [] := by
    rw [groupMembers]
    rfl
  have hlength : field.bytes.length = memberLength := field.length_bytes
  -- A field on its own is read as its name, and no octet behind it is looked at for it.
  have hsingle := (read_interfaceName h).2 hname
  rw [groupMembers, if_neg (by rw [hlength]; decide), List.take_of_length_le hlength.le,
    List.drop_of_length_le hlength.le, hend] at hsingle
  rw [groupMembers, if_neg (by rw [List.length_append, hlength]; omega), List.take_left' hlength,
    List.drop_left' hlength]
  by_cases hnone : field.bytes.untilNul = []
  · simp [hnone] at hsingle
  · simp only [hnone, if_false] at hsingle ⊢
    rw [(List.cons.inj hsingle).1]

/-- **Names are read back from their fields**, any number of them. -/
lemma groupMembers_flatMap {names : List String} {fields : List (Block nameLength)}
    (h : List.Forall₂ (fun name field => interfaceName name = .ok field) names fields)
    (hnames : ∀ name ∈ names, name ≠ "") :
    groupMembers (fields.flatMap (·.bytes)) = names := by
  induction h with
  | nil =>
      rw [groupMembers]
      rfl
  | cons hfield _ ih =>
      obtain ⟨hname, hnames⟩ := List.forall_mem_cons.mp hnames
      rw [List.flatMap_cons, groupMembers_append hfield hname, ih hnames]

/-! ### Calls to the kernel -/

/-- A call to the kernel, with its buffer and its answer if it has any. -/
inductive Event (σ : Type) where
  /-- The members of a group are asked for. -/
  | group (name : Block nameLength) (inquiry : Inquiry σ)
  /-- A device is asked for. -/
  | device (name : Block nameLength) (inquiry : Inquiry σ)
  /-- A device is updated. -/
  | update (name : Block nameLength) (records : Bytes)
  /-- The end of the calls. -/
  | close

/-- A question the inquiries of which are noted as events. -/
def notedAs (event : Inquiry σ → Event σ) (ask : Question (StateM σ)) :
    Question (StateM (σ × List (Event σ))) :=
  fun buffer (s, log) =>
    let (answer, s') := ask buffer s
    (answer, (s', log ++ [event ⟨s, buffer, answer⟩]))

/-- The kernel, every call to which is noted. -/
def Kernel.noted (k : Kernel (StateM σ)) : Kernel (StateM (σ × List (Event σ))) where
  groupMembers := fun name => notedAs (.group name) (k.groupMembers name)
  getDevice := fun name => notedAs (.device name) (k.getDevice name)
  setDevice := fun name records (s, log) =>
    let (answer, s') := k.setDevice name records s
    (answer, (s', log ++ [.update name records]))
  close := fun (s, log) =>
    let (answer, s') := k.close s
    (answer, (s', log ++ [.close]))

/-- Two computations give the same and leave states that are related. -/
def Matches {α : Type} (R : σ → τ → Prop) (x : α × σ) (y : α × τ) : Prop := x.1 = y.1 ∧ R x.2 y.2

section Matching

variable {R : σ → τ → Prop} {ask : Question (StateM σ)} {ask' : Question (StateM τ)}

lemma fill_matches (what : String)
    (hask : ∀ buffer s t, R s t → Matches R (ask buffer s) (ask' buffer t)) (attempts size : ℕ)
    {s : σ} {t : τ} (h : R s t) :
    Matches R (fill what ask attempts size s) (fill what ask' attempts size t) := by
  induction attempts generalizing size s t with
  | zero => exact ⟨rfl, h⟩
  | succ attempts ih =>
      by_cases hsize : size = 0
      · subst hsize
        exact ⟨rfl, h⟩
      · obtain ⟨hanswer, hstates⟩ := hask (List.replicate size 0) s t h
        rcases hrun : ask (List.replicate size 0) s with ⟨answer, s₁⟩
        rcases hrun' : ask' (List.replicate size 0) t with ⟨answer', t₁⟩
        rw [hrun, hrun'] at hanswer hstates
        obtain rfl : answer = answer' := hanswer
        rcases answer with fault | ⟨needed, filled⟩
        · rw [fill_of_error hsize hrun, fill_of_error hsize hrun']
          exact ⟨rfl, hstates⟩
        · rcases Nat.lt_or_ge size needed with hlt | hle
          · rw [fill_of_lt hsize hlt hrun, fill_of_lt hsize hlt hrun']
            exact ih needed hstates
          · rw [fill_of_le hsize hle hrun, fill_of_le hsize hle hrun']
            exact ⟨rfl, hstates⟩

/-- A transfer depends on the answers only. -/
lemma transfer_matches (what : String)
    (hask : ∀ buffer s t, R s t → Matches R (ask buffer s) (ask' buffer t))
    {s : σ} {t : τ} (h : R s t) :
    Matches R (transfer what ask s) (transfer what ask' t) := by
  obtain ⟨hanswer, hstates⟩ := hask [] s t h
  rcases hrun : ask [] s with ⟨answer, s₁⟩
  rcases hrun' : ask' [] t with ⟨answer', t₁⟩
  rw [hrun, hrun'] at hanswer hstates
  obtain rfl : answer = answer' := hanswer
  rcases answer with fault | ⟨size, filled⟩
  · rw [transfer_of_error hrun, transfer_of_error hrun']
    exact ⟨rfl, hstates⟩
  · rw [transfer_of_ok hrun, transfer_of_ok hrun']
    exact fill_matches what hask maxAttempts size hstates

end Matching

/-- **Every transfer is a run**, the inquiries of which are noted as events. -/
lemma transfer_notedAs (what : String) (event : Inquiry σ → Event σ) (ask : Question (StateM σ))
    (s : σ) :
    ∃ outcome s' calls, transfer what ask s = (outcome, s') ∧
      (∀ log, transfer what (notedAs event ask) (s, log) =
        (outcome, (s', log ++ calls.map event))) ∧
      Fills what (maxAttempts + 1) 0 calls outcome := by
  obtain ⟨outcome, s', calls, hplain, hnoted, -, hfills⟩ := transfer_fills what ask s
  refine ⟨outcome, s', calls, hplain, fun log => ?_, hfills⟩
  -- The inquiries and the events are noted side by side, the latter behind an older record.
  have hask : ∀ buffer (x : σ × List (Inquiry σ)) (y : σ × List (Event σ)),
      y = (x.1, log ++ x.2.map event) →
      Matches (fun x y => y = (x.1, log ++ x.2.map event)) (noted ask buffer x)
        (notedAs event ask buffer y) := by
    rintro buffer ⟨s₁, calls₁⟩ _ rfl
    rcases hrun : ask buffer s₁ with ⟨answer, s₂⟩
    refine ⟨by simp only [noted, notedAs, hrun], ?_⟩
    simp only [noted, notedAs, hrun, List.map_append, List.map_singleton, List.append_assoc]
  have hstart : (s, log) = (s, log ++ ([] : List (Inquiry σ)).map event) := by
    rw [List.map_nil, List.append_nil]
  obtain ⟨houtcome, hstates⟩ := transfer_matches what hask (s := (s, [])) hstart
  rw [hnoted] at houtcome hstates
  exact Prod.ext houtcome.symm hstates

/-! ### Failures of a transfer -/

namespace Fills

variable {what : String} {attempts size : ℕ} {calls : List (Inquiry σ)}
  {outcome : Except Error Bytes}

/-- A transfer fails as one of its calls does, or because the data keep growing. -/
lemma eq_io_iff (h : Fills what attempts size calls outcome) {fault : SystemFault} :
    outcome = .error (.io fault) ↔ ∃ x ∈ calls, x.answer = .error fault := by
  constructor
  · intro hout
    induction h with
    | exhausted _ => cases hout
    | refused _ _ _ _ =>
        cases hout
        exact ⟨_, List.mem_singleton.mpr rfl, rfl⟩
    | fits _ _ _ _ => cases hout
    | grows _ _ _ _ ih =>
        obtain ⟨x, hx, hanswer⟩ := ih hout
        exact ⟨x, List.mem_cons_of_mem _ hx, hanswer⟩
  · rintro ⟨x, hx, hanswer⟩
    obtain ⟨before, later, hcalls⟩ := List.append_of_mem hx
    exact (h.of_error hcalls hanswer).2

lemma ne_notExist (h : Fills what attempts size calls outcome) : outcome ≠ .error .notExist := by
  induction h with
  | exhausted _ => exact fun h => nomatch h
  | refused _ _ _ _ => exact fun h => nomatch h
  | fits _ _ _ _ => exact fun h => nomatch h
  | grows _ _ _ _ ih => exact ih

end Fills

lemma hasCode_eq_true_iff {e : Error} {number : Int32} :
    e.hasCode number = true ↔ e = .io (.code number) := by
  cases e with
  | io fault => cases fault <;> simp [Error.hasCode]
  | _ => simp [Error.hasCode]

/-- The kernel says that a device is not configured, or that it is of another sort. -/
def DeniesDevice (fault : SystemFault) : Prop :=
  fault = .code codeNotConfigured ∨ fault = .code codeNotSuited

lemma noteAbsence_eq_notExist_iff {e : Error} :
    noteAbsence e = .notExist ↔ e = .notExist ∨ ∃ fault, DeniesDevice fault ∧ e = .io fault := by
  rw [noteAbsence]
  simp only [Bool.or_eq_true, hasCode_eq_true_iff, DeniesDevice]
  split_ifs with hcode
  · rcases hcode with rfl | rfl <;> simp
  · rw [not_or] at hcode
    refine ⟨.inl, ?_⟩
    rintro (rfl | ⟨fault, rfl | rfl, rfl⟩)
    · rfl
    · exact absurd rfl hcode.1
    · exact absurd rfl hcode.2

/-! ### Queries for a device -/

/-- The calls that fetch the records of a device, and what they come to. -/
structure Query (σ : Type) where
  /-- The name of the device. -/
  name : String
  /-- The name in a field, by which the kernel is asked. -/
  field : Block nameLength
  /-- The calls in order. -/
  calls : List (Inquiry σ)
  /-- What is fetched. -/
  fetched : Except Error Bytes

namespace Query

/-- The events of a query. -/
def events (q : Query σ) : List (Event σ) := q.calls.map (.device q.field)

/-- What a query says of its device. -/
def answer (q : Query σ) : Except Error Device :=
  (q.fetched.mapError noteAbsence).bind (readDevice q.name)

/-- A query is the one for a name: it asks with the field of the name, first with an empty buffer
and then with buffers of the sizes that it is told. -/
structure Asks (name : String) (q : Query σ) : Prop where
  /-- It is the name of the device. -/
  name_eq : q.name = name
  /-- The kernel is asked by the field of this name. -/
  field_eq : interfaceName name = .ok q.field
  /-- The calls are a run. -/
  fills : Fills "SIOCGWG" (maxAttempts + 1) 0 q.calls q.fetched

/-- **When a device is gone**: one of the calls for it says so. -/
lemma Asks.answer_eq_notExist_iff {name : String} {q : Query σ} (h : q.Asks name) :
    q.answer = .error .notExist ↔ ∃ x ∈ q.calls, ∃ fault, DeniesDevice fault ∧
      x.answer = .error fault := by
  -- Neither the calls nor the records say `notExist` of their own: it comes from a fault.
  have hgone : q.answer = .error .notExist ↔
      ∃ fault, DeniesDevice fault ∧ q.fetched = .error (.io fault) := by
    rw [answer]
    cases hfetched : q.fetched with
    | ok b =>
        refine iff_of_false (fun hread => ?_) (by simp)
        cases failsOnly_readDevice q.name b .notExist hread
    | error e =>
        have hne : e ≠ .notExist := fun he => h.fills.ne_notExist (he ▸ hfetched)
        simp [Except.mapError, Except.bind, noteAbsence_eq_notExist_iff, hne]
  rw [hgone]
  simp only [h.fills.eq_io_iff]
  exact ⟨fun ⟨fault, hdenies, x, hx, hanswer⟩ => ⟨x, hx, fault, hdenies, hanswer⟩,
    fun ⟨x, hx, fault, hdenies, hanswer⟩ => ⟨fault, hdenies, x, hx, hanswer⟩⟩

end Query

namespace Client

variable {k : Kernel (StateM σ)} {name : String}

lemma get_of_transfer {field : Block nameLength} {fetched : Except Error Bytes} {s s' : σ}
    (hfield : interfaceName name = .ok field)
    (h : transfer "SIOCGWG" (k.getDevice field) s = (fetched, s')) :
    get k name s = ((fetched.mapError noteAbsence).bind (readDevice name), s') := by
  rw [get, hfield]
  simp only [bind, StateT.bind, h]
  cases fetched <;> rfl

/-- **A device is read with one query.** -/
lemma get_inquires {field : Block nameLength} (hfield : interfaceName name = .ok field) (s : σ) :
    ∃ q s', q.Asks name ∧
      Inquires Query.events Query.answer (get k name) (get k.noted name) s q s' := by
  obtain ⟨fetched, s', calls, hplain, hnoted, hfills⟩ :=
    transfer_notedAs "SIOCGWG" (.device field) (k.getDevice field) s
  exact ⟨⟨name, field, calls, fetched⟩, s', ⟨rfl, hfield, hfills⟩, get_of_transfer hfield hplain,
    fun log => get_of_transfer (k := k.noted) hfield (hnoted log)⟩

section Group

variable {group : Block nameLength} {s s₁ : σ}

lemma devices_of_members {b : Bytes} (hgroup : interfaceName groupName = .ok group)
    (h : transfer "SIOCGIFGMEMB" (k.groupMembers group) s = (.ok b, s₁)) :
    devices k s = readEach (get k) (OpenBsd.groupMembers b) s₁ := by
  have hlisted : interfaces k s = (.ok (OpenBsd.groupMembers b), s₁) := by
    rw [interfaces, hgroup]
    simp only [bind, StateT.bind, h]
    rfl
  rw [devices]
  simp only [bind, StateT.bind, hlisted]
  rw [devicesNamed_eq]

/-- The listing if the members of the group are not told. -/
lemma devices_of_refused {e : Error} (hgroup : interfaceName groupName = .ok group)
    (h : transfer "SIOCGIFGMEMB" (k.groupMembers group) s = (.error e, s₁)) :
    devices k s = (if e.hasCode codeNoEntry then .ok [] else .error e, s₁) := by
  have hlisted : interfaces k s = (if e.hasCode codeNoEntry then .ok [] else .error e, s₁) := by
    rw [interfaces, hgroup]
    simp only [bind, StateT.bind, h]
    rfl
  rw [devices]
  simp only [bind, StateT.bind, hlisted]
  split_ifs <;> rfl

end Group

/-! ### Listings -/

lemma exists_fields {names : List String} (h : ∀ name ∈ names, IsMember name) :
    ∃ fields, List.Forall₂ (fun name field => interfaceName name = .ok field) names fields := by
  induction names with
  | nil => exact ⟨[], .nil⟩
  | cons name rest ih =>
      obtain ⟨hname, hrest⟩ := List.forall_mem_cons.mp h
      obtain ⟨field, hfield⟩ := hname.exists_field
      obtain ⟨fields, hfields⟩ := ih hrest
      exact ⟨field :: fields, .cons hfield hfields⟩

/-- The kernel is asked by the fields of the names, in order. -/
lemma fields_of_asks {names asked : List String} {fields : List (Block nameLength)}
    {queries : List (Query σ)}
    (hfields : List.Forall₂ (fun name field => interfaceName name = .ok field) names fields)
    (hinitial : asked <+: names) (hqueries : List.Forall₂ Query.Asks asked queries) :
    queries.map Query.field <+: fields := by
  induction hqueries generalizing names fields with
  | nil => exact List.nil_prefix
  | @cons name q asked queries hq _ ih =>
      cases hfields with
      | nil => cases List.prefix_nil.mp hinitial
      | cons hfield hfields =>
          obtain ⟨rfl, hlater⟩ := List.cons_prefix_cons.mp hinitial
          obtain rfl := Except.ok.inj (hq.field_eq.symm.trans hfield)
          exact List.cons_prefix_cons.mpr ⟨rfl, ih hfields hlater⟩

lemma exists_asks_of_mem {asked : List String} {queries : List (Query σ)}
    (h : List.Forall₂ Query.Asks asked queries) : ∀ q ∈ queries, ∃ name, q.Asks name := by
  induction h with
  | nil => simp
  | cons hq _ ih => exact List.forall_mem_cons.mpr ⟨⟨_, hq⟩, ih⟩

/-- **A listing asks for the members of the group, and then for one device after the other.** Names
are read back from a row of their fields. If the members are not told, then the listing is empty if
a call says that there is no such group, at the probe or later, and fails like the calls otherwise.
If they are told by such a row, then the devices are asked for by these fields in order. A device is
gone exactly if a call for it says so, at the probe or later, and it is left out then. The first
query that fails in another way is the last, and the listing fails with it. If none does, then all
are asked for, and those that are not gone are listed in order. -/
theorem devices_inquiries (k : Kernel (StateM σ)) (s : σ) {names : List String}
    (h : ∀ name ∈ names, IsMember name) :
    ∃ fields, List.Forall₂ (fun name field => interfaceName name = .ok field) names fields ∧
      OpenBsd.groupMembers (fields.flatMap (·.bytes)) = names ∧
      ∃ group calls fetched s₁, interfaceName groupName = .ok group ∧
        transfer "SIOCGIFGMEMB" (k.groupMembers group) s = (fetched, s₁) ∧
        Fills "SIOCGIFGMEMB" (maxAttempts + 1) 0 calls fetched ∧
        (∀ e, fetched = .error e → ∃ outcome, devices k s = (outcome, s₁) ∧
          (∀ log, devices k.noted (s, log) =
            (outcome, (s₁, log ++ calls.map (Event.group group)))) ∧
          (outcome = .ok [] ↔ ∃ x ∈ calls, x.answer = .error (.code codeNoEntry)) ∧
          (outcome ≠ .ok [] → outcome = .error e)) ∧
        (fetched = .ok (fields.flatMap (·.bytes)) →
          ∃ outcome s' asked queries, devices k s = (outcome, s') ∧
            (∀ log, devices k.noted (s, log) = (outcome, (s',
              log ++ calls.map (Event.group group) ++ queries.flatMap Query.events))) ∧
            List.Forall₂ Query.Asks asked queries ∧ queries.map Query.field <+: fields ∧
            Lists names asked (queries.map Query.answer) outcome ∧
            ∀ q ∈ queries, q.answer = .error .notExist ↔
              ∃ x ∈ q.calls, ∃ fault, DeniesDevice fault ∧ x.answer = .error fault) := by
  obtain ⟨fields, hfields⟩ := exists_fields h
  have hmembers : OpenBsd.groupMembers (fields.flatMap (·.bytes)) = names :=
    groupMembers_flatMap hfields fun name hname => (h name hname).ne_empty
  obtain ⟨group, hgroup⟩ : ∃ group, interfaceName groupName = .ok group := ⟨_, rfl⟩
  obtain ⟨fetched, s₁, calls, hplain, hnoted, hfills⟩ :=
    transfer_notedAs "SIOCGIFGMEMB" (.group group) (k.groupMembers group) s
  refine ⟨fields, hfields, hmembers, group, calls, fetched, s₁, hgroup, hplain, hfills, ?_, ?_⟩
  · rintro e rfl
    refine ⟨_, devices_of_refused hgroup hplain,
      fun log => devices_of_refused (k := k.noted) hgroup (hnoted log), ?_, fun hne => ?_⟩
    · rw [← hfills.eq_io_iff, Except.error.injEq, ← hasCode_eq_true_iff]
      split_ifs with hcode <;> simp [hcode]
    · split_ifs with hcode
      · exact absurd (if_pos hcode) hne
      · rfl
  · rintro rfl
    have hread : ∀ name ∈ names, ∀ s, ∃ q s', q.Asks name ∧
        Inquires Query.events Query.answer (get k name) (get k.noted name) s q s' := by
      intro name hname s
      obtain ⟨field, hfield⟩ := (h name hname).exists_field
      exact get_inquires hfield s
    obtain ⟨outcome, s', asked, queries, hlater, hlog, hall, hlists⟩ :=
      readEach_lists names hread s₁
    refine ⟨outcome, s', asked, queries, ?_, fun log => ?_, hall,
      fields_of_asks hfields hlists.initial hall, hlists, fun q hq => ?_⟩
    · rw [devices_of_members hgroup hplain, hmembers, hlater]
    · rw [devices_of_members (k := k.noted) hgroup (hnoted log), hmembers, hlog]
    · obtain ⟨name, hasks⟩ := exists_asks_of_mem hall q hq
      exact hasks.answer_eq_notExist_iff

/-- The field of the name `wg` with a digit behind it. -/
def memberField (digit : UInt8) : Block nameLength :=
  ⟨[119, 103, digit] ++ List.replicate 13 0, rfl⟩

/-- Three members of a group. The records of the first are fetched; the second vanishes in front of
the filling, and the third in front of the probe. -/
theorem devices_inquiries_vanished :
    let names := ["wg0", "wg1", "wg2"]
    let row : Bytes := [48, 49, 50].flatMap fun digit => (memberField digit).bytes
    let s : Rehearsal :=
      { group := [.data [] 48, .data row 48]
        read := [.data [] 80, .data (List.replicate 80 0) 80, .data [] 80,
          .fails codeNotConfigured, .fails codeNotSuited] }
    let listed : List Device := [{ name := "wg0", deviceType := .openBsdKernel }]
    (∀ name ∈ names, IsMember name) ∧ OpenBsd.groupMembers row = names ∧
      ∃ s' asked, ∃ queries : List (Query Rehearsal),
        devices Rehearsal.kernel s = (.ok listed, s') ∧
        List.Forall₂ Query.Asks asked queries ∧
        queries.map Query.field <+: [48, 49, 50].map memberField ∧
        Lists names asked (queries.map Query.answer) (.ok listed) := by
  intro names row s listed
  have hmember : ∀ name ∈ names, IsMember name := by decide +kernel
  have hown : List.Forall₂ (fun name field => interfaceName name = .ok field) names
      ([48, 49, 50].map memberField) :=
    .cons (by decide +kernel) (.cons (by decide +kernel) (.cons (by decide +kernel) .nil))
  obtain ⟨fields, hfields, hrow, group, calls, fetched, s₁, hgroup, htransfer, -, -, hread⟩ :=
    devices_inquiries Rehearsal.kernel s hmember
  obtain rfl : fields = [48, 49, 50].map memberField :=
    List.right_unique_forall₂' (fun _ _ _ h h' => Except.ok.inj (h.symm.trans h')) hfields hown
  obtain rfl : (⟨[119, 103] ++ List.replicate 14 0, rfl⟩ : Block nameLength) = group :=
    Except.ok.inj hgroup
  have hfetched : (transfer "SIOCGIFGMEMB"
      (Rehearsal.kernel.groupMembers ⟨[119, 103] ++ List.replicate 14 0, rfl⟩) s).1 = .ok row := by
    decide +kernel
  rw [htransfer] at hfetched
  obtain ⟨outcome, s', asked, queries, hplain, -, hall, hinitial, hlists, -⟩ := hread hfetched
  have hlisted : (devices Rehearsal.kernel s).1 = .ok listed := by decide +kernel
  rw [hplain] at hlisted
  obtain rfl : outcome = .ok listed := hlisted
  exact ⟨hmember, hrow, s', asked, queries, hplain, hall, hinitial, hlists⟩

end Client

end WireGuardControl.OpenBsd
