import Mathlib.Tactic
import WireGuardControl.Proofs.Uapi.Grammar
/-!
Listed devices that are looked up.

* `Always`: a computation that gives one value in every state. `Client.Steady`: a system that always
  answers as a given one without a state, so that a client of it does, too (`Steady.device`,
  `Steady.devices`).
* `Stale`: nobody listens on a socket. `Client.get_eq_notExist_iff`: exactly then there is no device
  behind it.
* `Client.Listed`: the devices behind some sockets, of which the stale ones are left out.
  `Listed.find?`: the first device of a name is behind the first socket of this name, unless this
  one is stale.
* `listed_device`: what is found if a listed device is looked up.
-/

namespace WireGuardControl.Uapi

open Text

/-! ### Systems that do not change -/

/-- A computation gives in every state what another gives that has no state. -/
def Always {σ α : Type} (x : StateM σ α) (a : Id α) : Prop := ∀ s, (x s).1 = a

namespace Always

variable {σ α β : Type}

lemma pure (a : α) : Always (σ := σ) (Pure.pure a) (Pure.pure a) := fun _ => rfl

lemma bind {x : StateM σ α} {a : Id α} {f : α → StateM σ β} {g : α → Id β} (hx : Always x a)
    (hf : Always (f a) (g a)) : Always (x >>= f) (a >>= g) := by
  intro s
  change (f (x s).1 (x s).2).1 = g a
  rw [hx s]
  exact hf (x s).2

end Always

namespace Client

variable {σ : Type}

/-- A client whose system always answers as that of the client `fixed`. -/
structure Steady (c : Client (StateM σ)) (fixed : Client Id) : Prop where
  /-- The directories are the same. -/
  directories : c.directories = fixed.directories
  /-- They always have the same entries. -/
  entries : ∀ directory, Always (c.host.entries directory) (fixed.host.entries directory)
  /-- A socket always responds to a request for a device in the same way. -/
  answer : ∀ path, Always (c.host.exchange path (Utf8.encode getRequest))
    (fixed.host.exchange path (Utf8.encode getRequest))

namespace Steady

variable {c : Client (StateM σ)} {fixed : Client Id}

lemma findSockets (h : c.Steady fixed) (directories : List Bytes) :
    Always (Uapi.findSockets c.host directories) (Uapi.findSockets fixed.host directories) := by
  induction directories with
  | nil => exact .pure _
  | cons directory rest ih =>
      rw [Uapi.findSockets, Uapi.findSockets]
      refine .bind (h.entries directory) ?_
      rcases fixed.host.entries directory with fault | entries
      · dsimp only
        split_ifs
        · exact ih
        · exact .pure _
      · exact .bind ih (.pure _)

lemma get (h : c.Steady fixed) (path : Bytes) (name : String) :
    Always (c.get path name) (fixed.get path name) := by
  rw [Client.get, Client.get, ask, ask]
  refine .bind (.bind (h.answer path) ?_) (.pure _)
  rcases fixed.host.exchange path (Utf8.encode getRequest) with fault | stream
  · exact .pure _
  · exact .pure _

lemma socket (h : c.Steady fixed) (name : String) :
    Always (c.socket name) (fixed.socket name) := by
  rw [Client.socket, Client.socket, h.directories]
  refine .bind (h.findSockets fixed.directories) ?_
  rcases Uapi.findSockets fixed.host fixed.directories with e | paths
  · exact .pure _
  · dsimp only
    split
    · exact .pure _
    · exact .pure _

/-- **A client of a steady system** finds what a client finds whose system has no state. -/
lemma device (h : c.Steady fixed) (name : String) :
    Always (c.device name) (fixed.device name) := by
  rw [Client.device, Client.device]
  refine .bind (h.socket name) ?_
  rcases fixed.socket name with e | path
  · exact .pure _
  · exact h.get path name

lemma devicesAt (h : c.Steady fixed) (paths : List Bytes) :
    Always (c.devicesAt paths) (fixed.devicesAt paths) := by
  induction paths with
  | nil => exact .pure _
  | cons path rest ih =>
      rw [Client.devicesAt, Client.devicesAt]
      cases deviceName? path with
      | none => exact ih
      | some name =>
          refine .bind (h.get path name) ?_
          rcases fixed.get path name with e | d
          · cases e with
            | notExist => exact ih
            | _ => exact .pure _
          · exact .bind ih (.pure _)

lemma devices (h : c.Steady fixed) : Always c.devices fixed.devices := by
  rw [Client.devices, Client.devices, h.directories]
  refine .bind (h.findSockets fixed.directories) ?_
  rcases Uapi.findSockets fixed.host fixed.directories with e | paths
  · exact .pure _
  · exact h.devicesAt paths

end Steady

end Client

/-! ### Sockets that nobody listens on -/

/-- Nobody listens on a socket: it is gone, or refuses connections. -/
def Stale (answer : Except ExchangeFault Bytes) : Prop :=
  ∃ code, answer = .error (.connect (.code code)) ∧ (code = codeNoEntry ∨ code = codeRefused)

lemma ExchangeFault.error_eq_notExist_iff (fault : ExchangeFault) :
    fault.error = .notExist ↔ Stale (.error fault) := by
  cases fault with
  | connect fault =>
      rw [error, Stale]
      split_ifs with h
      · rcases h with rfl | rfl
        · exact iff_of_true rfl ⟨_, rfl, .inl rfl⟩
        · exact iff_of_true rfl ⟨_, rfl, .inr rfl⟩
      · refine iff_of_false (by simp) ?_
        rintro ⟨code, hfault, hcode⟩
        simp only [Except.error.injEq, connect.injEq] at hfault
        exact h (hcode.imp (hfault.trans <| congrArg _ ·) (hfault.trans <| congrArg _ ·))
  | transfer fault => simp [error, Stale]

namespace Client

variable {c : Client Id} {name : String} {path : Bytes}

/-- **There is no device** behind a socket exactly if nobody listens on it. -/
lemma get_eq_notExist_iff : c.get path name = Except.error .notExist ↔
    Stale (c.host.exchange path (Utf8.encode getRequest)) := by
  have hget : c.get path name =
      (match c.host.exchange path (Utf8.encode getRequest) with
        | .ok stream => responseText stream
        | .error fault => .error fault.error).bind (readGet name) := by
    rw [get, ask]
    rcases c.host.exchange path (Utf8.encode getRequest) with fault | stream <;> rfl
  rw [hget]
  rcases c.host.exchange path (Utf8.encode getRequest) with fault | stream
  · rw [← ExchangeFault.error_eq_notExist_iff]
    exact iff_of_eq (Except.error.injEq _ _)
  · refine iff_of_false (fun h => ?_) ?_
    · have hrejects : FailsOnly Error.IsRejection ((responseText stream).bind (readGet name)) :=
        ((failsOnly_responseText stream).mono fun _ => .inl).bind (failsOnly_readGet name)
      exact (hrejects _ h).ne_notExist rfl
    · rintro ⟨_, ⟨⟩, -⟩

lemma name_of_get {d : Device} (h : c.get path name = Except.ok d) : d.name = name := by
  obtain ⟨text, -, hread⟩ := Except.bind_eq_ok_iff.mp h
  obtain ⟨-, rfl⟩ := readGet_eq_ok_iff_accepted.mp hread
  rfl

/-! ### Devices behind sockets -/

/-- The devices behind some sockets. A socket that belongs to no device, or that nobody listens on,
has none. -/
inductive Listed (c : Client Id) : List Bytes → List Device → Prop
  /-- There is no socket. -/
  | nil : Listed c [] []
  /-- The name of the first socket is no text. -/
  | unnamed {path : Bytes} {paths : List Bytes} {ds : List Device}
      (named : deviceName? path = none) (later : Listed c paths ds) : Listed c (path :: paths) ds
  /-- Nobody listens on the first socket. -/
  | stale {path : Bytes} {name : String} {paths : List Bytes} {ds : List Device}
      (named : deviceName? path = some name) (gone : c.get path name = Except.error .notExist)
      (later : Listed c paths ds) : Listed c (path :: paths) ds
  /-- The first socket responds with a device. -/
  | live {path : Bytes} {name : String} {paths : List Bytes} {d : Device} {ds : List Device}
      (named : deviceName? path = some name) (found : c.get path name = Except.ok d)
      (later : Listed c paths ds) : Listed c (path :: paths) (d :: ds)

lemma listed_of_devicesAt {paths : List Bytes} {ds : List Device}
    (h : c.devicesAt paths = Except.ok ds) : c.Listed paths ds := by
  induction paths generalizing ds with
  | nil =>
      obtain rfl := Except.ok.inj h
      exact .nil
  | cons path paths ih =>
      rw [devicesAt] at h
      cases hname : deviceName? path with
      | none =>
          rw [hname] at h
          exact .unnamed hname (ih h)
      | some name =>
          rw [hname] at h
          change (c.get path name >>= _ : Id _) = _ at h
          rcases hget : c.get path name with e | d
          · rw [hget] at h
            cases e with
            | notExist => exact .stale hname hget (ih h)
            | _ => cases h
          · rw [hget] at h
            obtain ⟨later, hlater, rfl⟩ := Except.map_eq_ok_iff.mp h
            exact .live hname hget (ih hlater)

namespace Listed

variable {paths : List Bytes} {ds : List Device}

/-- A device in the list is behind one of the sockets. -/
lemma exists_path {d : Device} (h : c.Listed paths ds) (hd : d ∈ ds) :
    ∃ path ∈ paths, deviceName? path = some d.name := by
  induction h with
  | nil => cases hd
  | unnamed _ _ ih | stale _ _ _ ih =>
      obtain ⟨path, hpath, hname⟩ := ih hd
      exact ⟨path, List.mem_cons_of_mem _ hpath, hname⟩
  | live named found _ ih =>
      rcases List.mem_cons.mp hd with rfl | hd
      · exact ⟨_, List.mem_cons_self, named.trans (congrArg some (name_of_get found).symm)⟩
      · obtain ⟨path, hpath, hname⟩ := ih hd
        exact ⟨path, List.mem_cons_of_mem _ hpath, hname⟩

/-- **The first device of a name** is behind the first socket of this name, unless nobody listens
on that. -/
lemma find? (h : c.Listed paths ds)
    (hpath : paths.find? (fun p => deviceName? p = some name) = some path) :
    (∃ first, c.get path name = Except.ok first ∧
        ds.find? (fun d => d.name = name) = some first) ∨
      c.get path name = Except.error .notExist := by
  induction h with
  | nil => cases hpath
  | unnamed named _ ih =>
      rw [List.find?_cons_of_neg (by simp [named])] at hpath
      exact ih hpath
  | @stale path' name' _ _ named gone _ ih =>
      by_cases hname : name' = name
      · subst hname
        rw [List.find?_cons_of_pos (by simp [named])] at hpath
        obtain rfl := Option.some.inj hpath
        exact .inr gone
      · rw [List.find?_cons_of_neg (by simp [named, hname])] at hpath
        exact ih hpath
  | @live path' name' _ d _ named found _ ih =>
      have hd := name_of_get found
      by_cases hname : name' = name
      · subst hname
        rw [List.find?_cons_of_pos (by simp [named])] at hpath
        obtain rfl := Option.some.inj hpath
        exact .inl ⟨d, found, List.find?_cons_of_pos (by simp [hd])⟩
      · rw [List.find?_cons_of_neg (by simp [named, hname])] at hpath
        rw [List.find?_cons_of_neg (by simp [hd, hname])]
        exact ih hpath

end Listed

lemma device_of_socket (h : c.socket name = Except.ok path) :
    c.device name = c.get path name := by
  rw [device, h]
  rfl

/-- A device that is listed has a first socket of its name. -/
lemma exists_socket_of_devices {ds : List Device} {d : Device} (h : c.devices = Except.ok ds)
    (hd : d ∈ ds) : ∃ paths path, c.Listed paths ds ∧ c.socket d.name = Except.ok path ∧
      paths.find? (fun p => deviceName? p = some d.name) = some path := by
  rw [devices] at h
  rcases hpaths : findSockets c.host c.directories with e | paths
  · rw [hpaths] at h
    cases h
  · rw [hpaths] at h
    have hlisted := listed_of_devicesAt h
    obtain ⟨p, hp, hname⟩ := hlisted.exists_path hd
    have hsome : (paths.find? fun p => deviceName? p = some d.name).isSome :=
      List.find?_isSome.mpr ⟨p, hp, by simpa using hname⟩
    obtain ⟨path, hpath⟩ := Option.isSome_iff_exists.mp hsome
    refine ⟨paths, path, hlisted, ?_, hpath⟩
    have hfound : findSockets c.host c.directories = pure (Except.ok paths) := hpaths
    simp only [socket, hfound, pure_bind, hpath]
    rfl

end Client

/-! ### Looking a listed device up -/

/-- **A listed device is looked up** at the first socket of its name, and if somebody listens there
the device found is the first one of that name in the list. If nobody does, the device is taken not
to exist, although a later socket responded with it when the devices were listed. -/
theorem listed_device {σ : Type} {c : Client (StateM σ)} {fixed : Client Id} (h : c.Steady fixed)
    {s : σ} {ds : List Device} (hds : (c.devices s).1 = .ok ds) {d : Device} (hd : d ∈ ds)
    (s' : σ) :
    ∃ path first, (c.socket d.name s').1 = .ok path ∧
      ds.find? (fun listed => listed.name = d.name) = some first ∧
      (¬ Stale (fixed.host.exchange path (Utf8.encode getRequest)) →
        (c.device d.name s').1 = .ok first) ∧
      (Stale (fixed.host.exchange path (Utf8.encode getRequest)) →
        (c.device d.name s').1 = .error .notExist) := by
  rw [h.devices] at hds
  obtain ⟨paths, path, hlisted, hsocket, hpath⟩ := Client.exists_socket_of_devices hds hd
  have hsome : (ds.find? fun listed => listed.name = d.name).isSome :=
    List.find?_isSome.mpr ⟨d, hd, by simp⟩
  obtain ⟨first, hfirst⟩ := Option.isSome_iff_exists.mp hsome
  refine ⟨path, first, (h.socket d.name s').trans hsocket, hfirst, fun hlive => ?_,
    fun hstale => ?_⟩
  · obtain ⟨first', hget, hfirst'⟩ | hgone := hlisted.find? hpath
    · obtain rfl := Option.some.inj (hfirst.symm.trans hfirst')
      exact (h.device d.name s').trans ((Client.device_of_socket hsocket).trans hget)
    · exact absurd (Client.get_eq_notExist_iff.mp hgone) hlive
  · exact (h.device d.name s').trans
      ((Client.device_of_socket hsocket).trans (Client.get_eq_notExist_iff.mpr hstale))

/-- The client of a system without a state, of which every state is one. -/
def Client.unchanging (fixed : Client Id) : Client (StateM Unit) where
  host.entries := fun directory => pure (fixed.host.entries directory)
  host.exchange := fun path request => pure (fixed.host.exchange path request)
  directories := fixed.directories

lemma Client.steady_unchanging (fixed : Client Id) : fixed.unchanging.Steady fixed :=
  ⟨rfl, fun _ => .pure _, fun _ => .pure _⟩

/-- Two directories with a socket of the device `wg0` each. The first one is answered with `answer`,
the second one with a status. -/
def twice (answer : Except ExchangeFault Bytes) : Client Id where
  host.entries := fun _ => .ok [⟨[119, 103, 48], true⟩]
  host.exchange := fun path _ =>
    if path.head? = some slash then answer else .ok (Utf8.encode "errno=0\n\n".toList)
  directories := [[slash], [119]]

/-- Two programs respond for one name: the device found is that of the first directory, whichever of
the two listed ones is asked for. -/
theorem listed_device_twice :
    let fixed := twice (.ok (Utf8.encode "listen_port=1\nerrno=0\n\n".toList))
    let listed : List Device := [{ name := "wg0", deviceType := .userspace, listenPort := 1 },
      { name := "wg0", deviceType := .userspace }]
    fixed.unchanging.Steady fixed ∧ (fixed.unchanging.devices ()).1 = .ok listed ∧
      ∀ d ∈ listed, ∃ path first, (fixed.unchanging.socket d.name ()).1 = .ok path ∧
        listed.find? (fun other => other.name = d.name) = some first ∧
        (¬ Stale (fixed.host.exchange path (Utf8.encode getRequest)) →
          (fixed.unchanging.device d.name ()).1 = .ok first) ∧
        (Stale (fixed.host.exchange path (Utf8.encode getRequest)) →
          (fixed.unchanging.device d.name ()).1 = .error .notExist) := by
  intro fixed listed
  have hdevices : (fixed.unchanging.devices ()).1 = .ok listed := by decide +kernel
  exact ⟨fixed.steady_unchanging, hdevices,
    fun d hd => listed_device fixed.steady_unchanging hdevices hd ()⟩

/-- **A listed device is not found**: the program that served `wg0` in the first directory is gone,
and another one serves it in the second. -/
theorem listed_device_not_found :
    let fixed := twice (.error (.connect (.code codeRefused)))
    fixed.unchanging.Steady fixed ∧
      (fixed.unchanging.devices ()).1 = .ok [{ name := "wg0", deviceType := .userspace }] ∧
      (fixed.unchanging.device "wg0" ()).1 = .error .notExist := by
  intro fixed
  exact ⟨fixed.steady_unchanging, by decide +kernel, by decide +kernel⟩

end WireGuardControl.Uapi
