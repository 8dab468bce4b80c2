import Mathlib.Tactic
import WireGuardControl.Proofs.Uapi.Framing
import WireGuardControl.Uapi.Rehearsal
/-!
The sockets that are found, and those that are talked to.

* `SocketsOf`: the sockets of one directory in their order, which is that of their paths, octet by
  octet and name by name. `socketsOf_socketPaths`: these are found, in whatever order the entries of
  the directory are given (`socketPaths_of_perm`).
* `Client.Reorders`: two systems that differ only in the orders in which they give entries. A client
  does the same with either of them.
* `Finds`: what comes of a search, read off the answers of the directories. `findSockets_finds`: so
  it goes, by induction on the directories.
* `Queries` and `Reaches`: the exchanges that a listing makes behind a search, and those that an
  operation on one device makes. The former are an instance of `readEach_lists`.
* `search_decides`: what is found depends on no order of entries, and decides which sockets
  are talked to.
-/

namespace WireGuardControl.Uapi

open Text

variable {σ α β : Type}

/-! ### The paths of a directory -/

/-- A name that an entry of a directory can have. -/
structure IsName (name : Bytes) : Prop where
  /-- It is not empty. -/
  ne_nil : name ≠ []
  /-- It is not that of the directory itself. -/
  ne_dot : name ≠ [dot]
  /-- It is not that of the parent. -/
  ne_dots : name ≠ [dot, dot]
  /-- It is a single name. -/
  slash_notMem : slash ∉ name

lemma pathParts_of_notMem {name : Bytes} (h : slash ∉ name) : pathParts name = [name] := by
  induction name with
  | nil => rfl
  | cons b name ih =>
      obtain ⟨hb, hname⟩ := List.ne_and_not_mem_of_not_mem_cons h
      rw [pathParts, if_neg (Ne.symm hb), ih hname]

lemma pathParts_ne_nil (path : Bytes) : pathParts path ≠ [] := by
  cases path with
  | nil => simp [pathParts]
  | cons b path =>
      rw [pathParts]
      split_ifs
      · simp
      · split <;> simp

lemma pathParts_append (path rest : Bytes) :
    pathParts (path ++ slash :: rest) = pathParts path ++ pathParts rest := by
  induction path with
  | nil => rfl
  | cons b path ih =>
      rw [List.cons_append, pathParts, pathParts, ih]
      split_ifs
      · rfl
      · obtain ⟨part, parts, hparts⟩ := List.exists_cons_of_ne_nil (pathParts_ne_nil path)
        rw [hparts]
        rfl

/-- **The path of an entry** has the names of the directory and that of the entry. -/
lemma pathNames_childPath {name : Bytes} (h : IsName name) (directory : Bytes) :
    pathNames (childPath directory name) = pathNames directory ++ [name] := by
  have hown : pathNames name = [name] := by
    rw [pathNames, pathParts_of_notMem h.slash_notMem, List.filter_singleton]
    simp [h.ne_nil, h.ne_dot]
  have hnone : pathNames [] = [] := rfl
  have hjoin (path rest : Bytes) :
      pathNames (path ++ slash :: rest) = pathNames path ++ pathNames rest := by
    rw [pathNames, pathParts_append, List.filter_append]
    rfl
  rw [childPath]
  split_ifs with hend
  · rcases hend with rfl | hslash
    · rw [List.nil_append, hown, hnone, List.nil_append]
    · obtain ⟨front, rfl⟩ := List.getLast?_eq_some_iff.mp hslash
      rw [List.append_assoc, List.singleton_append, hjoin, hjoin, hown, hnone, List.append_nil]
  · rw [hjoin, hown]

/-- **The device of an entry** has the stem of its name, if that is a text. -/
lemma deviceName?_childPath {name : Bytes} (h : IsName name) (directory : Bytes) :
    deviceName? (childPath directory name) = (Utf8.toString? (stem name)).toOption := by
  rw [deviceName?, fileStem?, fileName?, pathNames_childPath h, List.getLast?_append,
    List.getLast?_singleton, Option.some_or, Option.filter_some_pos (by simpa using h.ne_dots)]
  rfl

lemma childPath_le {name name' : Bytes} (h : name ≤ name') (directory : Bytes) :
    childPath directory name ≤ childPath directory name' := by
  rw [childPath, childPath]
  split_ifs
  · exact List.append_left_le h
  · have hslash : [slash] ++ name ≤ [slash] ++ name' := List.append_left_le h
    exact List.append_left_le hslash

/-! ### The sockets of a directory -/

/-- The paths of the sockets among the entries of a directory, in order. -/
structure SocketsOf (directory : Bytes) (entries : List Entry) (paths : List Bytes) : Prop where
  /-- They are those of the entries that are sockets. -/
  perm : paths.Perm ((entries.filter (·.isSocket)).map fun e => childPath directory e.name)
  /-- They are sorted octet by octet. -/
  sorted : paths.Pairwise (· ≤ ·)
  /-- They are sorted name by name, too. -/
  sorted_names : (∀ e ∈ entries, IsName e.name) →
    paths.Pairwise fun path path' => pathNames path ≤ pathNames path'
  /-- Each belongs to the device that has the stem of its name. -/
  device : (∀ e ∈ entries, IsName e.name) → ∀ path ∈ paths, ∃ e ∈ entries, e.isSocket ∧
    path = childPath directory e.name ∧
    deviceName? path = (Utf8.toString? (stem e.name)).toOption

/-- The names of sockets in order. -/
def socketNames (entries : List Entry) : List Bytes :=
  ((entries.filter (·.isSocket)).map (·.name)).mergeSort fun a b => decide (a ≤ b)

lemma socketNames_perm (entries : List Entry) :
    (socketNames entries).Perm ((entries.filter (·.isSocket)).map (·.name)) :=
  List.mergeSort_perm _ _

lemma socketNames_sorted (entries : List Entry) : (socketNames entries).Pairwise (· ≤ ·) := by
  refine (List.pairwise_mergeSort (fun a b c hab hbc => ?_) (fun a b => ?_) _).imp of_decide_eq_true
  · exact decide_eq_true (List.le_trans (of_decide_eq_true hab) (of_decide_eq_true hbc))
  · rw [Bool.or_eq_true, decide_eq_true_iff, decide_eq_true_iff]
    exact List.le_total a b

/-- There is only one order of the names. -/
lemma socketNames_eq {entries : List Entry} {names : List Bytes}
    (hperm : names.Perm ((entries.filter (·.isSocket)).map (·.name)))
    (hsorted : names.Pairwise (· ≤ ·)) : socketNames entries = names :=
  List.Perm.eq_of_pairwise (fun _ _ _ _ => List.le_antisymm) (socketNames_sorted entries) hsorted
    ((socketNames_perm entries).trans hperm.symm)

/-- **The order of the entries does not matter.** -/
lemma socketPaths_of_perm {entries entries' : List Entry} (h : entries.Perm entries')
    (directory : Bytes) : socketPaths directory entries = socketPaths directory entries' := by
  have hperm : (socketNames entries').Perm ((entries.filter (·.isSocket)).map (·.name)) :=
    (socketNames_perm entries').trans ((h.symm.filter _).map _)
  have hnames : socketNames entries = socketNames entries' :=
    socketNames_eq hperm (socketNames_sorted entries')
  exact congrArg (List.map (childPath directory)) hnames

/-- **The sockets of a directory are found** in the order of their paths. -/
lemma socketsOf_socketPaths (directory : Bytes) (entries : List Entry) :
    SocketsOf directory entries (socketPaths directory entries) := by
  have hpaths : socketPaths directory entries =
      (socketNames entries).map (childPath directory) := rfl
  have hmem : ∀ name ∈ socketNames entries, ∃ e ∈ entries, e.isSocket ∧ e.name = name := by
    intro name hname
    obtain ⟨e, he, rfl⟩ := List.mem_map.mp ((socketNames_perm entries).mem_iff.mp hname)
    exact ⟨e, (List.mem_filter.mp he).1, (List.mem_filter.mp he).2, rfl⟩
  rw [hpaths]
  refine ⟨?_, ?_, fun hall => ?_, fun hall path hpath => ?_⟩
  · have hperm := (socketNames_perm entries).map (childPath directory)
    rwa [List.map_map] at hperm
  · rw [List.pairwise_map]
    exact (socketNames_sorted entries).imp fun h => childPath_le h directory
  · rw [List.pairwise_map]
    refine (socketNames_sorted entries).imp_of_mem fun {name name'} hname hname' h => ?_
    obtain ⟨e, he, -, rfl⟩ := hmem name hname
    obtain ⟨e', he', -, rfl⟩ := hmem name' hname'
    rw [pathNames_childPath (hall e he), pathNames_childPath (hall e' he')]
    refine List.append_left_le (List.cons_le_cons_iff.mpr ?_)
    rcases List.le_iff_lt_or_eq.mp h with hlt | heq
    · exact .inl hlt
    · exact .inr ⟨heq, List.le_refl []⟩
  · obtain ⟨name, hname, rfl⟩ := List.mem_map.mp hpath
    obtain ⟨e, he, hsocket, rfl⟩ := hmem name hname
    exact ⟨e, he, hsocket, rfl, deviceName?_childPath (hall e he) directory⟩

/-! ### Systems that give entries in other orders -/

/-- Two answers of a directory with the same entries, in whatever orders. -/
inductive SameEntries :
    Except SystemFault (List Entry) → Except SystemFault (List Entry) → Prop
  /-- There is the same fault. -/
  | fault (fault : SystemFault) : SameEntries (.error fault) (.error fault)
  /-- There are the same entries. -/
  | entries {entries entries' : List Entry} (perm : entries.Perm entries') :
      SameEntries (.ok entries) (.ok entries')

namespace Client

/-- Two clients whose systems differ only in the orders in which they give the entries of
directories. -/
structure Reorders (c c' : Client (StateM σ)) : Prop where
  /-- The directories are the same. -/
  directories : c.directories = c'.directories
  /-- They have the same entries. -/
  entries : ∀ directory s,
    SameEntries (c.host.entries directory s).1 (c'.host.entries directory s).1
  /-- Giving them leaves the system in the same state. -/
  state : ∀ directory s, (c.host.entries directory s).2 = (c'.host.entries directory s).2
  /-- The sockets are the same. -/
  exchange : c.host.exchange = c'.host.exchange

namespace Reorders

variable {c c' : Client (StateM σ)}

/-- **The same sockets are found.** -/
lemma findSockets (h : c.Reorders c') (directories : List Bytes) :
    Uapi.findSockets c.host directories = Uapi.findSockets c'.host directories := by
  induction directories with
  | nil => rfl
  | cons directory rest ih =>
      rw [Uapi.findSockets, Uapi.findSockets, ih]
      funext s
      have hentries := h.entries directory s
      have hstate := h.state directory s
      rcases hrun : c.host.entries directory s with ⟨answer, s₁⟩
      rcases hrun' : c'.host.entries directory s with ⟨answer', s₁'⟩
      rw [hrun, hrun'] at hentries hstate
      obtain rfl : s₁ = s₁' := hstate
      simp only [bind, StateT.bind, hrun, hrun']
      cases hentries with
      | fault => rfl
      | entries perm => simp only [socketPaths_of_perm perm]

lemma ask (h : c.Reorders c') : c.ask = c'.ask := by
  funext path request
  rw [Client.ask, Client.ask, h.exchange]

lemma socket (h : c.Reorders c') : c.socket = c'.socket := by
  funext name
  rw [Client.socket, Client.socket, h.directories, h.findSockets]

lemma device (h : c.Reorders c') : c.device = c'.device := by
  funext name
  simp only [Client.device, get, h.socket, h.ask]

lemma configure (h : c.Reorders c') : c.configure = c'.configure := by
  funext name config
  simp only [Client.configure, h.socket, h.ask]

lemma devices (h : c.Reorders c') : c.devices = c'.devices := by
  have hdeviceAt : c.deviceAt = c'.deviceAt := by
    funext path
    simp only [deviceAt, get, h.ask]
  have hdevicesAt : c.devicesAt = c'.devicesAt := by
    funext paths
    rw [devicesAt_eq, devicesAt_eq, hdeviceAt]
  rw [Client.devices, Client.devices, h.directories, h.findSockets, hdevicesAt]

end Reorders

end Client

/-! ### Calls to the system -/

/-- A call to the system, with its answer. -/
inductive Event where
  /-- A directory is read. -/
  | entries (directory : Bytes) (answer : Except SystemFault (List Entry))
  /-- A socket is connected to for a request. -/
  | exchange (path request : Bytes) (answer : Except ExchangeFault Bytes)

/-- The system, every call to which is noted. -/
def Host.noted (host : Host (StateM σ)) : Host (StateM (σ × List Event)) where
  entries := fun directory (s, log) =>
    let (answer, s') := host.entries directory s
    (answer, (s', log ++ [.entries directory answer]))
  exchange := fun path request (s, log) =>
    let (answer, s') := host.exchange path request s
    (answer, (s', log ++ [.exchange path request answer]))

/-- The client, every call of which is noted. -/
def Client.noted (c : Client (StateM σ)) : Client (StateM (σ × List Event)) where
  host := c.host.noted
  directories := c.directories

/-- A computation and one that keeps a record next to the state have the same outcome and leave the
same state, and the record has the events. -/
structure Runs (x : StateM σ α) (x' : StateM (σ × List Event) α) (s : σ) (outcome : α)
    (events : List Event) (s' : σ) : Prop where
  /-- The computation itself. -/
  plain : x s = (outcome, s')
  /-- The one with a record. -/
  noted : ∀ log, x' (s, log) = (outcome, (s', log ++ events))

namespace Runs

variable {x : StateM σ α} {x' : StateM (σ × List Event) α} {f : α → StateM σ β}
  {f' : α → StateM (σ × List Event) β} {s s₁ s₂ : σ} {a : α} {b : β} {events later : List Event}

lemma pure (a : α) (s : σ) : Runs (Pure.pure a) (Pure.pure a) s a [] s :=
  ⟨rfl, fun log => by rw [List.append_nil]; rfl⟩

/-- The events of two steps stand one behind the other. -/
lemma bind (hx : Runs x x' s a events s₁) (hf : Runs (f a) (f' a) s₁ b later s₂) :
    Runs (x >>= f) (x' >>= f') s b (events ++ later) s₂ := by
  constructor
  · simp only [Bind.bind, StateT.bind, hx.plain, hf.plain]
  · intro log
    simp only [Bind.bind, StateT.bind, hx.noted, hf.noted, List.append_assoc]

/-- A computation that only puts the result of another to use. -/
lemma map (hx : Runs x x' s a events s₁) (g : α → β) :
    Runs (do let a ← x; return g a) (do let a ← x'; return g a) s (g a) events s₁ := by
  have hpure : Runs (Pure.pure (g a)) (Pure.pure (g a)) s₁ (g a) [] s₁ := .pure (g a) s₁
  rw [← List.append_nil events]
  exact hx.bind hpure

end Runs

lemma runs_entries (host : Host (StateM σ)) (directory : Bytes) (s : σ) :
    Runs (host.entries directory) (host.noted.entries directory) s (host.entries directory s).1
      [.entries directory (host.entries directory s).1] (host.entries directory s).2 :=
  ⟨rfl, fun _ => rfl⟩

lemma runs_exchange (host : Host (StateM σ)) (path request : Bytes) (s : σ) :
    Runs (host.exchange path request) (host.noted.exchange path request) s
      (host.exchange path request s).1 [.exchange path request (host.exchange path request s).1]
      (host.exchange path request s).2 :=
  ⟨rfl, fun _ => rfl⟩

/-! ### Searches -/

/-- The answers of directories. -/
abbrev Readings := List (Bytes × Except SystemFault (List Entry))

/-- The events in which directories are read. -/
def Readings.events (reads : Readings) : List Event := reads.map fun x => .entries x.1 x.2

/-- What a directory contributes to a search. -/
inductive Contributes (directory : Bytes) :
    Except SystemFault (List Entry) → List Bytes → Prop
  /-- A directory that does not exist contributes nothing. -/
  | missing : Contributes directory (.error (.code codeNoEntry)) []
  /-- Any other one contributes its sockets. -/
  | sockets {entries : List Entry} {paths : List Bytes} (all : SocketsOf directory entries paths) :
      Contributes directory (.ok entries) paths

/-- How a search in directories ends, of which some gave the answers `reads`. -/
structure Finds (directories : List Bytes) (reads : Readings)
    (outcome : Except Error (List Bytes)) : Prop where
  /-- The directories are read in order. -/
  initial : reads.map Prod.fst <+: directories
  /-- A fault that does not deny a directory is the last answer, and the outcome. -/
  stops : ∀ before directory fault after, reads = before ++ (directory, .error fault) :: after →
    fault ≠ .code codeNoEntry → after = [] ∧ outcome = .error (.io fault)
  /-- If there is none, then all are read, and what they contribute is found in order. -/
  complete : (∀ x ∈ reads, ∀ fault, x.2 = .error fault → fault = .code codeNoEntry) →
    reads.map Prod.fst = directories ∧
      ∃ parts, List.Forall₂ (fun x part => Contributes x.1 x.2 part) reads parts ∧
        outcome = .ok parts.flatten

namespace Finds

variable {directories : List Bytes} {reads : Readings} {outcome : Except Error (List Bytes)}

lemma nil : Finds [] [] (.ok []) where
  initial := List.nil_prefix
  stops before directory fault after h _ := by simp at h
  complete _ := ⟨rfl, [], .nil, rfl⟩

/-- A fault that does not deny a directory ends the search. -/
lemma fails (directory : Bytes) (rest : List Bytes) {fault : SystemFault}
    (h : fault ≠ .code codeNoEntry) :
    Finds (directory :: rest) [(directory, .error fault)] (.error (.io fault)) where
  initial := List.cons_prefix_cons.mpr ⟨rfl, List.nil_prefix⟩
  stops before directory' fault' after hreads _ := by
    obtain ⟨rfl, hcons⟩ := List.append_eq_cons_iff.mp hreads.symm |>.resolve_right (by simp)
    obtain ⟨hanswer, rfl⟩ := List.cons.inj hcons
    obtain rfl := Except.error.inj (Prod.mk.inj hanswer).2
    exact ⟨rfl, rfl⟩
  complete hall := absurd (hall _ (List.mem_singleton.mpr rfl) fault rfl) h

/-- A directory in front of others adds what it contributes. -/
lemma cons (h : Finds directories reads outcome) {directory : Bytes}
    {answer : Except SystemFault (List Entry)} {part : List Bytes}
    (hpart : Contributes directory answer part) :
    Finds (directory :: directories) ((directory, answer) :: reads)
      (outcome.map (part ++ ·)) where
  initial := List.cons_prefix_cons.mpr ⟨rfl, h.initial⟩
  stops before directory' fault after hreads hfault := by
    cases before with
    | nil =>
        obtain ⟨hhead, -⟩ := List.cons.inj hreads
        obtain ⟨-, rfl⟩ := Prod.mk.inj hhead
        cases hpart with
        | missing => exact absurd rfl hfault
    | cons x before =>
        obtain ⟨hafter, rfl⟩ := h.stops before _ _ _ (List.cons.inj hreads).2 hfault
        exact ⟨hafter, rfl⟩
  complete hall := by
    obtain ⟨hreads, parts, hparts, rfl⟩ := h.complete (List.forall_mem_cons.mp hall).2
    exact ⟨congrArg (directory :: ·) hreads, part :: parts, .cons hpart hparts, rfl⟩

end Finds

/-- **A search** goes by the answers of the directories. -/
lemma findSockets_finds (host : Host (StateM σ)) (directories : List Bytes) (s : σ) :
    ∃ reads found s', Runs (findSockets host directories) (findSockets host.noted directories) s
      found (Readings.events reads) s' ∧ Finds directories reads found := by
  induction directories generalizing s with
  | nil => exact ⟨[], .ok [], s, .pure _ s, .nil⟩
  | cons directory rest ih =>
      have hread := runs_entries host directory s
      obtain ⟨reads, found, s', hrest, hfinds⟩ := ih (host.entries directory s).2
      rcases hanswer : (host.entries directory s).1 with fault | entries
      · rw [hanswer] at hread
        by_cases hmissing : fault = .code codeNoEntry
        · subst hmissing
          refine ⟨(directory, .error (.code codeNoEntry)) :: reads, found, s', ?_, ?_⟩
          · rw [findSockets, findSockets]
            exact hread.bind hrest
          · have hnothing : Contributes directory (.error (.code codeNoEntry)) [] := .missing
            have hsame : found.map ([] ++ ·) = found := by cases found <;> rfl
            have hcons := hfinds.cons hnothing
            rwa [hsame] at hcons
        · refine ⟨[(directory, .error fault)], .error (.io fault), (host.entries directory s).2, ?_,
            .fails directory rest hmissing⟩
          rw [findSockets, findSockets]
          have hstop := Runs.pure (.error (.io fault) : Except Error (List Bytes))
            (host.entries directory s).2
          exact hread.bind (by simpa only [if_neg hmissing] using hstop)
      · rw [hanswer] at hread
        refine ⟨(directory, .ok entries) :: reads, found.map (socketPaths directory entries ++ ·),
          s', ?_, hfinds.cons (.sockets (socketsOf_socketPaths directory entries))⟩
        rw [findSockets, findSockets]
        exact hread.bind (hrest.map _)

/-! ### Requests -/

/-- The text that an answer of a socket has, or the fault. -/
def answerText (answer : Except ExchangeFault Bytes) : Except Error (List Char) :=
  (answer.mapError ExchangeFault.error).bind responseText

/-- What an operation on the device `name` does behind a search that gave `found`. -/
structure Reaches (found : Except Error (List Bytes)) (name : String) (request : List Char)
    (read : List Char → Except Error α) (exchanges : List Event) (outcome : Except Error α) :
    Prop where
  /-- It fails as the search does, without an exchange. -/
  fails : ∀ e, found = .error e → exchanges = [] ∧ outcome = .error e
  /-- Without a socket of the device there is no exchange, and the device does not exist. -/
  absent : ∀ paths, found = .ok paths → (∀ path ∈ paths, deviceName? path ≠ some name) →
    exchanges = [] ∧ outcome = .error .notExist
  /-- Otherwise the only exchange is with the first socket of the device. -/
  first : ∀ before path after, found = .ok (before ++ path :: after) →
    (∀ earlier ∈ before, deviceName? earlier ≠ some name) → deviceName? path = some name →
    ∃ answer, exchanges = [.exchange path (Utf8.encode request) answer] ∧
      outcome = (answerText answer).bind read

/-- A request for a device behind a socket, with its answer. -/
structure Query where
  /-- The path of the socket. -/
  path : Bytes
  /-- The name of the device. -/
  name : String
  /-- The answer. -/
  answer : Except ExchangeFault Bytes

namespace Query

/-- The events of a query. -/
def events (q : Query) : List Event := [.exchange q.path (Utf8.encode getRequest) q.answer]

/-- What the answer says of the device. -/
def device (q : Query) : Except Error Device := (answerText q.answer).bind (readGet q.name)

/-- A query is the one for the device to which a socket belongs. -/
structure Asks (path : Bytes) (q : Query) : Prop where
  /-- The socket is asked. -/
  path_eq : q.path = path
  /-- The device belongs to it. -/
  named : deviceName? path = some q.name

end Query

/-- What a listing does behind a search that gave `found`. -/
structure Queries (found : Except Error (List Bytes)) (exchanges : List Event)
    (outcome : Except Error (List Device)) : Prop where
  /-- It fails as the search does, without an exchange. -/
  fails : ∀ e, found = .error e → exchanges = [] ∧ outcome = .error e
  /-- Otherwise the sockets that belong to devices are asked for them in order. -/
  lists : ∀ paths, found = .ok paths → ∃ asked queries,
    exchanges = queries.flatMap Query.events ∧ List.Forall₂ Query.Asks asked queries ∧
    Lists (paths.filter fun path => (deviceName? path).isSome) asked (queries.map Query.device)
      outcome

namespace Client

variable {c : Client (StateM σ)} {name : String}

lemma runs_ask (c : Client (StateM σ)) (path : Bytes) (request : List Char) (s : σ) :
    ∃ answer s', Runs (c.ask path request) (c.noted.ask path request) s (answerText answer)
      [.exchange path (Utf8.encode request) answer] s' := by
  have hexchange := runs_exchange c.host path (Utf8.encode request) s
  refine ⟨_, _, ⟨ask_eq c path request s, fun log => ?_⟩⟩
  rw [ask_eq, answerText]
  change (((c.host.noted.exchange path (Utf8.encode request) (s, log)).1.mapError _).bind _,
    (c.host.noted.exchange path (Utf8.encode request) (s, log)).2) = _
  rw [hexchange.noted]

/-- What an operation on one device does: it looks the socket up and makes a request there. -/
def request (c : Client (StateM σ)) (name : String) (request : List Char)
    (read : List Char → Except Error α) : StateM σ (Except Error α) := do
  match ← c.socket name with
  | .ok path => return (← c.ask path request).bind read
  | .error e => return .error e

lemma device_eq (c : Client (StateM σ)) (name : String) :
    c.device name = c.request name getRequest (readGet name) := rfl

lemma configure_eq (c : Client (StateM σ)) (name : String) (config : Config) :
    c.configure name config = c.request name (setRequest config) readSet := rfl

/-- The socket of a device among those found. -/
def pick (name : String) (found : Except Error (List Bytes)) : Except Error Bytes :=
  found.bind fun paths =>
    match paths.find? fun path => deviceName? path = some name with
    | some path => .ok path
    | none => .error .notExist

lemma pick_of_absent {paths : List Bytes} (h : ∀ path ∈ paths, deviceName? path ≠ some name) :
    pick name (.ok paths) = .error .notExist := by
  have hfind : paths.find? (fun path => deviceName? path = some name) = none := by
    simpa using h
  simp only [pick, Except.bind, hfind]

lemma pick_of_first {before after : List Bytes} {path : Bytes}
    (hbefore : ∀ earlier ∈ before, deviceName? earlier ≠ some name)
    (hpath : deviceName? path = some name) :
    pick name (.ok (before ++ path :: after)) = .ok path := by
  have hnone : before.find? (fun path => deviceName? path = some name) = none := by
    simpa using hbefore
  have hfind : (before ++ path :: after).find? (fun path => deviceName? path = some name) =
      some path := by
    rw [List.find?_append, hnone, Option.none_or, List.find?_cons_of_pos (by simpa using hpath)]
  simp only [pick, Except.bind, hfind]

variable {found : Except Error (List Bytes)} {text : List Char}
  {read : List Char → Except Error α}

/-- Where no socket is picked, there is no exchange. -/
lemma reaches_of_pick_error {e : Error} (h : pick name found = .error e) :
    Reaches found name text read [] (.error e) where
  fails e' hfound := by
    rw [hfound] at h
    exact ⟨rfl, congrArg _ (Except.error.inj h).symm⟩
  absent paths hfound hnone := by
    rw [hfound, pick_of_absent hnone] at h
    exact ⟨rfl, congrArg _ (Except.error.inj h).symm⟩
  first before path after hfound hbefore hpath := by
    rw [hfound, pick_of_first hbefore hpath] at h
    cases h

/-- Where a socket is picked, there is an exchange with it alone. -/
lemma reaches_of_pick_ok {path : Bytes} (h : pick name found = .ok path)
    (answer : Except ExchangeFault Bytes) :
    Reaches found name text read [.exchange path (Utf8.encode text) answer]
      ((answerText answer).bind read) where
  fails e hfound := by
    rw [hfound] at h
    cases h
  absent paths hfound hnone := by
    rw [hfound, pick_of_absent hnone] at h
    cases h
  first before path' after hfound hbefore hpath := by
    rw [hfound, pick_of_first hbefore hpath] at h
    obtain rfl := Except.ok.inj h
    exact ⟨answer, rfl, rfl⟩

lemma socket_eq (c : Client (StateM σ)) (name : String) :
    c.socket name = do return pick name (← findSockets c.host c.directories) := by
  rw [socket]
  refine congrArg _ (funext fun found => ?_)
  rcases found with e | paths
  · rfl
  · simp only [pick, Except.bind]
    cases paths.find? fun path => deviceName? path = some name <;> rfl

/-- A search in the directories of a client. -/
abbrev search (c : Client (StateM σ)) : StateM σ (Except Error (List Bytes)) :=
  findSockets c.host c.directories

variable {s s₁ : σ} {events : List Event}

/-- **An operation on one device** talks to the first of its sockets, if there is any. -/
lemma request_reaches (text : List Char) (read : List Char → Except Error α)
    (h : Runs c.search c.noted.search s found events s₁) :
    ∃ exchanges outcome s', Runs (c.request name text read) (c.noted.request name text read) s
      outcome (events ++ exchanges) s' ∧ Reaches found name text read exchanges outcome := by
  have hsocket : Runs (c.socket name) (c.noted.socket name) s (pick name found) events s₁ := by
    rw [socket_eq, socket_eq]
    exact h.map _
  cases hpick : pick name found with
  | error e =>
      rw [hpick] at hsocket
      exact ⟨[], .error e, s₁, hsocket.bind (.pure _ s₁), reaches_of_pick_error hpick⟩
  | ok path =>
      rw [hpick] at hsocket
      obtain ⟨answer, s', hask⟩ := runs_ask c path text s₁
      exact ⟨_, _, s', hsocket.bind (hask.map fun text => text.bind read),
        reaches_of_pick_ok hpick answer⟩

/-- The device behind a socket with a name is read with one query. -/
lemma deviceAt_inquires (c : Client (StateM σ)) {path : Bytes} {name : String}
    (hname : deviceName? path = some name) (s : σ) :
    ∃ q s', Query.Asks path q ∧
      Inquires Query.events Query.device (c.deviceAt path) (c.noted.deviceAt path) s q s' := by
  obtain ⟨answer, s', hask⟩ := runs_ask c path getRequest s
  have hget := hask.map fun text => text.bind (readGet name)
  refine ⟨⟨path, name, answer⟩, s', ⟨rfl, hname⟩, ?_⟩
  rw [deviceAt, deviceAt, hname]
  exact ⟨hget.plain, hget.noted⟩

/-- **A listing** asks the sockets that belong to devices, one after the other. -/
lemma devices_queries (h : Runs c.search c.noted.search s found events s₁) :
    ∃ exchanges outcome s', Runs c.devices c.noted.devices s outcome (events ++ exchanges) s' ∧
      Queries found exchanges outcome := by
  rcases found with e | paths
  · refine ⟨[], .error e, s₁, h.bind (.pure _ s₁), ?_, ?_⟩
    · rintro e' ⟨⟩
      exact ⟨rfl, rfl⟩
    · rintro paths ⟨⟩
  · have hread : ∀ path ∈ paths.filter (fun path => (deviceName? path).isSome), ∀ s, ∃ q s',
        Query.Asks path q ∧
        Inquires Query.events Query.device (c.deviceAt path) (c.noted.deviceAt path) s q s' := by
      intro path hpath s
      obtain ⟨name, hname⟩ := Option.isSome_iff_exists.mp (List.mem_filter.mp hpath).2
      exact deviceAt_inquires c hname s
    -- A socket that belongs to no device is not asked, so that such ones may be left out in front.
    have hunnamed {τ : Type} (c : Client (StateM τ)) (path : Bytes)
        (h : (deviceName? path).isSome = false) (s : τ) :
        c.deviceAt path s = (.error .notExist, s) := by
      rw [deviceAt, Option.isSome_eq_false_iff.mp h |> Option.isNone_iff_eq_none.mp]
      rfl
    obtain ⟨outcome, s', asked, queries, hplain, hlog, hall, hlists⟩ := readEach_lists _ hread s₁
    have hruns : Runs (c.devicesAt paths) (c.noted.devicesAt paths) s₁ outcome
        (queries.flatMap Query.events) s' := by
      constructor
      · rw [devicesAt_eq, ← readEach_filter (hunnamed c), hplain]
      · intro log
        rw [devicesAt_eq, ← readEach_filter (hunnamed c.noted), hlog]
    refine ⟨_, outcome, s', h.bind hruns, ?_, ?_⟩
    · rintro e ⟨⟩
    · rintro paths' ⟨⟩
      exact ⟨asked, queries, rfl, hall, hlists⟩

end Client

/-- **A search does not depend on the order of entries, and it decides which sockets are talked
to.** Systems that give the entries of directories in different orders are the same to every
operation of a client. The directories are read in order. A missing one contributes nothing, and the
first that fails otherwise ends the search with its fault; if there is none, then the sockets of all
directories are found, those of one sorted by their paths. Every operation begins with the search
and fails as it does. Behind it, a listing asks the sockets whose stem is a text, in the order in
which they were found. An operation on one device talks only to the first of those that belong to
this device; if there is none, the device does not exist, and no socket is connected to. -/
theorem search_decides {c c' : Client (StateM σ)} (h : c.Reorders c') :
    (c.search = c'.search ∧ c.devices = c'.devices ∧ c.device = c'.device ∧
      c.configure = c'.configure) ∧
    ∀ s, ∃ reads found s₁,
      Runs c.search c.noted.search s found (Readings.events reads) s₁ ∧
      Finds c.directories reads found ∧
      (∃ exchanges outcome s', Runs c.devices c.noted.devices s outcome
        (reads.events ++ exchanges) s' ∧ Queries found exchanges outcome) ∧
      (∀ name, ∃ exchanges outcome s', Runs (c.device name) (c.noted.device name) s outcome
        (reads.events ++ exchanges) s' ∧
        Reaches found name getRequest (readGet name) exchanges outcome) ∧
      ∀ name config, ∃ exchanges outcome s',
        Runs (c.configure name config) (c.noted.configure name config) s outcome
          (reads.events ++ exchanges) s' ∧
        Reaches found name (setRequest config) readSet exchanges outcome := by
  refine ⟨⟨?_, h.devices, h.device, h.configure⟩, fun s => ?_⟩
  · rw [Client.search, Client.search, h.findSockets, h.directories]
  · obtain ⟨reads, found, s₁, hsearch, hfinds⟩ := findSockets_finds c.host c.directories s
    refine ⟨reads, found, s₁, hsearch, hfinds, Client.devices_queries hsearch, fun name => ?_,
      fun name config => ?_⟩
    · rw [Client.device_eq, Client.device_eq]
      exact Client.request_reaches getRequest (readGet name) hsearch
    · rw [Client.configure_eq, Client.configure_eq]
      exact Client.request_reaches (setRequest config) readSet hsearch

/-- The client that is given the entries of directories in reverse. -/
def Client.reversed (c : Client (StateM σ)) : Client (StateM σ) where
  host.entries := fun directory => do return (← c.host.entries directory).map List.reverse
  host.exchange := c.host.exchange
  directories := c.directories

lemma Client.reorders_reversed (c : Client (StateM σ)) : c.Reorders c.reversed where
  directories := rfl
  entries directory s := by
    change SameEntries _ ((c.host.entries directory s).1.map List.reverse)
    rcases (c.host.entries directory s).1 with fault | entries
    · exact .fault fault
    · exact .entries entries.reverse_perm.symm
  state _ _ := rfl
  exchange := rfl

/-- A missing directory, and one with two sockets of `wg0`, one of which has another extension: only
the first of them is talked to, and none for `wg1`, whose name only a file has. -/
theorem search_decides_reversed :
    let wg0 : Bytes := [119, 103, 48, dot]
    let c : Client (StateM Rehearsal) := ⟨Rehearsal.host, [[slash], [119]]⟩
    let s : Rehearsal := { directories := [([119], .holds [(wg0 ++ [98], .program []),
      ([119, 103, 49], .other), (wg0 ++ [97], .nobody)])] }
    let first : Bytes := [119, slash] ++ wg0 ++ [97]
    let second : Bytes := [119, slash] ++ wg0 ++ [98]
    c.Reorders c.reversed ∧ c.search = c.reversed.search ∧
      (c.search s).1 = .ok [first, second] ∧
      ∃ reads : Readings, ∃ answer outcome s₁ s₂,
        Runs (c.device "wg0") (c.noted.device "wg0") s outcome
          (reads.events ++ [.exchange first (Utf8.encode getRequest) answer]) s₁ ∧
        Runs (c.device "wg1") (c.noted.device "wg1") s (.error .notExist) (reads.events ++ [])
          s₂ := by
  intro wg0 c s first second
  have hreorders := c.reorders_reversed
  obtain ⟨⟨hsearch, -⟩, hall⟩ := search_decides hreorders
  obtain ⟨reads, found, s₁, hruns, -, -, hdevice, -⟩ := hall s
  have hnames : socketNames [⟨wg0 ++ [98], true⟩, ⟨[119, 103, 49], false⟩, ⟨wg0 ++ [97], true⟩] =
      [wg0 ++ [97], wg0 ++ [98]] := socketNames_eq (by decide) (by decide)
  have hfound : (c.search s).1 = .ok [first, second] :=
    congrArg (fun names : List Bytes => Except.ok (names.map (childPath [119]) ++ [])) hnames
  refine ⟨hreorders, hsearch, hfound, ?_⟩
  rw [hruns.plain] at hfound
  obtain ⟨exchanges, outcome, s₂, hrun, hreaches⟩ := hdevice "wg0"
  obtain ⟨answer, rfl, -⟩ := hreaches.first [] first [second] hfound (by simp) (by decide +kernel)
  obtain ⟨none, outcome', s₃, hrun', hreaches'⟩ := hdevice "wg1"
  obtain ⟨rfl, rfl⟩ := hreaches'.absent [first, second] hfound (by decide +kernel)
  exact ⟨reads, answer, outcome, s₂, s₃, hrun, hrun'⟩

end WireGuardControl.Uapi
