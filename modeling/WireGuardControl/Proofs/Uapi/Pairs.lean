import Mathlib.Tactic
import WireGuardControl.Proofs.Net.Endpoint
import WireGuardControl.Proofs.Net.Network
import WireGuardControl.Proofs.Text.Hex
import WireGuardControl.Proofs.Text.Lines
import WireGuardControl.Proofs.Text.Utf8
import WireGuardControl.Uapi.Client
/-!
The lines of an update, and the pairs that they are read as.

* `Line.Plain`: neither the key nor the value of a line has a character that divides a line or
  ends it. A plain line has one equals sign (`Line.Plain.count_text`), around which it is taken
  apart (`Line.Plain.once_text`).
* `responseOf_paragraph`: who reads up to the first blank line reads a paragraph as a whole, and
  nothing of what follows.
* `ofText_paragraph`: the pairs of plain lines, the last of which may be the status.
* `setRequest_eq`: an update is a paragraph, and `isSetting_interfaceLines`,
  `isSetting_settingLines`: each of its lines is plain and is no status.
-/

namespace WireGuardControl.Uapi

open Text Lines

/-! ### Plain lines -/

/-- Whether a character neither divides a line nor ends it. -/
def isPlain (c : Char) : Bool := c != '=' && c != '\n' && c != '\r'

lemma isPlain_digit {d : ℕ} (h : d < 16) : isPlain (Hex.digit d) = true := by
  interval_cases d <;> decide

lemma all_isPlain {s : List Char} (h : ∀ c ∈ s, (∃ d < 16, c = Hex.digit d) ∨ isPlain c = true) :
    s.all isPlain = true := by
  refine List.all_eq_true.mpr fun c hc => ?_
  rcases h c hc with ⟨d, hd, rfl⟩ | hplain
  · exact isPlain_digit hd
  · exact hplain

namespace Line

/-- Neither the key nor the value divides a line or ends it. -/
structure Plain (l : Line) : Prop where
  /-- The key is plain. -/
  key : l.key.toList.all isPlain = true
  /-- The value is plain. -/
  value : l.value.all isPlain = true

/-- The text of a line without its end. -/
def text (l : Line) : List Char := l.key.toList ++ '=' :: l.value

/-- The key and the value of a line. -/
def pair (l : Line) : String × List Char := (l.key, l.value)

lemma chars_eq (l : Line) : l.chars = l.text ++ ['\n'] := by
  simp [chars, text]

lemma text_ne_nil (l : Line) : l.text ≠ [] := by
  simp [text]

variable {l : Line}

lemma Plain.isPlain_or_eq (h : l.Plain) {c : Char} (hc : c ∈ l.text) :
    isPlain c = true ∨ c = '=' := by
  rw [text, List.mem_append, List.mem_cons] at hc
  rcases hc with hc | hc | hc
  · exact .inl (List.all_eq_true.mp h.key c hc)
  · exact .inr hc
  · exact .inl (List.all_eq_true.mp h.value c hc)

lemma Plain.notMem_text (h : l.Plain) : '\n' ∉ l.text := by
  intro hc
  rcases h.isPlain_or_eq hc with hplain | heq
  · cases hplain
  · cases heq

lemma Plain.getLast?_text (h : l.Plain) : l.text.getLast? ≠ some '\r' := by
  intro hlast
  rcases h.isPlain_or_eq (List.mem_of_getLast? hlast) with hplain | heq
  · cases hplain
  · cases heq

lemma equals_notMem {s : List Char} (h : s.all isPlain = true) : '=' ∉ s := by
  intro hc
  cases List.all_eq_true.mp h '=' hc

/-- A plain line has one equals sign. -/
lemma Plain.count_text (h : l.Plain) : l.text.count '=' = 1 := by
  rw [text, List.count_append, List.count_cons_self, List.count_eq_zero.mpr (equals_notMem h.key),
    List.count_eq_zero.mpr (equals_notMem h.value)]

/-- A plain line is taken apart into its key and its value. -/
lemma Plain.once_text (h : l.Plain) : once '=' l.text = some (l.key.toList, l.value) :=
  once_append (equals_notMem h.key) (equals_notMem h.value)

end Line

/-! ### Reading up to the first blank line -/

lemma lineFeed_notMem_encode {line : List Char} (h : '\n' ∉ line) :
    lineFeed ∉ Utf8.encode line := Utf8.notMem_encode (c := '\n') (by decide) h

lemma responseOf_append {line : Bytes} (h : lineFeed ∉ line) (rest : Bytes) :
    responseOf (line ++ lineFeed :: rest) =
      if line = [] then [lineFeed] else line ++ lineFeed :: responseOf rest := by
  have htake := takeWhile_ne_append h rest
  have hdrop := dropWhile_ne_append h rest
  -- the definition goes by cases on the stream, whose first octet is not known to be the line's
  have hcons : ∃ b s, line ++ lineFeed :: rest = b :: s := by
    cases line with
    | nil => exact ⟨_, _, rfl⟩
    | cons b s => exact ⟨b, s ++ lineFeed :: rest, rfl⟩
  obtain ⟨b, s, hbs⟩ := hcons
  rw [hbs] at htake hdrop ⊢
  rw [responseOf]
  simp only [htake]
  split
  · next heq => rw [hdrop] at heq; cases heq
  · next heq =>
      rw [hdrop] at heq
      rw [(List.cons.inj heq).2]

/-- **A paragraph is read as a whole** by who reads up to the first blank line. -/
lemma responseOf_paragraph {lines : List (List Char)} (hne : ∀ l ∈ lines, l ≠ [])
    (hlines : ∀ l ∈ lines, '\n' ∉ l) (rest : Bytes) :
    responseOf (Utf8.encode (paragraph lines) ++ rest) = Utf8.encode (paragraph lines) := by
  induction lines with
  | nil => exact (responseOf_append (List.not_mem_nil) rest).trans (if_pos rfl)
  | cons l lines ih =>
      rw [List.forall_mem_cons] at hne hlines
      have hoctets : Utf8.encode (paragraph (l :: lines)) =
          Utf8.encode l ++ lineFeed :: Utf8.encode (paragraph lines) := by
        rw [paragraph_cons, Utf8.encode, List.flatMap_append]
        rfl
      rw [hoctets, List.append_assoc, List.cons_append,
        responseOf_append (lineFeed_notMem_encode hlines.1), if_neg (Utf8.encode_ne_nil hne.1),
        ih hne.2 hlines.2]

/-! ### Pairs -/

lemma body_paragraph {lines : List (List Char)} (hne : ∀ l ∈ lines, l ≠ [])
    (hlines : ∀ l ∈ lines, '\n' ∉ l) (hlast : ∀ l ∈ lines, l.getLast? ≠ some '\r') :
    Pairs.body (paragraph lines) = lines := by
  have hsplit := split_paragraph hlines hlast []
  rw [List.append_nil] at hsplit
  rw [Pairs.body, hsplit, List.takeWhile_append_of_pos, List.takeWhile_cons_of_neg (by simp),
    List.append_nil]
  intro l hl
  simpa using hne l hl

/-- Plain lines are read as their pairs, if none but the last is the status. -/
lemma ofLines_text {lines : List Line} (hplain : ∀ l ∈ lines, l.Plain)
    (hstatus : ∀ l ∈ lines, l.key ≠ statusKey) {last : Line} (hlast : last.Plain) :
    Pairs.ofLines false ((lines ++ [last]).map Line.text) =
      ⟨(lines ++ [last]).map Line.pair, none⟩ := by
  induction lines with
  | nil =>
      rw [List.nil_append, List.map_singleton, Pairs.ofLines, hlast.once_text]
      simp only [Pairs.ofLines, String.ofList_toList]
      rfl
  | cons l lines ih =>
      rw [List.forall_mem_cons] at hplain hstatus
      rw [List.cons_append, List.map_cons, Pairs.ofLines, hplain.1.once_text]
      simp only [String.ofList_toList, hstatus.1, decide_false, ih hplain.2 hstatus.2]
      rfl

/-- **Plain lines are read as their pairs**, if none but the last is the status. -/
lemma ofText_paragraph {lines : List Line} (hplain : ∀ l ∈ lines, l.Plain)
    (hstatus : ∀ l ∈ lines, l.key ≠ statusKey) {last : Line} (hlast : last.Plain) :
    Pairs.ofText (paragraph ((lines ++ [last]).map Line.text)) =
      ⟨(lines ++ [last]).map Line.pair, none⟩ := by
  have hall : ∀ l ∈ lines ++ [last], l.Plain := by
    rw [List.forall_mem_append, List.forall_mem_singleton]
    exact ⟨hplain, hlast⟩
  rw [Pairs.ofText, body_paragraph, ofLines_text hplain hstatus hlast]
  · exact List.forall_mem_map.mpr fun l _ => l.text_ne_nil
  · exact List.forall_mem_map.mpr fun l hl => (hall l hl).notMem_text
  · exact List.forall_mem_map.mpr fun l hl => (hall l hl).getLast?_text

/-! ### The values of an update -/

lemma isPlain_ofNat (n : ℕ) : (Decimal.ofNat n).all isPlain = true :=
  all_isPlain fun _ hc => .inl (Hex.mem_ofNat hc)

lemma isPlain_hexChars (k : Key) : k.hexChars.all isPlain = true :=
  all_isPlain fun _ hc => .inl (Hex.mem_encode hc)

lemma isPlain_endpoint (e : Endpoint) : e.chars.all isPlain = true := by
  have hmarks : [':', '.', '[', '%', ']'].all isPlain = true := by decide
  exact all_isPlain fun c hc => (Endpoint.mem_chars hc).imp_right (List.all_eq_true.mp hmarks c)

lemma isPlain_network (n : Network) : n.chars.all isPlain = true := by
  have hmarks : [':', '.', '/'].all isPlain = true := by decide
  exact all_isPlain fun c hc => (Network.mem_chars hc).imp_right (List.all_eq_true.mp hmarks c)

/-! ### The lines of an update -/

/-- The lines of an update about the interface. -/
def interfaceLines (c : Config) : List Line :=
  (c.privateKey.map (Line.hexKey "private_key")).toList ++
    (c.listenPort.map fun port => Line.number "listen_port" port.toNat).toList ++
    (c.firewallMark.map fun mark => Line.number "fwmark" mark.toNat).toList ++
    Line.switch "replace_peers" c.replacePeers

/-- The lines of the update of a peer behind its key. -/
def settingLines (p : PeerConfig) : List Line := (peerLines p).tail

lemma configLines_eq (c : Config) :
    configLines c = interfaceLines c ++ c.peers.flatMap peerLines := rfl

lemma peerLines_eq (p : PeerConfig) :
    peerLines p = Line.hexKey "public_key" p.publicKey :: settingLines p := rfl

/-- The keys of the lines of an update that do not begin a peer. -/
def settingKeys : List String :=
  ["private_key", "listen_port", "fwmark", "replace_peers", "remove", "update_only",
    "preshared_key", "endpoint", "persistent_keepalive_interval", "replace_allowed_ips",
    "allowed_ip"]

/-- A line of an update that does not begin a peer. -/
structure Line.IsSetting (l : Line) : Prop where
  /-- The key is one of the known ones. -/
  key_mem : l.key ∈ settingKeys
  /-- The value is plain. -/
  value : l.value.all isPlain = true

namespace Line.IsSetting

variable {l : Line}

lemma plain (h : l.IsSetting) : l.Plain := by
  have hkeys : settingKeys.all (fun k => k.toList.all isPlain) = true := by decide
  exact ⟨List.all_eq_true.mp hkeys _ h.key_mem, h.value⟩

lemma key_ne (h : l.IsSetting) : l.key ≠ statusKey ∧ l.key ≠ "public_key" := by
  have hkeys : ∀ k ∈ settingKeys, k ≠ statusKey ∧ k ≠ "public_key" := by decide
  exact hkeys _ h.key_mem

end Line.IsSetting

lemma isSetting_number {key : String} (h : key ∈ settingKeys) (n : ℕ) :
    (Line.number key n).IsSetting := ⟨h, isPlain_ofNat n⟩

lemma isSetting_hexKey {key : String} (h : key ∈ settingKeys) (k : Key) :
    (Line.hexKey key k).IsSetting := ⟨h, isPlain_hexChars k⟩

lemma isSetting_switch {key : String} (h : key ∈ settingKeys) (on : Bool) :
    ∀ l ∈ Line.switch key on, l.IsSetting := by
  intro l hl
  cases on with
  | false => cases hl
  | true =>
      rw [List.mem_singleton.mp hl]
      exact ⟨h, rfl⟩

lemma isSetting_toList {α : Type} {f : α → Line} (o : Option α) (h : ∀ a, (f a).IsSetting) :
    ∀ l ∈ (o.map f).toList, l.IsSetting := by
  intro l hl
  obtain ⟨a, -, rfl⟩ := Option.map_eq_some_iff.mp (Option.mem_toList.mp hl)
  exact h a

lemma isSetting_interfaceLines (c : Config) : ∀ l ∈ interfaceLines c, l.IsSetting := by
  simp only [interfaceLines, List.forall_mem_append]
  refine ⟨⟨⟨isSetting_toList _ fun k => ?_, isSetting_toList _ fun port => ?_⟩,
    isSetting_toList _ fun mark => ?_⟩, ?_⟩
  · exact isSetting_hexKey (by decide) k
  · exact isSetting_number (by decide) port.toNat
  · exact isSetting_number (by decide) mark.toNat
  · exact isSetting_switch (by decide) c.replacePeers

lemma isSetting_settingLines (p : PeerConfig) : ∀ l ∈ settingLines p, l.IsSetting := by
  have hendpoint : "endpoint" ∈ settingKeys := by decide
  have hallowed : "allowed_ip" ∈ settingKeys := by decide
  change ∀ l ∈ [] ++ _ ++ _ ++ _ ++ _ ++ _ ++ _ ++ _, Line.IsSetting l
  simp only [List.forall_mem_append]
  refine ⟨⟨⟨⟨⟨⟨⟨by simp, ?_⟩, ?_⟩, isSetting_toList _ fun k => ?_⟩, isSetting_toList _ fun e => ?_⟩,
    isSetting_toList _ fun i => ?_⟩, ?_⟩, List.forall_mem_map.mpr fun n _ => ?_⟩
  · exact isSetting_switch (by decide) p.remove
  · exact isSetting_switch (by decide) p.updateOnly
  · exact isSetting_hexKey (by decide) k
  · exact ⟨hendpoint, isPlain_endpoint e⟩
  · exact isSetting_number (by decide) i.seconds.toNat
  · exact isSetting_switch (by decide) p.replaceAllowedIps
  · exact ⟨hallowed, isPlain_network n⟩

/-- Each line of an update is plain and is no status. -/
lemma plain_configLines (c : Config) : ∀ l ∈ configLines c, l.Plain ∧ l.key ≠ statusKey := by
  intro l hl
  rw [configLines_eq, List.mem_append, List.mem_flatMap] at hl
  rcases hl with hl | ⟨p, -, hl⟩
  · have h := isSetting_interfaceLines c l hl
    exact ⟨h.plain, h.key_ne.1⟩
  · rw [peerLines_eq, List.mem_cons] at hl
    rcases hl with rfl | hl
    · have hplain : "public_key".toList.all isPlain = true := by decide
      have hstatus : "public_key" ≠ statusKey := by decide
      exact ⟨⟨hplain, isPlain_hexChars p.publicKey⟩, hstatus⟩
    · have h := isSetting_settingLines p l hl
      exact ⟨h.plain, h.key_ne.1⟩

/-- The line with which an update begins. -/
def setLine : Line := ⟨"set", ['1']⟩

lemma plain_setLine : setLine.Plain := ⟨by decide, by decide⟩

lemma chars_setLine : setLine.chars = "set=1\n".toList := by decide

/-- An update is a paragraph of plain lines. -/
lemma setRequest_eq (c : Config) :
    setRequest c = paragraph ((setLine :: configLines c).map Line.text) := by
  have hlines : ∀ lines : List Line,
      paragraph (lines.map Line.text) = lines.flatMap Line.chars ++ ['\n'] := by
    intro lines
    rw [paragraph, List.flatMap_map]
    exact congrArg (· ++ ['\n']) (congrArg lines.flatMap (funext fun l => l.chars_eq.symm))
  calc setRequest c
      = "set=1\n".toList ++ (configLines c).flatMap Line.chars ++ ['\n'] := rfl
    _ = (setLine :: configLines c).flatMap Line.chars ++ ['\n'] := by
        rw [List.flatMap_cons, chars_setLine]
    _ = paragraph ((setLine :: configLines c).map Line.text) := (hlines _).symm

end WireGuardControl.Uapi
