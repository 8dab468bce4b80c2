import Mathlib.Tactic
import WireGuardControl.OpenBsd.Scan
import WireGuardControl.Proofs.OpenBsd.Live
import WireGuardControl.Proofs.OpenBsd.Malformed
/-!
The bounds of a scan.

* `scanNetwork_bytes`, `scanEndpoint_bytes`, `scanInterface_bytes`, `scanPeerRecord_bytes`: octet by
  octet a record is read as it is as a whole. No octet outside of it is needed.
* `Scanner.spent`: what a scanner has asked for and what is left to it. It grows only with the last
  record that is asked for, if this one is not there; `Ends` says so of a run.
* `Scans`: whatever is left, a scan ends as a reading does. Like the reading it is put together from
  steps, by `Scans.bind` and `Scans.judge`.
* `scanDevice_bounded`: what a device is read from, and how many records are asked for.
-/

namespace WireGuardControl.OpenBsd

/-! ### Octets of a record -/

section Octets

variable {n start width : ℕ}

lemma scanBlock_bytes (r : Block n) (h : start + width ≤ n) :
    scanBlock r.bytes start width = .ok ⟨r.field start width, r.length_field start width h⟩ :=
  dif_pos (h.trans r.length_bytes.ge)

lemma scanKey_bytes (r : Block n) (h : start + 32 ≤ n) :
    scanKey r.bytes start = .ok (keyAt r start h) := by
  have hfield : (r.field start 32).field 0 32 = r.field start 32 :=
    Bytes.field_field r.bytes le_rfl
  rw [scanKey, scanBlock_bytes r h]
  exact congrArg Except.ok (keyAt_eq hfield)

lemma scanOctet_bytes (r : Block n) (h : start + 1 ≤ n) :
    scanOctet r.bytes start = .ok (UInt8.ofNat (Bytes.toNatLE (r.field start 1))) := by
  have hstart : start < r.bytes.length := h.trans r.length_bytes.ge
  have hfield : r.field start 1 = [r.bytes[start]] := by
    rw [Block.field, Bytes.field, List.drop_eq_getElem_cons hstart]
    rfl
  rw [scanOctet, Bytes.octetAt, dif_pos hstart, hfield, ofNat_toNatLE_singleton]
  rfl

lemma scanSlice_bytes (r : Block n) (h : start + width ≤ n) :
    scanSlice r.bytes start (start + width) = .ok (r.field start width) := by
  rw [scanSlice, Bytes.slice_eq _ _ _ (Nat.le_add_right _ _) (h.trans r.length_bytes.ge),
    Nat.add_sub_cancel_left]
  rfl

lemma scanFlagged_ok {α : Type} (absent : Prop) [Decidable absent] (a b : α) :
    scanFlagged absent a (.ok b) = .ok (if absent then a else b) := by
  rw [scanFlagged]
  split <;> rfl

end Octets

/-! ### Records -/

lemma scanNetwork_bytes (r : Block networkLength) :
    scanNetwork r.bytes = (readNetwork r).mapError .refused := by
  rw [scanNetwork, readNetwork]
  simp (disch := decide) only [bind, Except.bind, scanBlock_bytes, scanOctet_bytes]
  generalize Bytes.toInt32LE (r.field 4 4) = bits
  generalize UInt8.ofNat (Bytes.toNatLE (r.field 0 1)) = family
  by_cases hbits : bits < 0 ∨ 255 < bits
  · rw [if_pos hbits, if_pos hbits]
    rfl
  rw [if_neg hbits, if_neg hbits]
  by_cases h4 : family = familyIPv4
  · simp only [if_pos h4, pure, Except.pure]
    cases Network.ofAddress? (.v4 _) bits.toInt.toNat <;> rfl
  by_cases h6 : family = familyIPv6
  · simp only [if_neg h4, if_pos h6, pure, Except.pure]
    cases Network.ofAddress? (.v6 _) bits.toInt.toNat <;> rfl
  · simp only [if_neg h4, if_neg h6]
    rfl

lemma scanEndpoint_bytes (r : Block endpointLength) :
    scanEndpoint r.bytes = (readEndpoint r).mapError .refused := by
  have hlength : ¬ r.bytes.length < endpointLength := r.length_bytes.ge.not_gt
  rw [scanEndpoint, readEndpoint, if_neg hlength]
  simp (disch := decide) only [bind, Except.bind, scanBlock_bytes, scanOctet_bytes]
  generalize UInt8.ofNat (Bytes.toNatLE (r.field 1 1)) = family
  by_cases h4 : family = familyIPv4
  · simp only [if_pos h4]
    rfl
  by_cases h6 : family = familyIPv6
  · simp only [if_neg h4, if_pos h6]
    rfl
  · simp only [if_neg h4, if_neg h6]
    rfl

lemma scanInterface_bytes (name : String) (r : Block interfaceLength) :
    scanInterface name r.bytes = (readInterface name r).mapError .refused := by
  rw [scanInterface, readInterface]
  simp (disch := decide) only [bind, Except.bind, pure, Except.pure, scanBlock_bytes,
    scanKey_bytes, scanFlagged_ok]
  generalize Bytes.toUInt16LE (r.field 0 2) = flags
  generalize Bytes.toInt32LE (r.field 4 4) = table
  by_cases htable : flags &&& hasTable = 0
  · simp only [scanFlagged, htable, ne_eq, not_true_eq_false, false_and, if_true, if_false]
    rfl
  · by_cases hnegative : table < 0
    · simp only [scanFlagged, htable, hnegative, ne_eq, not_false_eq_true, true_and, if_true,
        if_false]
      rfl
    · simp only [scanFlagged, htable, hnegative, and_false, if_false]
      rfl

lemma scanPeerRecord_bytes (r : Block peerLength) :
    scanPeerRecord r.bytes = (readPeerRecord r).mapError .refused := by
  have hendpoint : scanSlice r.bytes 76 (76 + endpointLength) = .ok (r.field 76 28) :=
    scanSlice_bytes r (by decide)
  have hread := scanEndpoint_bytes ⟨r.field 76 28, r.length_field 76 28 (by decide)⟩
  rw [scanPeerRecord, readPeerRecord]
  simp (disch := decide) only [bind, Except.bind, pure, Except.pure, scanBlock_bytes,
    scanKey_bytes, scanFlagged_ok, hendpoint, hread]
  generalize Bytes.toUInt32LE (r.field 0 4) = flags
  generalize Bytes.toInt32LE (r.field 4 4) = version
  generalize Instant.ofSignedHandshake _ _ _ = handshake
  generalize readEndpoint _ = endpoint
  by_cases hversion : version < 0
  · rw [if_pos hversion, if_pos hversion]
    rfl
  rw [if_neg hversion, if_neg hversion, scanFlagged]
  -- An endpoint that no flag names is not read, so that it cannot be refused.
  by_cases hnone : flags &&& peerHasEndpoint = 0
  · simp only [if_pos hnone]
    cases handshake <;> rfl
  · simp only [if_neg hnone]
    cases endpoint with
    | error e => rfl
    | ok e => cases handshake <;> rfl

/-! ### What is asked for -/

/-- The octets of the records that were asked for, and what is left: as long as every record that is
asked for is there, this does not grow. -/
def Scanner.spent (s : Scanner) : ℕ :=
  peerLength * s.peers + networkLength * s.networks + s.rest.length

/-- How a scan that starts at `s` ends if a reading of what is left is `expected`. -/
inductive Ends {α : Type} (s : Scanner) :
    (expected : Except Error (α × Bytes)) → Except ScanFault α × Scanner → Prop where
  /-- It reads the same, and what is left is the same. -/
  | read {a : α} {s' : Scanner} (spent : s'.spent ≤ s.spent) : Ends s (.ok (a, s'.rest)) (.ok a, s')
  /-- It is refused for the same cause, behind at most one record that was asked for and was not
  there. -/
  | refused {cause : Error} {s' : Scanner} (peers : peerLength * s'.peers ≤ s.spent + peerLength)
      (networks : networkLength * s'.networks ≤ s.spent + networkLength) :
      Ends s (.error cause) (.error (.refused cause), s')

/-- A scan ends as the reading does, and has asked for at most one record that was not there. -/
lemma Ends.run_eq {α : Type} {s : Scanner} {expected : Except Error (α × Bytes)}
    {run : Except ScanFault α × Scanner} (h : Ends s expected run) :
    ∃ s', run = ((expected.map Prod.fst).mapError .refused, s') ∧
      peerLength * s'.peers ≤ s.spent + peerLength ∧
      networkLength * s'.networks ≤ s.spent + networkLength := by
  cases h with
  | @read a s' hspent =>
      have hs' : s'.spent = peerLength * s'.peers + networkLength * s'.networks + s'.rest.length :=
        rfl
      exact ⟨s', rfl, by omega, by omega⟩
  | @refused cause s' hpeers hnetworks => exact ⟨s', rfl, hpeers, hnetworks⟩

lemma Ends.of_spent_le {α : Type} {s s' : Scanner} {expected : Except Error (α × Bytes)}
    {run : Except ScanFault α × Scanner} (h : Ends s' expected run) (hspent : s'.spent ≤ s.spent) :
    Ends s expected run := by
  cases h with
  | read hlater => exact .read (hlater.trans hspent)
  | refused hpeers hnetworks =>
      exact .refused (hpeers.trans (Nat.add_le_add_right hspent _))
        (hnetworks.trans (Nat.add_le_add_right hspent _))

/-! ### Scans and readings -/

/-- A scan comes to what a reading of what is left comes to. -/
def Scans {α : Type} (x : Scan α) (read : Bytes → Except Error (α × Bytes)) : Prop :=
  ∀ s : Scanner, Ends s (read s.rest) (x.run.run s)

lemma judge_ok_bind {α β : Type} (a : α) (f : α → Scan β) : (judge (.ok a) >>= f) = f a := rfl

namespace Scans

variable {α β : Type} {x : Scan α} {read : Bytes → Except Error (α × Bytes)}

lemma pure (a : α) : Scans (Pure.pure a : Scan α) fun b => .ok (a, b) :=
  fun _ => .read le_rfl

lemma bind {f : α → Scan β} {next : α × Bytes → Except Error (β × Bytes)}
    {both : Bytes → Except Error (β × Bytes)} (hx : Scans x read)
    (hboth : ∀ b, both b = read b >>= next)
    (hf : ∀ a, Scans (f a) fun rest => next (a, rest)) : Scans (x >>= f) both := by
  intro s
  have h := hx s
  rw [hboth, ExceptT.run_bind, StateT.run_bind]
  generalize read s.rest = expected at h
  generalize x.run.run s = run at h
  cases h with
  | read hspent => exact (hf _ _).of_spent_le hspent
  | refused hpeers hnetworks => exact .refused hpeers hnetworks

/-- A judgement of octets that have been taken takes no others. -/
lemma judge {y : Except Error α} {f : α → Scan β} {next : α → Bytes → Except Error (β × Bytes)}
    {both : Bytes → Except Error (β × Bytes)} (hboth : ∀ b, both b = y >>= fun a => next a b)
    (hf : ∀ a, Scans (f a) (next a)) : Scans (judge (y.mapError .refused) >>= f) both := by
  intro s
  rw [hboth]
  cases y with
  | error e =>
      refine .refused (?_ : peerLength * s.peers ≤ _) (?_ : networkLength * s.networks ≤ _) <;>
        simp only [Scanner.spent] <;> omega
  | ok a => exact hf a s

end Scans

/-! ### Records in a row -/

lemma scanRecord_run_of_le {n : ℕ} (what : String) {s : Scanner} (h : 0 + n ≤ s.rest.length) :
    (scanRecord n what).run.run s =
      (.ok (recordAt s.rest 0 n h), { s with rest := s.rest.drop n }) := by
  have hleft : ¬ s.rest.length < n := by omega
  have hrecord : scanBlock s.rest 0 n = .ok (recordAt s.rest 0 n h) := dif_pos h
  have hrest : scanSlice s.rest n s.rest.length = .ok (s.rest.drop n) := by
    have hslice := Bytes.slice_min_length s.rest n
    rw [Nat.min_eq_left (not_lt.mp hleft)] at hslice
    rw [scanSlice, hslice]
    rfl
  show StateT.run (ExceptT.run (if s.rest.length < n then _ else _)) s = _
  rw [if_neg hleft]
  show StateT.run (ExceptT.run (judge (scanBlock s.rest 0 n) >>= _)) s = _
  rw [hrecord]
  show StateT.run (ExceptT.run (judge (scanSlice s.rest n s.rest.length) >>= _)) s = _
  rw [hrest]
  rfl

lemma scanRecord_run_of_lt {n : ℕ} (what : String) {s : Scanner} (h : s.rest.length < n) :
    ∃ cause, (scanRecord n what).run.run s = (.error (.refused cause), s) ∧
      takeRecord n what s.rest = .error cause := by
  refine ⟨.decode (what ++ s!" truncated: need {n} bytes, have {s.rest.length}"), ?_, ?_⟩
  · show StateT.run (ExceptT.run (if s.rest.length < n then _ else _)) s = _
    rw [if_pos h]
    rfl
  · have hshort : ¬ (s.rest.take n).length = n := by
      rw [List.length_take]
      omega
    rw [takeRecord, Block.split?, dif_neg hshort]

/-- A record is taken as it is read, by a scanner that has asked for no more than this record. -/
lemma ends_scanRecord {n : ℕ} (what : String) {s : Scanner} (s₁ : Scanner)
    (hrest : s₁.rest = s.rest)
    (hasked : peerLength * s₁.peers + networkLength * s₁.networks ≤
      peerLength * s.peers + networkLength * s.networks + n)
    (hpeers : peerLength * s₁.peers ≤ s.spent + peerLength)
    (hnetworks : networkLength * s₁.networks ≤ s.spent + networkLength) :
    Ends s (takeRecord n what s.rest) ((scanRecord n what).run.run s₁) := by
  by_cases h : s₁.rest.length < n
  · obtain ⟨cause, hrun, htaken⟩ := scanRecord_run_of_lt what h
    rw [hrun, ← hrest, htaken]
    exact .refused hpeers hnetworks
  · have hroom : 0 + n ≤ s₁.rest.length := by omega
    have htaken := takeRecord_drop what hroom
    rw [List.drop_zero, Nat.zero_add] at htaken
    rw [scanRecord_run_of_le what hroom, ← hrest, htaken]
    refine .read (?_ : Scanner.spent { s₁ with rest := s₁.rest.drop n } ≤ _)
    simp only [Scanner.spent, List.length_drop, ← hrest]
    omega

lemma scans_takePeer : Scans takePeer (takeRecord peerLength "wg_peer_io") := by
  intro s
  refine ends_scanRecord "wg_peer_io" { s with peers := s.peers + 1 } rfl ?_ ?_ ?_ <;>
    simp only [Scanner.spent, Nat.mul_add_one] <;> omega

lemma scans_takeNetwork : Scans takeNetwork (takeRecord networkLength "wg_aip_io") := by
  intro s
  refine ends_scanRecord "wg_aip_io" { s with networks := s.networks + 1 } rfl ?_ ?_ ?_ <;>
    simp only [Scanner.spent, Nat.mul_add_one] <;> omega

lemma scans_takeInterface :
    Scans (scanRecord interfaceLength "wg_interface_io")
      (takeRecord interfaceLength "wg_interface_io") := by
  intro s
  refine ends_scanRecord "wg_interface_io" s rfl (Nat.le_add_right _ _) ?_ ?_ <;>
    simp only [Scanner.spent] <;> omega

/-! ### Rows of records -/

/-- Networks are scanned as they are read, any number of them. -/
lemma scans_scanNetworks (count : ℕ) : Scans (scanNetworks count) (readNetworks count) := by
  induction count with
  | zero => exact .pure []
  | succ count ih =>
      rw [scanNetworks]
      refine .bind scans_takeNetwork (fun _ => rfl) fun record => ?_
      rw [scanNetwork_bytes]
      refine .judge (fun _ => rfl) fun n => ?_
      exact .bind ih (fun _ => rfl) fun networks => .pure (n :: networks)

lemma scans_scanPeer : Scans scanPeer readPeer := by
  refine .bind scans_takePeer (fun _ => rfl) fun record => ?_
  rw [scanPeerRecord_bytes, scanBlock_bytes record (by decide)]
  refine .judge (fun _ => rfl) fun p => ?_
  rw [judge_ok_bind]
  exact .bind (scans_scanNetworks _) (fun _ => rfl) fun networks =>
    .pure { p with allowedIps := networks }

/-- Peers are scanned as they are read, any number of them. -/
lemma scans_scanPeers (count : ℕ) : Scans (scanPeers count) (readPeers count) := by
  induction count with
  | zero => exact .pure []
  | succ count ih =>
      rw [scanPeers]
      refine .bind scans_scanPeer (fun _ => rfl) fun p => ?_
      exact .bind ih (fun _ => rfl) fun peers => .pure (p :: peers)

/-- A device is scanned as it is read. -/
lemma scans_scanDevice (name : String) : Scans (scanDevice name) (readRecords name) := by
  refine .bind scans_takeInterface (fun _ => rfl) fun record => ?_
  rw [scanInterface_bytes, scanBlock_bytes record (by decide)]
  refine .judge (fun _ => rfl) fun d => ?_
  rw [judge_ok_bind]
  exact .bind (scans_scanPeers _) (fun _ => rfl) fun peers => .pure { d with peers := peers }

/-- **The length of a buffer bounds how it is read, and the counts in it do not.** Whatever the
counts are, the scan of a device never is outside of its row, and it asks for at most one record of
a peer and one of a network more than the buffer has room for. A device that is read has as many
peers, and each of them as many networks, as is declared, and the buffer has room for their records.
If it has no room for those that are declared, then the answer is malformed. -/
theorem scanDevice_bounded (name : String) (b : Bytes) :
    ∃ s : Scanner, (scanDevice name).run.run { rest := b } =
        ((readDevice name b).mapError .refused, s) ∧
      s.peers ≤ b.length / peerLength + 1 ∧ s.networks ≤ b.length / networkLength + 1 ∧
      (∀ d, readDevice name b = .ok d →
        d.peers.length = declaredPeers b ∧
        (∀ i (h : i < d.peers.length),
          d.peers[i].allowedIps.length = declaredNetworks b (peerOffset b i)) ∧
        interfaceLength +
          (d.peers.map fun p => peerLength + networkLength * p.allowedIps.length).sum ≤ b.length) ∧
      (b.length < recordsEnd b → ∃ detail, readDevice name b = .error (.decode detail)) := by
  obtain ⟨s, hrun, hpeers, hnetworks⟩ := (scans_scanDevice name { rest := b }).run_eq
  have hspent : Scanner.spent { rest := b } = b.length := by simp [Scanner.spent]
  rw [← readDevice_eq] at hrun
  rw [hspent] at hpeers hnetworks
  refine ⟨s, hrun, ?_, ?_, fun d hd => ?_, fun hshort => ?_⟩
  · simp only [peerLength] at hpeers ⊢
    omega
  · simp only [networkLength] at hnetworks ⊢
    omega
  · obtain ⟨hcount, hplaced⟩ := placed_of_readDevice hd
    exact ⟨hcount, hplaced.networks, hplaced.end_eq ▸ hplaced.room⟩
  · cases hread : readDevice name b with
    | ok d => exact absurd (recordsEnd_le_of_readDevice hread) hshort.not_ge
    | error e =>
        obtain ⟨detail, rfl⟩ := (failsOnly_readDevice name b e hread).exists_eq
        exact ⟨detail, rfl⟩

/-- An interface and a peer, each of which declares the largest number of records. -/
def hostileRecords : Bytes :=
  List.replicate 72 0 ++ List.replicate 8 255 ++ List.replicate 136 0 ++ List.replicate 8 255

/-- Counts of more records than any buffer has room for: the scan ends behind two peers and ten
networks at most. A buffer with one network and octets behind it is read within its 253 octets. -/
theorem scanDevice_bounded_hostile :
    declaredPeers hostileRecords = 2 ^ 64 - 1 ∧
      (∃ s : Scanner, s.peers ≤ 2 ∧ s.networks ≤ 10 ∧ ∃ detail,
        (scanDevice "wg0").run.run { rest := hostileRecords } =
          (.error (.refused (.decode detail)), s)) ∧
      ∃ d, readDevice "wg0" (sparseRecords 0 5) = .ok d ∧ d.peers.length = 1 ∧
        interfaceLength +
          (d.peers.map fun p => peerLength + networkLength * p.allowedIps.length).sum ≤ 253 := by
  have hpeers : declaredPeers hostileRecords = 2 ^ 64 - 1 := by decide +kernel
  have hoctets : hostileRecords.length = 224 := by decide +kernel
  have hshort : hostileRecords.length < recordsEnd hostileRecords :=
    calc hostileRecords.length < interfaceLength + peerLength * declaredPeers hostileRecords := by
          rw [hpeers, hoctets]
          decide
      _ ≤ recordsEnd hostileRecords := mul_declaredPeers_le hostileRecords
  obtain ⟨s, hrun, hasked, hasked', -, hrefused⟩ := scanDevice_bounded "wg0" hostileRecords
  obtain ⟨detail, hdetail⟩ := hrefused hshort
  rw [hdetail] at hrun
  rw [hoctets] at hasked hasked'
  have hread : (readDevice "wg0" (sparseRecords 0 5)).map (fun d => d.peers.length) = .ok 1 := by
    decide +kernel
  obtain ⟨d, hd, hlength⟩ := Except.map_eq_ok_iff.mp hread
  obtain ⟨-, -, -, -, hread, -⟩ := scanDevice_bounded "wg0" (sparseRecords 0 5)
  have hroom : (sparseRecords 0 5).length = 253 := by decide +kernel
  exact ⟨hpeers, ⟨s, hasked, hasked', detail, hrun⟩, d, hd, hlength, hroom ▸ (hread d hd).2.2⟩

end WireGuardControl.OpenBsd
