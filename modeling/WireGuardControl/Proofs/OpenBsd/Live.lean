import Mathlib.Tactic
import WireGuardControl.Proofs.OpenBsd.Placement
/-!
The octets of a buffer that a device is read from.

* `liveSpans`: the runs of octets that are looked at. Which they are depends on the flags, the
  families and the counts that stand in the buffer; the rest is padding, fields that no flag names,
  what an address of the other family would take, and all that is behind the last record, as
  `liveSpans_within` says.
* `Agree`: two buffers have the same octets wherever the first one is looked at.
* `Alike`: two readings come to the same, and leave what is behind the same offset. It goes through
  the readers of networks and of peers by induction on their number.
* `readDevice_of_agree`: a device is read alike from buffers that agree.
-/

namespace WireGuardControl.OpenBsd

/-! ### Live octets -/

/-- A run of octets. -/
structure Span where
  /-- The offset of the first octet. -/
  start : ℕ
  /-- How many octets there are. -/
  width : ℕ
  deriving DecidableEq

/-- A run of octets is the same in two buffers. -/
def Span.Same (b b' : Bytes) (s : Span) : Prop :=
  b'.field s.start s.width = b.field s.start s.width

instance (b b' : Bytes) : DecidablePred (Span.Same b b') :=
  fun s => inferInstanceAs (Decidable (b'.field s.start s.width = b.field s.start s.width))

/-- The live octets in the record of the interface. -/
def interfaceSpans (b : Bytes) : List Span :=
  let flags := Bytes.toUInt16LE (b.field 0 2)
  [⟨0, 2⟩, ⟨72, 8⟩] ++
    (if flags &&& hasPublicKey = 0 then [] else [⟨8, 32⟩]) ++
    (if flags &&& hasPrivateKey = 0 then [] else [⟨40, 32⟩]) ++
    (if flags &&& hasPort = 0 then [] else [⟨2, 2⟩]) ++
    (if flags &&& hasTable = 0 then [] else [⟨4, 4⟩])

/-- The live octets of an endpoint at an offset. Its length octet is none of them, and of an IPv4
endpoint nothing behind the address is. -/
def endpointSpans (b : Bytes) (offset : ℕ) : List Span :=
  let family := UInt8.ofNat (Bytes.toNatLE (b.field (offset + 1) 1))
  [⟨offset + 1, 1⟩, ⟨offset + 2, 2⟩] ++
    (if family = familyIPv4 then [⟨offset + 4, 4⟩]
    else if family = familyIPv6 then [⟨offset + 4, 4⟩, ⟨offset + 8, 16⟩, ⟨offset + 24, 4⟩]
    else [])

/-- The live octets in the record of a peer at an offset. -/
def peerSpans (b : Bytes) (offset : ℕ) : List Span :=
  let flags := Bytes.toUInt32LE (b.field offset 4)
  [⟨offset, 4⟩, ⟨offset + 4, 4⟩, ⟨offset + 104, 8⟩, ⟨offset + 112, 8⟩, ⟨offset + 120, 8⟩,
      ⟨offset + 128, 8⟩, ⟨offset + 136, 8⟩] ++
    (if flags &&& peerHasPublicKey = 0 then [] else [⟨offset + 8, 32⟩]) ++
    (if flags &&& peerHasPresharedKey = 0 then [] else [⟨offset + 40, 32⟩]) ++
    (if flags &&& peerHasKeepalive = 0 then [] else [⟨offset + 72, 2⟩]) ++
    (if flags &&& peerHasEndpoint = 0 then [] else endpointSpans b (offset + 76))

/-- The live octets in the record of a network at an offset. -/
def networkSpans (b : Bytes) (offset : ℕ) : List Span :=
  let family := UInt8.ofNat (Bytes.toNatLE (b.field offset 1))
  [⟨offset, 1⟩, ⟨offset + 4, 4⟩] ++
    (if family = familyIPv4 then [⟨offset + 8, 4⟩]
    else if family = familyIPv6 then [⟨offset + 8, 16⟩]
    else [])

/-- The live octets in the record of a peer at an offset and in those of its networks. -/
def peerRowSpans (b : Bytes) (offset : ℕ) : List Span :=
  peerSpans b offset ++ (List.range (declaredNetworks b offset)).flatMap fun j =>
    networkSpans b (networkOffset offset j)

/-- The live octets of a buffer. -/
def liveSpans (b : Bytes) : List Span :=
  interfaceSpans b ++ (List.range (declaredPeers b)).flatMap fun i =>
    peerRowSpans b (peerOffset b i)

/-- A buffer has the live octets of another. -/
def Agree (b b' : Bytes) : Prop := ∀ s ∈ liveSpans b, s.Same b b'

instance (b b' : Bytes) : Decidable (Agree b b') :=
  inferInstanceAs (Decidable (∀ s ∈ liveSpans b, s.Same b b'))

variable {b b' : Bytes} {offset count : ℕ}

/-! ### Where live octets stand -/

lemma endpoint_within_record : 76 + endpointLength ≤ peerLength := by decide

lemma interfaceSpans_within (b : Bytes) :
    ∀ s ∈ interfaceSpans b, s.start + s.width ≤ 0 + interfaceLength := by
  simp only [interfaceSpans, List.forall_mem_append]
  refine ⟨⟨⟨⟨?_, ?_⟩, ?_⟩, ?_⟩, ?_⟩ <;> (try split_ifs) <;> simp [interfaceLength]

lemma endpointSpans_within (b : Bytes) (offset : ℕ) :
    ∀ s ∈ endpointSpans b offset, s.start + s.width ≤ offset + endpointLength := by
  simp only [endpointSpans, List.forall_mem_append]
  refine ⟨?_, ?_⟩ <;> (try split_ifs) <;> simp [endpointLength, Nat.add_assoc]

lemma peerSpans_within (b : Bytes) (offset : ℕ) :
    ∀ s ∈ peerSpans b offset, s.start + s.width ≤ offset + peerLength := by
  simp only [peerSpans, List.forall_mem_append]
  refine ⟨⟨⟨⟨?_, ?_⟩, ?_⟩, ?_⟩, ?_⟩
  case refine_5 =>
    split_ifs
    · exact List.forall_mem_nil _
    · intro s hs
      have hspan := endpointSpans_within b (offset + 76) s hs
      have hrecord := endpoint_within_record
      omega
  all_goals (try split_ifs) <;> simp [peerLength, Nat.add_assoc]

lemma networkSpans_within (b : Bytes) (offset : ℕ) :
    ∀ s ∈ networkSpans b offset, s.start + s.width ≤ offset + networkLength := by
  simp only [networkSpans, List.forall_mem_append]
  refine ⟨?_, ?_⟩ <;> (try split_ifs) <;> simp [networkLength, Nat.add_assoc]

/-- What stands behind the records of a peer and of its networks is not looked at for it. -/
lemma peerRowSpans_within (b : Bytes) (offset : ℕ) :
    ∀ s ∈ peerRowSpans b offset, s.start + s.width ≤ nextPeer b offset := by
  rw [peerRowSpans, List.forall_mem_append]
  refine ⟨fun s hs => (peerSpans_within b offset s hs).trans (add_peerLength_le_nextPeer b offset),
    fun s hs => ?_⟩
  obtain ⟨j, hj, hs⟩ := List.mem_flatMap.mp hs
  have hcount : networkLength * (j + 1) ≤ networkLength * declaredNetworks b offset :=
    Nat.mul_le_mul_left _ (List.mem_range.mp hj)
  calc s.start + s.width ≤ networkOffset offset j + networkLength := networkSpans_within b _ s hs
    _ = offset + peerLength + networkLength * (j + 1) := by
        rw [networkOffset, Nat.mul_succ, Nat.add_assoc]
    _ ≤ nextPeer b offset := Nat.add_le_add_left hcount _

/-- **What stands behind the declared records is not looked at.** -/
lemma liveSpans_within (b : Bytes) : ∀ s ∈ liveSpans b, s.start + s.width ≤ recordsEnd b := by
  rw [liveSpans, List.forall_mem_append]
  refine ⟨fun s hs => ?_, fun s hs => ?_⟩
  · have hstart := interfaceSpans_within b s hs
    rw [Nat.zero_add] at hstart
    exact hstart.trans (interfaceLength_le_recordsEnd b)
  · obtain ⟨i, hi, hs⟩ := List.mem_flatMap.mp hs
    calc s.start + s.width ≤ nextPeer b (peerOffset b i) := peerRowSpans_within b _ s hs
      _ = peerOffset b (i + 1) := (peerOffset_succ b i).symm
      _ ≤ recordsEnd b := monotone_peerOffset b (List.mem_range.mp hi)

/-! ### Records that agree -/

/-- Records have the same octets in a field that is live. -/
lemma field_recordAt_congr {n : ℕ} {spans : List Span} (room : offset + n ≤ b.length)
    (room' : offset + n ≤ b'.length) (hwithin : ∀ s ∈ spans, s.start + s.width ≤ offset + n)
    (h : ∀ s ∈ spans, s.Same b b') {start width : ℕ} (hlive : ⟨offset + start, width⟩ ∈ spans) :
    (recordAt b' offset n room').field start width =
      (recordAt b offset n room).field start width := by
  have hspan : offset + start + width ≤ offset + n := hwithin _ hlive
  have hwidth : start + width ≤ n := by omega
  rw [field_recordAt room hwidth, field_recordAt room' hwidth]
  exact h _ hlive

lemma keyAt_congr {n : ℕ} {r r' : Block n} {start : ℕ} {h : start + 32 ≤ n}
    (hfield : r'.field start 32 = r.field start 32) : keyAt r' start h = keyAt r start h := by
  simp only [keyAt, hfield]

/-- The interface is read alike from records that agree. -/
lemma readInterface_congr (name : String) (room : 0 + interfaceLength ≤ b.length)
    (room' : 0 + interfaceLength ≤ b'.length) (h : ∀ s ∈ interfaceSpans b, s.Same b b') :
    readInterface name (recordAt b' 0 interfaceLength room') =
      readInterface name (recordAt b 0 interfaceLength room) := by
  set r := recordAt b 0 interfaceLength room
  set r' := recordAt b' 0 interfaceLength room'
  have hfield {start width : ℕ} (hlive : ⟨0 + start, width⟩ ∈ interfaceSpans b) :
      r'.field start width = r.field start width :=
    field_recordAt_congr room room' (interfaceSpans_within b) h hlive
  have hflags : r'.field 0 2 = r.field 0 2 := hfield (by simp [interfaceSpans])
  have hown : r.field 0 2 = b.field 0 2 := field_recordAt room (by decide)
  rw [readInterface, readInterface, hflags, hown]
  generalize hf : Bytes.toUInt16LE (b.field 0 2) = flags
  have hpublic : (if flags &&& hasPublicKey = 0 then Key.zero else keyAt r' 8 (by decide)) =
      if flags &&& hasPublicKey = 0 then Key.zero else keyAt r 8 (by decide) :=
    ite_congr rfl (fun _ => rfl) fun hflag =>
      keyAt_congr (hfield (by simp [interfaceSpans, hf, hflag]))
  have hprivate : (if flags &&& hasPrivateKey = 0 then Key.zero else keyAt r' 40 (by decide)) =
      if flags &&& hasPrivateKey = 0 then Key.zero else keyAt r 40 (by decide) :=
    ite_congr rfl (fun _ => rfl) fun hflag =>
      keyAt_congr (hfield (by simp [interfaceSpans, hf, hflag]))
  have hport : (if flags &&& hasPort = 0 then 0 else Bytes.toUInt16BE (r'.field 2 2)) =
      if flags &&& hasPort = 0 then 0 else Bytes.toUInt16BE (r.field 2 2) :=
    ite_congr rfl (fun _ => rfl) fun hflag =>
      congrArg _ (hfield (by simp [interfaceSpans, hf, hflag]))
  simp only [hpublic, hprivate, hport]
  by_cases htable : flags &&& hasTable = 0
  · simp only [htable, ne_eq, not_true_eq_false, false_and, if_false, if_true]
  · have hword : r'.field 4 4 = r.field 4 4 := hfield (by simp [interfaceSpans, hf, htable])
    rw [hword]

/-- An endpoint is read alike from fields that agree. -/
lemma readEndpoint_congr (room : offset + endpointLength ≤ b.length)
    (room' : offset + endpointLength ≤ b'.length) (h : ∀ s ∈ endpointSpans b offset, s.Same b b') :
    readEndpoint (recordAt b' offset endpointLength room') =
      readEndpoint (recordAt b offset endpointLength room) := by
  set r := recordAt b offset endpointLength room
  set r' := recordAt b' offset endpointLength room'
  have hfield {start width : ℕ} (hlive : ⟨offset + start, width⟩ ∈ endpointSpans b offset) :
      r'.field start width = r.field start width :=
    field_recordAt_congr room room' (endpointSpans_within b offset) h hlive
  have hport : r'.field 2 2 = r.field 2 2 := hfield (by simp [endpointSpans])
  have hfamily : r'.field 1 1 = r.field 1 1 := hfield (by simp [endpointSpans])
  have hown : r.field 1 1 = b.field (offset + 1) 1 := field_recordAt room (by decide)
  rw [readEndpoint, readEndpoint, hfamily, hport, hown]
  generalize hf : UInt8.ofNat (Bytes.toNatLE (b.field (offset + 1) 1)) = family
  by_cases h4 : family = familyIPv4
  · have haddress : r'.field 4 4 = r.field 4 4 :=
      hfield (by simp [endpointSpans, hf, h4])
    simp only [h4, if_true, haddress]
  · by_cases h6 : family = familyIPv6
    · have hlive {s : Span} (hs : s ∈ [⟨offset + 4, 4⟩, ⟨offset + 8, 16⟩, ⟨offset + 24, 4⟩]) :
          s ∈ endpointSpans b offset := by
        simp only [endpointSpans, hf, if_neg h4, if_pos h6]
        exact List.mem_append_right _ hs
      have hflow : r'.field 4 4 = r.field 4 4 := hfield (hlive (by simp))
      have haddress : r'.field 8 16 = r.field 8 16 := hfield (hlive (by simp))
      have hscope : r'.field 24 4 = r.field 24 4 := hfield (hlive (by simp))
      simp only [if_neg h4, if_pos h6, hflow, haddress, hscope]
    · simp only [if_neg h4, if_neg h6]

/-- The endpoint in the record of a peer stands in the buffer as well. -/
lemma endpointBlock_eq (room : offset + peerLength ≤ b.length)
    (h : ((recordAt b offset peerLength room).field 76 28).length = endpointLength) :
    (⟨(recordAt b offset peerLength room).field 76 28, h⟩ : Block endpointLength) =
      recordAt b (offset + 76) endpointLength
        (Nat.le_trans (Nat.add_assoc offset 76 _ ▸ Nat.add_le_add_left endpoint_within_record _)
          room) := by
  simp only [recordAt, Block.mk.injEq]
  exact field_recordAt room endpoint_within_record

/-- A peer is read alike from records that agree. -/
lemma readPeerRecord_congr (room : offset + peerLength ≤ b.length)
    (room' : offset + peerLength ≤ b'.length) (h : ∀ s ∈ peerSpans b offset, s.Same b b') :
    readPeerRecord (recordAt b' offset peerLength room') =
      readPeerRecord (recordAt b offset peerLength room) := by
  set r := recordAt b offset peerLength room
  set r' := recordAt b' offset peerLength room'
  have hfield {start width : ℕ} (hlive : ⟨offset + start, width⟩ ∈ peerSpans b offset) :
      r'.field start width = r.field start width :=
    field_recordAt_congr room room' (peerSpans_within b offset) h hlive
  have hflags : r'.field 0 4 = r.field 0 4 := hfield (by simp [peerSpans])
  have hversion : r'.field 4 4 = r.field 4 4 := hfield (by simp [peerSpans])
  have hsent : r'.field 104 8 = r.field 104 8 := hfield (by simp [peerSpans])
  have hreceived : r'.field 112 8 = r.field 112 8 := hfield (by simp [peerSpans])
  have hseconds : r'.field 120 8 = r.field 120 8 := hfield (by simp [peerSpans])
  have hnanos : r'.field 128 8 = r.field 128 8 := hfield (by simp [peerSpans])
  have hown : r.field 0 4 = b.field offset 4 := field_recordAt room (by decide)
  rw [readPeerRecord, readPeerRecord, hflags, hversion, hsent, hreceived, hseconds, hnanos, hown]
  generalize hf : Bytes.toUInt32LE (b.field offset 4) = flags
  have hkey : (if flags &&& peerHasPublicKey = 0 then Key.zero else keyAt r' 8 (by decide)) =
      if flags &&& peerHasPublicKey = 0 then Key.zero else keyAt r 8 (by decide) :=
    ite_congr rfl (fun _ => rfl) fun hflag =>
      keyAt_congr (hfield (by simp [peerSpans, hf, hflag]))
  have hpreshared : (if flags &&& peerHasPresharedKey = 0 then Key.zero
      else keyAt r' 40 (by decide)) =
        if flags &&& peerHasPresharedKey = 0 then Key.zero else keyAt r 40 (by decide) :=
    ite_congr rfl (fun _ => rfl) fun hflag =>
      keyAt_congr (hfield (by simp [peerSpans, hf, hflag]))
  have hkeepalive : (if flags &&& peerHasKeepalive = 0 then Interval.zero
      else Interval.ofSeconds (Bytes.toUInt16LE (r'.field 72 2)).toUInt64) =
        if flags &&& peerHasKeepalive = 0 then Interval.zero
        else Interval.ofSeconds (Bytes.toUInt16LE (r.field 72 2)).toUInt64 :=
    ite_congr rfl (fun _ => rfl) fun hflag =>
      congrArg (fun octets => Interval.ofSeconds (Bytes.toUInt16LE octets).toUInt64)
        (hfield (by simp [peerSpans, hf, hflag]))
  simp only [hkey, hpreshared, hkeepalive]
  -- The endpoint is read from a record within the record, at its own offset in the buffer.
  by_cases hendpoint : flags &&& peerHasEndpoint = 0
  · simp only [hendpoint, if_true]
  · have hlive : ∀ s ∈ endpointSpans b (offset + 76), s.Same b b' := fun s hs => h s <| by
      simp only [peerSpans, hf, if_neg hendpoint]
      exact List.mem_append_right _ hs
    have hread :=
      calc readEndpoint ⟨r'.field 76 28, r'.length_field 76 28 endpoint_within_record⟩
          = readEndpoint (recordAt b' (offset + 76) endpointLength _) :=
            congrArg readEndpoint (endpointBlock_eq room' _)
        _ = readEndpoint (recordAt b (offset + 76) endpointLength _) :=
            readEndpoint_congr _ _ hlive
        _ = readEndpoint ⟨r.field 76 28, r.length_field 76 28 endpoint_within_record⟩ :=
            (congrArg readEndpoint (endpointBlock_eq room _)).symm
    simp only [hread]

/-- A network is read alike from records that agree. -/
lemma readNetwork_congr (room : offset + networkLength ≤ b.length)
    (room' : offset + networkLength ≤ b'.length) (h : ∀ s ∈ networkSpans b offset, s.Same b b') :
    readNetwork (recordAt b' offset networkLength room') =
      readNetwork (recordAt b offset networkLength room) := by
  set r := recordAt b offset networkLength room
  set r' := recordAt b' offset networkLength room'
  have hfield {start width : ℕ} (hlive : ⟨offset + start, width⟩ ∈ networkSpans b offset) :
      r'.field start width = r.field start width :=
    field_recordAt_congr room room' (networkSpans_within b offset) h hlive
  have hbits : r'.field 4 4 = r.field 4 4 := hfield (by simp [networkSpans])
  have hfamily : r'.field 0 1 = r.field 0 1 := hfield (by simp [networkSpans])
  have hown : r.field 0 1 = b.field offset 1 := field_recordAt room (by decide)
  rw [readNetwork, readNetwork, hfamily, hbits, hown]
  generalize hf : UInt8.ofNat (Bytes.toNatLE (b.field offset 1)) = family
  by_cases h4 : family = familyIPv4
  · have haddress : r'.field 8 4 = r.field 8 4 :=
      hfield (by simp [networkSpans, hf, h4])
    simp only [if_pos h4, haddress]
  · by_cases h6 : family = familyIPv6
    · have hlive : ⟨offset + 8, 16⟩ ∈ networkSpans b offset := by
        simp only [networkSpans, hf, if_neg h4, if_pos h6]
        exact List.mem_append_right _ (List.mem_singleton.mpr rfl)
      have haddress : r'.field 8 16 = r.field 8 16 := hfield hlive
      simp only [if_neg h4, if_pos h6, haddress]
    · simp only [if_neg h4, if_neg h6]

/-! ### Readings that come to the same -/

/-- Two readings come to the same, and leave what stands behind the offset `stop` of their
buffers. -/
def Alike {α : Type} (b b' : Bytes) (stop : ℕ) (x x' : Except Error (α × Bytes)) : Prop :=
  ∃ outcome : Except Error α, x = outcome.map (fun a => (a, b.drop stop)) ∧
    x' = outcome.map fun a => (a, b'.drop stop)

namespace Alike

variable {α β : Type} {stop later : ℕ} {x x' : Except Error (α × Bytes)}

lemma ok (a : α) (stop : ℕ) : Alike b b' stop (.ok (a, b.drop stop)) (.ok (a, b'.drop stop)) :=
  ⟨.ok a, rfl, rfl⟩

lemma bind {f f' : α × Bytes → Except Error (β × Bytes)} (h : Alike b b' stop x x')
    (hf : ∀ a, Alike b b' later (f (a, b.drop stop)) (f' (a, b'.drop stop))) :
    Alike b b' later (x >>= f) (x' >>= f') := by
  obtain ⟨outcome, rfl, rfl⟩ := h
  cases outcome with
  | error e => exact ⟨.error e, rfl, rfl⟩
  | ok a => exact hf a

/-- A step that does not read on comes first. -/
lemma bind_left {γ : Type} (y : Except Error γ) {f f' : γ → Except Error (β × Bytes)}
    (hf : ∀ c, Alike b b' later (f c) (f' c)) : Alike b b' later (y >>= f) (y >>= f') := by
  cases y with
  | error e => exact ⟨.error e, rfl, rfl⟩
  | ok c => exact hf c

lemma map_fst (h : Alike b b' stop x x') : x'.map Prod.fst = x.map Prod.fst := by
  obtain ⟨outcome, rfl, rfl⟩ := h
  cases outcome <;> rfl

end Alike

/-- Networks are read alike, any number of them. -/
lemma alike_readNetworks (room : offset + networkLength * count ≤ b.length)
    (room' : offset + networkLength * count ≤ b'.length)
    (h : ∀ j < count, ∀ s ∈ networkSpans b (offset + networkLength * j), s.Same b b') :
    Alike b b' (offset + networkLength * count) (readNetworks count (b.drop offset))
      (readNetworks count (b'.drop offset)) := by
  induction count generalizing offset with
  | zero => exact .ok [] offset
  | succ count ih =>
      rw [add_networkLength_mul_succ] at room room' ⊢
      have hfirst : offset + networkLength ≤ b.length := by omega
      have hfirst' : offset + networkLength ≤ b'.length := by omega
      have hlater := ih room room' fun j hj s hs => h (j + 1) (by omega) s (by
        rwa [add_networkLength_mul_succ])
      rw [readNetworks, readNetworks, takeRecord_drop _ hfirst, takeRecord_drop _ hfirst']
      show Alike b b' _ (readNetwork _ >>= _) (readNetwork _ >>= _)
      rw [readNetwork_congr hfirst hfirst' (h 0 (Nat.succ_pos _))]
      exact .bind_left _ fun n => hlater.bind fun networks => .ok (n :: networks) _

/-- A peer with its networks is read alike. -/
lemma alike_readPeer (room : nextPeer b offset ≤ b.length) (room' : nextPeer b offset ≤ b'.length)
    (h : ∀ s ∈ peerRowSpans b offset, s.Same b b') :
    Alike b b' (nextPeer b offset) (readPeer (b.drop offset)) (readPeer (b'.drop offset)) := by
  rw [peerRowSpans, List.forall_mem_append] at h
  obtain ⟨hrecord, hnetworks⟩ := h
  have hnext := add_peerLength_le_nextPeer b offset
  have hfirst : offset + peerLength ≤ b.length := hnext.trans room
  have hfirst' : offset + peerLength ≤ b'.length := hnext.trans room'
  have hlive : (⟨offset + 136, 8⟩ : Span) ∈ peerSpans b offset := by simp [peerSpans]
  have hcount := field_recordAt_congr hfirst hfirst' (peerSpans_within b offset) hrecord hlive
  have hown : (recordAt b offset peerLength hfirst).field 136 8 = b.field (offset + 136) 8 :=
    field_recordAt hfirst (by decide)
  have hread : Alike b b' (nextPeer b offset)
      (readNetworks (declaredNetworks b offset) (b.drop (offset + peerLength)))
      (readNetworks (declaredNetworks b offset) (b'.drop (offset + peerLength))) :=
    alike_readNetworks room room' fun j hj s hs =>
      hnetworks s (List.mem_flatMap.mpr ⟨j, List.mem_range.mpr hj, hs⟩)
  rw [readPeer, readPeer, takeRecord_drop _ hfirst, takeRecord_drop _ hfirst']
  show Alike b b' _ (readPeerRecord _ >>= _) (readPeerRecord _ >>= _)
  rw [readPeerRecord_congr hfirst hfirst' hrecord, hcount, hown]
  exact .bind_left _ fun p => hread.bind fun networks => .ok { p with allowedIps := networks } _

/-- Peers are read alike, any number of them. -/
lemma alike_readPeers (room : (nextPeer b)^[count] offset ≤ b.length)
    (room' : (nextPeer b)^[count] offset ≤ b'.length)
    (h : ∀ i < count, ∀ s ∈ peerRowSpans b ((nextPeer b)^[i] offset), s.Same b b') :
    Alike b b' ((nextPeer b)^[count] offset) (readPeers count (b.drop offset))
      (readPeers count (b'.drop offset)) := by
  induction count generalizing offset with
  | zero => exact .ok [] offset
  | succ count ih =>
      rw [Function.iterate_succ_apply] at room room' ⊢
      have hstart : nextPeer b offset ≤ (nextPeer b)^[count] (nextPeer b offset) :=
        (Nat.le_add_right _ _).trans (add_mul_peerLength_le b _ count)
      have hfirst := alike_readPeer (hstart.trans room) (hstart.trans room')
        (h 0 (Nat.succ_pos _))
      have hlater := ih room room' fun i hi => h (i + 1) (Nat.succ_lt_succ hi)
      rw [readPeers, readPeers]
      exact hfirst.bind fun p => hlater.bind fun peers => .ok (p :: peers) _

/-- A device is read alike from buffers that agree and have room for the declared records. -/
lemma alike_readRecords (name : String) (room : recordsEnd b ≤ b.length)
    (room' : recordsEnd b ≤ b'.length) (h : Agree b b') :
    Alike b b' (recordsEnd b) (readRecords name b) (readRecords name b') := by
  rw [Agree, liveSpans, List.forall_mem_append] at h
  obtain ⟨hinterface, hpeers⟩ := h
  have hstart := interfaceLength_le_recordsEnd b
  have hfirst : 0 + interfaceLength ≤ b.length := by omega
  have hfirst' : 0 + interfaceLength ≤ b'.length := by omega
  have hlive : (⟨0 + 72, 8⟩ : Span) ∈ interfaceSpans b := by simp [interfaceSpans]
  have hcount := field_recordAt_congr hfirst hfirst' (interfaceSpans_within b) hinterface hlive
  have hown : (recordAt b 0 interfaceLength hfirst).field 72 8 = b.field 72 8 :=
    field_recordAt hfirst (by decide)
  have hread : Alike b b' (recordsEnd b)
      (readPeers (declaredPeers b) (b.drop (0 + interfaceLength)))
      (readPeers (declaredPeers b) (b'.drop (0 + interfaceLength))) := by
    rw [Nat.zero_add]
    exact alike_readPeers room room' fun i hi s hs =>
      hpeers s (List.mem_flatMap.mpr ⟨i, List.mem_range.mpr hi, hs⟩)
  have htaken := takeRecord_drop "wg_interface_io" hfirst
  have htaken' := takeRecord_drop "wg_interface_io" hfirst'
  rw [List.drop_zero] at htaken htaken'
  rw [readRecords, readRecords, htaken, htaken']
  show Alike b b' _ (readInterface name _ >>= _) (readInterface name _ >>= _)
  rw [readInterface_congr name hfirst hfirst' hinterface, hcount, hown]
  exact .bind_left _ fun d => hread.bind fun peers => .ok { d with peers := peers } _

/-- **Fields that no flag names are not looked at.** If a buffer has the live octets of another and
room for the records that the other declares, then a device that is read from the other is read from
it as well. Where the other has room for its own records, it is even rejected alike. -/
theorem readDevice_of_agree (name : String) (b b' : Bytes) (room : recordsEnd b ≤ b'.length)
    (h : Agree b b') :
    (∀ d, readDevice name b = .ok d → readDevice name b' = .ok d) ∧
      (recordsEnd b ≤ b.length → readDevice name b' = readDevice name b) := by
  have hread (hown : recordsEnd b ≤ b.length) : readDevice name b' = readDevice name b := by
    rw [readDevice_eq, readDevice_eq]
    exact (alike_readRecords name hown room h).map_fst
  refine ⟨fun d hd => ?_, hread⟩
  rw [hread (recordsEnd_le_of_readDevice hd), hd]

/-- The records of an interface with a port, of a peer with a public key and an IPv4 endpoint and of
its network `10.0.0.0/24`. All dead octets have one value, and so has what is behind the records. -/
def sparseRecords (filler : UInt8) (behind : ℕ) : Bytes :=
  let dead (n : ℕ) : Bytes := List.replicate n filler
  let interface : Bytes := [4, 0, 0xCA, 0x6C] ++ dead 68 ++ [1, 0, 0, 0, 0, 0, 0, 0]
  let endpoint : Bytes := [filler, 2, 0x12, 0x34, 192, 0, 2, 1] ++ dead 20
  let peer : Bytes := [9, 0, 0, 0, 1, 0, 0, 0] ++ List.replicate 32 7 ++ dead 36 ++ endpoint ++
    List.replicate 32 0 ++ [1, 0, 0, 0, 0, 0, 0, 0]
  let network : Bytes := [2] ++ dead 3 ++ [24, 0, 0, 0, 10, 0, 0, 0] ++ dead 12
  interface ++ peer ++ network ++ dead behind

/-- The octets that mean nothing are zero in one buffer and 255 in the other, which has forty more
behind its records: both are read as the same device. -/
theorem readDevice_of_agree_sparse :
    recordsEnd (sparseRecords 0 0) ≤ (sparseRecords 255 40).length ∧
      Agree (sparseRecords 0 0) (sparseRecords 255 40) ∧
      sparseRecords 255 40 ≠ sparseRecords 0 0 ∧
      ∃ d, readDevice "wg0" (sparseRecords 0 0) = .ok d ∧ d.peers.length = 1 ∧
        readDevice "wg0" (sparseRecords 255 40) = .ok d := by
  have room : recordsEnd (sparseRecords 0 0) ≤ (sparseRecords 255 40).length := by decide +kernel
  have hagree : Agree (sparseRecords 0 0) (sparseRecords 255 40) := by decide +kernel
  have hread : (readDevice "wg0" (sparseRecords 0 0)).map (fun d => d.peers.length) = .ok 1 := by
    decide +kernel
  obtain ⟨d, hd, hpeers⟩ := Except.map_eq_ok_iff.mp hread
  exact ⟨room, hagree, by decide +kernel, d, hd, hpeers,
    (readDevice_of_agree "wg0" _ _ room hagree).1 d hd⟩

end WireGuardControl.OpenBsd
