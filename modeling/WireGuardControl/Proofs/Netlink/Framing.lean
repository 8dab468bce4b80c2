import WireGuardControl.Netlink.Cursor
import WireGuardControl.Netlink.Exchange
import WireGuardControl.Proofs.Netlink.Packed
import WireGuardControl.Proofs.Octets
/-!
The framing of messages in a datagram.

* `Frame`: a message for whose length there is room in its header. `Frame.exists_octets_eq` tells
  the octets of frames from others.
* `Message.Refused`: octets that do not begin with a message, and the text that says so.
  `Message.datagram_ind` is the induction principle of datagrams.
* `Message.decodeAll_of_packed` and `Message.exists_decodeAll_iff`: a datagram is read exactly if
  it is packed frames, and then frame by frame. `Message.reads_decodeAll`: no octet outside of it is
  needed for that.
* `Message.decodeAll_framing`: the framing of datagrams as a whole.
-/

namespace WireGuardControl.Netlink

/-! ### Frames -/

/-- A message as it stands in a datagram, without padding. -/
structure Frame where
  /-- The message. -/
  message : Message
  /-- The header has room for the length. -/
  length_lt : headerLength + message.payload.length < UInt32.size

namespace Frame

variable (f : Frame)

/-- The number of octets, with those of the header. -/
def length : ℕ := headerLength + f.message.payload.length

/-- What is in the header one after the other, and the payload. -/
def fields : List Bytes :=
  [Bytes.ofNatLE 4 f.length, Bytes.ofUInt16LE f.message.kind, Bytes.ofUInt16LE f.message.flags,
    Bytes.ofUInt32LE f.message.sequence, Bytes.ofUInt32LE f.message.port, f.message.payload]

/-- The octets. -/
def octets : Bytes := f.fields.flatten

@[simp] lemma length_octets : f.octets.length = f.length := by
  simp [octets, fields, length, headerLength]
  omega

lemma headerLength_le : headerLength ≤ f.length := Nat.le_add_right _ _

lemma octets_ne_nil : f.octets ≠ [] := by
  have hmin := f.headerLength_le
  rw [← List.length_pos_iff, length_octets]
  exact lt_of_lt_of_le (by decide) hmin

/-- A frame is written with zero octets behind it. -/
lemma encode_message : f.message.encode = .ok (Bytes.padded f.octets) := by
  rw [Message.encode]
  refine (if_pos f.length_lt).trans ?_
  simp [octets, fields, length]

lemma toNatLE_octets : Bytes.toNatLE (f.octets.take 4) = f.length := by
  have hlength : f.octets.take 4 = Bytes.ofNatLE 4 f.length :=
    Bytes.field_flatten 0 rfl (by simp) rfl
  rw [hlength, Bytes.toNatLE_ofNatLE]
  exact Nat.mod_eq_of_lt f.length_lt

/-- The octets of a frame are read as its message. -/
lemma ofBytes_octets : Message.ofBytes f.octets = f.message := by
  have hkind : f.octets.field 4 2 = Bytes.ofUInt16LE f.message.kind :=
    Bytes.field_flatten 1 rfl (by simp) (by simp [fields])
  have hflags : f.octets.field 6 2 = Bytes.ofUInt16LE f.message.flags :=
    Bytes.field_flatten 2 rfl (by simp) (by simp [fields])
  have hsequence : f.octets.field 8 4 = Bytes.ofUInt32LE f.message.sequence :=
    Bytes.field_flatten 3 rfl (by simp) (by simp [fields])
  have hport : f.octets.field 12 4 = Bytes.ofUInt32LE f.message.port :=
    Bytes.field_flatten 4 rfl (by simp) (by simp [fields])
  have hpayload : f.octets.drop headerLength = f.message.payload := by
    have hsplit : f.octets = (f.fields.take 5).flatten ++ f.message.payload := by
      simp [octets, fields]
    rw [hsplit, List.drop_left' (by simp [fields, headerLength])]
  rw [Message.ofBytes, hkind, hflags, hsequence, hport, hpayload]
  simp

/-- Octets are those of a frame if they have a header that tells their number. -/
lemma exists_octets_eq {c : Bytes} (hlen : headerLength ≤ c.length)
    (hlength : Bytes.toNatLE (c.take 4) = c.length) : ∃ f : Frame, f.octets = c := by
  have hwidth : ∀ start width, start + width ≤ headerLength →
      (c.field start width).length = width :=
    fun start width h => Bytes.length_field c start width (h.trans hlen)
  have hhead : (c.take 4).length = 4 := hwidth 0 4 (by decide)
  have hlt := Bytes.toNatLE_lt (c.take 4)
  rw [hhead, hlength] at hlt
  have hpayload : headerLength + (c.drop headerLength).length = c.length := by
    rw [List.length_drop]
    omega
  let f : Frame := ⟨Message.ofBytes c, hpayload.trans_lt hlt⟩
  have hf : f.length = c.length := hpayload
  have hword : Bytes.ofNatLE 4 f.length = c.take 4 := by
    rw [hf, ← hlength, Bytes.ofNatLE_toNatLE_of_length hhead]
  have hkind : Bytes.ofUInt16LE f.message.kind = c.field 4 2 :=
    Bytes.ofUInt16LE_toUInt16LE (hwidth 4 2 (by decide))
  have hflags : Bytes.ofUInt16LE f.message.flags = c.field 6 2 :=
    Bytes.ofUInt16LE_toUInt16LE (hwidth 6 2 (by decide))
  have hsequence : Bytes.ofUInt32LE f.message.sequence = c.field 8 4 :=
    Bytes.ofUInt32LE_toUInt32LE (hwidth 8 4 (by decide))
  have hport : Bytes.ofUInt32LE f.message.port = c.field 12 4 :=
    Bytes.ofUInt32LE_toUInt32LE (hwidth 12 4 (by decide))
  refine ⟨f, ?_⟩
  calc f.octets = c.field 0 4 ++ (c.field 4 2 ++ (c.field 6 2 ++ (c.field 8 4 ++
          (c.field 12 4 ++ c.drop (12 + 4))))) := by
        simp only [octets, fields, hword, hkind, hflags, hsequence, hport, List.flatten_cons,
          List.flatten_nil, List.append_nil]
        rfl
    _ = c := by
        rw [c.field_append_drop 12, c.field_append_drop 8 4, c.field_append_drop 6 2,
          c.field_append_drop 4 2, c.field_append_drop 0 4, List.drop_zero]

variable {f} {b : Bytes}

lemma length_le (h : f.octets <+: b) : f.length ≤ b.length := by
  have hle := h.length_le
  rwa [length_octets] at hle

/-- A datagram with a frame at its head has the length in its header. -/
lemma not_outOfRange (h : f.octets <+: b) :
    ¬ (f.length < headerLength ∨ b.length < f.length) :=
  not_or.mpr ⟨not_lt.mpr f.headerLength_le, not_lt.mpr (length_le h)⟩

lemma take_length (h : f.octets <+: b) : b.take f.length = f.octets := by
  rw [← length_octets, ← List.prefix_iff_eq_take.mp h]

/-- A datagram with a frame at its head begins with the length of the frame. -/
lemma toNatLE_take (h : f.octets <+: b) : Bytes.toNatLE (b.take 4) = f.length := by
  have hmin : 4 ≤ f.length := le_trans (by decide) f.headerLength_le
  rw [← f.toNatLE_octets, ← take_length h, List.take_take, Nat.min_eq_left hmin]

end Frame

/-! ### What stands at the head of a datagram -/

namespace Message

/-- Octets do not begin with a message, and the text that says so. -/
inductive Refused : (text : String) → Bytes → Prop where
  /-- There are octets, but fewer than a header has. -/
  | headerTruncated {b : Bytes} (left : b ≠ []) (lt : b.length < headerLength) :
      Refused s!"netlink header truncated: {b.length} bytes" b
  /-- The length in the header is less than that of a header, or more than there is. -/
  | lengthOutOfRange {b : Bytes} {length : ℕ} (le : headerLength ≤ b.length)
      (word : Bytes.toNatLE (b.take 4) = length)
      (range : length < headerLength ∨ b.length < length) :
      Refused s!"netlink message length {length} out of range ({b.length} bytes left)" b

variable {b : Bytes} {text : String} {f : Frame}

lemma Refused.ne_nil (h : Refused text b) : b ≠ [] := by
  cases h with
  | headerTruncated left lt => exact left
  | lengthOutOfRange le word range =>
      exact List.ne_nil_of_length_pos (lt_of_lt_of_le (by decide) le)

/-- A datagram is empty, or it does not begin with a message, or a frame stands at its head. -/
lemma datagram_cases (b : Bytes) :
    b = [] ∨ (∃ text, Refused text b) ∨ ∃ f : Frame, f.octets <+: b := by
  by_cases hnil : b = []
  · exact .inl hnil
  by_cases hlt : b.length < headerLength
  · exact .inr (.inl ⟨_, .headerTruncated hnil hlt⟩)
  obtain ⟨n, hn⟩ : ∃ n, Bytes.toNatLE (b.take 4) = n := ⟨_, rfl⟩
  by_cases hrange : n < headerLength ∨ b.length < n
  · exact .inr (.inl ⟨_, .lengthOutOfRange (not_lt.mp hlt) hn hrange⟩)
  obtain ⟨hmin, hmax⟩ := not_or.mp hrange
  -- With a length in range, as many octets at the head are those of a frame.
  have hlen : (b.take n).length = n := List.length_take_of_le (not_lt.mp hmax)
  have hword : Bytes.toNatLE ((b.take n).take 4) = (b.take n).length := by
    rw [List.take_take, Nat.min_eq_left (le_trans (by decide) (not_lt.mp hmin)), hn, hlen]
  obtain ⟨f, hf⟩ := Frame.exists_octets_eq (hlen.symm ▸ not_lt.mp hmin) hword
  exact .inr (.inr ⟨f, hf ▸ List.take_prefix n b⟩)

/-- The induction principle of datagrams. -/
@[elab_as_elim]
theorem datagram_ind {P : Bytes → Prop} (nil : P []) (refused : ∀ b text, Refused text b → P b)
    (frame : ∀ b (f : Frame), f.octets <+: b → P (b.drop (Bytes.aligned f.length)) → P b) :
    ∀ b, P b :=
  units_ind Frame.octets_ne_nil datagram_cases nil (fun b ⟨text, h⟩ => refused b text h)
    fun b f hf ih => frame b f hf (f.length_octets ▸ ih)

/-! ### Frame by frame -/

lemma decodeAll_nil : decodeAll [] = .ok [] := by
  rw [decodeAll]
  rfl

lemma decodeAll_of_refused (h : Refused text b) : decodeAll b = .error (.decode text) := by
  have hleft := (List.length_pos_of_ne_nil h.ne_nil).ne'
  rw [decodeAll]
  refine (if_neg hleft).trans ?_
  cases h with
  | headerTruncated left lt => exact if_pos lt
  | lengthOutOfRange le word range =>
      refine (if_neg (not_lt.mpr le)).trans ?_
      rw [word]
      exact if_pos range

/-- A frame at the head of a datagram is read as its message, and the datagram goes on at the next
multiple of four. -/
lemma decodeAll_of_isPrefix (h : f.octets <+: b) :
    decodeAll b = (decodeAll (b.drop (Bytes.aligned f.length))).map (f.message :: ·) := by
  have hle := Frame.length_le h
  have hhead := f.headerLength_le.trans hle
  rw [decodeAll]
  refine (if_neg (lt_of_lt_of_le (by decide) hhead).ne').trans ?_
  refine (if_neg (not_lt.mpr hhead)).trans ?_
  rw [Frame.toNatLE_take h]
  refine (if_neg (Frame.not_outOfRange h)).trans ?_
  rw [Frame.take_length h, f.ofBytes_octets]
  cases decodeAll (b.drop (Bytes.aligned f.length)) <;> rfl

/-- **Packed frames are read one by one.** -/
lemma decodeAll_of_packed {frames : List (Frame × Bytes)} (h : Packed Frame.octets frames b) :
    decodeAll b = .ok (frames.map fun u => u.1.message) := by
  induction frames generalizing b with
  | nil => rw [Packed.nil_iff.mp h, decodeAll_nil, List.map_nil]
  | cons u frames ih =>
      obtain ⟨hhead, hrest⟩ := h.drop
      rw [Frame.length_octets] at hrest
      rw [decodeAll_of_isPrefix hhead, ih hrest]
      rfl

/-- **A datagram is read exactly if it is packed frames.** -/
lemma exists_decodeAll_iff (b : Bytes) :
    (∃ ms, decodeAll b = .ok ms) ↔ ∃ frames, Packed Frame.octets frames b := by
  refine exists_packed_iff (P := fun b => ∃ ms, decodeAll b = .ok ms) Frame.octets_ne_nil
    datagram_cases ⟨[], decodeAll_nil⟩ (fun b ⟨text, h⟩ => ?_) (fun b f hf => ?_) b
  · simp [decodeAll_of_refused h]
  · rw [decodeAll_of_isPrefix hf, f.length_octets]
    cases decodeAll (b.drop (Bytes.aligned f.length)) <;> simp [Except.map]

/-- What is not read is refused with a text. -/
lemma exists_decodeAll_eq (b : Bytes) :
    (∃ ms, decodeAll b = .ok ms) ∨ ∃ text, decodeAll b = .error (.decode text) := by
  induction b using datagram_ind with
  | nil => exact .inl ⟨[], decodeAll_nil⟩
  | refused b text h => exact .inr ⟨text, decodeAll_of_refused h⟩
  | frame b f hf ih =>
      rw [decodeAll_of_isPrefix hf]
      rcases ih with ⟨ms, hms⟩ | ⟨text, htext⟩
      · exact .inl ⟨f.message :: ms, by rw [hms]; rfl⟩
      · exact .inr ⟨text, by rw [htext]; rfl⟩

/-- Messages are written as packed frames. -/
lemma exists_mapM_encode {ms : List Message}
    (h : ∀ m ∈ ms, headerLength + m.payload.length < UInt32.size) :
    ∃ frames : List Frame, frames.map (·.message) = ms ∧
      ms.mapM encode = .ok (frames.map fun f => Bytes.padded f.octets) := by
  induction ms with
  | nil => exact ⟨[], rfl, rfl⟩
  | cons m ms ih =>
      obtain ⟨hm, hrest⟩ := List.forall_mem_cons.mp h
      obtain ⟨frames, rfl, hencode⟩ := ih hrest
      let f : Frame := ⟨m, hm⟩
      have hf : m.encode = .ok (Bytes.padded f.octets) := f.encode_message
      exact ⟨f :: frames, rfl, by rw [List.mapM_cons, hf, hencode]; rfl⟩

/-! ### Octet by octet -/

lemma readOne_of_refused (h : Refused text b) : readOne b = .ok (.error (.decode text)) := by
  cases h with
  | headerTruncated left lt => exact if_pos lt
  | lengthOutOfRange le word range =>
      rw [readOne]
      refine (if_neg (not_lt.mpr le)).trans ?_
      rw [Bytes.octetsAt_eq b 0 4 (le_trans (by decide) le), Bytes.field_zero]
      simp only [bind, Except.bind, word]
      exact if_pos range

lemma readOne_of_isPrefix (h : f.octets <+: b) :
    readOne b = .ok (.ok (f.message, b.drop (Bytes.aligned f.length))) := by
  have hle := Frame.length_le h
  have hhead := f.headerLength_le.trans hle
  have hread : ∀ start width, start + width ≤ headerLength →
      b.octetsAt start width = .ok (f.octets.field start width) := by
    intro start width hwidth
    rw [Bytes.octetsAt_eq b start width (hwidth.trans hhead), ← Frame.take_length h,
      ← b.field_zero f.length, Bytes.field_field b (hwidth.trans f.headerLength_le), Nat.zero_add]
  have hpayload : b.field headerLength (f.length - headerLength) = f.octets.drop headerLength := by
    rw [← Frame.take_length h, List.drop_take, Bytes.field]
  rw [readOne]
  refine (if_neg (not_lt.mpr hhead)).trans ?_
  rw [hread 0 4 (by decide), hread 4 2 (by decide), hread 6 2 (by decide), hread 8 4 (by decide),
    hread 12 4 (by decide), Bytes.field_zero]
  simp only [bind, Except.bind, f.toNatLE_octets]
  rw [if_neg (Frame.not_outOfRange h), Bytes.slice_eq b _ _ f.headerLength_le hle,
    Bytes.slice_min_length, hpayload, ← f.ofBytes_octets]
  rfl

/-- **A datagram is read without an octet outside of it**, whatever is in it. -/
lemma reads_decodeAll (b : Bytes) (read : List Message) :
    Reads b read ((decodeAll b).map (read ++ ·)) := by
  induction b using datagram_ind generalizing read with
  | nil =>
      rw [decodeAll_nil, Except.map, List.append_nil]
      exact .done read
  | refused b text h =>
      rw [decodeAll_of_refused h]
      exact .refused h.ne_nil (readOne_of_refused h)
  | frame b f hf ih =>
      have hne : b ≠ [] := fun hnil => f.octets_ne_nil (List.prefix_nil.mp (hnil ▸ hf))
      refine .message hne (readOne_of_isPrefix hf) ?_
      have hlater := ih (read ++ [f.message])
      rw [decodeAll_of_isPrefix hf]
      cases hrest : decodeAll (b.drop (Bytes.aligned f.length)) with
      | error cause => rwa [hrest] at hlater
      | ok ms =>
          rw [hrest] at hlater
          simpa [Except.map] using hlater

end Message

/-- A datagram that is no row of messages changes nothing. -/
lemma Exchange.feed_of_decodeAll_error (x : Exchange) {b : Bytes} {cause : Error}
    (h : Message.decodeAll b = .error cause) : x.feed b = (.error cause, x) := by
  rw [feed, h]

/-- **The framing of messages**: messages that are written one behind the other are read again.
Whatever a datagram is, it is read to its end or up to where it is refused, without an octet outside
of it. It is read exactly if it is packed frames, each of which begins at a multiple of four and of
which only the last may lack padding, and then as the messages of these. Otherwise it is refused,
and an exchange that takes it in remains as it was. -/
theorem Message.decodeAll_framing :
    (∀ ms : List Message, (∀ m ∈ ms, m.payload.length < 2 ^ 32 - headerLength) →
      ∃ written, ms.mapM encode = .ok written ∧ decodeAll written.flatten = .ok ms) ∧
    ∀ b : Bytes,
      Reads b [] (decodeAll b) ∧
      ((∃ ms, decodeAll b = .ok ms) ↔ ∃ frames, Packed Frame.octets frames b) ∧
      (∀ frames, Packed Frame.octets frames b →
        decodeAll b = .ok (frames.map fun u => u.1.message) ∧
        ∀ earlier u later, frames = earlier ++ u :: later →
          (earlier.flatMap fun v => v.1.octets ++ v.2).length % 4 = 0) ∧
      ((¬ ∃ frames, Packed Frame.octets frames b) →
        ∃ text, decodeAll b = .error (.decode text) ∧
          ∀ x : Exchange, x.feed b = (.error (.decode text), x)) := by
  refine ⟨fun ms h => ?_, fun b => ⟨?_, exists_decodeAll_iff b, fun frames h => ?_, fun h => ?_⟩⟩
  · have hroom : ∀ m ∈ ms, headerLength + m.payload.length < UInt32.size := fun m hm =>
      Nat.add_lt_of_lt_sub' (h m hm)
    obtain ⟨frames, rfl, hencode⟩ := exists_mapM_encode hroom
    have hread := decodeAll_of_packed (packed_zeros Frame.octets frames)
    rw [List.map_map] at hread
    exact ⟨_, hencode, by rw [← List.flatMap_def]; exact hread⟩
  · have hreads := reads_decodeAll b []
    cases hb : decodeAll b <;> rwa [hb] at hreads
  · exact ⟨decodeAll_of_packed h, fun earlier u later hframes => (hframes ▸ h).length_mod⟩
  · rcases exists_decodeAll_eq b with hok | ⟨text, htext⟩
    · exact absurd ((exists_decodeAll_iff b).mp hok) h
    · exact ⟨text, htext, fun x => x.feed_of_decodeAll_error htext⟩

/-- Two messages of which neither ends at a multiple of four, written one behind the other, and in a
datagram with padding that is not zero and none at the end. Five octets are no datagram. -/
theorem Message.decodeAll_framing_unpadded :
    let first : Frame := ⟨{ kind := 16, flags := 2, payload := [1, 2, 3] }, by decide⟩
    let second : Frame := ⟨{ kind := 3, sequence := 7, payload := [4] }, by decide⟩
    (∃ written, [first.message, second.message].mapM encode = .ok written ∧
      decodeAll written.flatten = .ok [first.message, second.message]) ∧
    decodeAll (first.octets ++ [9] ++ second.octets) = .ok [first.message, second.message] ∧
    ∃ text, ∀ x : Exchange, x.feed [1, 2, 3, 4, 5] = (.error (.decode text), x) := by
  intro first second
  have hpacked : Packed Frame.octets [(first, [9]), (second, [])]
      (first.octets ++ [9] ++ second.octets) := ⟨by simp, by decide, by decide⟩
  have hshort : ¬ ∃ frames, Packed Frame.octets frames [1, 2, 3, 4, 5] := by
    rw [← exists_decodeAll_iff, decodeAll_of_refused (.headerTruncated (by decide) (by decide))]
    simp
  obtain ⟨text, -, hfeed⟩ := (decodeAll_framing.2 _).2.2.2 hshort
  exact ⟨decodeAll_framing.1 _ (by decide), ((decodeAll_framing.2 _).2.2.1 _ hpacked).1,
    text, hfeed⟩

end WireGuardControl.Netlink
