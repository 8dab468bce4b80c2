import Mathlib.Tactic
import WireGuardControl.Proofs.Uapi.Grammar
import WireGuardControl.Proofs.Uapi.Malformed
/-!
The time of a handshake in the lines of a response.

* `counterLine`: the line of a signed counter. `validForPeer_counterLine_iff`: it is valid exactly
  if the counter is not negative.
* `Place`: where the two lines of a handshake stand among the lines of a response, in either order.
  `Place.IsFinal`: they are those of a peer that count.
* `Place.valid_block_iff`: the block around a handshake is valid exactly if its counters stand for a
  time. `Place.deviceOf_lines`: the device depends on them in the time of one peer only.
* `reads_response`: with other counters in their place, a response is read with the time that these
  stand for, or is malformed.
-/

namespace WireGuardControl.Uapi

open Text Lines

/-! ### Counters in lines -/

/-- The key of the seconds of a handshake. -/
def secondsKey : String := "last_handshake_time_sec"

/-- The key of the nanoseconds of a handshake. -/
def nanosecondsKey : String := "last_handshake_time_nsec"

lemma secondsKey_ne : secondsKey ≠ nanosecondsKey := by decide

/-- The line of a signed counter. -/
def counterLine (key : String) (x : Int64) : Line := ⟨key, (Decimal.signedText x.toInt).toList⟩

lemma number?_counterLine_of_nonneg (key : String) {x : Int64} (h : 0 ≤ x.toInt) :
    number? Decimal.readUInt64 (counterLine key x).value = some x.toUInt64 := by
  rw [number?, counterLine, Decimal.signedText_of_nonneg h, ← Instant.toNat_toUInt64 h,
    Decimal.readUInt64_ofNat]
  rfl

lemma number?_counterLine_of_neg (key : String) {x : Int64} (h : x.toInt < 0) :
    number? Decimal.readUInt64 (counterLine key x).value = none := by
  rw [number?, counterLine, Decimal.signedText_of_neg h, Decimal.readUInt64,
    Decimal.read_minus rfl]
  rfl

lemma validForPeer_counterLine_iff {key : String} (hkey : key = secondsKey ∨ key = nanosecondsKey)
    (x : Int64) : (counterLine key x).ValidForPeer ↔ 0 ≤ x.toInt := by
  have hvalid : (counterLine key x).ValidForPeer ↔
      (number? Decimal.readUInt64 (counterLine key x).value).isSome := by
    rcases hkey with rfl | rfl
    · simp [Line.ValidForPeer, counterLine, secondsKey, counterKeys]
    · simp [Line.ValidForPeer, counterLine, nanosecondsKey, counterKeys]
  rw [hvalid]
  rcases lt_or_ge x.toInt 0 with h | h
  · simp [number?_counterLine_of_neg key h, h]
  · simp [number?_counterLine_of_nonneg key h, h]

section LastReading

variable {α : Type} {read : List Char → Option α} {key : String} {a b : Line} {x : α}
  {middle back : List Line}

/-- A value counts if no line behind it has its key. -/
lemma lastReading_of_last (hkey : a.key = key) (hread : read a.value = some x) (xs : List Line)
    (hback : ∀ l ∈ back, l.key ≠ key) : lastReading read key (xs ++ a :: back) = some x := by
  have hnone : readings read key back = [] := by
    rw [readings, List.filterMap_eq_nil_iff]
    intro l hl
    exact if_neg (hback l hl)
  rw [lastReading_append, lastReading_cons, lastReading, hnone, lastReading_singleton, if_pos hkey,
    hread]
  rfl

/-- The first of two lines counts if no line between them has its key. -/
lemma lastReading_first (hkey : a.key = key) (hread : read a.value = some x) (xs : List Line)
    (hmiddle : ∀ l ∈ middle, l.key ≠ key) (hb : b.key ≠ key) (hback : ∀ l ∈ back, l.key ≠ key) :
    lastReading read key (xs ++ (a :: (middle ++ [b]) ++ back)) = some x := by
  have hbehind : ∀ l ∈ middle ++ b :: back, l.key ≠ key := by
    rw [List.forall_mem_append, List.forall_mem_cons]
    exact ⟨hmiddle, hb, hback⟩
  rw [List.cons_append, List.append_assoc, List.singleton_append]
  exact lastReading_of_last hkey hread xs hbehind

/-- The second of two lines counts, whatever stands between them. -/
lemma lastReading_second (hkey : b.key = key) (hread : read b.value = some x) (xs : List Line)
    (a : Line) (hback : ∀ l ∈ back, l.key ≠ key) :
    lastReading read key (xs ++ (a :: (middle ++ [b]) ++ back)) = some x := by
  rw [List.cons_append, List.append_assoc, List.singleton_append, ← List.cons_append,
    ← List.append_assoc]
  exact lastReading_of_last hkey hread _ hback

end LastReading

/-! ### The place of a handshake -/

/-- A place for the two lines of a handshake among the lines of a response. -/
structure Place where
  /-- The lines in front of both. -/
  front : List Line
  /-- The seconds come before the nanoseconds. -/
  secondsFirst : Bool
  /-- The lines between them. -/
  middle : List Line
  /-- The lines behind both. -/
  back : List Line

namespace Place

/-- The lines of a handshake and those between them. -/
def inner (p : Place) (seconds nanoseconds : Int64) : List Line :=
  if p.secondsFirst then
    counterLine secondsKey seconds :: (p.middle ++ [counterLine nanosecondsKey nanoseconds])
  else counterLine nanosecondsKey nanoseconds :: (p.middle ++ [counterLine secondsKey seconds])

/-- All lines, with those of a handshake in their place. -/
def lines (p : Place) (seconds nanoseconds : Int64) : List Line :=
  p.front ++ (p.inner seconds nanoseconds ++ p.back)

/-- The lines of the handshake belong to a peer, and no later lines of the peer replace them. -/
structure IsFinal (p : Place) : Prop where
  /-- The lines are behind a line that begins a peer. -/
  peer : ∃ l ∈ p.front, l.key = "public_key"
  /-- The lines between them neither begin a peer nor replace the first. -/
  middle : ∀ l ∈ p.middle,
    l.key ≠ "public_key" ∧ l.key ≠ if p.secondsFirst then secondsKey else nanosecondsKey
  /-- The lines of the peer behind them replace neither. -/
  back : ∀ l ∈ opening p.back, l.key ≠ secondsKey ∧ l.key ≠ nanosecondsKey

variable {p : Place} {s n : Int64}

lemma forall_mem_inner {P : Line → Prop} : (∀ l ∈ p.inner s n, P l) ↔
    (P (counterLine secondsKey s) ∧ P (counterLine nanosecondsKey n)) ∧ ∀ l ∈ p.middle, P l := by
  rw [inner]
  split_ifs
  · rw [List.forall_mem_cons, List.forall_mem_append, List.forall_mem_singleton]
    tauto
  · rw [List.forall_mem_cons, List.forall_mem_append, List.forall_mem_singleton]
    tauto

/-- The lines of a handshake have no values for other keys. -/
lemma readings_inner {α : Type} {read : List Char → Option α} {key : String}
    (hseconds : secondsKey ≠ key) (hnanos : nanosecondsKey ≠ key) (xs ys : List Line) :
    readings read key (xs ++ (p.inner s n ++ ys)) = readings read key (xs ++ (p.middle ++ ys)) := by
  have hs : (counterLine secondsKey s).key ≠ key := hseconds
  have hn : (counterLine nanosecondsKey n).key ≠ key := hnanos
  rw [inner]
  split_ifs
  · rw [List.cons_append, readings_insert hs, List.append_assoc, List.singleton_append,
      ← List.append_assoc, readings_insert hn, List.append_assoc]
  · rw [List.cons_append, readings_insert hn, List.append_assoc, List.singleton_append,
      ← List.append_assoc, readings_insert hs, List.append_assoc]

lemma lastReading_inner {α : Type} {read : List Char → Option α} {key : String}
    (hseconds : secondsKey ≠ key) (hnanos : nanosecondsKey ≠ key) (xs ys : List Line) :
    lastReading read key (xs ++ (p.inner s n ++ ys)) =
      lastReading read key (xs ++ (p.middle ++ ys)) := by
  rw [lastReading, readings_inner hseconds hnanos, lastReading]

/-! ### The block around a handshake -/

/-- The block around a handshake, whose lines in front of it are `xs`. -/
def block (p : Place) (key : List Char) (xs : List Line) (s n : Int64) : PeerBlock :=
  ⟨key, xs ++ (p.inner s n ++ opening p.back)⟩

variable {key : List Char} {xs : List Line}

lemma seconds_block (h : p.IsFinal) (hs : 0 ≤ s.toInt) :
    (p.block key xs s n).seconds = s.toUInt64 := by
  have hread := number?_counterLine_of_nonneg secondsKey hs
  have hback : ∀ l ∈ opening p.back, l.key ≠ secondsKey := fun l hl => (h.back l hl).1
  have hlast : lastReading (number? Decimal.readUInt64) secondsKey (p.block key xs s n).lines =
      some s.toUInt64 := by
    rw [block, inner]
    split_ifs with hfirst
    · have hmiddle : ∀ l ∈ p.middle, l.key ≠ secondsKey := by
        intro l hl
        simpa [hfirst] using (h.middle l hl).2
      exact lastReading_first rfl hread xs hmiddle secondsKey_ne.symm hback
    · exact lastReading_second rfl hread xs _ hback
  exact congrArg (Option.getD · 0) hlast

lemma nanoseconds_block (h : p.IsFinal) (hn : 0 ≤ n.toInt) :
    (p.block key xs s n).nanoseconds = n.toUInt64 := by
  have hread := number?_counterLine_of_nonneg nanosecondsKey hn
  have hback : ∀ l ∈ opening p.back, l.key ≠ nanosecondsKey := fun l hl => (h.back l hl).2
  have hlast : lastReading (number? Decimal.readUInt64) nanosecondsKey
      (p.block key xs s n).lines = some n.toUInt64 := by
    rw [block, inner]
    split_ifs with hfirst
    · exact lastReading_second rfl hread xs _ hback
    · have hmiddle : ∀ l ∈ p.middle, l.key ≠ nanosecondsKey := by
        intro l hl
        simpa [hfirst] using (h.middle l hl).2
      exact lastReading_first rfl hread xs hmiddle secondsKey_ne hback
  exact congrArg (Option.getD · 0) hlast

/-- The lines of a handshake are valid exactly if its counters are not negative. -/
lemma valid_lines_iff : (∀ l ∈ (p.block key xs s n).lines, l.ValidForPeer) ↔
    (0 ≤ s.toInt ∧ 0 ≤ n.toInt) ∧ ∀ l ∈ xs ++ (p.middle ++ opening p.back), l.ValidForPeer := by
  simp only [block, List.forall_mem_append, forall_mem_inner,
    validForPeer_counterLine_iff (.inl rfl), validForPeer_counterLine_iff (.inr rfl)]
  tauto

/-- **The block around a handshake** is valid exactly if its counters stand for a time, and then
that time is the one of the peer. -/
lemma valid_block_iff (h : p.IsFinal) (hzero : (p.block key xs 0 0).Valid)
    {time : Option Instant} :
    ((p.block key xs s n).Valid ∧
        Instant.reported (p.block key xs s n).seconds (p.block key xs s n).nanoseconds = time) ↔
      Instant.handshake? s n = some time := by
  have hothers := (valid_lines_iff.mp hzero.lines).2
  constructor
  · rintro ⟨hvalid, htime⟩
    obtain ⟨⟨hs, hn⟩, -⟩ := valid_lines_iff.mp hvalid.lines
    have hrange := hvalid.time
    rw [seconds_block h hs, nanoseconds_block h hn] at hrange htime
    exact (Instant.reported_eq_iff hs hn).mp ⟨hrange, htime⟩
  · intro htime
    have hsigns : 0 ≤ s.toInt ∧ 0 ≤ n.toInt := by
      by_contra hnot
      rw [Instant.handshake?_of_neg (by omega)] at htime
      cases htime
    obtain ⟨hrange, hreported⟩ := (Instant.reported_eq_iff hsigns.1 hsigns.2).mpr htime
    have hseconds : (p.block key xs s n).seconds = s.toUInt64 := seconds_block h hsigns.1
    have hnanos : (p.block key xs s n).nanoseconds = n.toUInt64 := nanoseconds_block h hsigns.2
    rw [← hseconds, ← hnanos] at hrange hreported
    exact ⟨⟨hzero.key, valid_lines_iff.mpr ⟨hsigns, hothers⟩, hrange⟩, hreported⟩

/-- The block around a handshake tells nothing of it but its time. -/
lemma peer_block : (p.block key xs s n).peer = { (p.block key xs 0 0).peer with
    lastHandshake :=
      Instant.reported (p.block key xs s n).seconds (p.block key xs s n).nanoseconds } := by
  have hlast : ∀ {α : Type} (read : List Char → Option α) (k : String), secondsKey ≠ k →
      nanosecondsKey ≠ k → lastReading read k (p.block key xs s n).lines =
        lastReading read k (p.block key xs 0 0).lines := by
    intro α read k hseconds hnanos
    rw [block, block, lastReading_inner hseconds hnanos, lastReading_inner hseconds hnanos]
  have hall : readings Network.read? "allowed_ip" (p.block key xs s n).lines =
      readings Network.read? "allowed_ip" (p.block key xs 0 0).lines := by
    rw [block, block, readings_inner (by decide) (by decide),
      readings_inner (by decide) (by decide)]
  simp only [PeerBlock.peer]
  rw [hlast key? _ (by decide) (by decide), hlast endpoint? _ (by decide) (by decide),
    hlast (number? Decimal.readUInt64) _ (by decide) (by decide),
    hlast (number? Decimal.readUInt64) "rx_bytes" (by decide) (by decide),
    hlast (number? Decimal.readUInt64) "tx_bytes" (by decide) (by decide),
    hlast (number? Decimal.readUInt32) _ (by decide) (by decide), hall]
  rfl

/-- The blocks of all lines are those in front, the one around the handshake, and those behind. -/
lemma blocks_lines (h : p.IsFinal) {bs : List PeerBlock}
    (hfront : blocks p.front = bs ++ [⟨key, xs⟩]) (s n : Int64) :
    opening (p.lines s n) = opening p.front ∧
      blocks (p.lines s n) = bs ++ p.block key xs s n :: blocks p.back := by
  have hinner : ∀ l ∈ p.inner s n, l.key ≠ "public_key" := by
    rw [forall_mem_inner]
    refine ⟨⟨?_, ?_⟩, fun l hl => (h.middle l hl).1⟩
    · show secondsKey ≠ "public_key"
      decide
    · show nanosecondsKey ≠ "public_key"
      decide
  obtain ⟨hopening, hblocks⟩ := blocks_append hfront (p.inner s n ++ p.back)
  rw [opening_append_of_notBegins hinner, blocks_append_of_notBegins hinner] at hblocks
  exact ⟨hopening, hblocks⟩

lemma describes_lines_iff (h : p.IsFinal) {bs : List PeerBlock}
    (hfront : blocks p.front = bs ++ [⟨key, xs⟩]) (hzero : Describes (p.lines 0 0)) :
    Describes (p.lines s n) ↔ (p.block key xs s n).Valid := by
  obtain ⟨hopening, hblocks⟩ := blocks_lines h hfront s n
  obtain ⟨hopening₀, hblocks₀⟩ := blocks_lines h hfront 0 0
  rw [describes_iff, hopening₀, hblocks₀, List.forall_mem_append, List.forall_mem_cons] at hzero
  rw [describes_iff, hopening, hblocks, List.forall_mem_append, List.forall_mem_cons]
  tauto

/-- **The device of all lines** differs with the handshake in the time of one peer. -/
lemma deviceOf_lines (h : p.IsFinal) {bs : List PeerBlock}
    (hfront : blocks p.front = bs ++ [⟨key, xs⟩]) (name : String) :
    deviceOf name (p.lines s n) = { deviceOf name (p.lines 0 0) with
      peers := bs.map PeerBlock.peer ++ { (p.block key xs 0 0).peer with
        lastHandshake := Instant.reported (p.block key xs s n).seconds
          (p.block key xs s n).nanoseconds } :: (blocks p.back).map PeerBlock.peer } := by
  obtain ⟨hopening, hblocks⟩ := blocks_lines h hfront s n
  obtain ⟨hopening₀, -⟩ := blocks_lines h hfront 0 0
  rw [deviceOf, deviceOf, privateKeyOf, privateKeyOf, hopening, hopening₀, hblocks,
    List.map_append, List.map_cons, peer_block]

end Place

/-! ### Responses around a handshake -/

lemma Line.ofText_text {l : Line} (h : l.text.count '=' = 1) : Line.ofText l.text = l := by
  have hkey : '=' ∉ l.key.toList := by
    intro hmem
    have hpos := List.count_pos_iff.mpr hmem
    rw [text, List.count_append, List.count_cons_self] at h
    omega
  rw [text, ofText, takeWhile_ne_append hkey, dropWhile_ne_append hkey, String.ofList_toList,
    List.tail_cons]

lemma map_ofText_text {lines : List Line} (h : ∀ l ∈ lines, l.text.count '=' = 1) :
    (lines.map Line.text).map Line.ofText = lines := by
  rw [List.map_map]
  exact (List.map_congr_left fun l hl => Line.ofText_text (h l hl)).trans (List.map_id lines)

/-- Lines with one equals sign each are read back from a response in which they stand. -/
lemma read_back_lines {lines : List Line} {response : List Char}
    (hbody : Pairs.body response = lines.map Line.text)
    (h : ∀ l ∈ lines, l.text.count '=' = 1) :
    (Pairs.body response).map Line.ofText = lines ∧
      ∀ line ∈ Pairs.body response, line.count '=' = 1 := by
  rw [hbody]
  exact ⟨map_ofText_text h, List.forall_mem_map.mpr h⟩

lemma plain_counterLine (key : String) (x : Int64) (h : key.toList.all isPlain = true) :
    (counterLine key x).Plain := by
  refine ⟨h, ?_⟩
  rw [counterLine]
  rcases lt_or_ge x.toInt 0 with h | h
  · rw [Decimal.signedText_of_neg h, List.all_cons, isPlain_ofNat]
    rfl
  · rw [Decimal.signedText_of_nonneg h]
    exact isPlain_ofNat _

namespace Place

variable {p : Place} {s n : Int64} {key : List Char} {xs : List Line}

lemma forall_count_lines_iff : (∀ l ∈ p.lines s n, l.text.count '=' = 1) ↔
    (∀ l ∈ p.front, l.text.count '=' = 1) ∧ (∀ l ∈ p.middle, l.text.count '=' = 1) ∧
      ∀ l ∈ p.back, l.text.count '=' = 1 := by
  have hseconds := (plain_counterLine secondsKey s (by decide)).count_text
  have hnanos := (plain_counterLine nanosecondsKey n (by decide)).count_text
  rw [lines, List.forall_mem_append, List.forall_mem_append, forall_mem_inner]
  tauto

/-- A handshake does not end the lines. -/
lemma back_ne_nil (h : EndsWell (p.lines s n)) : p.back ≠ [] := by
  intro hnil
  obtain ⟨value, hlast, -⟩ := h.last
  rw [lines, hnil, List.append_nil, inner] at hlast
  split_ifs at hlast
  · rw [← List.cons_append, ← List.append_assoc, List.getLast?_concat] at hlast
    have hkey : nanosecondsKey = statusKey := congrArg Line.key (Option.some.inj hlast)
    exact absurd hkey (by decide)
  · rw [← List.cons_append, ← List.append_assoc, List.getLast?_concat] at hlast
    have hkey : secondsKey = statusKey := congrArg Line.key (Option.some.inj hlast)
    exact absurd hkey (by decide)

/-- Whether lines end well does not depend on the handshake. -/
lemma endsWell_lines (h : EndsWell (p.lines 0 0)) : EndsWell (p.lines s n) := by
  have hback : p.back ≠ [] := back_ne_nil h
  have hends : ∀ s n : Int64, (p.lines s n).getLast? = p.back.getLast? ∧
      (p.lines s n).dropLast = p.front ++ (p.inner s n ++ p.back.dropLast) := by
    intro s n
    rw [lines, ← List.append_assoc, List.getLast?_append_of_ne_nil _ hback,
      List.dropLast_append_of_ne_nil hback, List.append_assoc]
    exact ⟨rfl, rfl⟩
  have hkeys : secondsKey ≠ statusKey ∧ nanosecondsKey ≠ statusKey := by decide
  obtain ⟨hlast, honce⟩ := h
  constructor
  · rwa [(hends s n).1, ← (hends 0 0).1]
  · rw [(hends 0 0).2, List.forall_mem_append, List.forall_mem_append, forall_mem_inner] at honce
    rw [(hends s n).2, List.forall_mem_append, List.forall_mem_append, forall_mem_inner]
    exact ⟨honce.1, ⟨hkeys, honce.2.1.2⟩, honce.2.2⟩

end Place

/-- **The time of a handshake in a response.** If a response is read with zeros for the seconds and
the nanoseconds of a handshake, then with other decimal numbers in their place it is read with the
time that these stand for, or is malformed; and all else is read as before. -/
lemma reads_response {p : Place} (h : p.IsFinal) {name : String} {zero response : List Char}
    {device : Device} {s n : Int64} (hzero : Pairs.body zero = (p.lines 0 0).map Line.text)
    (hresponse : Pairs.body response = (p.lines s n).map Line.text)
    (hread : readGet name zero = .ok device) :
    ∃ before peer after, device.peers = before ++ peer :: after ∧
      before.length + 1 = p.front.countP Line.beginsPeer ∧
      Reads (readGet name response) ((Instant.handshake? s n).map fun time =>
        { device with peers := before ++ { peer with lastHandshake := time } :: after }) := by
  obtain ⟨bs, key, xs, hfront⟩ := exists_last_block h.peer
  obtain ⟨haccepted, rfl⟩ := readGet_eq_ok_iff_accepted.mp hread
  have hcount₀ := List.forall_mem_map.mp (hzero ▸ haccepted.equals)
  have hcount : ∀ l ∈ p.lines s n, l.text.count '=' = 1 :=
    Place.forall_count_lines_iff.mpr (Place.forall_count_lines_iff.mp hcount₀)
  obtain ⟨hlines₀, -⟩ := read_back_lines hzero hcount₀
  obtain ⟨hlines, hequals⟩ := read_back_lines hresponse hcount
  obtain ⟨-, hstatus₀, hdescribes⟩ := haccepted
  rw [hlines₀] at hstatus₀ hdescribes
  have hstatus : EndsWell ((Pairs.body response).map Line.ofText) := by
    rw [hlines]
    exact Place.endsWell_lines hstatus₀
  have hvalid : (p.block key xs 0 0).Valid :=
    (Place.describes_lines_iff h hfront hdescribes).mp hdescribes
  refine ⟨bs.map PeerBlock.peer, (p.block key xs 0 0).peer, (blocks p.back).map PeerBlock.peer,
    ?_, ?_, .of_eq_ok_iff (fun d => ?_) (failsOnly_readGet_of_endsWell hequals hstatus)⟩
  · rw [hlines₀, deviceOf, (Place.blocks_lines h hfront 0 0).2, List.map_append, List.map_cons]
  · rw [← length_blocks, hfront, List.length_append, List.length_map, List.length_singleton]
  · rw [hlines] at hstatus
    rw [readGet_eq_ok_iff_accepted, accepted_iff, hlines, hlines₀,
      Place.describes_lines_iff h hfront hdescribes, Place.deviceOf_lines h hfront,
      Option.map_eq_some_iff]
    constructor
    · rintro ⟨⟨-, -, hblock⟩, rfl⟩
      exact ⟨_, (Place.valid_block_iff h hvalid).mp ⟨hblock, rfl⟩, rfl⟩
    · rintro ⟨time, htime, rfl⟩
      obtain ⟨hblock, hreported⟩ := (Place.valid_block_iff h hvalid).mpr htime
      rw [hreported]
      exact ⟨⟨hequals, hstatus, hblock⟩, rfl⟩

end WireGuardControl.Uapi
