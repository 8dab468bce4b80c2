import Mathlib.Tactic
import WireGuardControl.Proofs.Uapi.Grammar
/-!
Where a response ends.

* `Unbroken`: whole lines of octets, none of them blank. `responseOf_blank`: behind such lines the
  next line feed is a blank line, with which the response ends; `responseOf_of_no_blank`: a stream
  without one is the response.
* `exists_text_of_blank`: a blank line of octets is one of the text that the octets are.
  `exists_text_responseOf`: what is read of a text is read of its response.
* `AlikeToBlank`: two answers of a socket agree up to the first blank line. `Client.ask_of_alike`:
  a client gets one text from both.
* `response_end`: the octets and the text of a response end at one place, and what a program sends
  behind it changes nothing.
-/

namespace WireGuardControl.Uapi

open Text Lines

/-! ### Lines of octets -/

/-- Whole lines of octets, none of them blank. -/
inductive Unbroken : Bytes → Prop
  /-- There is no line. -/
  | nil : Unbroken []
  /-- A line that is not blank stands in front. -/
  | cons {line rest : Bytes} (ne_nil : line ≠ []) (notMem : lineFeed ∉ line)
      (later : Unbroken rest) : Unbroken (line ++ lineFeed :: rest)

/-- A stream with a blank line: its response ends with this line. -/
lemma responseOf_blank {front : Bytes} (h : Unbroken front) (rest : Bytes) :
    responseOf (front ++ lineFeed :: rest) = front ++ [lineFeed] := by
  induction h with
  | nil => exact (responseOf_append List.not_mem_nil rest).trans (if_pos rfl)
  | cons hne hline _ ih =>
      rw [List.append_assoc, List.cons_append, responseOf_append hline, if_neg hne, ih,
        List.append_assoc, List.cons_append]

lemma responseOf_of_notMem {line : Bytes} (h : lineFeed ∉ line) : responseOf line = line := by
  have hkeep : ∀ b ∈ line, decide (b ≠ lineFeed) = true := by
    intro b hb
    exact decide_eq_true fun hbl => h (hbl ▸ hb)
  cases line with
  | nil => rw [responseOf]
  | cons b s =>
      have hdrop := List.dropWhile_eq_nil_iff.mpr hkeep
      rw [responseOf]
      split
      · exact List.takeWhile_eq_self_iff.mpr hkeep
      · next heq => rw [hdrop] at heq; cases heq

/-- A stream without a blank line is the response as a whole. -/
lemma responseOf_of_no_blank {stream : Bytes}
    (h : ¬ ∃ front rest, Unbroken front ∧ stream = front ++ lineFeed :: rest) :
    responseOf stream = stream := by
  induction hn : stream.length using Nat.strong_induction_on generalizing stream with
  | _ n ih =>
      by_cases hmem : lineFeed ∈ stream
      · obtain ⟨line, rest, rfl, hline⟩ := List.eq_append_cons_of_mem hmem
        have hne : line ≠ [] := by
          rintro rfl
          exact h ⟨[], rest, .nil, rfl⟩
        have hrest : ¬ ∃ front back, Unbroken front ∧ rest = front ++ lineFeed :: back := by
          rintro ⟨front, back, hfront, rfl⟩
          exact h ⟨_, back, .cons hne hline hfront, by simp⟩
        have hshort : rest.length < n := by
          rw [← hn, List.length_append, List.length_cons]
          omega
        rw [responseOf_append hline, if_neg hne, ih _ hshort hrest rfl]
      · exact responseOf_of_notMem hmem

/-! ### Lines of text -/

lemma Unbroken.eq_nil_or_concat {front : Bytes} (h : Unbroken front) :
    front = [] ∨ ∃ before, front = before ++ [lineFeed] := by
  induction h with
  | nil => exact .inl rfl
  | @cons line rest _ _ _ ih =>
      right
      obtain rfl | ⟨before, rfl⟩ := ih
      · exact ⟨line, rfl⟩
      · exact ⟨line ++ lineFeed :: before, by simp⟩

lemma whole_of_encode {text : List Char} (h : Unbroken (Utf8.encode text)) : Whole text := by
  obtain hnil | ⟨before, hlast⟩ := h.eq_nil_or_concat
  · exact .inl (by_contra fun hne => Utf8.encode_ne_nil hne hnil)
  · obtain ⟨front, back, rfl, -, hback⟩ :=
      Utf8.encode_eq_append_cons (c := '\n') (by decide) hlast
    obtain rfl : back = [] := by_contra fun hne => Utf8.encode_ne_nil hne hback
    exact .inr (by simp)

/-- A blank line of octets is a blank line of the text. -/
lemma exists_text_of_blank {text : List Char} {front rest : Bytes} (hfront : Unbroken front)
    (h : Utf8.encode text = front ++ lineFeed :: rest) :
    ∃ before after, text = before ++ ['\n'] ++ after ∧ Whole before ∧
      Utf8.encode before = front := by
  obtain ⟨before, after, rfl, rfl, -⟩ := Utf8.encode_eq_append_cons (c := '\n') (by decide) h
  exact ⟨before, after, by simp, whole_of_encode hfront, rfl⟩

/-- **What is read of a text is read of its response.** -/
lemma exists_text_responseOf (text : List Char) :
    ∃ response, responseOf (Utf8.encode text) = Utf8.encode response ∧
      Pairs.body response = Pairs.body text := by
  by_cases h : ∃ front rest, Unbroken front ∧ Utf8.encode text = front ++ lineFeed :: rest
  · obtain ⟨front, rest, hfront, hoctets⟩ := h
    obtain ⟨before, after, rfl, hwhole, rfl⟩ := exists_text_of_blank hfront hoctets
    refine ⟨before ++ ['\n'], ?_, ?_⟩
    · rw [hoctets, responseOf_blank hfront, Utf8.encode, Utf8.encode, List.flatMap_append]
      rfl
    · have hresponse := body_of_blank hwhole (.inl rfl) []
      rw [List.append_nil] at hresponse
      rw [hresponse, body_of_blank hwhole (.inl rfl)]
  · exact ⟨text, responseOf_of_no_blank h, rfl⟩

lemma readGet_congr {response text : List Char} (h : Pairs.body response = Pairs.body text)
    (name : String) : readGet name response = readGet name text := by
  rw [readGet, readGet, Pairs.ofText, Pairs.ofText, h]

lemma readSet_congr {response text : List Char} (h : Pairs.body response = Pairs.body text) :
    readSet response = readSet text := by
  rw [readSet, readSet, Pairs.ofText, Pairs.ofText, h]

/-! ### What a socket answers -/

/-- Two answers of a socket are equal, or agree up to the first blank line, which both have. -/
inductive AlikeToBlank : Except ExchangeFault Bytes → Except ExchangeFault Bytes → Prop
  /-- The answers are equal. -/
  | refl (answer : Except ExchangeFault Bytes) : AlikeToBlank answer answer
  /-- The answers differ behind a blank line. -/
  | blank {front : Bytes} (h : Unbroken front) (rest rest' : Bytes) :
      AlikeToBlank (.ok (front ++ lineFeed :: rest)) (.ok (front ++ lineFeed :: rest'))

lemma AlikeToBlank.text_eq {answer answer' : Except ExchangeFault Bytes}
    (h : AlikeToBlank answer answer') :
    (answer.mapError ExchangeFault.error).bind responseText =
      (answer'.mapError ExchangeFault.error).bind responseText := by
  cases h with
  | refl => rfl
  | blank h rest rest' =>
      change responseText _ = responseText _
      rw [responseText, responseText, responseOf_blank h, responseOf_blank h]

namespace Client

variable {σ : Type}

/-- Two clients look into the same directories, and their sockets give answers that agree up to the
first blank line. -/
structure Alike (c c' : Client (StateM σ)) : Prop where
  /-- The directories are the same. -/
  directories : c.directories = c'.directories
  /-- They have the same entries. -/
  entries : c.host.entries = c'.host.entries
  /-- The sockets answer alike. -/
  answer : ∀ path request s, AlikeToBlank (c.host.exchange path request s).1
    (c'.host.exchange path request s).1
  /-- They leave the system in the same state. -/
  state : ∀ path request s, (c.host.exchange path request s).2 =
    (c'.host.exchange path request s).2

variable {c c' : Client (StateM σ)}

lemma ask_eq (c : Client (StateM σ)) (path : Bytes) (request : List Char) (s : σ) :
    c.ask path request s =
      (((c.host.exchange path (Utf8.encode request) s).1.mapError ExchangeFault.error).bind
        responseText, (c.host.exchange path (Utf8.encode request) s).2) := by
  rw [ask]
  rcases hx : c.host.exchange path (Utf8.encode request) s with ⟨fault | stream, s'⟩ <;>
    simp only [bind, StateT.bind, hx] <;> rfl

/-- **A client gets one text** from answers that agree up to the first blank line. -/
lemma ask_of_alike (h : Alike c c') : c.ask = c'.ask := by
  funext path request s
  rw [ask_eq, ask_eq, (h.answer path _ s).text_eq, h.state]

lemma findSockets_congr {m : Type → Type} [Monad m] {host host' : Host m}
    (h : host.entries = host'.entries) (directories : List Bytes) :
    findSockets host directories = findSockets host' directories := by
  induction directories with
  | nil => rfl
  | cons directory rest ih => rw [findSockets, findSockets, h, ih]

lemma socket_of_alike (h : Alike c c') : c.socket = c'.socket := by
  funext name
  rw [socket, socket, h.directories, findSockets_congr h.entries]

lemma device_of_alike (h : Alike c c') : c.device = c'.device := by
  funext name
  simp only [device, get, socket_of_alike h, ask_of_alike h]

lemma configure_of_alike (h : Alike c c') : c.configure = c'.configure := by
  funext name config
  simp only [configure, socket_of_alike h, ask_of_alike h]

lemma devices_of_alike (h : Alike c c') : c.devices = c'.devices := by
  have hget : c.get = c'.get := by
    funext path name
    rw [get, get, ask_of_alike h]
  have hpaths : c.devicesAt = c'.devicesAt := by
    funext paths
    induction paths with
    | nil => rfl
    | cons path rest ih => rw [devicesAt, devicesAt, ih, hget]
  rw [devices, devices, h.directories, findSockets_congr h.entries, hpaths]

end Client

/-! ### The end of a response -/

/-- **The octets and the text of a response end at one place.** The response in a stream of octets
is all up to and including the first blank line, or the whole stream if it has none. If the stream
is a text, what is read of it, as a device or as the status of an update, is read of its response.
And no client finds a difference between sockets that agree up to the first blank line, whatever
octets follow there. -/
theorem response_end {σ : Type} :
    ((∀ front rest, Unbroken front →
        responseOf (front ++ lineFeed :: rest) = front ++ [lineFeed]) ∧
      ∀ stream, (¬ ∃ front rest, Unbroken front ∧ stream = front ++ lineFeed :: rest) →
        responseOf stream = stream) ∧
    (∀ stream text, Utf8.decode stream = .ok text →
      ∃ response, responseText stream = .ok response ∧
        (∀ name, readGet name response = readGet name text) ∧
        readSet response = readSet text) ∧
    ∀ c c' : Client (StateM σ), c.Alike c' →
      c.device = c'.device ∧ c.configure = c'.configure ∧ c.devices = c'.devices := by
  refine ⟨⟨fun front rest hfront => responseOf_blank hfront rest,
    fun stream hstream => responseOf_of_no_blank hstream⟩, fun stream text htext => ?_,
    fun c c' h => ⟨Client.device_of_alike h, Client.configure_of_alike h,
      Client.devices_of_alike h⟩⟩
  obtain rfl := Utf8.decode_eq_ok_iff.mp htext
  obtain ⟨response, hoctets, hbody⟩ := exists_text_responseOf text
  refine ⟨response, ?_, readGet_congr hbody, readSet_congr hbody⟩
  rw [responseText, hoctets, Utf8.decode_encode]
  rfl

/-- A program with the device `wg0` that responds to every request with the octets `stream`. -/
def responding (stream : Bytes) : Client (StateM Unit) where
  host.entries := fun _ => pure (.ok [⟨[119, 103, 48], true⟩])
  host.exchange := fun _ _ => pure (.ok stream)
  directories := [[slash]]

lemma alike_responding {front : Bytes} (h : Unbroken front) (rest rest' : Bytes) :
    (responding (front ++ lineFeed :: rest)).Alike (responding (front ++ lineFeed :: rest')) :=
  ⟨rfl, rfl, fun _ _ _ => .blank h rest rest', fun _ _ _ => rfl⟩

/-- A status with a blank line, behind which there is another status or an octet that begins no
character; and a status without a blank line. -/
theorem response_end_status :
    let front := Utf8.encode "errno=0\n".toList
    let text := "errno=0\n\nerrno=1\n".toList
    let unended := Utf8.encode "errno=0".toList
    (Unbroken front ∧ responseOf (front ++ lineFeed :: [0xFF]) = front ++ [lineFeed]) ∧
    ((¬ ∃ lines rest, Unbroken lines ∧ unended = lines ++ lineFeed :: rest) ∧
      responseOf unended = unended) ∧
    (Utf8.decode (Utf8.encode text) = .ok text ∧
      ∃ response, responseText (Utf8.encode text) = .ok response ∧
        readSet response = readSet text) ∧
    (responding (front ++ lineFeed :: [0xFF])).Alike (responding (front ++ lineFeed :: [])) ∧
      (responding (front ++ lineFeed :: [0xFF])).device =
        (responding (front ++ lineFeed :: [])).device := by
  intro front text unended
  obtain ⟨⟨hblank, hwhole⟩, htext, halike⟩ := response_end (σ := Unit)
  have hfront : Unbroken front :=
    @Unbroken.cons (Utf8.encode "errno=0".toList) [] (by decide) (by decide) .nil
  have hunended : ¬ ∃ lines rest, Unbroken lines ∧ unended = lines ++ lineFeed :: rest := by
    rintro ⟨lines, rest, -, h⟩
    have hnone : lineFeed ∉ unended := by decide
    exact hnone (h ▸ by simp)
  obtain ⟨response, hresponse, -, hset⟩ := htext _ text (Utf8.decode_encode text)
  have hsockets := alike_responding hfront [0xFF] []
  exact ⟨⟨hfront, hblank _ _ hfront⟩, ⟨hunended, hwhole _ hunended⟩,
    ⟨Utf8.decode_encode text, response, hresponse, hset⟩, hsockets, (halike _ _ hsockets).1⟩

end WireGuardControl.Uapi
