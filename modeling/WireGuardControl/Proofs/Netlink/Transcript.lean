import Mathlib.Tactic
import WireGuardControl.Proofs.Netlink.Delivery
import WireGuardControl.Proofs.Tables
/-!
The requests that an update makes, in their order.

* `Client.noted`: a client that keeps a transcript of its channels next to their state, and does
  otherwise what it did. An `Event` is a call to one of the channels, with its reply.
* `Client.Ending`: the three ways in which the sending of batches ends, read off the transcript.
* `Client.send_transcript`: batches are asked for one after the other, each behind the
  acknowledgement of the one before; the request for the first batch is one step of the induction.
* `Client.configure_transcript`: what an update asks for, and what it makes of the replies.
-/

namespace WireGuardControl.Netlink

variable {σ : Type}

/-! ### Transcripts -/

/-- A call to a channel and its reply; that to a close has no messages. -/
structure Event where
  /-- The call. -/
  call : Call
  /-- The reply. -/
  reply : Reply

/-- The reply is no failure. -/
def Event.Acknowledges (event : Event) : Prop := ∃ messages, event.reply = .ok messages

lemma Event.not_acknowledges_of_error {event : Event} {e : Error} (h : event.reply = .error e) :
    ¬ event.Acknowledges := by
  rintro ⟨messages, hok⟩
  rw [h] at hok
  cases hok

/-- The channel on one side of a client, the calls to which are noted with their replies. -/
def Channel.noted (side : Side) (channel : Channel (StateM σ)) :
    Channel (StateM (σ × List Event)) where
  execute := fun kind flags payload (s, log) =>
    let (reply, s') := channel.execute kind flags payload s
    (reply, (s', log ++ [⟨.request side kind flags payload, reply⟩]))
  close := fun (s, log) =>
    let (outcome, s') := channel.close s
    (outcome, (s', log ++ [⟨.close side, outcome.map fun _ => []⟩]))

lemma Channel.noted_execute (side : Side) {channel : Channel (StateM σ)} {kind flags : UInt16}
    {payload : Bytes} {reply : Reply} {s s' : σ}
    (h : channel.execute kind flags payload s = (reply, s')) (log : List Event) :
    (channel.noted side).execute kind flags payload (s, log) =
      (reply, (s', log ++ [⟨.request side kind flags payload, reply⟩])) := by
  simp only [noted, h]

namespace Client

/-- The client, the calls of which to either channel are noted. -/
def noted (c : Client (StateM σ)) : Client (StateM (σ × List Event)) where
  generic := c.generic.noted .generic
  links := c.links.noted .links
  family := c.family

/-- A batch can be written. -/
def Writes (name : String) (b : Config) : Prop := ∃ data, encodeConfig name b = .ok data

lemma not_writes_of_error {name : String} {b : Config} {e : Error}
    (h : encodeConfig name b = .error e) : ¬ Writes name b := by
  rintro ⟨data, hok⟩
  rw [h] at hok
  cases hok

/-- An event is the request for a batch: over the channel of generic netlink, to the WireGuard
family, with the wish for an acknowledgement, and with the attributes of the batch behind the header
of an update. -/
def AsksFor (c : Client (StateM σ)) (name : String) (b : Config) (event : Event) : Prop :=
  ∃ data, encodeConfig name b = .ok data ∧
    event.call = .request .generic c.family (flagRequest ||| flagAck) (setRequest data)

/-- How the sending of the batches `bs` ends, of which `asked` were asked for by `events`. -/
inductive Ending (name : String) (bs asked : List Config) (events : List Event) :
    Except Error Unit → Prop
  /-- All batches were asked for and acknowledged. -/
  | complete (all : asked = bs) (acknowledged : ∀ x ∈ events, x.Acknowledges) :
      Ending name bs asked events (.ok ())
  /-- The next batch cannot be written; those before it were acknowledged. -/
  | unwritten {b : Config} {later : List Config} {e : Error} (next : bs = asked ++ b :: later)
      (fault : encodeConfig name b = .error e) (acknowledged : ∀ x ∈ events, x.Acknowledges) :
      Ending name bs asked events (.error e)
  /-- The last batch that was asked for was refused; those before it were acknowledged. -/
  | refused {before : List Event} {last : Event} {e : Error} (final : events = before ++ [last])
      (fault : last.reply = .error e) (acknowledged : ∀ x ∈ before, x.Acknowledges) :
      Ending name bs asked events (.error (noteAbsence e))

variable {c : Client (StateM σ)} {name : String}

lemma Ending.cons {bs asked : List Config} {events : List Event} {outcome : Except Error Unit}
    (b : Config) {event : Event} (hack : event.Acknowledges)
    (h : Ending name bs asked events outcome) :
    Ending name (b :: bs) (b :: asked) (event :: events) outcome := by
  cases h with
  | complete all acknowledged =>
      exact .complete (congrArg _ all) (List.forall_mem_cons.mpr ⟨hack, acknowledged⟩)
  | unwritten next fault acknowledged =>
      exact .unwritten (congrArg _ next) fault (List.forall_mem_cons.mpr ⟨hack, acknowledged⟩)
  | refused final fault acknowledged =>
      exact .refused (congrArg _ final) fault (List.forall_mem_cons.mpr ⟨hack, acknowledged⟩)

/-! ### Sending -/

/-- **Batches are asked for in order**, each behind the acknowledgement of the one before. -/
lemma send_transcript (c : Client (StateM σ)) (name : String) (bs : List Config) (s : σ) :
    ∃ outcome s' asked events, c.send name bs s = (outcome, s') ∧
      (∀ log, c.noted.send name bs (s, log) = (outcome, (s', log ++ events))) ∧
      asked <+: bs ∧ List.Forall₂ (AsksFor c name) asked events ∧
      Ending name bs asked events outcome := by
  induction bs generalizing s with
  | nil =>
      refine ⟨.ok (), s, [], [], rfl, fun log => ?_, List.nil_prefix, .nil, .complete rfl (by simp)⟩
      rw [List.append_nil]
      rfl
  | cons b bs ih =>
      cases hdata : encodeConfig name b with
      | error e =>
          refine ⟨.error e, s, [], [], send_cons_of_error hdata s, fun log => ?_, List.nil_prefix,
            .nil, .unwritten rfl hdata (by simp)⟩
          rw [List.append_nil, send_cons_of_error hdata]
      | ok data =>
          rcases hanswer : c.generic.execute c.family (flagRequest ||| flagAck) (setRequest data) s
            with ⟨reply, s₁⟩
          have hnoted := Channel.noted_execute .generic hanswer
          set event : Event :=
            ⟨.request .generic c.family (flagRequest ||| flagAck) (setRequest data), reply⟩
          have hasks : AsksFor c name b event := ⟨data, hdata, rfl⟩
          have hlast : [event] = [] ++ [event] := rfl
          cases reply with
          | error e =>
              refine ⟨.error (noteAbsence e), s₁, [b], [event],
                send_cons_of_refused hdata hanswer, fun log => ?_, ?_, .cons hasks .nil,
                .refused hlast rfl (by simp)⟩
              · exact send_cons_of_refused (c := c.noted) hdata (hnoted log)
              · exact List.cons_prefix_cons.mpr ⟨rfl, List.nil_prefix⟩
          | ok messages =>
              obtain ⟨outcome, s', asked, events, hplain, hlog, hprefix, hall, hend⟩ := ih s₁
              refine ⟨outcome, s', b :: asked, event :: events,
                (send_cons_of_ok hdata hanswer).trans hplain, fun log => ?_,
                List.cons_prefix_cons.mpr ⟨rfl, hprefix⟩, .cons hasks hall,
                hend.cons b ⟨messages, rfl⟩⟩
              rw [send_cons_of_ok (c := c.noted) hdata (hnoted log), hlog, List.append_assoc,
                List.singleton_append]

/-! ### What a transcript tells -/

lemma writes_of_asksFor {asked : List Config} {events : List Event}
    (h : List.Forall₂ (AsksFor c name) asked events) : ∀ b ∈ asked, Writes name b := by
  induction h with
  | nil => simp
  | cons hasks _ ih =>
      obtain ⟨data, hdata, -⟩ := hasks
      exact List.forall_mem_cons.mpr ⟨⟨data, hdata⟩, ih⟩

namespace Ending

variable {bs asked : List Config} {events : List Event} {outcome : Except Error Unit}

/-- A request other than the last was acknowledged. -/
lemma acknowledges_of_mem_dropLast (h : Ending name bs asked events outcome) :
    ∀ x ∈ events.dropLast, x.Acknowledges := by
  cases h with
  | complete _ acknowledged => exact fun x hx => acknowledged x (List.mem_of_mem_dropLast hx)
  | unwritten _ _ acknowledged => exact fun x hx => acknowledged x (List.mem_of_mem_dropLast hx)
  | refused final _ acknowledged => rwa [final, List.dropLast_concat]

lemma asked_eq_of_ok (h : Ending name bs asked events (.ok ())) : asked = bs := by
  cases h with
  | complete all _ => exact all

lemma eq_ok_iff (h : Ending name bs asked events outcome) (hasked : ∀ b ∈ asked, Writes name b) :
    outcome = .ok () ↔ (∀ b ∈ bs, Writes name b) ∧ ∀ x ∈ events, x.Acknowledges := by
  cases h with
  | complete all acknowledged => exact iff_of_true rfl ⟨all ▸ hasked, acknowledged⟩
  | unwritten next fault _ =>
      refine iff_of_false (by simp) fun ⟨hwrites, _⟩ => not_writes_of_error fault (hwrites _ ?_)
      simp [next]
  | refused final fault _ =>
      refine iff_of_false (by simp) fun ⟨_, hack⟩ =>
        Event.not_acknowledges_of_error fault (hack _ ?_)
      simp [final]

/-- A batch that cannot be written ends the sending in front of it, if nothing else did before. -/
lemma of_unwritten (h : Ending name bs asked events outcome) (hasked : ∀ b ∈ asked, Writes name b)
    {before later : List Config} {b : Config} {e : Error} (hbs : bs = before ++ b :: later)
    (hb : encodeConfig name b = .error e) (hbefore : ∀ x ∈ before, Writes name x)
    (hack : ∀ x ∈ events, x.Acknowledges) : asked = before ∧ outcome = .error e := by
  cases h with
  | complete all _ =>
      refine absurd (hasked b ?_) (not_writes_of_error hb)
      simp [all, hbs]
  | unwritten next fault _ =>
      have heq := Table.append_cons_inj (P := fun x => ¬ Writes name x)
        (fun x hx => not_not_intro (hasked x hx)) (fun x hx => not_not_intro (hbefore x hx))
        (not_writes_of_error fault) (not_writes_of_error hb) (next.symm.trans hbs)
      obtain ⟨hasked, rfl, -⟩ := heq
      rw [fault] at hb
      exact ⟨hasked, congrArg _ (Except.error.inj hb)⟩
  | refused final fault _ =>
      refine absurd (hack _ ?_) (Event.not_acknowledges_of_error fault)
      simp [final]

/-- A refusal ends the sending. -/
lemma of_refused (h : Ending name bs asked events outcome) {before later : List Event}
    {event : Event} {e : Error} (hevents : events = before ++ event :: later)
    (he : event.reply = .error e) : later = [] ∧ outcome = .error (noteAbsence e) := by
  have hevent : ¬ event.Acknowledges := Event.not_acknowledges_of_error he
  have hmem : event ∈ events := by simp [hevents]
  cases h with
  | complete _ acknowledged => exact absurd (acknowledged _ hmem) hevent
  | unwritten _ _ acknowledged => exact absurd (acknowledged _ hmem) hevent
  | @refused before' last e' final fault acknowledged =>
      -- behind the refused request there would be one that only an acknowledgement lets happen
      cases later with
      | cons x later =>
          refine absurd (acknowledged event ?_) hevent
          have hinit : before' = (before ++ event :: x :: later).dropLast := by
            rw [← hevents, final, List.dropLast_concat]
          rw [hinit, List.dropLast_append_of_ne_nil (by simp)]
          simp
      | nil =>
          obtain ⟨-, hlast⟩ := List.append_inj' (final.symm.trans hevents) rfl
          obtain rfl := (List.cons.inj hlast).1
          rw [fault] at he
          exact ⟨rfl, congrArg _ (congrArg _ (Except.error.inj he))⟩

end Ending

/-- No more is asked for than stands before a batch that cannot be written. -/
lemma length_asked_le {bs asked before later : List Config} {b : Config} {e : Error}
    (hinitial : asked <+: bs) (hasked : ∀ x ∈ asked, Writes name x)
    (hbs : bs = before ++ b :: later) (hb : encodeConfig name b = .error e) :
    asked.length ≤ before.length := by
  by_contra! hlt
  refine not_writes_of_error hb (hasked b ?_)
  have hget := hinitial.getElem hlt
  simp only [hbs, List.getElem_append_right le_rfl, Nat.sub_self, List.getElem_cons_zero] at hget
  rw [← hget]
  exact List.getElem_mem hlt

/-- **Batches are sent in order, each only behind an acknowledgement.** An update asks for the
batches of a prefix of its batches, in order and once each, over the channel of generic netlink, and
makes no other call. Each request but the last was acknowledged. The update succeeds exactly when
every batch can be written and every request was acknowledged, and then it has asked for all of
them. If the batches before one that cannot be written are acknowledged, it has asked for these and
fails as the writing does. A refusal is the reply to the last request, and the update fails with
it; only a refusal that denies the device is reported as its absence. -/
theorem configure_transcript (c : Client (StateM σ)) (name : String) (config : Config) (s : σ) :
    ∃ outcome s' asked events,
      c.configure name config s = (outcome, s') ∧
      (∀ log, c.noted.configure name config (s, log) = (outcome, (s', log ++ events))) ∧
      asked <+: config.batches ∧ List.Forall₂ (AsksFor c name) asked events ∧
      (∀ x ∈ events.dropLast, x.Acknowledges) ∧
      (outcome = .ok () ↔
        (∀ b ∈ config.batches, Writes name b) ∧ ∀ x ∈ events, x.Acknowledges) ∧
      (outcome = .ok () → asked = config.batches) ∧
      (∀ before b later e, config.batches = before ++ b :: later →
        encodeConfig name b = .error e → asked.length ≤ before.length ∧
          ((∀ x ∈ before, Writes name x) → (∀ x ∈ events, x.Acknowledges) →
            asked = before ∧ outcome = .error e)) ∧
      ∀ before event later e, events = before ++ event :: later → event.reply = .error e →
        later = [] ∧ (DeniesDevice e → outcome = .error .notExist) ∧
          (¬ DeniesDevice e → outcome = .error e) := by
  obtain ⟨outcome, s', asked, events, hplain, hnoted, hprefix, hall, hend⟩ :=
    send_transcript c name config.batches s
  have hasked := writes_of_asksFor hall
  refine ⟨outcome, s', asked, events, hplain, hnoted, hprefix, hall,
    hend.acknowledges_of_mem_dropLast, hend.eq_ok_iff hasked, ?_, ?_, ?_⟩
  · rintro rfl
    exact hend.asked_eq_of_ok
  · intro before b later e hbs hb
    exact ⟨length_asked_le hprefix hasked hbs hb, hend.of_unwritten hasked hbs hb⟩
  · intro before event later e hevents he
    obtain ⟨hlater, hout⟩ := hend.of_refused hevents he
    refine ⟨hlater, fun hdenies => ?_, fun hdenies => ?_⟩
    · rw [hout, noteAbsence_of_deniesDevice hdenies]
    · rw [hout, noteAbsence_of_not_deniesDevice hdenies]

end Client

end WireGuardControl.Netlink
