import Mathlib.Data.List.DropRight
import WireGuardControl.Proofs.Text.Base64
import WireGuardControl.Proofs.Text.Hex
/-!
The texts of a key.

* `Blank.trim_eq_iff`: a text without blanks is left of those that have blanks around it, and of no
  others.
* `Key.Judges`: what a reader of keys answers to a text, given which octets the text spells.
* `Key.judged_texts`: each of the three readers judges a text by the octets whose written text it
  is: the text itself in base 64, up to the case of letters in hexadecimal digits, and up to the
  blanks around it for the reader that trims.
-/

namespace WireGuardControl

open Text

namespace Text.Blank

/-- Blanks in front of a text without any go. -/
lemma dropWhile_append {front t : List Char} (hfront : ∀ c ∈ front, isBlank c = true)
    (ht : ∀ c ∈ t, isBlank c = false) : (front ++ t).dropWhile isBlank = t := by
  rw [List.dropWhile_append_of_pos hfront]
  cases t with
  | nil => rfl
  | cons c t =>
      have hc := ht c List.mem_cons_self
      rw [List.dropWhile_cons_of_neg (by simp [hc])]

/-- **The texts that are trimmed to one without blanks** have blanks around it. -/
lemma trim_eq_iff {s t : List Char} (ht : ∀ c ∈ t, isBlank c = false) :
    trim s = t ↔
      ∃ front back, (∀ c ∈ front ++ back, isBlank c = true) ∧ s = front ++ t ++ back := by
  constructor
  · rintro rfl
    refine ⟨s.takeWhile isBlank, (s.dropWhile isBlank).rtakeWhile isBlank, ?_, ?_⟩
    · intro c hc
      rcases List.mem_append.mp hc with hc | hc
      · exact List.mem_takeWhile_imp hc
      · exact List.mem_rtakeWhile_imp hc
    · have hback : trim s ++ (s.dropWhile isBlank).rtakeWhile isBlank = s.dropWhile isBlank :=
        List.rdropWhile_append_rtakeWhile
      rw [List.append_assoc, hback, List.takeWhile_append_dropWhile]
  · rintro ⟨front, back, hblank, rfl⟩
    obtain ⟨hfront, hback⟩ := List.forall_mem_append.mp hblank
    -- With nothing in between, the blanks behind are in front, too.
    rcases eq_or_ne t [] with rfl | hne
    · rw [List.append_nil, trim, List.dropWhile_eq_nil_iff.mpr hblank]
      rfl
    · have hdrop : (front ++ t ++ back).dropWhile isBlank = t ++ back := by
        obtain ⟨c, t, rfl⟩ := List.exists_cons_of_ne_nil hne
        have hc := ht c List.mem_cons_self
        rw [List.append_assoc, List.dropWhile_append_of_pos hfront, List.cons_append,
          List.dropWhile_cons_of_neg (by simp [hc])]
      rw [trim, hdrop, List.reverse_append, dropWhile_append, List.reverse_reverse]
      · intro c hc
        exact hback c (List.mem_reverse.mp hc)
      · intro c hc
        exact ht c (List.mem_reverse.mp hc)

/-- Visible characters of seven bits are no blanks. -/
lemma isBlank_eq_false {c : Char} (h : 0x20 < c.toNat ∧ c.toNat < 0x80) : isBlank c = false := by
  simp only [isBlank, Bool.or_eq_false_iff, Bool.and_eq_false_iff, decide_eq_false_iff_not,
    beq_eq_false_iff_ne]
  omega

end Text.Blank

namespace Key

/-! ### Readers -/

/-- What a reader of keys answers to a text that spells some octets: the key with these octets, the
fault that there are not thirty-two of them, or, if the text spells none, the fault that it is no
text of a key. -/
structure Judges (answer : Except Error Key) (spells : Bytes → Prop) : Prop where
  ok_iff : ∀ k, answer = .ok k ↔ spells k.bytes
  length_iff : ∀ n, answer = .error (.invalidKeyLength n) ↔ n ≠ 32 ∧ ∃ b, spells b ∧ b.length = n
  invalid_iff : (∃ detail, answer = .error (.invalidKey detail)) ↔ ∀ b, ¬ spells b

lemma ofBytes_eq_ok_iff {b : Bytes} {k : Key} : ofBytes b = .ok k ↔ k.bytes = b := by
  constructor
  · intro h
    rw [ofBytes] at h
    split_ifs at h
    obtain rfl := Except.ok.inj h
    rfl
  · rintro rfl
    exact ofBytes_bytes k

lemma ofBytes_eq_length_iff {b : Bytes} {n : ℕ} :
    ofBytes b = .error (.invalidKeyLength n) ↔ n ≠ 32 ∧ b.length = n := by
  rw [ofBytes]
  split_ifs with hlength
  · simp only [false_iff, not_and]
    rintro hn rfl
    exact hn hlength
  · simp only [Except.error.injEq, Error.invalidKeyLength.injEq]
    constructor
    · rintro rfl
      exact ⟨hlength, rfl⟩
    · exact And.right

lemma ofBytes_ne_invalid (b : Bytes) (detail : String) :
    ofBytes b ≠ .error (.invalidKey detail) := by
  rw [ofBytes]
  split_ifs <;> simp

namespace Judges

variable {answer : Except Error Key} {spells : Bytes → Prop}

/-- A text of some octets is judged by their number. -/
lemma of_spells {b : Bytes} (hb : spells b) (hunique : ∀ b', spells b' → b' = b) :
    Judges (ofBytes b) spells where
  ok_iff k := by
    rw [ofBytes_eq_ok_iff]
    constructor
    · rintro rfl
      exact hb
    · exact hunique k.bytes
  length_iff n := by
    rw [ofBytes_eq_length_iff]
    refine and_congr_right fun _ => ⟨fun hlength => ⟨b, hb, hlength⟩, ?_⟩
    rintro ⟨b', hb', hlength⟩
    rwa [hunique b' hb'] at hlength
  invalid_iff := by
    constructor
    · rintro ⟨detail, h⟩
      exact absurd h (ofBytes_ne_invalid b detail)
    · intro h
      exact absurd hb (h b)

/-- A text of no octets is no text of a key. -/
lemma of_not_spells (h : ∀ b, ¬ spells b) (detail : String) :
    Judges (.error (.invalidKey detail)) spells where
  ok_iff k := by simp [h]
  length_iff n := by simp [h]
  invalid_iff := by simp [h]

/-- A text is judged by its octets if they are taken as those of a key, and if there is a fault in a
text without any. -/
lemma of_decoded {Fault : Type} {decoded : Except Fault Bytes}
    (h : ∀ b, decoded = .ok b ↔ spells b) (hok : ∀ b, decoded = .ok b → answer = ofBytes b)
    (herror : ∀ fault, decoded = .error fault → ∃ detail, answer = .error (.invalidKey detail)) :
    Judges answer spells := by
  cases hdecoded : decoded with
  | ok b =>
      rw [hok b hdecoded]
      refine of_spells ((h b).mp hdecoded) fun b' hb' => ?_
      exact Except.ok.inj (((h b').mpr hb').symm.trans hdecoded)
  | error fault =>
      obtain ⟨detail, rfl⟩ := herror fault hdecoded
      refine of_not_spells (fun b hb => ?_) detail
      exact absurd (((h b).mpr hb).symm.trans hdecoded) (by simp)

end Judges

/-- A text in base 64 is judged by the octets that it is written for. -/
lemma judges_ofBase64 (s : List Char) : Judges (ofBase64 s) fun b => s = Base64.encode b :=
  .of_decoded (fun _ => Base64.decode_encode_eq_ok_iff) (fun b hb => by rw [ofBase64, hb])
    fun fault hfault => ⟨fault.message, by rw [ofBase64, hfault]⟩

/-- A text of hexadecimal digits is judged by the octets that it is written for in lower case. -/
lemma judges_ofHex (s : List Char) :
    Judges (ofHex s) fun b => s.map Char.toLower = Hex.encode b :=
  .of_decoded (fun _ => Hex.decode_encode_eq_ok_iff) (fun b hb => by rw [ofHex, hb])
    fun fault hfault => ⟨fault.message, by rw [ofHex, hfault]⟩

/-! ### Texts -/

/-- The digits of a key in lower case. -/
lemma hexChars_lower (k : Key) :
    k.hexChars.length = 64 ∧ ∀ c ∈ k.hexChars, c ∈ "0123456789abcdef".toList := by
  constructor
  · rw [hexChars, Hex.encode_eq, List.length_map, Hex.length_nibbles, k.length_bytes]
  · intro c hc
    obtain ⟨d, hd, rfl⟩ := Hex.mem_encode hc
    have hdigits : ∀ d < 16, Hex.digit d ∈ "0123456789abcdef".toList := by decide
    exact hdigits d hd

/-- A key is read from as many digits as it is written with, of either case. -/
lemma digits_of_ofHex {s : List Char} {k : Key} (h : ofHex s = .ok k) :
    s.length = 64 ∧ ∀ c ∈ s, c ∈ "0123456789abcdefABCDEF".toList := by
  have hlower : s.map Char.toLower = k.hexChars := ((judges_ofHex s).ok_iff k).mp h
  have hlength := congrArg List.length hlower
  rw [List.length_map, (hexChars_lower k).1] at hlength
  exact ⟨hlength, Hex.mem_digits_of_map_toLower hlower⟩

/-- **The texts of keys.** A text is judged by the octets that it spells. In base 64 it spells those
that it is written for, and others are judged so without the blanks around them; a text of
hexadecimal digits spells the octets that it is written for in lower case. So a key has one text in
base 64, and of its texts of sixty-four digits the one in lower case is written. -/
theorem judged_texts (s : List Char) :
    (Judges (ofBase64 s) fun b => s = Base64.encode b) ∧
      (Judges (ofHex s) fun b => s.map Char.toLower = Hex.encode b) ∧
      (Judges (ofText s) fun b => Blank.trim s = Base64.encode b) ∧
      ∀ k : Key,
        (ofBase64 s = .ok k ↔ String.ofList s = k.base64) ∧
        (ofHex s = .ok k ↔ s.map Char.toLower = k.hexChars) ∧
        (ofHex s = .ok k → s.length = 64 ∧ ∀ c ∈ s, c ∈ "0123456789abcdefABCDEF".toList) ∧
        (k.hexChars.length = 64 ∧ ∀ c ∈ k.hexChars, c ∈ "0123456789abcdef".toList) ∧
        (ofText s = .ok k ↔ String.ofList (Blank.trim s) = k.base64) ∧
        (ofText s = .ok k ↔ ∃ front back, (∀ c ∈ front ++ back, Blank.isBlank c = true) ∧
          s = front ++ k.base64.toList ++ back) := by
  have htext : ∀ (t : List Char) (k : Key), ofBase64 t = .ok k ↔ String.ofList t = k.base64 := by
    intro t k
    rw [(judges_ofBase64 t).ok_iff, base64, String.ofList_inj]
  refine ⟨judges_ofBase64 s, judges_ofHex s, judges_ofBase64 (Blank.trim s), fun k => ?_⟩
  refine ⟨htext s k, (judges_ofHex s).ok_iff k, digits_of_ofHex, hexChars_lower k,
    htext (Blank.trim s) k, ?_⟩
  have hvisible : ∀ c ∈ Base64.encode k.bytes, Blank.isBlank c = false := fun c hc =>
    Blank.isBlank_eq_false (Base64.toNat_lt_of_mem_encode hc)
  rw [ofText, (judges_ofBase64 _).ok_iff, Blank.trim_eq_iff hvisible, base64, String.toList_ofList]

/-- A key in upper-case digits and between blanks; a text of one octet; and one with padding whose
last letter has bits beyond the octet. -/
theorem judged_texts_spellings :
    let k : Key := ⟨List.replicate 32 0xAB, rfl⟩
    let upper := (List.replicate 32 ['A', 'B']).flatten
    let blanks := '\u2003' :: k.base64.toList ++ ['\n']
    (ofHex upper = .ok k ∧ upper.length = 64 ∧ upper ≠ k.hexChars) ∧ ofText blanks = .ok k ∧
      ofHex ['0', 'f'] = .error (.invalidKeyLength 1) ∧
      ofBase64 ['A', 'B', '=', '='] =
        .error (.invalidKey "Invalid last symbol 66, offset 1.") ∧
      ∀ b, ['A', 'B', '=', '='] ≠ Base64.encode b := by
  intro k upper blanks
  obtain ⟨-, -, -, hupper⟩ := judged_texts upper
  obtain ⟨-, hread, hdigits, -⟩ := hupper k
  have hkey : ofHex upper = .ok k := hread.mpr (by decide +kernel)
  have hcase : upper ≠ k.hexChars := by
    intro h
    have hhead : some 'A' = some 'a' := congrArg List.head? h
    exact absurd hhead (by decide)
  obtain ⟨-, -, -, hblanks⟩ := judged_texts blanks
  obtain ⟨-, -, -, -, -, hspaced⟩ := hblanks k
  have hlength := (judged_texts ['0', 'f']).2.1.length_iff 1
  have hfault : ofBase64 ['A', 'B', '=', '='] =
      .error (.invalidKey "Invalid last symbol 66, offset 1.") := by decide
  have hspelled := (judged_texts ['A', 'B', '=', '=']).1.invalid_iff.mp ⟨_, hfault⟩
  exact ⟨⟨hkey, (hdigits hkey).1, hcase⟩,
    hspaced.mpr ⟨['\u2003'], ['\n'], by simp [Blank.isBlank], rfl⟩,
    hlength.mpr ⟨by decide, [0x0F], by decide, rfl⟩, hfault, hspelled⟩

end Key

end WireGuardControl
