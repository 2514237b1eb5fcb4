import Folio.Text.Percent
import Mathlib.Data.List.Basic

/-!
# Percent-encoding

A text is percent-encoded byte by byte: letters, digits and a few signs stand for themselves, and
any other byte of the text in UTF-8 is written as a percent sign with two hexadecimal digits. What
is encoded in this way is decoded to the text itself, whatever stands behind it.
-/

namespace Folio.Text

/-! ### Bytes -/

/-- The characters that stand for themselves. -/
def isKept (c : Char) : Bool := c.isAlphanum || "-._~/".toList.contains c

/-- A hexadecimal digit. -/
def hexDigit (n : Nat) : Char := Char.ofNat (if n < 10 then 48 + n else 55 + n)

/-- A byte as it is encoded. -/
def encodedByte (b : UInt8) : List Char :=
  if isKept (Char.ofNat b.toNat) then [Char.ofNat b.toNat]
  else ['%', hexDigit (b.toNat / 16), hexDigit (b.toNat % 16)]

/-- The bytes of a text. -/
def utf8 (cs : List Char) : List UInt8 := cs.flatMap String.utf8EncodeChar

/-- Characters as they are encoded. -/
def encodedChars (cs : List Char) : List Char := (utf8 cs).flatMap encodedByte

/-- A text as it is encoded. -/
def percentEncoded (s : String) : String := String.ofList (encodedChars s.toList)

/-- Bytes among bytes and characters. -/
def asBytes (bytes : List UInt8) : List ByteOrChar := bytes.map fun b => .byte b.toNat

theorem hexDigit?_hexDigit {n : Nat} (h : n < 16) : hexDigit? (hexDigit n) = some n := by
  have hall : ∀ n < 16, hexDigit? (hexDigit n) = some n := by decide
  exact hall n h

/-- A character that stands for itself is a byte, and it starts no encoded byte. -/
theorem of_isKept {c : Char} (h : isKept c = true) : c.toNat < 0x80 ∧ c ≠ '%' := by
  refine ⟨?_, ?_⟩
  · rw [isKept, Bool.or_eq_true] at h
    rcases h with h | h
    · change (decide (c.val ≥ 'A'.val ∧ c.val ≤ 'Z'.val) ||
        (decide (c.val ≥ 'a'.val) && decide (c.val ≤ 'z'.val)) ||
        (decide (c.val ≥ '0'.val) && decide (c.val ≤ '9'.val))) = true at h
      have hvalue : c.toNat = c.val.toNat := rfl
      simp only [Bool.or_eq_true, Bool.and_eq_true, decide_eq_true_eq, ge_iff_le,
        UInt32.le_iff_toNat_le] at h
      rcases h with (h | h) | h <;> simp at h <;> omega
    · have hsigns : "-._~/".toList.all (fun d => decide (d.toNat < 0x80)) = true := by decide
      exact of_decide_eq_true (List.all_eq_true.mp hsigns c (List.contains_iff_mem.mp h))
  · rintro rfl
    exact absurd h (by decide)

/-- What is encoded consists of characters that stand for themselves and percent signs. -/
theorem isKept_of_mem_encodedChars {cs : List Char} {c : Char} (h : c ∈ encodedChars cs) :
    isKept c = true ∨ c = '%' := by
  obtain ⟨b, -, hc⟩ := List.mem_flatMap.mp h
  have hdigit : ∀ n < 16, isKept (hexDigit n) = true := by decide
  have hbyte := b.toNat_lt
  rw [encodedByte] at hc
  split at hc
  · next hkept =>
    left
    rwa [List.mem_singleton.mp hc]
  · simp only [List.mem_cons, List.not_mem_nil, or_false] at hc
    rcases hc with rfl | rfl | rfl
    · exact .inr rfl
    · exact .inl (hdigit _ (by omega))
    · exact .inl (hdigit _ (by omega))

/-- A character that is no percent sign is read by itself. -/
theorem percentBytes_cons_of_ne {c : Char} (h : c ≠ '%') (rest : List Char) :
    percentBytes (c :: rest) = plainByte c :: percentBytes rest := by
  match rest with
  | [] => rfl
  | [_] => rfl
  | high :: low :: rest => rw [percentBytes, escapedByte?, if_neg h]

/-- An encoded byte is read as this byte. -/
theorem percentBytes_encodedByte (b : UInt8) (rest : List Char) :
    percentBytes (encodedByte b ++ rest) = .byte b.toNat :: percentBytes rest := by
  have hbyte := b.toNat_lt
  rw [encodedByte]
  split
  · next hkept =>
    obtain ⟨hascii, hne⟩ := of_isKept hkept
    have hvalue : (Char.ofNat b.toNat).toNat = b.toNat := by
      rw [Char.ofNat, dif_pos (.inl (by omega))]
      rfl
    rw [List.singleton_append, percentBytes_cons_of_ne hne, plainByte, if_pos hascii, hvalue]
  · have hescaped : escapedByte? '%' (hexDigit (b.toNat / 16)) (hexDigit (b.toNat % 16)) =
        some b.toNat := by
      rw [escapedByte?, if_pos rfl, hexDigit?_hexDigit (by omega), hexDigit?_hexDigit (by omega)]
      exact congrArg some (by omega)
    simp only [List.cons_append, List.nil_append]
    rw [percentBytes, hescaped]

/-- Encoded bytes are read as these bytes. -/
theorem percentBytes_encoded (bytes : List UInt8) (rest : List Char) :
    percentBytes (bytes.flatMap encodedByte ++ rest) = asBytes bytes ++ percentBytes rest := by
  induction bytes with
  | nil => rfl
  | cons b bytes ih =>
    rw [List.flatMap_cons, List.append_assoc, percentBytes_encodedByte, ih]
    rfl

/-! ### Characters -/

/-- Bytes between certain bounds follow a leading byte. -/
theorem following_eq {low high first : Nat} {others : List Nat} (hlow : low ≤ first)
    (hhigh : first ≤ high) (hothers : ∀ n ∈ others, 0x80 ≤ n ∧ n ≤ 0xBF) (rest : List ByteOrChar) :
    following (others.length + 1) low high ((first :: others).map .byte ++ rest) =
      first :: others := by
  induction others generalizing low high first with
  | nil => simp [following, hlow, hhigh]
  | cons second others ih =>
    obtain ⟨hsecond, hrest⟩ := List.forall_mem_cons.mp hothers
    have hnext := ih hsecond.1 hsecond.2 hrest
    rw [List.map_cons, List.cons_append, following, if_pos ⟨hlow, hhigh⟩]
    exact congrArg (first :: ·) hnext

/-- What has been read already is skipped. -/
theorem decodeAfter_append (taken rest : List ByteOrChar) :
    decodeAfter taken.length (taken ++ rest) = decodeAfter 0 rest := by
  induction taken with
  | nil => rfl
  | cons _ taken ih => exact ih

/-- A leading byte and those after it are read as one character. -/
theorem decodeAfter_lead {lead low high : Nat} (first : Nat) (others : List Nat)
    (hlead : 0x80 ≤ lead) (hbounds : leadOf? lead = some (others.length + 1, low, high))
    (hlow : low ≤ first) (hhigh : first ≤ high) (hothers : ∀ n ∈ others, 0x80 ≤ n ∧ n ≤ 0xBF)
    (rest : List ByteOrChar) :
    decodeAfter 0 ((lead :: first :: others).map .byte ++ rest) =
      Char.ofNat ((first :: others).foldl (fun v n => 64 * v + (n - 0x80))
        (lead % Number.pow2 (6 - (others.length + 1)))) :: decodeAfter 0 rest := by
  have htaken := following_eq hlow hhigh hothers rest
  have hskip := decodeAfter_append ((first :: others).map .byte) rest
  rw [List.map_cons, List.cons_append, decodeAfter, sequence, if_neg (by omega), hbounds]
  dsimp only
  rw [htaken, if_pos List.length_cons]
  rw [List.length_map] at hskip
  exact congrArg _ hskip

/-- Two bytes with the bits of a number are read as its character. -/
theorem decodeAfter_two {v : Nat} (hlow : 0x80 ≤ v) (hhigh : v ≤ 0x7FF) (rest : List ByteOrChar) :
    decodeAfter 0 (.byte (v / 64 % 32 + 0xC0) :: .byte (v % 64 + 0x80) :: rest) =
      Char.ofNat v :: decodeAfter 0 rest := by
  have hbounds : leadOf? (v / 64 % 32 + 0xC0) = some (1, 0x80, 0xBF) := if_pos (by omega)
  have hread := decodeAfter_lead (v % 64 + 0x80) [] (by omega) hbounds (by omega) (by omega) nofun
    rest
  have hbits : 64 * ((v / 64 % 32 + 0xC0) % 32) + (v % 64 + 0x80 - 0x80) = v := by omega
  exact hread.trans (congrArg (Char.ofNat · :: decodeAfter 0 rest) hbits)

/-- Three bytes with the bits of a number are read as its character. The first byte restricts the
second, but to no less than there is for a character. -/
theorem decodeAfter_three {v : Nat} (hlow : 0x800 ≤ v) (hhigh : v ≤ 0xFFFF)
    (hvalid : v < 0xD800 ∨ 0xDFFF < v) (rest : List ByteOrChar) :
    decodeAfter 0 (.byte (v / 4096 % 16 + 0xE0) :: .byte (v / 64 % 64 + 0x80) ::
      .byte (v % 64 + 0x80) :: rest) = Char.ofNat v :: decodeAfter 0 rest := by
  obtain ⟨low, high, hbounds, hfirst⟩ : ∃ low high,
      leadOf? (v / 4096 % 16 + 0xE0) = some (2, low, high) ∧
        low ≤ v / 64 % 64 + 0x80 ∧ v / 64 % 64 + 0x80 ≤ high := by
    unfold leadOf?
    split_ifs
    · omega
    · exact ⟨_, _, rfl, by omega, by omega⟩
    · exact ⟨_, _, rfl, by omega, by omega⟩
    · exact ⟨_, _, rfl, by omega, by omega⟩
    all_goals omega
  have hread := decodeAfter_lead (v / 64 % 64 + 0x80) [v % 64 + 0x80] (by omega) hbounds
    hfirst.1 hfirst.2 (List.forall_mem_singleton.mpr (by omega)) rest
  have hbits : 64 * (64 * ((v / 4096 % 16 + 0xE0) % 16) + (v / 64 % 64 + 0x80 - 0x80)) +
      (v % 64 + 0x80 - 0x80) = v := by omega
  exact hread.trans (congrArg (Char.ofNat · :: decodeAfter 0 rest) hbits)

/-- Four bytes with the bits of a number are read as its character. -/
theorem decodeAfter_four {v : Nat} (hlow : 0x10000 ≤ v) (hhigh : v < 0x110000)
    (rest : List ByteOrChar) :
    decodeAfter 0 (.byte (v / 262144 % 8 + 0xF0) :: .byte (v / 4096 % 64 + 0x80) ::
      .byte (v / 64 % 64 + 0x80) :: .byte (v % 64 + 0x80) :: rest) =
      Char.ofNat v :: decodeAfter 0 rest := by
  obtain ⟨low, high, hbounds, hfirst⟩ : ∃ low high,
      leadOf? (v / 262144 % 8 + 0xF0) = some (3, low, high) ∧
        low ≤ v / 4096 % 64 + 0x80 ∧ v / 4096 % 64 + 0x80 ≤ high := by
    unfold leadOf?
    split_ifs
    iterate 4 omega
    · exact ⟨_, _, rfl, by omega, by omega⟩
    · exact ⟨_, _, rfl, by omega, by omega⟩
    · exact ⟨_, _, rfl, by omega, by omega⟩
    · omega
  have hread := decodeAfter_lead (v / 4096 % 64 + 0x80) [v / 64 % 64 + 0x80, v % 64 + 0x80]
    (by omega) hbounds hfirst.1 hfirst.2
    (List.forall_mem_cons.mpr ⟨by omega, List.forall_mem_singleton.mpr (by omega)⟩) rest
  have hbits : 64 * (64 * (64 * ((v / 262144 % 8 + 0xF0) % 8) + (v / 4096 % 64 + 0x80 - 0x80)) +
      (v / 64 % 64 + 0x80 - 0x80)) + (v % 64 + 0x80 - 0x80) = v := by omega
  exact hread.trans (congrArg (Char.ofNat · :: decodeAfter 0 rest) hbits)

/-- A plain character is read by itself. -/
theorem decodeAfter_plainByte {c : Char} (h : c.toNat < 0x80) (rest : List ByteOrChar) :
    decodeAfter 0 (plainByte c :: rest) = c :: decodeAfter 0 rest := by
  rw [plainByte, if_pos h, decodeAfter, sequence, if_pos h, Char.ofNat_toNat]

/-- The bytes of a character are read as the character: it has one byte to four, and the bits of its
number are spread over them. -/
theorem decodeAfter_utf8EncodeChar (c : Char) (rest : List ByteOrChar) :
    decodeAfter 0 (asBytes (String.utf8EncodeChar c) ++ rest) = c :: decodeAfter 0 rest := by
  have hvalid : c.toNat < 0xD800 ∨ 0xDFFF < c.toNat ∧ c.toNat < 0x110000 := c.valid
  have hchar : Char.ofNat c.toNat = c := Char.ofNat_toNat c
  have hbyte {n : Nat} (h : n < 256) : (UInt8.ofNat n).toNat = n := UInt8.toNat_ofNat_of_lt' h
  have hvalue : c.val.toNat = c.toNat := rfl
  rw [String.utf8EncodeChar, hvalue]
  split
  · next hone =>
    have hplain : plainByte c = .byte c.toNat := if_pos (by omega)
    rw [asBytes, List.map_singleton, hbyte (by omega), ← hplain]
    exact decodeAfter_plainByte (by omega) rest
  split
  · next htwo =>
    have hread := decodeAfter_two (v := c.toNat) (by omega) htwo rest
    rw [hchar] at hread
    simp (disch := omega) only [asBytes, List.map_cons, List.map_nil, hbyte]
    exact hread
  split
  · next hthree =>
    have hread := decodeAfter_three (v := c.toNat) (by omega) hthree (by omega) rest
    rw [hchar] at hread
    simp (disch := omega) only [asBytes, List.map_cons, List.map_nil, hbyte]
    exact hread
  · next hfour =>
    have hread := decodeAfter_four (v := c.toNat) (by omega) (by omega) rest
    rw [hchar] at hread
    simp (disch := omega) only [asBytes, List.map_cons, List.map_nil, hbyte]
    exact hread

/-- The bytes of a text are read as the text. -/
theorem decodeAfter_utf8 (cs : List Char) (rest : List ByteOrChar) :
    decodeAfter 0 (asBytes (utf8 cs) ++ rest) = cs ++ decodeAfter 0 rest := by
  induction cs with
  | nil => rfl
  | cons c cs ih =>
    have hbytes : asBytes (utf8 (c :: cs)) =
        asBytes (String.utf8EncodeChar c) ++ asBytes (utf8 cs) := by
      simp [utf8, asBytes]
    rw [hbytes, List.append_assoc, decodeAfter_utf8EncodeChar, ih, List.cons_append]

/-! ### Texts -/

/-- What is encoded is decoded to the text, and what stands behind it is decoded by itself. -/
theorem decodeAfter_encodedChars (cs rest : List Char) :
    decodeAfter 0 (percentBytes (encodedChars cs ++ rest)) =
      cs ++ decodeAfter 0 (percentBytes rest) := by
  rw [encodedChars, percentBytes_encoded, decodeAfter_utf8]

/-- An encoded text is decoded to the text. -/
theorem decodeAfter_encoded (cs : List Char) :
    decodeAfter 0 (percentBytes (encodedChars cs)) = cs := by
  have hread := decodeAfter_encodedChars cs []
  rwa [List.append_nil, percentBytes, decodeAfter, List.append_nil] at hread

/-- A plain character between two encoded texts is decoded to itself between the two texts. -/
theorem decodeAfter_between {c : Char} (hascii : c.toNat < 0x80) (hne : c ≠ '%')
    (before after : List Char) :
    decodeAfter 0 (percentBytes (encodedChars before ++ c :: encodedChars after)) =
      before ++ c :: after := by
  rw [decodeAfter_encodedChars, percentBytes_cons_of_ne hne, decodeAfter_plainByte hascii,
    decodeAfter_encoded]

end Folio.Text
