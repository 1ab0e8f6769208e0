/-
  Base64 (package encoding/base64).

  Line breaks in the input are skipped, and the bits that are left over at the end are ignored.

  * `Encoding`: an alphabet, with or without padding;
  * `encode`, `decode`: three bytes as four characters, and back;
  * `decode_encode`: decoding undoes encoding;
  * `decode_unpadded`: what an encoding with padding makes of a text without;
  * `std`, `url`: the two alphabets.
-/
import Mathlib.Data.List.GetD
import Mathlib.Data.List.Nodup

namespace Base64

/-! ## Encodings -/

/-- `padChar`: '=' -/
def pad : UInt8 := 61

/-- '\n' and '\r' -/
def lineBreak (c : UInt8) : Bool := c = 10 || c = 13

/-- 64 characters, which are neither the padding nor line breaks. -/
structure Encoding where
  alphabet : List UInt8
  padded : Bool
  length_alphabet : alphabet.length = 64
  nodup : alphabet.Nodup
  pad_notMem : pad ∉ alphabet
  plain : ∀ c ∈ alphabet, lineBreak c = false

/-- The same alphabet, with or without padding. -/
def Encoding.withPadding (e : Encoding) (padded : Bool) : Encoding := { e with padded }

/-- `decodeMap` -/
def Encoding.value (e : Encoding) (c : UInt8) : Option Nat :=
  if c ∈ e.alphabet then some (e.alphabet.idxOf c) else none

def Encoding.digit (e : Encoding) (v : Nat) : UInt8 := e.alphabet.getD v pad

def Encoding.padding (e : Encoding) (n : Nat) : List UInt8 :=
  if e.padded then List.replicate n pad else []

/-! ## Groups -/

/-- The four digits of three bytes. -/
def sextets (a b c : UInt8) : Nat × Nat × Nat × Nat :=
  (a.toNat / 4, a.toNat % 4 * 16 + b.toNat / 16, b.toNat % 16 * 4 + c.toNat / 64, c.toNat % 64)

/-- The three bytes of four digits. -/
def octets (v w x y : Nat) : UInt8 × UInt8 × UInt8 :=
  (UInt8.ofNat (v * 4 + w / 16), UInt8.ofNat (w % 16 * 16 + x / 4), UInt8.ofNat (x % 4 * 64 + y))

/-- `EncodeToString` -/
def encode (e : Encoding) : List UInt8 → List UInt8
  | a :: b :: c :: rest =>
    let (v, w, x, y) := sextets a b c
    e.digit v :: e.digit w :: e.digit x :: e.digit y :: encode e rest
  | [a, b] =>
    let (v, w, x, _) := sextets a b 0
    e.digit v :: e.digit w :: e.digit x :: e.padding 1
  | [a] =>
    let (v, w, _, _) := sextets a 0 0
    e.digit v :: e.digit w :: e.padding 2
  | [] => []

/-- The groups of an input without line breaks. -/
def decodeQuanta (e : Encoding) : List UInt8 → Option (List UInt8)
  | [] => some []
  | [_] => none
  | [a, b] =>
    if e.padded then none
    else match e.value a, e.value b with
      | some v, some w => some [(octets v w 0 0).1]
      | _, _ => none
  | [a, b, c] =>
    if e.padded then none
    else match e.value a, e.value b, e.value c with
      | some v, some w, some x => some [(octets v w x 0).1, (octets v w x 0).2.1]
      | _, _, _ => none
  | a :: b :: c :: d :: rest =>
    match e.value a, e.value b, e.value c, e.value d with
    | some v, some w, some x, some y =>
      let (a, b, c) := octets v w x y
      (decodeQuanta e rest).map fun bytes => a :: b :: c :: bytes
    -- padding ends the input
    | some v, some w, some x, none =>
      if e.padded && d = pad && rest.isEmpty then
        some [(octets v w x 0).1, (octets v w x 0).2.1]
      else none
    | some v, some w, none, _ =>
      if e.padded && c = pad && d = pad && rest.isEmpty then some [(octets v w 0 0).1] else none
    | _, _, _, _ => none

/-- `DecodeString` -/
def decode (e : Encoding) (input : List UInt8) : Option (List UInt8) :=
  decodeQuanta e (input.filter (!lineBreak ·))

/-! ## Digits -/

variable {e : Encoding}

theorem digit_mem {v : Nat} (h : v < 64) : e.digit v ∈ e.alphabet := by
  have hv : v < e.alphabet.length := by rw [e.length_alphabet]; exact h
  unfold Encoding.digit
  rw [List.getD_eq_getElem _ _ hv]
  exact List.getElem_mem hv

theorem value_digit {v : Nat} (h : v < 64) : e.value (e.digit v) = some v := by
  have hv : v < e.alphabet.length := by rw [e.length_alphabet]; exact h
  unfold Encoding.value
  rw [if_pos (digit_mem h)]
  unfold Encoding.digit
  rw [List.getD_eq_getElem _ _ hv, e.nodup.idxOf_getElem]

theorem value_pad : e.value pad = none := if_neg e.pad_notMem

theorem sextets_lt (a b c : UInt8) : (sextets a b c).1 < 64 ∧ (sextets a b c).2.1 < 64 ∧
    (sextets a b c).2.2.1 < 64 ∧ (sextets a b c).2.2.2 < 64 := by
  have ha := a.toNat_lt
  have hb := b.toNat_lt
  have hc := c.toNat_lt
  refine ⟨?_, ?_, ?_, ?_⟩ <;> simp only [sextets] <;> omega

/-- Three bytes come back from their digits. -/
theorem octets_sextets (a b c : UInt8) :
    octets (sextets a b c).1 (sextets a b c).2.1 (sextets a b c).2.2.1 (sextets a b c).2.2.2 =
      (a, b, c) := by
  have hb := b.toNat_lt
  have hc := c.toNat_lt
  unfold octets sextets
  refine Prod.ext ?_ (Prod.ext ?_ ?_)
  · show UInt8.ofNat (a.toNat / 4 * 4 + (a.toNat % 4 * 16 + b.toNat / 16) / 16) = a
    rw [show a.toNat / 4 * 4 + (a.toNat % 4 * 16 + b.toNat / 16) / 16 = a.toNat by omega,
      UInt8.ofNat_toNat]
  · show UInt8.ofNat ((a.toNat % 4 * 16 + b.toNat / 16) % 16 * 16 +
      (b.toNat % 16 * 4 + c.toNat / 64) / 4) = b
    rw [show (a.toNat % 4 * 16 + b.toNat / 16) % 16 * 16 +
      (b.toNat % 16 * 4 + c.toNat / 64) / 4 = b.toNat by omega, UInt8.ofNat_toNat]
  · show UInt8.ofNat ((b.toNat % 16 * 4 + c.toNat / 64) % 4 * 64 + c.toNat % 64) = c
    rw [show (b.toNat % 16 * 4 + c.toNat / 64) % 4 * 64 + c.toNat % 64 = c.toNat by omega,
      UInt8.ofNat_toNat]

/-! ## Decoding undoes encoding -/

theorem withPadding_digit {padded : Bool} {v : Nat} :
    (e.withPadding padded).digit v = e.digit v := rfl

theorem decodeQuanta_encode : ∀ bytes : List UInt8, decodeQuanta e (encode e bytes) = some bytes
  | [] => rfl
  | [a] => by
    obtain ⟨hv, hw, -, -⟩ := sextets_lt a 0 0
    have ho : octets (sextets a 0 0).1 (sextets a 0 0).2.1 0 0 = (a, 0, 0) := octets_sextets a 0 0
    unfold encode Encoding.padding
    cases hp : e.padded with
    | true =>
      show decodeQuanta e [e.digit (sextets a 0 0).1, e.digit (sextets a 0 0).2.1, pad, pad] = _
      simp [decodeQuanta, value_digit hv, value_digit hw, value_pad, hp, ho]
    | false =>
      show decodeQuanta e [e.digit (sextets a 0 0).1, e.digit (sextets a 0 0).2.1] = _
      simp [decodeQuanta, value_digit hv, value_digit hw, hp, ho]
  | [a, b] => by
    obtain ⟨hv, hw, hx, -⟩ := sextets_lt a b 0
    have ho : octets (sextets a b 0).1 (sextets a b 0).2.1 (sextets a b 0).2.2.1 0 = (a, b, 0) :=
      octets_sextets a b 0
    unfold encode Encoding.padding
    cases hp : e.padded with
    | true =>
      show decodeQuanta e [e.digit (sextets a b 0).1, e.digit (sextets a b 0).2.1,
        e.digit (sextets a b 0).2.2.1, pad] = _
      simp [decodeQuanta, value_digit hv, value_digit hw, value_digit hx, value_pad, hp, ho]
    | false =>
      show decodeQuanta e [e.digit (sextets a b 0).1, e.digit (sextets a b 0).2.1,
        e.digit (sextets a b 0).2.2.1] = _
      simp [decodeQuanta, value_digit hv, value_digit hw, value_digit hx, hp, ho]
  | a :: b :: c :: rest => by
    obtain ⟨hv, hw, hx, hy⟩ := sextets_lt a b c
    have ho := octets_sextets a b c
    unfold encode
    simp [decodeQuanta, value_digit hv, value_digit hw, value_digit hx, value_digit hy, ho,
      decodeQuanta_encode rest]

theorem mem_padding {n : Nat} {c : UInt8} (h : c ∈ e.padding n) : e.padded = true ∧ c = pad := by
  unfold Encoding.padding at h
  split at h
  · next hp => exact ⟨hp, List.eq_of_mem_replicate h⟩
  · cases h

/-- An encoding writes digits and padding. -/
theorem mem_encode : ∀ {bytes : List UInt8} {c : UInt8}, c ∈ encode e bytes →
    c ∈ e.alphabet ∨ e.padded = true ∧ c = pad
  | [a], c, h => by
    obtain ⟨hv, hw, -, -⟩ := sextets_lt a 0 0
    unfold encode at h
    simp only [List.mem_cons] at h
    rcases h with rfl | rfl | h
    · exact Or.inl (digit_mem hv)
    · exact Or.inl (digit_mem hw)
    · exact Or.inr (mem_padding h)
  | [a, b], c, h => by
    obtain ⟨hv, hw, hx, -⟩ := sextets_lt a b 0
    unfold encode at h
    simp only [List.mem_cons] at h
    rcases h with rfl | rfl | rfl | h
    · exact Or.inl (digit_mem hv)
    · exact Or.inl (digit_mem hw)
    · exact Or.inl (digit_mem hx)
    · exact Or.inr (mem_padding h)
  | a :: b :: c' :: rest, c, h => by
    obtain ⟨hv, hw, hx, hy⟩ := sextets_lt a b c'
    unfold encode at h
    simp only [List.mem_cons] at h
    rcases h with rfl | rfl | rfl | rfl | h
    · exact Or.inl (digit_mem hv)
    · exact Or.inl (digit_mem hw)
    · exact Or.inl (digit_mem hx)
    · exact Or.inl (digit_mem hy)
    · exact mem_encode h

theorem filter_encode (bytes : List UInt8) :
    (encode e bytes).filter (!lineBreak ·) = encode e bytes := by
  rw [List.filter_eq_self]
  intro c hc
  rcases mem_encode hc with h | ⟨-, rfl⟩
  · rw [e.plain c h]
    rfl
  · rfl

/-- **Decoding undoes encoding.** -/
theorem decode_encode (bytes : List UInt8) : decode e (encode e bytes) = some bytes := by
  unfold decode
  rw [filter_encode, decodeQuanta_encode]

/-- An encoding with padding makes nothing else of a text without padding. -/
theorem decodeQuanta_unpadded (hp : e.padded = true) : ∀ {bytes bytes' : List UInt8},
    decodeQuanta e (encode (e.withPadding false) bytes) = some bytes' → bytes' = bytes
  | [], bytes', h => by
    cases h
    rfl
  | [a], bytes', h => by
    simp [encode, Encoding.padding, Encoding.withPadding, decodeQuanta, hp] at h
  | [a, b], bytes', h => by
    simp [encode, Encoding.padding, Encoding.withPadding, decodeQuanta, hp] at h
  | a :: b :: c :: rest, bytes', h => by
    obtain ⟨hv, hw, hx, hy⟩ := sextets_lt a b c
    have ho := octets_sextets a b c
    unfold encode at h
    simp only [withPadding_digit, decodeQuanta, value_digit hv, value_digit hw, value_digit hx,
      value_digit hy, ho] at h
    obtain ⟨bytes, hrest, rfl⟩ := Option.map_eq_some_iff.1 h
    rw [decodeQuanta_unpadded hp hrest]

theorem decode_unpadded (hp : e.padded = true) {bytes bytes' : List UInt8}
    (h : decode e (encode (e.withPadding false) bytes) = some bytes') : bytes' = bytes := by
  unfold decode at h
  rw [filter_encode] at h
  exact decodeQuanta_unpadded hp h

/-! ## The two alphabets -/

/-- The characters of a text of ASCII. -/
def ascii (text : String) : List UInt8 := text.toList.map fun c => UInt8.ofNat c.toNat

/-- `RawStdEncoding`, and with padding `StdEncoding` -/
def std (padded : Bool) : Encoding where
  alphabet := ascii "ABCDEFGHIJKLMNOPQRSTUVWXYZabcdefghijklmnopqrstuvwxyz0123456789+/"
  padded
  length_alphabet := by decide
  nodup := by decide +kernel
  pad_notMem := by decide +kernel
  plain := by decide +kernel

/-- `RawURLEncoding`, and with padding `URLEncoding` -/
def url (padded : Bool) : Encoding where
  alphabet := ascii "ABCDEFGHIJKLMNOPQRSTUVWXYZabcdefghijklmnopqrstuvwxyz0123456789-_"
  padded
  length_alphabet := by decide
  nodup := by decide +kernel
  pad_notMem := by decide +kernel
  plain := by decide +kernel

example : encode (std true) (ascii "go") = ascii "Z28=" := by decide +kernel

end Base64
