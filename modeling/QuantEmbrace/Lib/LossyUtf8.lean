import Mathlib.Data.List.Basic

/-! UTF-8 text as lists of bytes: the strict decoder, and the one that puts U+FFFD for each
maximal part that begins no character. -/
namespace LossyUtf8

abbrev Bytes : Type := List UInt8

def encode (cs : List Char) : Bytes := cs.flatMap String.utf8EncodeChar

/-- The character that the bytes begin with. -/
def first (bs : Bytes) : Option Char := bs.toByteArray.utf8DecodeChar? 0

/-- Range of the byte after a lead byte, and how many bytes follow the lead. -/
def follow (lead : UInt8) : Option (UInt8 × UInt8 × ℕ) :=
  if 0xC2 ≤ lead ∧ lead ≤ 0xDF then some (0x80, 0xBF, 1)
  else if lead = 0xE0 then some (0xA0, 0xBF, 2)
  else if lead = 0xED then some (0x80, 0x9F, 2)
  else if 0xE1 ≤ lead ∧ lead ≤ 0xEF then some (0x80, 0xBF, 2)
  else if lead = 0xF0 then some (0x90, 0xBF, 3)
  else if 0xF1 ≤ lead ∧ lead ≤ 0xF3 then some (0x80, 0xBF, 3)
  else if lead = 0xF4 then some (0x80, 0x8F, 3)
  else none

/-- Length of the longest initial part that could have begun a character, where none is begun. -/
def maximalPart : Bytes → ℕ
  | lead :: second :: rest =>
    match follow lead with
    | none => 1
    | some (low, high, n) =>
      if low ≤ second ∧ second ≤ high then
        match rest with
        | third :: _ => if n = 3 ∧ 0x80 ≤ third ∧ third ≤ 0xBF then 3 else 2
        | [] => 2
      else 1
  | _ => 1

/-- At most `n` characters of the bytes. -/
def decodeReplaceUpTo : ℕ → Bytes → List Char
  | 0, _ => []
  | _, [] => []
  | n + 1, b :: bs =>
    match first (b :: bs) with
    | some c => c :: decodeReplaceUpTo n ((b :: bs).drop c.utf8Size)
    | none => '\uFFFD' :: decodeReplaceUpTo n ((b :: bs).drop (maximalPart (b :: bs)))

/-- `bytes.decode("utf-8", errors="replace")` -/
def decodeReplace (bs : Bytes) : List Char := decodeReplaceUpTo bs.length bs

def decodeUpTo : ℕ → Bytes → Option (List Char)
  | _, [] => some []
  | 0, _ => none
  | n + 1, b :: bs =>
    match first (b :: bs) with
    | some c => (decodeUpTo n ((b :: bs).drop c.utf8Size)).map (c :: ·)
    | none => none

/-- `bytes.decode("utf-8")`; `none` where it raises. -/
def decode (bs : Bytes) : Option (List Char) := decodeUpTo bs.length bs

def IsUtf8 (bs : Bytes) : Prop := ∃ cs, encode cs = bs

theorem first_encodeChar (c : Char) (rest : Bytes) :
    first (String.utf8EncodeChar c ++ rest) = some c := by
  have h := ByteArray.utf8DecodeChar?_utf8EncodeChar_append (b := rest.toByteArray) (c := c)
  rwa [← List.toByteArray_append] at h

theorem drop_encodeChar (c : Char) (rest : Bytes) :
    (String.utf8EncodeChar c ++ rest).drop c.utf8Size = rest :=
  List.drop_left' (String.length_utf8EncodeChar c)

/-- The encoding of a character has a first byte. -/
theorem encodeChar_cons (c : Char) :
    ∃ b bs, String.utf8EncodeChar c = b :: bs :=
  List.exists_cons_of_ne_nil String.utf8EncodeChar_ne_nil

@[simp] theorem encode_nil : encode [] = [] := rfl

theorem encode_cons (c : Char) (cs : List Char) :
    encode (c :: cs) = String.utf8EncodeChar c ++ encode cs := rfl

/-- Encoded text begins with its first character, and goes on with the rest. -/
theorem encode_cons_first (c : Char) (cs : List Char) : ∃ b bs, encode (c :: cs) = b :: bs ∧
    first (b :: bs) = some c ∧ (b :: bs).drop c.utf8Size = encode cs ∧
      (encode cs).length ≤ bs.length := by
  obtain ⟨b, bs, hb⟩ := encodeChar_cons c
  have hf := first_encodeChar c (encode cs)
  have hd := drop_encodeChar c (encode cs)
  rw [hb, List.cons_append] at hf hd
  refine ⟨b, bs ++ encode cs, ?_, hf, hd, ?_⟩
  · rw [encode_cons, hb, List.cons_append]
  · rw [List.length_append]
    exact Nat.le_add_left _ _

theorem decodeReplaceUpTo_encode (cs : List Char) (n : ℕ) (h : (encode cs).length ≤ n) :
    decodeReplaceUpTo n (encode cs) = cs := by
  induction cs generalizing n with
  | nil => cases n <;> rfl
  | cons c cs ih =>
    obtain ⟨b, bs, he, hf, hd, hl⟩ := encode_cons_first c cs
    rw [he, List.length_cons] at h
    obtain ⟨n, rfl⟩ : ∃ m, n = m + 1 := ⟨n - 1, by omega⟩
    simp only [he, decodeReplaceUpTo, hf, hd]
    rw [ih n (by omega)]

theorem decodeUpTo_encode (cs : List Char) (n : ℕ) (h : (encode cs).length ≤ n) :
    decodeUpTo n (encode cs) = some cs := by
  induction cs generalizing n with
  | nil => cases n <;> rfl
  | cons c cs ih =>
    obtain ⟨b, bs, he, hf, hd, hl⟩ := encode_cons_first c cs
    rw [he, List.length_cons] at h
    obtain ⟨n, rfl⟩ : ∃ m, n = m + 1 := ⟨n - 1, by omega⟩
    simp only [he, decodeUpTo, hf, hd]
    rw [ih n (by omega), Option.map_some]

@[simp] theorem decodeReplace_encode (cs : List Char) : decodeReplace (encode cs) = cs :=
  decodeReplaceUpTo_encode cs _ (Nat.le_refl _)

@[simp] theorem decode_encode (cs : List Char) : decode (encode cs) = some cs :=
  decodeUpTo_encode cs _ (Nat.le_refl _)

/-- Replacing keeps the bytes of text, and of nothing else. -/
theorem encode_decodeReplace (bs : Bytes) : encode (decodeReplace bs) = bs ↔ IsUtf8 bs := by
  constructor
  · intro h
    exact ⟨_, h⟩
  · rintro ⟨cs, rfl⟩
    rw [decodeReplace_encode]

instance : DecidablePred IsUtf8 := fun bs => decidable_of_iff _ (encode_decodeReplace bs)

@[simp] theorem isUtf8_nil : IsUtf8 [] := ⟨[], rfl⟩

/-- Where there are bytes there is text. -/
theorem decodeReplace_ne_nil {bs : Bytes} (h : bs ≠ []) : decodeReplace bs ≠ [] := by
  obtain ⟨b, bs, rfl⟩ := List.exists_cons_of_ne_nil h
  rw [decodeReplace, List.length_cons, decodeReplaceUpTo]
  split <;> exact List.cons_ne_nil _ _

end LossyUtf8
