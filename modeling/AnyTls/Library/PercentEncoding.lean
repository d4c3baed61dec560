import Mathlib.Data.List.Basic

/-! Percent encoding of bytes. A byte of the chosen set becomes `%` and two upper-case
hexadecimal digits; decoding takes every `%` with two hexadecimal digits after it for
such a byte and leaves the others. -/
namespace PercentEncoding

def hexDigit (nibble : Nat) : UInt8 := UInt8.ofNat (if nibble < 10 then 48 + nibble else 55 + nibble)

def hexValue (byte : UInt8) : Option Nat :=
  if 48 ≤ byte.toNat ∧ byte.toNat ≤ 57 then some (byte.toNat - 48)
  else if 65 ≤ byte.toNat ∧ byte.toNat ≤ 70 then some (byte.toNat - 55)
  else if 97 ≤ byte.toNat ∧ byte.toNat ≤ 102 then some (byte.toNat - 87)
  else none

def percent : UInt8 := 37

def escape (byte : UInt8) : List UInt8 :=
  [percent, hexDigit (byte.toNat / 16), hexDigit (byte.toNat % 16)]

/-- The byte that `%` and the two digits after it stand for. -/
def escaped? (byte : UInt8) : List UInt8 → Option UInt8
  | high :: low :: _ =>
    if byte = percent then
      (hexValue high).bind fun high => (hexValue low).map fun low => UInt8.ofNat (16 * high + low)
    else none
  | _ => none

/-- Decoding, with the number of bytes that belong to an escape already decoded. -/
def decodeFrom : Nat → List UInt8 → List UInt8
  | _, [] => []
  | skip + 1, _ :: rest => decodeFrom skip rest
  | 0, byte :: rest =>
    match escaped? byte rest with
    | some value => value :: decodeFrom 2 rest
    | none => byte :: decodeFrom 0 rest

def decode (bytes : List UInt8) : List UInt8 := decodeFrom 0 bytes

def encode (set : UInt8 → Bool) (bytes : List UInt8) : List UInt8 :=
  bytes.flatMap fun byte => if set byte then escape byte else [byte]

variable {set : UInt8 → Bool} {byte : UInt8} {bytes rest : List UInt8}

theorem hexDigit_toNat {nibble} (small : nibble < 16) :
    (hexDigit nibble).toNat = if nibble < 10 then 48 + nibble else 55 + nibble := by
  rw [hexDigit, UInt8.toNat_ofNat']
  split_ifs <;> omega

theorem hexValue_hexDigit {nibble} (small : nibble < 16) : hexValue (hexDigit nibble) = some nibble := by
  rw [hexValue, hexDigit_toNat small]
  split_ifs <;> first | omega | (congr 1; omega)

theorem hexValue_range (digit : (hexValue byte).isSome = true) :
    (48 ≤ byte.toNat ∧ byte.toNat ≤ 57) ∨ (65 ≤ byte.toNat ∧ byte.toNat ≤ 70) ∨
      (97 ≤ byte.toNat ∧ byte.toNat ≤ 102) := by
  unfold hexValue at digit
  split_ifs at digit with decimal upper lower
  · exact .inl decimal
  · exact .inr (.inl upper)
  · exact .inr (.inr lower)
  · cases digit

theorem hexValue_percent : hexValue percent = none := by decide

theorem escaped?_escape (byte : UInt8) (rest : List UInt8) :
    escaped? percent (hexDigit (byte.toNat / 16) :: hexDigit (byte.toNat % 16) :: rest) = some byte := by
  have small := byte.toNat_lt
  have whole : 16 * (byte.toNat / 16) + byte.toNat % 16 = byte.toNat := Nat.div_add_mod ..
  simp only [escaped?, if_true, hexValue_hexDigit (show byte.toNat / 16 < 16 by omega),
    hexValue_hexDigit (show byte.toNat % 16 < 16 by omega), Option.bind_some, Option.map_some, whole,
    UInt8.ofNat_toNat]

/-- An escaped byte is read back. -/
theorem decode_escape (byte : UInt8) (rest : List UInt8) : decode (escape byte ++ rest) = byte :: decode rest := by
  simp only [decode, escape, List.cons_append, List.nil_append, decodeFrom, escaped?_escape]

theorem escaped?_ne (other : byte ≠ percent) (rest : List UInt8) : escaped? byte rest = none := by
  unfold escaped?
  split
  · rw [if_neg other]
  · rfl

theorem escaped?_digits {value} (found : escaped? byte bytes = some value) :
    ∃ high low tail, bytes = high :: low :: tail ∧ (hexValue high).isSome = true ∧ (hexValue low).isSome = true := by
  unfold escaped? at found
  split at found
  · rename_i high low tail
    split_ifs at found
    obtain ⟨first, digit, found⟩ := Option.bind_eq_some_iff.mp found
    obtain ⟨second, digit', -⟩ := Option.map_eq_some_iff.mp found
    exact ⟨high, low, tail, rfl, by rw [digit]; rfl, by rw [digit']; rfl⟩
  · cases found

/-- A byte that is not `%` stands for itself. -/
theorem decode_cons_ne (other : byte ≠ percent) (rest : List UInt8) : decode (byte :: rest) = byte :: decode rest := by
  simp only [decode, decodeFrom, escaped?_ne other]

theorem encode_cons (set : UInt8 → Bool) (byte : UInt8) (rest : List UInt8) :
    encode set (byte :: rest) = (if set byte then escape byte else [byte]) ++ encode set rest := rfl

theorem encode_append (set : UInt8 → Bool) (first second : List UInt8) :
    encode set (first ++ second) = encode set first ++ encode set second := List.flatMap_append

/-- A set that has `%` is undone by decoding. -/
theorem decode_encode_of_percent (percents : set percent = true) (bytes : List UInt8) :
    decode (encode set bytes) = bytes := by
  induction bytes with
  | nil => rfl
  | cons byte rest ih =>
    rw [encode_cons]
    split_ifs with member
    · rw [decode_escape, ih]
    · have other : byte ≠ percent := by
        rintro rfl
        exact member percents
      rw [List.singleton_append, decode_cons_ne other, ih]

theorem mem_escape {other} (member : other ∈ escape byte) :
    other = percent ∨ (hexValue other).isSome = true := by
  have small := byte.toNat_lt
  simp only [escape, List.mem_cons, List.not_mem_nil, or_false] at member
  rcases member with rfl | rfl | rfl
  · exact .inl rfl
  · exact .inr (by rw [hexValue_hexDigit (by omega)]; rfl)
  · exact .inr (by rw [hexValue_hexDigit (by omega)]; rfl)

/-- A byte of the encoding stands for itself or belongs to an escape. -/
theorem mem_encode (member : byte ∈ encode set bytes) :
    (byte ∈ bytes ∧ set byte = false) ∨ byte = percent ∨ (hexValue byte).isSome = true := by
  obtain ⟨original, inside, from_⟩ := List.mem_flatMap.mp member
  split_ifs at from_ with escaped
  · exact .inr (mem_escape from_)
  · cases List.mem_singleton.mp from_
    exact .inl ⟨inside, Bool.not_eq_true _ ▸ escaped⟩

theorem encode_eq_self (spared : ∀ byte ∈ bytes, set byte = false) : encode set bytes = bytes := by
  induction bytes with
  | nil => rfl
  | cons byte rest ih =>
    rw [encode_cons, spared byte List.mem_cons_self, ih fun other member => spared other (List.mem_cons_of_mem _ member)]
    rfl

/-- The digits stand for themselves in the encoding. -/
def SparesDigits (set : UInt8 → Bool) : Prop := ∀ byte, (hexValue byte).isSome = true → set byte = false

theorem escaped?_encode (spares : SparesDigits set) (rest : List UInt8) :
    escaped? percent (encode set rest) = escaped? percent rest := by
  -- a byte of the set is no digit, and neither is the `%` that replaces it
  have silent : ∀ byte, set byte = true → hexValue byte = none := by
    intro byte member
    cases digit : hexValue byte with
    | none => rfl
    | some value => cases (spares byte (by rw [digit]; rfl)).symm.trans member
  cases rest with
  | nil => rfl
  | cons high tail =>
    rw [encode_cons]
    split_ifs with member
    · cases tail with
      | nil => simp [escape, escaped?, hexValue_percent]
      | cons low tail => simp [escape, escaped?, hexValue_percent, silent high member]
    · cases tail with
      | nil => rfl
      | cons low tail =>
        rw [encode_cons]
        split_ifs with member'
        · simp [escape, escaped?, hexValue_percent, silent low member']
        · rfl

/-- A set without `%` and the digits leaves the escapes that were there before: decoding
gives what it gives without the encoding. -/
theorem decode_encode (percents : set percent = false) (spares : SparesDigits set) (bytes : List UInt8) :
    decode (encode set bytes) = decode bytes := by
  induction size : bytes.length using Nat.strongRecOn generalizing bytes with
  | _ size ih =>
    subst size
    cases bytes with
    | nil => rfl
    | cons byte rest =>
      have shorter := ih rest.length (by simp) rest rfl
      rw [encode_cons]
      split_ifs with member
      · have other : byte ≠ percent := by
          rintro rfl
          cases percents.symm.trans member
        rw [decode_escape, decode_cons_ne other, shorter]
      · by_cases same : byte = percent
        · subst same
          simp only [decode, List.singleton_append, decodeFrom, escaped?_encode spares rest] at shorter ⊢
          split
          · -- both digits stand where they stood
            rename_i value found
            obtain ⟨high, low, tail, rfl, first, second⟩ := escaped?_digits found
            have onward := ih tail.length (by simp only [List.length_cons]; omega) tail rfl
            rw [encode_cons, encode_cons, spares high first, spares low second]
            simp only [Bool.false_eq_true, if_false, List.singleton_append, decodeFrom]
            exact congrArg (value :: ·) onward
          · rw [shorter]
        · rw [List.singleton_append, decode_cons_ne same, decode_cons_ne same, shorter]

end PercentEncoding
