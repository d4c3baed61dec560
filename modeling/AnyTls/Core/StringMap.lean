import AnyTls.Core.Frame
import Mathlib.Data.List.AList

/-! The text format of settings and padding schemes (`core/string_map.rs`): lines
`key=value`, read from bytes that need not be valid UTF-8. The parts of the
standard library it uses are here as well: `from_utf8_lossy`, `lines`,
`split_once` and the parsing of unsigned integers. -/
namespace AnyTls

def isContinuation (byte : UInt8) : Bool := 0x80 ≤ byte && byte ≤ 0xBF

def replacementChar : Char := Char.ofNat 0xFFFD

/-- The second byte of a three or four byte sequence is limited by the first. -/
def secondInRange (first second : UInt8) : Bool :=
  if first = 0xE0 then 0xA0 ≤ second && second ≤ 0xBF
  else if first = 0xED then 0x80 ≤ second && second ≤ 0x9F
  else if first = 0xF0 then 0x90 ≤ second && second ≤ 0xBF
  else if first = 0xF4 then 0x80 ≤ second && second ≤ 0x8F
  else isContinuation second

/-- The code point of a sequence, from the bits of its first byte and the six
low bits of each other byte. -/
def codePoint (lead : Nat) (tail : List UInt8) : Char :=
  Char.ofNat (tail.foldl (fun code byte => code * 64 + byte.toNat % 64) lead)

/-- The next character and the bytes after it. An ill-formed sequence gives one
replacement character for its longest beginning that could still be completed. -/
def nextCharLossy : Bytes → Option (Char × Bytes)
  | [] => none
  | first :: rest =>
    if first < 0x80 then some (Char.ofNat first.toNat, rest)
    else if 0xC2 ≤ first && first ≤ 0xDF then
      match rest with
      | second :: tail =>
        if isContinuation second then some (codePoint (first.toNat % 32) [second], tail)
        else some (replacementChar, rest)
      | [] => some (replacementChar, rest)
    else if 0xE0 ≤ first && first ≤ 0xEF then
      match rest with
      | second :: third =>
        if secondInRange first second then
          match third with
          | last :: tail =>
            if isContinuation last then some (codePoint (first.toNat % 16) [second, last], tail)
            else some (replacementChar, third)
          | [] => some (replacementChar, third)
        else some (replacementChar, rest)
      | [] => some (replacementChar, rest)
    else if 0xF0 ≤ first && first ≤ 0xF4 then
      match rest with
      | second :: third =>
        if secondInRange first second then
          match third with
          | byte :: fourth =>
            if isContinuation byte then
              match fourth with
              | last :: tail =>
                if isContinuation last then
                  some (codePoint (first.toNat % 8) [second, byte, last], tail)
                else some (replacementChar, fourth)
              | [] => some (replacementChar, fourth)
            else some (replacementChar, third)
          | [] => some (replacementChar, third)
        else some (replacementChar, rest)
      | [] => some (replacementChar, rest)
    else some (replacementChar, rest)

def decodeLossy : Nat → Bytes → List Char
  | 0, _ => []
  | fuel + 1, bytes =>
    match nextCharLossy bytes with
    | none => []
    | some (char, rest) => char :: decodeLossy fuel rest

/-- `String::from_utf8_lossy`; every character takes at least one byte. -/
def fromUtf8Lossy (bytes : Bytes) : List Char := decodeLossy bytes.length bytes

/-- `str::as_bytes`. -/
def asBytes (text : String) : Bytes := text.toList.flatMap String.utf8EncodeChar

/-- `str::from_utf8`: the text whose encoding the bytes are. -/
def fromUtf8 (bytes : Bytes) : Option (List Char) :=
  if (fromUtf8Lossy bytes).flatMap String.utf8EncodeChar = bytes then some (fromUtf8Lossy bytes) else none

/-- A line without its `\r\n`; only a line that ended in `\n` loses a `\r`. -/
def stripCarriageReturn (line : List Char) : List Char :=
  if line.getLast? = some '\r' then line.dropLast else line

/-- `str::lines`, with the characters of the current line so far. -/
def linesFrom (line : List Char) : List Char → List (List Char)
  | [] => if line.isEmpty then [] else [line]
  | '\n' :: rest => stripCarriageReturn line :: linesFrom [] rest
  | char :: rest => linesFrom (line ++ [char]) rest

def lines (text : List Char) : List (List Char) := linesFrom [] text

/-- `str::split_once`. -/
def splitOnce (separator : Char) : List Char → Option (List Char × List Char)
  | [] => none
  | char :: rest =>
    if char = separator then some ([], rest)
    else (splitOnce separator rest).map fun (before, after) => (char :: before, after)

def digits (limit : Nat) (value : Nat) : List Char → Option Nat
  | [] => some value
  | char :: rest =>
    if char.isDigit then
      let value := value * 10 + (char.toNat - '0'.toNat)
      if value < limit then digits limit value rest else none
    else none

theorem le_ofDigitChars (text value) : value ≤ Nat.ofDigitChars 10 text value := by
  rw [Nat.ofDigitChars_eq_ofDigitChars_zero]
  calc value = 1 * value := (Nat.one_mul _).symm
    _ ≤ 10 ^ text.length * value := Nat.mul_le_mul_right _ (Nat.one_le_pow _ _ (by decide))
    _ ≤ 10 ^ text.length * value + Nat.ofDigitChars 10 text 0 := Nat.le_add_right _ _

/-- A numeral is read unless it reaches the limit. -/
theorem digits_eq {limit value text} (small : value < limit) : digits limit value text =
    if text.all Char.isDigit = true ∧ Nat.ofDigitChars 10 text value < limit then some (Nat.ofDigitChars 10 text value)
    else none := by
  induction text generalizing value with
  | nil => simp [digits, small]
  | cons char rest ih =>
    rw [digits, Nat.ofDigitChars_cons, List.all_cons, Nat.mul_comm 10]
    cases digit : char.isDigit with
    | false => simp
    | true =>
      simp only [if_true, Bool.true_and]
      by_cases fits : value * 10 + (char.toNat - '0'.toNat) < limit
      · rw [if_pos fits]
        exact ih fits
      · have large := le_ofDigitChars rest (value * 10 + (char.toNat - '0'.toNat))
        rw [if_neg fits, if_neg (by omega)]

/-- `str::parse` of an unsigned integer type with values below `limit`. -/
def parseUnsigned (limit : Nat) (text : String) : Option Nat :=
  match text.toList with
  | [] => none
  | ['+'] => none
  | '+' :: rest => digits limit 0 rest
  | chars => digits limit 0 chars

abbrev StringMap := AList fun _ : String => String

/-- An order in which the entries of each map are iterated. -/
abbrev StringMap.Order := StringMap → List (Sigma fun _ : String => String)

namespace StringMap

/-- `to_bytes`, for the order in which the map is iterated. -/
def toBytes (entries : List (Sigma fun _ : String => String)) : Bytes :=
  asBytes ("\n".intercalate (entries.map fun entry => entry.1 ++ "=" ++ entry.2))

def fromBytes (data : Bytes) : StringMap :=
  (lines (fromUtf8Lossy data)).foldl (fun map line =>
    match splitOnce '=' line with
    | some (key, value) => map.insert (String.ofList key) (String.ofList value)
    | none => map) ∅

/-- `HashMap::eq`. -/
def sameAs (first second : StringMap) : Bool :=
  first.entries.length == second.entries.length &&
    first.entries.all fun entry => second.lookup entry.1 == some entry.2

theorem asBytes_append (first second) : asBytes (first ++ second) = asBytes first ++ asBytes second := by
  simp [asBytes]

theorem asBytes_length_le (text) : (asBytes text).length ≤ 4 * text.length := by
  rw [asBytes, ← String.length_toList]
  induction text.toList with
  | nil => exact Nat.le_refl 0
  | cons char rest ih =>
    have encoded := char.utf8Size_le_four
    rw [List.flatMap_cons, List.length_append, String.length_utf8EncodeChar, List.length_cons]
    omega

/-- A bound that does not depend on the order of the entries. -/
theorem toBytes_length_le (entries : List (Sigma fun _ : String => String)) : (toBytes entries).length ≤
    (entries.map fun entry => (asBytes entry.1).length + (asBytes entry.2).length + 2).sum := by
  have line (entry : Sigma fun _ : String => String) : (asBytes (entry.1 ++ "=" ++ entry.2)).length =
      (asBytes entry.1).length + (asBytes entry.2).length + 1 := by
    simp only [asBytes_append, List.length_append, show (asBytes "=").length = 1 from rfl]
    omega
  induction entries with
  | nil => exact Nat.le_refl 0
  | cons entry rest ih =>
    cases rest with
    | nil =>
      rw [toBytes, List.map_singleton, String.intercalate_singleton, line]
      simp
    | cons next rest =>
      rw [toBytes, List.map_cons] at ih ⊢
      rw [List.map_cons, String.intercalate_cons_cons, asBytes_append, asBytes_append, List.length_append,
        List.length_append, line, show (asBytes "\n").length = 1 from rfl, List.map_cons, List.sum_cons]
      omega

theorem toBytes_ne_nil {entries} (filled : entries ≠ []) :
    toBytes entries ≠ [] := by
  have line (entry : Sigma fun _ : String => String) : asBytes (entry.1 ++ "=" ++ entry.2) ≠ [] := by
    simp [asBytes_append, show asBytes "=" = [61] from rfl]
  cases entries with
  | nil => exact absurd rfl filled
  | cons entry rest =>
    cases rest with
    | nil =>
      rw [toBytes, List.map_singleton, String.intercalate_singleton]
      exact line entry
    | cons next rest =>
      rw [toBytes, List.map_cons, List.map_cons, String.intercalate_cons_cons, asBytes_append, asBytes_append]
      simp [line entry]

end StringMap

end AnyTls
