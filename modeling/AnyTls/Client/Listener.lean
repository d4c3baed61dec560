import AnyTls.Core.TextRoundTrip
import AnyTls.Library.ByteSlices

/-! How the client's listener tells its protocols apart (`handle_listener_stream` of
`client_runner.rs`): by the first of the bytes it peeks at, and for HTTP by the method they start
with. A method is compared with a slice of the text, which panics inside a character. -/
namespace AnyTls

open ByteSlices

namespace Listener

/-- What the bytes are taken for. Nothing peeked is a connection that was closed. -/
inductive Detected where
  | closed
  | socks5
  | socks4
  | http
  | unknown
deriving DecidableEq, Repr

/-- A slice outside the boundaries of its text. -/
inductive Panic where
  | sliced
deriving DecidableEq, Repr

def methods : List String :=
  ["CONNECT", "GET", "POST", "HEAD", "PUT", "OPTIONS", "DELETE", "TRACE", "PATCH", "LOCK", "UNLOCK", "PROPFIND",
    "MKCOL", "COPY", "MOVE"]

def toAsciiLowercase (byte : UInt8) : UInt8 := if 0x41 ≤ byte ∧ byte ≤ 0x5A then byte + 0x20 else byte

def eqIgnoreAsciiCase (first second : Bytes) : Bool :=
  first.map toAsciiLowercase == second.map toAsciiLowercase

/-- The closure for one method. -/
def startsWith (text : List Char) (method : String) : Except Panic Bool :=
  if (asBytes method).length ≤ byteLength text then
    match slice text 0 (asBytes method).length with
    | none => .error .sliced
    | some front =>
      .ok (eqIgnoreAsciiCase (front.flatMap String.utf8EncodeChar) (asBytes method) &&
        (text.flatMap String.utf8EncodeChar)[(asBytes method).length]? == some 0x20)
  else .ok false

/-- `Iterator::any` over the methods. -/
def startsWithAny (text : List Char) : List String → Except Panic Bool
  | [] => .ok false
  | method :: rest => do
    if ← startsWith text method then .ok true else startsWithAny text rest

def isHttp (firstBytes : Bytes) : Except Panic Bool :=
  match fromUtf8 firstBytes with
  | some text => startsWithAny text methods
  | none => .ok false

/-- The branches of `handle_listener_stream`, for the bytes that `peek` returned. -/
def handleListenerStream (peeked : Bytes) : Except Panic Detected :=
  match peeked with
  | [] => .ok .closed
  | first :: _ =>
    if first = 0x05 then .ok .socks5
    else if first = 0x04 then .ok .socks4
    else do
      if ← isHttp peeked then .ok .http else .ok .unknown

/-! ### What is detected -/

/-- The bytes start with the method, in any case, and a space. -/
def Announces (method : String) (bytes : Bytes) : Prop :=
  ∃ name rest, bytes = name ++ 0x20 :: rest ∧ name.map toAsciiLowercase = (asBytes method).map toAsciiLowercase

def announces (bytes : Bytes) (method : String) : Bool :=
  eqIgnoreAsciiCase (bytes.take (asBytes method).length) (asBytes method) &&
    bytes[(asBytes method).length]? == some 0x20

/-- A character starts at the offset, or nothing is there. -/
def boundary (bytes : Bytes) (offset : Nat) : Bool := bytes[offset]?.all fun byte => decide byte.IsUTF8FirstByte

/-- Each method that is tried, up to the first that matches, ends where a character does. -/
def slicesHold (bytes : Bytes) : List String → Bool
  | [] => true
  | method :: rest =>
    boundary bytes (asBytes method).length &&
      (announces bytes method || slicesHold bytes rest)

theorem announces_iff {bytes method} : announces bytes method = true ↔ Announces method bytes := by
  rw [announces, eqIgnoreAsciiCase, Bool.and_eq_true, beq_iff_eq, beq_iff_eq]
  constructor
  · rintro ⟨same, space⟩
    obtain ⟨within, byte⟩ := List.getElem?_eq_some_iff.mp space
    refine ⟨_, bytes.drop ((asBytes method).length + 1), ?_, same⟩
    rw [← byte, List.getElem_cons_drop, List.take_append_drop]
  · rintro ⟨name, rest, rfl, same⟩
    have width : name.length = (asBytes method).length := by simpa using congrArg List.length same
    rw [← width, List.take_left, List.getElem?_append_right (Nat.le_refl _), Nat.sub_self]
    exact ⟨same, rfl⟩

theorem boundary_iff {bytes offset} :
    boundary bytes offset = true ↔ ∀ byte ∈ bytes[offset]?, byte.IsUTF8FirstByte := by
  rw [boundary, Option.all_eq_true]
  exact forall₂_congr fun _ _ => decide_eq_true_iff

/-- The slice is the only thing that can fail. -/
theorem startsWith_eq (text method) : startsWith text method =
    if boundary (text.flatMap String.utf8EncodeChar) (asBytes method).length = true then
      .ok (announces (text.flatMap String.utf8EncodeChar) method)
    else .error .sliced := by
  rw [startsWith]
  by_cases fits : (asBytes method).length ≤ byteLength text
  · rw [if_pos fits]
    have starts := (slice_isSome_iff_byte fits).trans boundary_iff.symm
    cases taken : slice text 0 (asBytes method).length with
    | none =>
      rw [taken] at starts
      rw [if_neg (mt starts.mpr Bool.false_ne_true)]
    | some front =>
      rw [taken] at starts
      rw [if_pos (starts.mp rfl), announces, ← slice_encoded taken]
  · have beyond : (text.flatMap String.utf8EncodeChar)[(asBytes method).length]? = none := by
      rw [List.getElem?_eq_none_iff, length_encoded]
      omega
    rw [if_neg fits, announces, boundary, beyond]
    simp

theorem startsWithAny_eq (text) (tried : List String) : startsWithAny text tried =
    if slicesHold (text.flatMap String.utf8EncodeChar) tried = true then
      .ok (tried.any (announces (text.flatMap String.utf8EncodeChar)))
    else .error .sliced := by
  induction tried with
  | nil => rfl
  | cons method rest ih =>
    rw [startsWithAny, startsWith_eq, slicesHold, List.any_cons]
    cases boundary (text.flatMap String.utf8EncodeChar) (asBytes method).length with
    | false => rfl
    | true =>
      rw [if_pos rfl, Bool.true_and]
      cases announces (text.flatMap String.utf8EncodeChar) method with
      | true => rfl
      | false => exact ih

/-- Valid UTF-8 that starts with a listed method, in any case, and a space. -/
def SpeaksHttp (bytes : Bytes) : Prop :=
  (∃ text : String, bytes = asBytes text) ∧ ∃ method ∈ methods, Announces method bytes

theorem isHttp_valid (text) : isHttp (asBytes text) =
    if slicesHold (asBytes text) methods = true then .ok (methods.any (announces (asBytes text)))
    else .error .sliced := by
  rw [isHttp, fromUtf8_asBytes]
  exact startsWithAny_eq text.toList methods

theorem isHttp_invalid {bytes} (invalid : ¬∃ text : String, bytes = asBytes text) :
    isHttp bytes = .ok false := by
  have unread : fromUtf8 bytes = none := by
    refine Option.eq_none_iff_forall_ne_some.mpr fun text read => invalid ⟨String.ofList text, ?_⟩
    rw [asBytes, String.toList_ofList]
    exact fromUtf8_eq_some.mp read
  rw [isHttp, unread]

/-- The test answers, and answers what it is meant to, wherever its slices are. -/
theorem isHttp_answers {bytes}
    (slices : (∃ text : String, bytes = asBytes text) → slicesHold bytes methods = true) :
    ∃ answer, isHttp bytes = .ok answer ∧ (answer = true ↔ SpeaksHttp bytes) := by
  by_cases valid : ∃ text : String, bytes = asBytes text
  · obtain ⟨text, rfl⟩ := valid
    refine ⟨_, (isHttp_valid text).trans (if_pos (slices ⟨text, rfl⟩)), ?_⟩
    rw [List.any_eq_true, SpeaksHttp]
    simp only [announces_iff]
    exact (and_iff_right ⟨text, rfl⟩).symm
  · refine ⟨false, isHttp_invalid valid, ?_⟩
    exact ⟨fun never => absurd never Bool.false_ne_true, fun speaks => absurd speaks.1 valid⟩

/-- The test fails exactly where a method that is tried ends inside a character. -/
theorem isHttp_panics {bytes} : isHttp bytes = .error .sliced ↔
    (∃ text : String, bytes = asBytes text) ∧ slicesHold bytes methods = false := by
  by_cases valid : ∃ text : String, bytes = asBytes text
  · obtain ⟨text, rfl⟩ := valid
    rw [isHttp_valid, and_iff_right ⟨text, rfl⟩]
    cases slicesHold (asBytes text) methods with
    | true => exact ⟨nofun, nofun⟩
    | false => exact ⟨fun _ => rfl, fun _ => rfl⟩
  · rw [isHttp_invalid valid]
    exact ⟨nofun, fun both => absurd both.1 valid⟩

/-- For every sequence of peeked bytes that is not SOCKS: the test for HTTP answers, yes exactly for
text that starts with a listed method in any case and a space, and the connection is treated
accordingly, exactly if the bytes are no text or the methods that are tried end at its characters. -/
theorem sniffing_exact (first : UInt8) (rest : Bytes) (socks5 : first ≠ 0x05) (socks4 : first ≠ 0x04) :
    (∃ answer, isHttp (first :: rest) = .ok answer ∧ (answer = true ↔ SpeaksHttp (first :: rest)) ∧
      handleListenerStream (first :: rest) = .ok (if answer then .http else .unknown)) ↔
    ((∃ text : String, first :: rest = asBytes text) → slicesHold (first :: rest) methods = true) := by
  refine ⟨fun ⟨_, answered, _⟩ valid => ?_, fun slices => ?_⟩
  · by_contra cut
    cases (isHttp_panics.mpr ⟨valid, Bool.eq_false_iff.mpr cut⟩).symm.trans answered
  · obtain ⟨answer, answered, exact⟩ := isHttp_answers slices
    refine ⟨answer, answered, exact, ?_⟩
    rw [handleListenerStream, if_neg socks5, if_neg socks4, answered]
    cases answer with
    | true => rfl
    | false => rfl

/-- `post é` and what it is taken for. -/
theorem sniffing_post : ∃ answer, isHttp [0x70, 0x6F, 0x73, 0x74, 0x20, 0xC3, 0xA9] = .ok answer ∧
    (answer = true ↔ SpeaksHttp [0x70, 0x6F, 0x73, 0x74, 0x20, 0xC3, 0xA9]) ∧
    handleListenerStream [0x70, 0x6F, 0x73, 0x74, 0x20, 0xC3, 0xA9] = .ok (if answer then .http else .unknown) :=
  (sniffing_exact 0x70 [0x6F, 0x73, 0x74, 0x20, 0xC3, 0xA9] (by decide) (by decide)).mpr fun _ => by decide +kernel

/-- `GEé` ends inside a character after three bytes, and `GET /aé`, which is an HTTP request, after
seven. -/
theorem sniffing_panics : handleListenerStream [0x47, 0x45, 0xC3, 0xA9] = .error .sliced ∧
    SpeaksHttp [0x47, 0x45, 0x54, 0x20, 0x2F, 0x61, 0xC3, 0xA9] ∧
    handleListenerStream [0x47, 0x45, 0x54, 0x20, 0x2F, 0x61, 0xC3, 0xA9] = .error .sliced := by
  refine ⟨by decide +kernel, ⟨⟨"GET /aé", by decide +kernel⟩, "GET", by decide, ?_⟩, by decide +kernel⟩
  exact announces_iff.mp (by decide +kernel)

end Listener

end AnyTls
