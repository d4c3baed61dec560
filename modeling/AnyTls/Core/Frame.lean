import AnyTls.Library.BigEndian
import AnyTls.Library.Framing
import Mathlib.Tactic.IntervalCases

/-! The frame codec of `core/frame.rs`: command byte, big-endian stream id,
big-endian 16-bit length, data. The length is written with a narrowing cast, so
only data of at most 65535 bytes keeps its boundary. -/
namespace AnyTls

abbrev Bytes := List UInt8

def HEADER_OVERHEAD_SIZE : Nat := 1 + 4 + 2

inductive Command where
  | waste | syn | psh | fin | settings | alert | updatePaddingScheme | synAck
  | heartRequest | heartResponse | serverSettings
  | unknown (value : UInt8)
deriving DecidableEq, Repr

/-- `From<u8> for Command`. -/
def Command.ofU8 (value : UInt8) : Command :=
  match value with
  | 0 => .waste
  | 1 => .syn
  | 2 => .psh
  | 3 => .fin
  | 4 => .settings
  | 5 => .alert
  | 6 => .updatePaddingScheme
  | 7 => .synAck
  | 8 => .heartRequest
  | 9 => .heartResponse
  | 10 => .serverSettings
  | other => .unknown other

/-- `From<Command> for u8`. -/
def Command.toU8 : Command → UInt8
  | .waste => 0
  | .syn => 1
  | .psh => 2
  | .fin => 3
  | .settings => 4
  | .alert => 5
  | .updatePaddingScheme => 6
  | .synAck => 7
  | .heartRequest => 8
  | .heartResponse => 9
  | .serverSettings => 10
  | .unknown value => value

structure Frame where
  cmd : Command
  sid : UInt32
  data : Bytes
deriving DecidableEq, Repr

namespace Frame

def new (cmd : Command) (sid : UInt32) : Frame := ⟨cmd, sid, []⟩

def withData (cmd : Command) (sid : UInt32) (data : Bytes) : Frame := ⟨cmd, sid, data⟩

/-- `put_u16(len as u16)` keeps the low sixteen bits of the data length. -/
def toBytes (frame : Frame) : Bytes :=
  frame.cmd.toU8 :: BigEndian.bytes 4 frame.sid.toNat ++
    BigEndian.bytes 2 (frame.data.length % 2 ^ 16) ++ frame.data

end Frame

structure RawHeader where
  cmd : Command
  sid : UInt32
  length : Nat

def RawHeader.fromBytes (data : Bytes) : Option RawHeader :=
  if data.length < HEADER_OVERHEAD_SIZE then none
  else some
    { cmd := Command.ofU8 (data.headD 0)
      sid := UInt32.ofNat (BigEndian.value ((data.drop 1).take 4))
      length := BigEndian.value ((data.drop 5).take 2) }

def Frame.fromBytes (data : Bytes) : Option Frame := do
  let header ← RawHeader.fromBytes data
  let data := data.drop HEADER_OVERHEAD_SIZE
  if data.length < header.length then none
  else some ⟨header.cmd, header.sid, data.take header.length⟩

/-- One turn of the receive loop's inner `while`: the frame at the front of the
pending bytes, and the bytes left after draining it. -/
def Frame.next (pending : Bytes) : Option (Frame × Bytes) :=
  (Frame.fromBytes pending).map fun frame =>
    (frame, pending.drop (HEADER_OVERHEAD_SIZE + frame.data.length))

namespace Command

/-- The commands that survive encoding: `Unknown` is not used for a known code. -/
def Canonical : Command → Prop
  | .unknown value => 10 < value
  | _ => True

instance (cmd : Command) : Decidable cmd.Canonical :=
  match cmd with
  | .unknown value => inferInstanceAs (Decidable (10 < value))
  | .waste | .syn | .psh | .fin | .settings | .alert | .updatePaddingScheme | .synAck
  | .heartRequest | .heartResponse | .serverSettings => isTrue trivial

@[simp] theorem toU8_ofU8 (value) : (Command.ofU8 value).toU8 = value := by
  unfold Command.ofU8
  split <;> rfl

theorem ofU8_toU8 {cmd} (canonical : cmd.Canonical) : Command.ofU8 cmd.toU8 = cmd := by
  cases cmd with
  | unknown value =>
    simp only [Command.toU8, Command.ofU8]
    split
    case h_12 => rfl
    all_goals exact absurd canonical (by decide)
  | _ => rfl

theorem canonical_ofU8 (value) : (Command.ofU8 value).Canonical := by
  by_cases known : value.toNat ≤ 10
  · obtain ⟨code, bound, rfl⟩ : ∃ code, code < 11 ∧ value = UInt8.ofNat code :=
      ⟨value.toNat, by omega, by simp⟩
    interval_cases code <;> trivial
  · unfold Command.ofU8
    split
    case h_12 => exact UInt8.lt_iff_toNat_lt.mpr (by simpa using known)
    all_goals trivial

end Command

namespace Frame

/-- The frames the wire format can carry. -/
structure Encodable (frame : Frame) : Prop where
  fits : frame.data.length < 2 ^ 16
  canonical : frame.cmd.Canonical

theorem toBytes_length (frame : Frame) :
    frame.toBytes.length = HEADER_OVERHEAD_SIZE + frame.data.length := by
  simp [toBytes, HEADER_OVERHEAD_SIZE]
  omega

/-- What a header announces, whatever data follows it. -/
theorem fromBytes_header (cmd : Command) (sid length body) :
    fromBytes (cmd.toU8 :: BigEndian.bytes 4 sid.toNat ++ BigEndian.bytes 2 length ++ body) =
      if body.length < length % 2 ^ 16 then none
      else some ⟨Command.ofU8 cmd.toU8, sid, body.take (length % 2 ^ 16)⟩ := by
  have size : ¬ (cmd.toU8 :: BigEndian.bytes 4 sid.toNat ++ BigEndian.bytes 2 length ++ body).length <
      HEADER_OVERHEAD_SIZE := by
    simp [HEADER_OVERHEAD_SIZE]
    omega
  have sidBytes : (List.drop 1
      (cmd.toU8 :: BigEndian.bytes 4 sid.toNat ++ BigEndian.bytes 2 length ++ body)).take 4 =
        BigEndian.bytes 4 sid.toNat := by
    simp only [List.cons_append, List.drop_succ_cons, List.drop_zero, List.append_assoc]
    exact List.take_left' (BigEndian.bytes_length 4 _)
  have lengthBytes : (List.drop 5
      (cmd.toU8 :: BigEndian.bytes 4 sid.toNat ++ BigEndian.bytes 2 length ++ body)).take 2 =
        BigEndian.bytes 2 length := by
    simp only [List.cons_append, List.drop_succ_cons, List.append_assoc]
    rw [List.drop_left' (BigEndian.bytes_length 4 _)]
    exact List.take_left' (BigEndian.bytes_length 2 _)
  have rest : List.drop HEADER_OVERHEAD_SIZE
      (cmd.toU8 :: BigEndian.bytes 4 sid.toNat ++ BigEndian.bytes 2 length ++ body) = body := by
    apply List.drop_left'
    simp [HEADER_OVERHEAD_SIZE]
  have sidValue : UInt32.ofNat (sid.toNat % 256 ^ 4) = sid := by
    have below : sid.toNat < 256 ^ 4 := sid.toNat_lt
    rw [Nat.mod_eq_of_lt below, UInt32.ofNat_toNat]
  simp only [fromBytes, RawHeader.fromBytes, if_neg size, sidBytes, lengthBytes, rest,
    BigEndian.value_bytes, Option.bind_eq_bind, Option.bind_some, sidValue]
  rfl

theorem fromBytes_toBytes {frame} (encodable : frame.Encodable) (rest) :
    fromBytes (frame.toBytes ++ rest) = some frame := by
  have fits := encodable.fits
  rw [toBytes, List.append_assoc, fromBytes_header, Nat.mod_mod, Nat.mod_eq_of_lt fits,
    if_neg (by simp), Command.ofU8_toU8 encodable.canonical, List.take_left]

/-- The four fields of any input with a complete header. -/
theorem split_header (data) (long : HEADER_OVERHEAD_SIZE ≤ data.length) :
    ∃ (cmd : UInt8) (sid : UInt32) (length : Nat) (body : Bytes), length < 2 ^ 16 ∧
      data = cmd :: BigEndian.bytes 4 sid.toNat ++ BigEndian.bytes 2 length ++ body := by
  simp only [HEADER_OVERHEAD_SIZE] at long
  cases data with
  | nil => simp at long
  | cons cmd rest =>
    simp only [List.length_cons] at long
    have sidSize : (rest.take 4).length = 4 := by rw [List.length_take]; omega
    have lengthSize : ((rest.drop 4).take 2).length = 2 := by
      rw [List.length_take, List.length_drop]; omega
    have sidBound := BigEndian.value_lt (rest.take 4)
    have lengthBound := BigEndian.value_lt ((rest.drop 4).take 2)
    have sidBytes := BigEndian.bytes_value (rest.take 4)
    have lengthBytes := BigEndian.bytes_value ((rest.drop 4).take 2)
    rw [sidSize] at sidBound sidBytes
    rw [lengthSize] at lengthBound lengthBytes
    refine ⟨cmd, UInt32.ofNat (BigEndian.value (rest.take 4)),
      BigEndian.value ((rest.drop 4).take 2), (rest.drop 4).drop 2, lengthBound, ?_⟩
    have sidValue : (UInt32.ofNat (BigEndian.value (rest.take 4))).toNat =
        BigEndian.value (rest.take 4) := by
      rw [UInt32.toNat_ofNat']
      exact Nat.mod_eq_of_lt sidBound
    rw [sidValue, sidBytes, lengthBytes]
    simp only [List.cons_append, List.append_assoc, List.take_append_drop]

/-- Decoding is exactly the inverse of encoding: a frame is read where and only
where its own bytes stand at the front. -/
theorem fromBytes_iff (data frame) :
    fromBytes data = some frame ↔ frame.Encodable ∧ ∃ rest, data = frame.toBytes ++ rest := by
  constructor
  · intro decoded
    by_cases long : HEADER_OVERHEAD_SIZE ≤ data.length
    · obtain ⟨cmd, sid, length, body, bound, rfl⟩ := split_header data long
      have read := fromBytes_header (Command.ofU8 cmd) sid length body
      rw [Command.toU8_ofU8] at read
      rw [read, Nat.mod_eq_of_lt bound] at decoded
      split at decoded
      · contradiction
      · rename_i complete
        cases Option.some.inj decoded
        have size : (body.take length).length = length := by rw [List.length_take]; omega
        refine ⟨⟨by rw [size]; exact bound, Command.canonical_ofU8 cmd⟩, body.drop length, ?_⟩
        simp only [toBytes, size, Nat.mod_eq_of_lt bound, Command.toU8_ofU8, List.append_assoc,
          List.take_append_drop]
    · simp only [fromBytes, RawHeader.fromBytes, if_pos (Nat.lt_of_not_le long), Option.bind_eq_bind,
        Option.bind_none] at decoded
      contradiction
  · rintro ⟨encodable, rest, rfl⟩
    exact fromBytes_toBytes encodable rest

theorem next_iff (data rest) (frame : Frame) :
    next data = some (frame, rest) ↔ frame.Encodable ∧ data = frame.toBytes ++ rest := by
  simp only [next, Option.map_eq_some_iff, fromBytes_iff, Prod.mk.injEq]
  constructor
  · rintro ⟨_, ⟨encodable, tail, rfl⟩, rfl, rfl⟩
    exact ⟨encodable, by rw [List.drop_left' (toBytes_length _)]⟩
  · rintro ⟨encodable, rfl⟩
    exact ⟨frame, ⟨encodable, rest, rfl⟩, rfl, List.drop_left' (toBytes_length _)⟩

theorem next_lawful : Framing.Lawful next where
  progress decoded := by
    obtain ⟨_, rfl⟩ := (next_iff _ _ _).mp decoded
    rw [List.length_append, toBytes_length]
    simp [HEADER_OVERHEAD_SIZE]
  extend more decoded := by
    obtain ⟨encodable, rfl⟩ := (next_iff _ _ _).mp decoded
    exact (next_iff _ _ _).mpr ⟨encodable, List.append_assoc _ _ _⟩

theorem encodes {frame} (encodable : frame.Encodable) :
    Framing.Encodes next toBytes frame :=
  fun _ => (next_iff _ _ _).mpr ⟨encodable, rfl⟩

/-- No byte is skipped or read twice, and every decoded frame re-encodes to the
bytes it was read from. -/
theorem decodeAll_content (input) :
    (∀ frame ∈ (Framing.decodeAll next input).1, frame.Encodable) ∧
      input = (Framing.decodeAll next input).1.flatMap toBytes ++ (Framing.decodeAll next input).2 := by
  induction input using Framing.decodeAll_induction next_lawful with
  | stop input failed => simp [Framing.decodeAll_none failed]
  | next input frame rest decoded ih =>
    obtain ⟨encodable, split⟩ := (next_iff _ _ _).mp decoded
    rw [Framing.decodeAll_some next_lawful decoded]
    refine ⟨?_, ?_⟩
    · intro f member
      rcases List.mem_cons.mp member with rfl | later
      · exact encodable
      · exact ih.1 f later
    · rw [split, List.flatMap_cons, List.append_assoc, ← ih.2]

theorem flatMap_toBytes_length (frames : List Frame) :
    (frames.flatMap toBytes).length =
      frames.length * HEADER_OVERHEAD_SIZE + (frames.flatMap Frame.data).length := by
  induction frames with
  | nil => rfl
  | cons frame rest ih =>
    simp only [List.flatMap_cons, List.length_append, List.length_cons, toBytes_length, ih,
      Nat.add_mul, Nat.one_mul]
    omega

end Frame
end AnyTls
