import AnyTls.Core.Padding

/-! The padding writer of `runtime/mod.rs`. A `write_conn` call is modeled by the
`write_all` calls it performs when none fails; a failing one ends the sequence
there and the writer task with it. The random sizes of a packet are an argument. -/
namespace AnyTls

/-- What `write_conn` takes from the padding factory for one packet. -/
structure PaddingDraw where
  stop : UInt32
  /-- the result of `generate_record_payload_sizes` for this packet -/
  sizes : List Int
deriving DecidableEq, Repr

structure WriterRuntimeState where
  sendPadding : Bool
  buffering : Bool
  buffer : Bytes
  pktCounter : UInt32
deriving DecidableEq, Repr

namespace WriterRuntimeState

def new (isClient : Bool) : WriterRuntimeState := ⟨isClient, false, [], 0⟩

def disableSendPadding (writer : WriterRuntimeState) : WriterRuntimeState :=
  { writer with sendPadding := false }

def setBuffering (writer : WriterRuntimeState) (enabled : Bool) : WriterRuntimeState :=
  { writer with buffering := enabled }

def appendBufferedBytes (writer : WriterRuntimeState) (bytes : Bytes) : WriterRuntimeState :=
  { writer with buffer := writer.buffer ++ bytes }

def takeBufferedBytes (writer : WriterRuntimeState) : Bytes × WriterRuntimeState :=
  (writer.buffer, { writer with buffer := [] })

def nextPacketCounter (writer : WriterRuntimeState) : UInt32 × WriterRuntimeState :=
  (writer.pktCounter + 1, { writer with pktCounter := writer.pktCounter + 1 })

end WriterRuntimeState

/-- A zeroed vector of header and padding size, with the command byte and the
length field set. -/
def paddingFrame (length : Nat) : Bytes :=
  Command.waste.toU8 :: List.replicate 4 0 ++ BigEndian.bytes 2 (length % 2 ^ 16) ++
    List.replicate length 0

/-- The loop over the sizes of one packet: the records written, and the bytes
still unwritten when it ends. -/
def shapeRecords : List Int → Bytes → List Bytes × Bytes
  | [], bytes => ([], bytes)
  | spec :: rest, bytes =>
    if spec = CHECK_MARK then
      if bytes.length = 0 then ([], bytes) else shapeRecords rest bytes
    else
      let frameLen := (max spec 0).toNat
      if bytes.length > frameLen then
        let (records, left) := shapeRecords rest (bytes.drop frameLen)
        (bytes.take frameLen :: records, left)
      else if bytes.length > 0 then
        let paddingLen := frameLen - bytes.length - HEADER_OVERHEAD_SIZE
        let bytes := if paddingLen > 0 then bytes ++ paddingFrame paddingLen else bytes
        let (records, left) := shapeRecords rest []
        (bytes :: records, left)
      else
        let (records, left) := shapeRecords rest bytes
        (paddingFrame frameLen :: records, left)

structure Written where
  payloadLen : Nat
  records : List Bytes
  state : WriterRuntimeState

def writeConn (writer : WriterRuntimeState) (bytes : Bytes) (padding : PaddingDraw) : Written :=
  if writer.buffering then ⟨bytes.length, [], writer.appendBufferedBytes bytes⟩
  else
    let (pending, writer) := writer.takeBufferedBytes
    let bytes := if pending.isEmpty then bytes else pending ++ bytes
    let payloadLen := bytes.length
    if writer.sendPadding then
      let (pkt, writer) := writer.nextPacketCounter
      if pkt < padding.stop then
        let (records, bytes) := shapeRecords padding.sizes bytes
        if bytes.isEmpty then ⟨payloadLen, records, writer⟩
        else ⟨payloadLen, records ++ [bytes], writer⟩
      else ⟨payloadLen, [bytes], writer.disableSendPadding⟩
    else ⟨payloadLen, [bytes], writer⟩

def wasteFrame (length : Nat) : Frame := Frame.withData .waste 0 (List.replicate length 0)

theorem paddingFrame_eq (length) : paddingFrame length = (wasteFrame length).toBytes := by
  simp [paddingFrame, wasteFrame, Frame.withData, Frame.toBytes, BigEndian.bytes]

/-- The blocks written after the payload, and how their lengths come from the sizes. -/
def BlocksFrom (sizes : List Int) (blocks : List Nat) : Prop :=
  ∀ length ∈ blocks, ∃ size ∈ sizes, length ≤ size.toNat

theorem BlocksFrom.cons {sizes blocks} (spec) (source : BlocksFrom sizes blocks) :
    BlocksFrom (spec :: sizes) blocks := by
  intro length member
  obtain ⟨size, listed, bound⟩ := source length member
  exact ⟨size, List.mem_cons_of_mem _ listed, bound⟩

/-- The loop writes the payload in order and then whole blocks; while payload is
left over it has written no block. -/
theorem shapeRecords_spec (sizes bytes) :
    ∃ blocks, BlocksFrom sizes blocks ∧
      (shapeRecords sizes bytes).1.flatten ++ (shapeRecords sizes bytes).2 =
        bytes ++ blocks.flatMap paddingFrame ∧
      ((shapeRecords sizes bytes).2 ≠ [] → blocks = []) := by
  induction sizes generalizing bytes with
  | nil => exact ⟨[], by simp [BlocksFrom], by simp [shapeRecords], fun _ => rfl⟩
  | cons spec rest ih =>
    simp only [shapeRecords]
    split
    · split
      · exact ⟨[], by simp [BlocksFrom], by simp, fun _ => rfl⟩
      · obtain ⟨blocks, source, content, early⟩ := ih bytes
        exact ⟨blocks, source.cons spec, content, early⟩
    · have sizeBound : (max spec 0).toNat = spec.toNat := by omega
      split
      · obtain ⟨blocks, source, content, early⟩ := ih (bytes.drop (max spec 0).toNat)
        refine ⟨blocks, source.cons spec, ?_, early⟩
        simp only [List.flatten_cons, List.append_assoc, content]
        rw [← List.append_assoc, List.take_append_drop]
      · obtain ⟨blocks, source, content, early⟩ := ih []
        rw [List.nil_append] at content
        have drained : (shapeRecords rest []).2 = [] := by
          by_contra left
          rw [early left, List.flatMap_nil, List.append_eq_nil_iff] at content
          exact left content.2
        split
        · refine ⟨(if (max spec 0).toNat - bytes.length - HEADER_OVERHEAD_SIZE > 0 then
              [(max spec 0).toNat - bytes.length - HEADER_OVERHEAD_SIZE] else []) ++ blocks, ?_, ?_, ?_⟩
          · intro length member
            rcases List.mem_append.mp member with own | later
            · split at own
              · obtain rfl := List.mem_singleton.mp own
                exact ⟨spec, List.mem_cons_self, by omega⟩
              · contradiction
            · exact source.cons spec length later
          · simp only [List.flatten_cons, List.append_assoc, content]
            split <;> simp
          · exact fun left => absurd drained left
        · have empty : bytes = [] := List.length_eq_zero_iff.mp (by omega)
          subst empty
          refine ⟨(max spec 0).toNat :: blocks, ?_, ?_, fun left => absurd drained left⟩
          · intro length member
            rcases List.mem_cons.mp member with rfl | later
            · exact ⟨spec, List.mem_cons_self, by omega⟩
            · exact source.cons spec length later
          · simp only [List.flatten_cons, List.append_assoc, content, List.flatMap_cons, List.nil_append]

end AnyTls
