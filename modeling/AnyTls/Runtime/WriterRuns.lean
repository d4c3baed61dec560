import AnyTls.Runtime.Writer
import Mathlib.Data.List.Induction

/-! Runs of the padding writer. Frames, buffering toggles and padding schemes
arrive in any order; what reaches the connection is the encoded frames in order,
with whole padding blocks only between payloads. -/
namespace AnyTls

/-- `write_conn` in terms of its unshaped payload and the blocks that follow it. -/
theorem writeConn_spec (writer : WriterRuntimeState) (bytes padding) (flowing : writer.buffering = false) :
    (writeConn writer bytes padding).state.buffer = [] ∧
    ∃ blocks, BlocksFrom padding.sizes blocks ∧
      (writeConn writer bytes padding).records.flatten =
        writer.buffer ++ bytes ++ blocks.flatMap paddingFrame := by
  have combined : (if writer.buffer.isEmpty then bytes else writer.buffer ++ bytes) =
      writer.buffer ++ bytes := by
    cases writer.buffer <;> rfl
  simp only [writeConn, flowing, Bool.false_eq_true, if_false, WriterRuntimeState.takeBufferedBytes,
    combined, WriterRuntimeState.nextPacketCounter, WriterRuntimeState.disableSendPadding]
  split
  · split
    · obtain ⟨blocks, source, content, early⟩ := shapeRecords_spec padding.sizes (writer.buffer ++ bytes)
      split
      · rename_i drained
        rw [List.isEmpty_iff.mp drained, List.append_nil] at content
        exact ⟨rfl, blocks, source, content⟩
      · exact ⟨rfl, blocks, source, by simpa using content⟩
    · exact ⟨rfl, [], by simp [BlocksFrom], by simp⟩
  · exact ⟨rfl, [], by simp [BlocksFrom], by simp⟩

inductive WriterOp where
  | setBuffering (enabled : Bool)
  | write (frame : Frame) (padding : PaddingDraw)

/-- The writer state, the connection's bytes, and the payload bytes among them. -/
structure Transcript where
  writer : WriterRuntimeState
  wire : Bytes
  payload : Bytes

namespace Transcript

def start (isClient : Bool) : Transcript := ⟨WriterRuntimeState.new isClient, [], []⟩

def apply (t : Transcript) : WriterOp → Transcript
  | .setBuffering enabled => { t with writer := t.writer.setBuffering enabled }
  | .write frame padding =>
    { writer := (writeConn t.writer frame.toBytes padding).state
      wire := t.wire ++ (writeConn t.writer frame.toBytes padding).records.flatten
      payload := if t.writer.buffering then t.payload
        else t.payload ++ (t.writer.buffer ++ frame.toBytes) }

end Transcript

def WriterOp.frame? : WriterOp → Option Frame
  | .setBuffering _ => none
  | .write frame _ => some frame

def WriterOp.sizes : WriterOp → List Int
  | .setBuffering _ => []
  | .write _ padding => padding.sizes

def submitted (ops : List WriterOp) : List Frame := ops.filterMap WriterOp.frame?

/-- `padded` is `frames` in order, with waste frames between them. -/
inductive Padded : List Frame → List Frame → Prop where
  | nil : Padded [] []
  | frame (f) : Padded frames padded → Padded (frames ++ [f]) (padded ++ [f])
  | waste (length) : Padded frames padded → Padded frames (padded ++ [wasteFrame length])

theorem Padded.frames (padded : Padded sent all) (more) :
    Padded (sent ++ more) (all ++ more) := by
  induction more using List.reverseRecOn with
  | nil => simpa using padded
  | append_singleton more f ih => simpa only [List.append_assoc] using ih.frame f

theorem Padded.wastes (padded : Padded sent all) (blocks : List Nat) :
    Padded sent (all ++ blocks.map wasteFrame) := by
  induction blocks using List.reverseRecOn with
  | nil => simpa using padded
  | append_singleton blocks length ih =>
    simpa only [List.map_append, List.map_cons, List.map_nil, List.append_assoc] using ih.waste length

theorem Padded.encodable (padded : Padded sent all) (encodable : ∀ f ∈ sent, f.Encodable)
    (fits : ∀ f ∈ all, f.data.length < 2 ^ 16) : ∀ f ∈ all, f.Encodable := by
  induction padded with
  | nil => simp
  | frame f _ ih =>
    intro g member
    rcases List.mem_append.mp member with earlier | last
    · exact ih (fun f kept => encodable f (List.mem_append_left _ kept))
        (fun f kept => fits f (List.mem_append_left _ kept)) g earlier
    · exact encodable g (List.mem_append_right _ last)
  | waste length _ ih =>
    intro g member
    rcases List.mem_append.mp member with earlier | last
    · exact ih encodable (fun f kept => fits f (List.mem_append_left _ kept)) g earlier
    · obtain rfl := List.mem_singleton.mp last
      exact ⟨fits _ member, trivial⟩

/-- What a run has done so far: the frames sent and the frames held back, and the
connection's bytes as the encoding of the sent frames with padding. -/
structure Sent (ops : List WriterOp) (t : Transcript) (sent held all : List Frame) : Prop where
  frames : submitted ops = sent ++ held
  held : t.writer.buffer = held.flatMap Frame.toBytes
  payload : t.payload = sent.flatMap Frame.toBytes
  wire : t.wire = all.flatMap Frame.toBytes
  padded : Padded sent all
  blocks : (∀ op ∈ ops, ∀ size ∈ op.sizes, size ≤ 65535) →
    (∀ f ∈ submitted ops, f.data.length < 2 ^ 16) → ∀ f ∈ all, f.data.length < 2 ^ 16

theorem paddingFrames_eq (blocks : List Nat) :
    blocks.flatMap paddingFrame = (blocks.map wasteFrame).flatMap Frame.toBytes := by
  induction blocks with
  | nil => rfl
  | cons length rest ih => simp only [List.flatMap_cons, List.map_cons, paddingFrame_eq, ih]

theorem sent_apply {ops t sent held all} (before : Sent ops t sent held all) (op : WriterOp) :
    ∃ sent held all, Sent (ops ++ [op]) (t.apply op) sent held all := by
  have earlier : (∀ o ∈ ops ++ [op], ∀ size ∈ o.sizes, size ≤ 65535) →
      (∀ f ∈ submitted (ops ++ [op]), f.data.length < 2 ^ 16) → ∀ f ∈ all, f.data.length < 2 ^ 16 := by
    intro sizes data
    refine before.blocks (fun o member => sizes o (List.mem_append_left _ member)) (fun f member => ?_)
    exact data f (by rw [submitted, List.filterMap_append]; exact List.mem_append_left _ member)
  cases op with
  | setBuffering enabled =>
    refine ⟨sent, held, all, ⟨?_, before.held, before.payload, before.wire, before.padded, earlier⟩⟩
    rw [submitted, List.filterMap_append, ← submitted, before.frames]
    simp [WriterOp.frame?]
  | write frame padding =>
    have frames : submitted (ops ++ [.write frame padding]) = sent ++ (held ++ [frame]) := by
      rw [submitted, List.filterMap_append, ← submitted, before.frames]
      simp [WriterOp.frame?]
    cases buffering : t.writer.buffering with
    | true =>
      refine ⟨sent, held ++ [frame], all, ⟨frames, ?_, ?_, ?_, before.padded, earlier⟩⟩
      · simp [Transcript.apply, writeConn, buffering, WriterRuntimeState.appendBufferedBytes, before.held]
      · simpa only [Transcript.apply, buffering, if_true] using before.payload
      · simpa [Transcript.apply, writeConn, buffering] using before.wire
    | false =>
      obtain ⟨emptied, blocks, source, content⟩ :=
        writeConn_spec t.writer frame.toBytes padding buffering
      refine ⟨sent ++ (held ++ [frame]), [], all ++ (held ++ [frame]) ++ blocks.map wasteFrame,
        ⟨by simpa using frames, by simpa [Transcript.apply] using emptied, ?_, ?_,
          (before.padded.frames _).wastes _, ?_⟩⟩
      · simp [Transcript.apply, buffering, before.payload, before.held]
      · simp only [Transcript.apply, content, before.wire, before.held, paddingFrames_eq,
          List.flatMap_append, List.flatMap_cons, List.flatMap_nil, List.append_nil, List.append_assoc]
      · intro sizes data f member
        rcases List.mem_append.mp member with member | block
        · rcases List.mem_append.mp member with old | new
          · exact earlier sizes data f old
          · exact data f (by rw [frames]; exact List.mem_append_right _ new)
        · obtain ⟨length, listed, rfl⟩ := List.mem_map.mp block
          obtain ⟨size, drawn, bound⟩ := source length listed
          have limit := sizes (.write frame padding) (by simp) size drawn
          simp only [wasteFrame, Frame.withData, List.length_replicate]
          omega

theorem sent_run (isClient) (ops : List WriterOp) :
    ∃ sent held all, Sent ops (ops.foldl Transcript.apply (Transcript.start isClient)) sent held all := by
  induction ops using List.reverseRecOn with
  | nil => exact ⟨[], [], [], rfl, rfl, rfl, rfl, .nil, by simp⟩
  | append_singleton ops op ih =>
    obtain ⟨sent, held, all, before⟩ := ih
    rw [List.foldl_append]
    exact sent_apply before op

/-- The padding writer preserves the frame stream. In every state reached, an
unbuffered call writes the pending bytes and its own, then whole blocks. The
payload written and the buffer are the submitted frames' encodings in order. When
every size fits sixteen bits, decoding the connection gives those frames back,
with waste frames between them. -/
theorem writer_preserves_frames (isClient : Bool) (ops : List WriterOp)
    (encodable : ∀ f ∈ submitted ops, f.Encodable) :
    let t := ops.foldl Transcript.apply (Transcript.start isClient)
    (∀ (frame : Frame) (padding : PaddingDraw), t.writer.buffering = false → ∃ blocks : List Nat,
      (writeConn t.writer frame.toBytes padding).records.flatten =
        t.writer.buffer ++ frame.toBytes ++ blocks.flatMap paddingFrame) ∧
    t.payload ++ t.writer.buffer = (submitted ops).flatMap Frame.toBytes ∧
    ((∀ op ∈ ops, ∀ size ∈ op.sizes, size ≤ 65535) → ∃ sent held all,
      submitted ops = sent ++ held ∧ t.writer.buffer = held.flatMap Frame.toBytes ∧
      Framing.decodeAll Frame.next t.wire = (all, []) ∧ Padded sent all) := by
  obtain ⟨sent, held, all, state⟩ := sent_run isClient ops
  refine ⟨?_, ?_, ?_⟩
  · intro frame padding flowing
    obtain ⟨_, blocks, _, content⟩ := writeConn_spec _ frame.toBytes padding flowing
    exact ⟨blocks, content⟩
  · rw [state.payload, state.held, ← List.flatMap_append, state.frames]
  · intro sizes
    have data : ∀ f ∈ submitted ops, f.data.length < 2 ^ 16 := fun f member => (encodable f member).fits
    have all_encodable := state.padded.encodable
      (fun f member => encodable f (by rw [state.frames]; exact List.mem_append_left _ member))
      (state.blocks sizes data)
    refine ⟨sent, held, all, state.frames, state.held, ?_, state.padded⟩
    have decoded := Framing.decodeAll_encoded Frame.next_lawful
      (fun f member => Frame.encodes (all_encodable f member)) []
    rw [state.wire]
    simpa using decoded

/-- A frame held back by buffering and one that flushes it, the second padded. -/
def bufferedOps : List WriterOp :=
  [.setBuffering true, .write (Frame.new .syn 1) ⟨8, [30]⟩, .setBuffering false,
    .write (Frame.withData .psh 1 [9]) ⟨8, [40, -1]⟩]

theorem bufferedOps_preserved :
    let t := bufferedOps.foldl Transcript.apply (Transcript.start true)
    t.payload ++ t.writer.buffer = (submitted bufferedOps).flatMap Frame.toBytes ∧
    ∃ sent held all, submitted bufferedOps = sent ++ held ∧
      t.writer.buffer = held.flatMap Frame.toBytes ∧
      Framing.decodeAll Frame.next t.wire = (all, []) ∧ Padded sent all := by
  have encodable : ∀ f ∈ submitted bufferedOps, f.Encodable := by
    intro f member
    simp only [bufferedOps, submitted, WriterOp.frame?, List.filterMap_cons, List.filterMap_nil,
      List.mem_cons, List.not_mem_nil, or_false] at member
    rcases member with rfl | rfl <;> exact ⟨by decide, trivial⟩
  have all := writer_preserves_frames true bufferedOps encodable
  exact ⟨all.2.1, all.2.2 (by decide)⟩

end AnyTls
