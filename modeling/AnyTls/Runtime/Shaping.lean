import AnyTls.Runtime.Writer

/-! What the padding scheme does to the writes of `write_conn`: the sizes of the records of one
packet, and the packet counter with the switch that ends the shaping. -/
namespace AnyTls

/-! ### The records of a packet -/

/-- A write of the loop over the sizes, with the entry it is made for and the payload that was left
when the entry was reached. -/
structure ShapedWrite where
  entry : Int
  remaining : Nat
  record : Bytes

/-- The writes of the loop over the sizes. -/
def shapeWrites : List Int → Bytes → List ShapedWrite
  | [], _ => []
  | spec :: rest, bytes =>
    if spec = CHECK_MARK then
      if bytes.length = 0 then [] else shapeWrites rest bytes
    else
      let frameLen := (max spec 0).toNat
      if bytes.length > frameLen then
        ⟨spec, bytes.length, bytes.take frameLen⟩ :: shapeWrites rest (bytes.drop frameLen)
      else if bytes.length > 0 then
        let paddingLen := frameLen - bytes.length - HEADER_OVERHEAD_SIZE
        ⟨spec, bytes.length, if paddingLen > 0 then bytes ++ paddingFrame paddingLen else bytes⟩ :: shapeWrites rest []
      else ⟨spec, 0, paddingFrame frameLen⟩ :: shapeWrites rest bytes

theorem shapeWrites_records (sizes bytes) :
    (shapeWrites sizes bytes).map (·.record) = (shapeRecords sizes bytes).1 := by
  induction sizes generalizing bytes with
  | nil => rfl
  | cons spec rest ih =>
    simp only [shapeWrites, shapeRecords]
    split_ifs
    · rfl
    · exact ih bytes
    · rw [List.map_cons, ih]
    · rw [List.map_cons, ih]
    · rw [List.map_cons, ih]
    · rw [List.map_cons, ih]

theorem paddingFrame_length (length) : (paddingFrame length).length = HEADER_OVERHEAD_SIZE + length := by
  simp only [paddingFrame, BigEndian.bytes, List.length_append, List.length_cons, List.length_replicate, List.length_nil,
    HEADER_OVERHEAD_SIZE]

/-- The entries of a scheme: check marks, and sizes that the length field can hold. -/
def SizeEntry (size : Int) : Prop := size = CHECK_MARK ∨ (1 ≤ size ∧ size ≤ 65535)

instance (size : Int) : Decidable (SizeEntry size) :=
  inferInstanceAs (Decidable (size = CHECK_MARK ∨ (1 ≤ size ∧ size ≤ 65535)))

/-- The record has the size of its entry where splitting or padding can give it that size, and is
never longer. -/
def ShapedWrite.Fits (write : ShapedWrite) : Prop :=
  (write.record.length : Int) ≤ write.entry ∧
    (write.entry < write.remaining ∨ write.remaining + (HEADER_OVERHEAD_SIZE : Int) < write.entry →
      (write.record.length : Int) = write.entry)

/-- A record with payload in it fits its entry; one of padding alone is longer by the header. -/
theorem shapeWrites_lengths {sizes} (entries : ∀ size ∈ sizes, SizeEntry size) (bytes) :
    ∀ write ∈ shapeWrites sizes bytes, (0 < write.remaining → write.Fits) ∧
      (write.remaining = 0 → (write.record.length : Int) = write.entry + HEADER_OVERHEAD_SIZE) := by
  induction sizes generalizing bytes with
  | nil => rintro _ ⟨⟩
  | cons spec rest ih =>
    have later := ih fun size member => entries size (List.mem_cons_of_mem _ member)
    simp only [shapeWrites]
    by_cases mark : spec = CHECK_MARK
    · rw [if_pos mark]
      split_ifs
      · rintro _ ⟨⟩
      · exact later bytes
    · have range := (entries spec List.mem_cons_self).resolve_left mark
      rw [if_neg mark]
      split_ifs with more some pad
      · refine List.forall_mem_cons.mpr ⟨⟨fun _ => ⟨?_, fun _ => ?_⟩, fun none => ?_⟩, later _⟩
        all_goals simp only [List.length_take] at *
        all_goals omega
      · refine List.forall_mem_cons.mpr ⟨⟨fun _ => ⟨?_, fun _ => ?_⟩, fun none => ?_⟩, later _⟩
        all_goals simp only [List.length_append, paddingFrame_length] at *
        all_goals omega
      · refine List.forall_mem_cons.mpr ⟨⟨fun _ => ⟨?_, fun far => ?_⟩, fun none => ?_⟩, later _⟩
        all_goals simp only at *
        all_goals omega
      · refine List.forall_mem_cons.mpr ⟨⟨fun some => absurd some (Nat.lt_irrefl 0), fun _ => ?_⟩, later _⟩
        simp only [paddingFrame_length]
        omega

/-- Without payload the loop leaves nothing to be written. -/
theorem shapeRecords_nil (sizes) : (shapeRecords sizes []).2 = [] := by
  induction sizes with
  | nil => rfl
  | cons spec rest ih =>
    simp only [shapeRecords, List.length_nil, if_true, Nat.not_lt_zero, gt_iff_lt, if_false]
    split_ifs
    · rfl
    · exact ih

/-- A check mark that is reached without payload ends the packet. -/
theorem shapeWrites_checkMark {before bytes} (done : (shapeRecords before bytes).2 = []) (after) :
    shapeWrites (before ++ CHECK_MARK :: after) bytes = shapeWrites before bytes ∧
      (shapeRecords (before ++ CHECK_MARK :: after) bytes).2 = [] := by
  induction before generalizing bytes with
  | nil =>
    have none : bytes = [] := done
    subst none
    exact ⟨rfl, rfl⟩
  | cons spec rest ih =>
    simp only [List.cons_append, shapeWrites, shapeRecords] at done ⊢
    split_ifs at done ⊢
    · exact ⟨rfl, done⟩
    · exact ih done
    · exact ⟨congrArg _ (ih done).1, (ih done).2⟩
    · exact ⟨congrArg _ (ih done).1, (ih done).2⟩
    · exact ⟨congrArg _ (ih done).1, (ih done).2⟩
    · exact ⟨congrArg _ (ih done).1, (ih done).2⟩

/-- Where payload is left over, every entry has been used, and each write was a piece of it. -/
theorem shapeWrites_left {sizes bytes} (left : (shapeRecords sizes bytes).2 ≠ []) :
    (shapeWrites sizes bytes).map (·.entry) = sizes.filter (· ≠ CHECK_MARK) ∧
      ((shapeWrites sizes bytes).map (·.record)).flatten ++ (shapeRecords sizes bytes).2 = bytes := by
  constructor
  · induction sizes generalizing bytes with
    | nil => rfl
    | cons spec rest ih =>
      simp only [shapeWrites, shapeRecords] at left ⊢
      split_ifs at left ⊢ with mark none more some
      · exact absurd (List.length_eq_zero_iff.mp none) left
      · rw [ih left, List.filter_cons_of_neg (by simpa using mark)]
      · rw [List.map_cons, ih left, List.filter_cons_of_pos (by simpa using mark)]
      · exact absurd (shapeRecords_nil rest) left
      · exact absurd (shapeRecords_nil rest) left
      · have empty : bytes = [] := List.length_eq_zero_iff.mp (by omega)
        subst empty
        exact absurd (shapeRecords_nil rest) left
  · obtain ⟨blocks, -, content, early⟩ := shapeRecords_spec sizes bytes
    rw [shapeWrites_records, content, early left, List.flatMap_nil, List.append_nil]

/-- Every size that is reached is reached with payload left: before the first that is not, a check
mark ends the packet. -/
def payloadLasts : List Int → Nat → Bool
  | [], _ => true
  | spec :: rest, remaining =>
    if spec = CHECK_MARK then remaining == 0 || payloadLasts rest remaining
    else decide (0 < remaining) && payloadLasts rest (remaining - spec.toNat)

theorem payloadLasts_iff {sizes bytes} : payloadLasts sizes bytes.length = true ↔
    ∀ write ∈ shapeWrites sizes bytes, 0 < write.remaining := by
  induction sizes generalizing bytes with
  | nil => simp [payloadLasts, shapeWrites]
  | cons spec rest ih =>
    have clipped : (max spec 0).toNat = spec.toNat := by omega
    simp only [shapeWrites]
    unfold payloadLasts
    split_ifs with mark none more some pad
    · simp [none]
    · rw [beq_false_of_ne none, Bool.false_or]
      exact ih
    · rw [List.forall_mem_cons, Bool.and_eq_true, decide_eq_true_eq, ← ih, List.length_drop, clipped]
    · rw [List.forall_mem_cons, Bool.and_eq_true, decide_eq_true_eq, ← ih, List.length_nil,
        Nat.sub_eq_zero_of_le (clipped ▸ Nat.not_lt.mp more)]
    · rw [List.forall_mem_cons, Bool.and_eq_true, decide_eq_true_eq, ← ih, List.length_nil,
        Nat.sub_eq_zero_of_le (clipped ▸ Nat.not_lt.mp more)]
    · rw [List.forall_mem_cons, Bool.and_eq_true, decide_eq_true_eq]
      exact iff_of_false (fun lasts => some lasts.1) fun lasts => Nat.lt_irrefl 0 lasts.1

section
variable {writer : WriterRuntimeState} (flowing : writer.buffering = false) (bytes : Bytes)
include flowing

theorem writeConn_flowing (padding) :
    writeConn writer bytes padding =
      if writer.sendPadding then
        if writer.pktCounter + 1 < padding.stop then
          ⟨(writer.buffer ++ bytes).length,
            (shapeWrites padding.sizes (writer.buffer ++ bytes)).map (·.record) ++
              (if (shapeRecords padding.sizes (writer.buffer ++ bytes)).2 = [] then []
                else [(shapeRecords padding.sizes (writer.buffer ++ bytes)).2]),
            { writer with buffer := [], pktCounter := writer.pktCounter + 1 }⟩
        else ⟨(writer.buffer ++ bytes).length, [writer.buffer ++ bytes],
          { writer with buffer := [], pktCounter := writer.pktCounter + 1, sendPadding := false }⟩
      else ⟨(writer.buffer ++ bytes).length, [writer.buffer ++ bytes], { writer with buffer := [] }⟩ := by
  have combined : (if writer.buffer.isEmpty then bytes else writer.buffer ++ bytes) = writer.buffer ++ bytes := by
    cases writer.buffer <;> rfl
  simp only [writeConn, flowing, Bool.false_eq_true, if_false, WriterRuntimeState.takeBufferedBytes, combined,
    WriterRuntimeState.nextPacketCounter, WriterRuntimeState.disableSendPadding, shapeWrites_records]
  simp only [List.isEmpty_iff]
  split_ifs
  · rw [List.append_nil]
  · rfl
  · rfl
  · rfl

end

/-- The records of a packet below `stop`: each write for an entry is at most as long as the entry,
and as long where splitting or padding can make it so, exactly if every size that is reached is
reached with payload left; a check mark that finds no payload ends the packet; and what is written
unshaped is the payload left when all entries are used. -/
theorem shaped_sizes_match (writer : WriterRuntimeState) (bytes : Bytes) (padding : PaddingDraw)
    (flowing : writer.buffering = false) (shaping : writer.sendPadding = true)
    (below : writer.pktCounter + 1 < padding.stop) (entries : ∀ size ∈ padding.sizes, SizeEntry size) :
    ∃ writes left, writes = shapeWrites padding.sizes (writer.buffer ++ bytes) ∧
      (writeConn writer bytes padding).records = writes.map (·.record) ++ (if left = [] then [] else [left]) ∧
      ((∀ write ∈ writes, (write.record.length : Int) ≤ write.entry ∧
          (write.entry < write.remaining ∨ write.remaining + (7 : Int) < write.entry →
            (write.record.length : Int) = write.entry)) ↔
        payloadLasts padding.sizes (writer.buffer ++ bytes).length = true) ∧
      (∀ before after, padding.sizes = before ++ CHECK_MARK :: after →
        (shapeRecords before (writer.buffer ++ bytes)).2 = [] →
        left = [] ∧ writes = shapeWrites before (writer.buffer ++ bytes)) ∧
      (left ≠ [] → writes.map (·.entry) = padding.sizes.filter (· ≠ CHECK_MARK) ∧
        (writes.map (·.record)).flatten ++ left = writer.buffer ++ bytes) := by
  have lengths := shapeWrites_lengths entries (writer.buffer ++ bytes)
  refine ⟨_, _, rfl, ?_, ?_, ?_, shapeWrites_left⟩
  · rw [writeConn_flowing flowing, if_pos shaping, if_pos below]
  · rw [payloadLasts_iff]
    refine forall₂_congr fun write member => ⟨fun fits => ?_, (lengths write member).1⟩
    refine Nat.pos_of_ne_zero fun none => ?_
    have longer := (lengths write member).2 none
    rw [HEADER_OVERHEAD_SIZE] at longer
    omega
  · intro before after split done
    rw [split]
    exact (shapeWrites_checkMark done after).symm

/-- Sixty bytes against two sizes with a check mark between them. -/
theorem shaped_sizes_sixty :
    ∃ (writes : List ShapedWrite) (left : Bytes),
      (writeConn (WriterRuntimeState.new true) (List.replicate 60 1) ⟨8, [40, CHECK_MARK, 50]⟩).records =
        writes.map ShapedWrite.record ++ (if left = [] then [] else [left]) ∧
      ∀ write ∈ writes, (write.record.length : Int) ≤ write.entry := by
  obtain ⟨writes, left, -, records, fits, -⟩ := shaped_sizes_match (WriterRuntimeState.new true) (List.replicate 60 1)
    ⟨8, [40, CHECK_MARK, 50]⟩ rfl rfl (by decide) (by decide)
  exact ⟨writes, left, records, fun write member => (fits.mpr (by decide) write member).1⟩

/-- Three bytes against the sizes 100 and 50: the second record is padding alone, and longer than
its entry by a header. -/
theorem padding_record_oversized :
    ((writeConn (WriterRuntimeState.new true) [1, 2, 3] ⟨8, [100, 50]⟩).records.map List.length = [100, 57]) ∧
    (shapeWrites [100, 50] [1, 2, 3]).map (fun write => (write.entry, write.remaining, write.record.length)) =
      [(100, 3, 100), (50, 0, 57)] := by
  decide

/-! ### The packet counter -/

/-- What happens to the state of a writer: `write_conn` calls, each with the scheme it finds in
force, and changes of the buffering. -/
inductive WriterCall where
  | setBuffering (enabled : Bool)
  | writeConn (bytes : Bytes) (padding : PaddingDraw)

namespace WriterRuntimeState
variable {writer : WriterRuntimeState}

def afterCall (writer : WriterRuntimeState) : WriterCall → WriterRuntimeState
  | .setBuffering enabled => writer.setBuffering enabled
  | .writeConn bytes padding => (AnyTls.writeConn writer bytes padding).state

/-- The number that the call gives its packet. -/
def packet? (writer : WriterRuntimeState) : WriterCall → Option UInt32
  | .setBuffering _ => none
  | .writeConn _ _ => if !writer.buffering && writer.sendPadding then some (writer.pktCounter + 1) else none

/-- The packet numbers of a run. -/
def packets (writer : WriterRuntimeState) : List WriterCall → List UInt32
  | [] => []
  | call :: rest => (writer.packet? call).toList ++ (writer.afterCall call).packets rest

/-- What one call does to the counter and the switch. -/
theorem afterCall_cases (writer : WriterRuntimeState) (call : WriterCall) :
    ((writer.afterCall call).pktCounter = writer.pktCounter ∧ (writer.afterCall call).sendPadding = writer.sendPadding ∧
      writer.packet? call = none) ∨
    (writer.sendPadding = true ∧ (writer.afterCall call).pktCounter = writer.pktCounter + 1 ∧
      writer.packet? call = some (writer.pktCounter + 1) ∧
      ((writer.afterCall call).sendPadding = true → ∃ stop, writer.pktCounter + 1 < stop)) := by
  cases call with
  | setBuffering enabled => exact .inl ⟨rfl, rfl, rfl⟩
  | writeConn bytes padding =>
    by_cases buffering : writer.buffering = true
    · refine .inl ?_
      simp [afterCall, packet?, AnyTls.writeConn, buffering, appendBufferedBytes]
    · have flowing := Bool.eq_false_iff.mpr buffering
      rw [afterCall, packet?, writeConn_flowing flowing, flowing, Bool.not_false, Bool.true_and]
      by_cases shaping : writer.sendPadding = true
      · rw [if_pos shaping, if_pos shaping]
        by_cases below : writer.pktCounter + 1 < padding.stop
        · rw [if_pos below]
          exact .inr ⟨shaping, rfl, rfl, fun _ => ⟨padding.stop, below⟩⟩
        · rw [if_neg below]
          exact .inr ⟨shaping, rfl, rfl, by rintro ⟨⟩⟩
      · rw [if_neg shaping, if_neg shaping]
        exact .inl ⟨rfl, rfl, rfl⟩

/-- As long as packets are shaped, the counter has room for one more. -/
def Counted (writer : WriterRuntimeState) : Prop := writer.sendPadding = true → writer.pktCounter.toNat + 1 < 2 ^ 32

theorem counted_new (isClient) : (WriterRuntimeState.new isClient).Counted := fun _ => by
  rw [new, UInt32.toNat_zero]
  decide

theorem Counted.toNat_succ (counted : writer.Counted) (shaping : writer.sendPadding = true) :
    (writer.pktCounter + 1).toNat = writer.pktCounter.toNat + 1 := by
  rw [UInt32.toNat_add, UInt32.toNat_one, Nat.mod_eq_of_lt (counted shaping)]

theorem Counted.step (counted : writer.Counted) (call : WriterCall) : (writer.afterCall call).Counted := by
  intro shaping
  rcases afterCall_cases writer call with ⟨counter, switch, -⟩ | ⟨before, counter, -, stop⟩
  · rw [counter]
    exact counted (switch ▸ shaping)
  · obtain ⟨stop, below⟩ := stop shaping
    rw [counter]
    exact Nat.lt_of_le_of_lt (UInt32.lt_iff_toNat_lt.mp below) stop.toNat_lt

theorem Counted.run (counted : writer.Counted) (calls : List WriterCall) : (calls.foldl afterCall writer).Counted := by
  induction calls generalizing writer with
  | nil => exact counted
  | cons call rest ih => exact ih (counted.step call)

/-- The packet numbers of a run grow from the counter on. -/
theorem Counted.packets (counted : writer.Counted) (calls) :
    (writer.packets calls).Pairwise (· < ·) ∧ ∀ number ∈ writer.packets calls, writer.pktCounter < number := by
  induction calls generalizing writer with
  | nil => exact ⟨.nil, by rintro _ ⟨⟩⟩
  | cons call rest ih =>
    obtain ⟨sorted, larger⟩ := ih (counted.step call)
    rw [WriterRuntimeState.packets]
    rcases afterCall_cases writer call with ⟨counter, -, none⟩ | ⟨shaping, counter, numbered, -⟩
    · rw [none, Option.toList_none, List.nil_append]
      exact ⟨sorted, fun number member => counter ▸ larger number member⟩
    · have grows : writer.pktCounter < writer.pktCounter + 1 := by
        rw [UInt32.lt_iff_toNat_lt, counted.toNat_succ shaping]
        exact Nat.lt_succ_self _
      rw [counter] at larger
      rw [numbered, Option.toList_some, List.singleton_append]
      refine ⟨List.pairwise_cons.mpr ⟨larger, sorted⟩, List.forall_mem_cons.mpr ⟨grows, ?_⟩⟩
      intro number member
      exact UInt32.lt_trans grows (larger number member)

/-- No packet of a run has a number above the counter it leaves. -/
theorem Counted.packets_le (counted : writer.Counted) (calls) :
    writer.pktCounter ≤ (calls.foldl afterCall writer).pktCounter ∧
      ∀ number ∈ writer.packets calls, number ≤ (calls.foldl afterCall writer).pktCounter := by
  induction calls generalizing writer with
  | nil => exact ⟨UInt32.le_refl _, by rintro _ ⟨⟩⟩
  | cons call rest ih =>
    obtain ⟨grows, earlier⟩ := ih (counted.step call)
    rw [WriterRuntimeState.packets, List.foldl_cons]
    rcases afterCall_cases writer call with ⟨counter, -, none⟩ | ⟨shaping, counter, numbered, -⟩
    · rw [none, Option.toList_none, List.nil_append]
      exact ⟨counter ▸ grows, earlier⟩
    · rw [numbered, Option.toList_some, List.singleton_append]
      rw [counter] at grows
      refine ⟨UInt32.le_trans ?_ grows, List.forall_mem_cons.mpr ⟨grows, earlier⟩⟩
      rw [UInt32.le_iff_toNat_le, counted.toNat_succ shaping]
      exact Nat.le_succ _

/-- The switch stays off, and the counter stands still. -/
theorem run_off (off : writer.sendPadding = false) (calls : List WriterCall) :
    (calls.foldl afterCall writer).sendPadding = false ∧ (calls.foldl afterCall writer).pktCounter = writer.pktCounter := by
  induction calls generalizing writer with
  | nil => exact ⟨off, rfl⟩
  | cons call rest ih =>
    rcases afterCall_cases writer call with ⟨counter, switch, -⟩ | ⟨on, -⟩
    · rw [List.foldl_cons, ← counter]
      exact ih (switch.trans off)
    · rw [off] at on
      cases on

end WriterRuntimeState

open WriterRuntimeState in
/-- In every run of `write_conn` calls, whatever schemes they find in force: where a packet is
numbered the counter has not reached its end, the numbers grow, so that none is used twice, a
packet whose number is not below `stop` is written as it is and ends the shaping; and once it has
ended it does not come back, the counter stands still, and every call that does not buffer makes
one write of its bytes. -/
theorem packet_numbers (isClient : Bool) (calls : List WriterCall) :
    let writer := calls.foldl WriterRuntimeState.afterCall (WriterRuntimeState.new isClient)
    (writer.sendPadding = true → writer.pktCounter.toNat + 1 < 2 ^ 32) ∧
    ((WriterRuntimeState.new isClient).packets calls).Pairwise (· < ·) ∧
    (∀ number ∈ (WriterRuntimeState.new isClient).packets calls, number ≤ writer.pktCounter) ∧
    (∀ bytes padding number, writer.packet? (.writeConn bytes padding) = some number → ¬ number < padding.stop →
      (writeConn writer bytes padding).records = [writer.buffer ++ bytes] ∧
      (writeConn writer bytes padding).state.sendPadding = false) ∧
    (writer.sendPadding = false → ∀ later : List WriterCall,
      (later.foldl WriterRuntimeState.afterCall writer).sendPadding = false ∧
      (later.foldl WriterRuntimeState.afterCall writer).pktCounter = writer.pktCounter ∧
      ∀ bytes padding, (later.foldl WriterRuntimeState.afterCall writer).buffering = false →
        (writeConn (later.foldl WriterRuntimeState.afterCall writer) bytes padding).records =
          [(later.foldl WriterRuntimeState.afterCall writer).buffer ++ bytes]) := by
  have counted := counted_new isClient
  refine ⟨counted.run calls, (counted.packets calls).1, (counted.packets_le calls).2, ?_, ?_⟩
  · intro bytes padding number numbered above
    rw [packet?] at numbered
    split_ifs at numbered with open_
    rw [Bool.and_eq_true, Bool.not_eq_true'] at open_
    cases numbered
    rw [writeConn_flowing open_.1, if_pos open_.2, if_neg above]
    exact ⟨rfl, rfl⟩
  · intro off later
    obtain ⟨stays, still⟩ := run_off off later
    refine ⟨stays, still, ?_⟩
    intro bytes padding flowing
    rw [writeConn_flowing flowing, if_neg (Bool.eq_false_iff.mp stays)]

end AnyTls
