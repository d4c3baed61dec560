import AnyTls.Proxy.Tracing

/-! What a sequence of frames brings to the streams of a server, said of the frames alone. A
SYN makes a stream unless one of its sid is open; the payload of later PSH frames of the sid
goes to it, up to the first FIN or SynAck with an error, which ends it. -/
namespace AnyTls

/-- How a frame ends the stream of its sid: with the end of the input, or with an error. -/
def Frame.ending? (frame : Frame) : Option (Option IoError) :=
  match frame.cmd with
  | .fin => some none
  | .synAck => if frame.data.isEmpty then none else some (some frame.remoteError)
  | _ => none

def Frame.payload (frame : Frame) : Bytes :=
  match frame.cmd with
  | .psh => frame.data
  | _ => []

/-- What one stream has received: its payload, and how it was ended. -/
structure Inbox where
  sid : UInt32
  data : Bytes
  ending : Option (Option IoError)
deriving DecidableEq

namespace Inbox

def new (sid : UInt32) : Inbox := ⟨sid, [], none⟩

def isOpen (box : Inbox) (sid : UInt32) : Bool := decide (box.sid = sid) && box.ending.isNone

def take (box : Inbox) (frame : Frame) : Inbox :=
  if box.isOpen frame.sid then ⟨box.sid, box.data ++ frame.payload, frame.ending?⟩ else box

/-- The stream that was made just before the frames. -/
def received (sid : UInt32) (frames : List Frame) : Inbox := frames.foldl take (new sid)

/-- The streams in the order in which they were made. -/
def demux (boxes : List Inbox) (frame : Frame) : List Inbox :=
  boxes.map (·.take frame) ++
    if frame.cmd = .syn ∧ (boxes.all fun box => !box.isOpen frame.sid) = true then [new frame.sid] else []

section
variable {box : Inbox} {boxes : List Inbox} {frame : Frame} {frames : List Frame} {sid : UInt32}

theorem isOpen_iff : box.isOpen sid = true ↔ box.sid = sid ∧ box.ending = none := by
  simp [isOpen]

theorem take_of_open (isOpen : box.isOpen frame.sid = true) :
    box.take frame = ⟨box.sid, box.data ++ frame.payload, frame.ending?⟩ := if_pos isOpen

theorem take_of_not (shut : box.isOpen frame.sid = false) : box.take frame = box := by
  simp [take, shut]

theorem take_sid : (box.take frame).sid = box.sid := by
  unfold take
  split_ifs
  · rfl
  · rfl

/-- A frame of another sid changes nothing. -/
theorem take_other (other : frame.sid ≠ box.sid) : box.take frame = box := by
  apply take_of_not
  simp [isOpen, Ne.symm other]

/-- Nothing changes a stream that has ended. -/
theorem take_ended (ended : box.ending ≠ none) : box.take frame = box := by
  apply take_of_not
  simp [isOpen, Option.isSome_iff_ne_none.mpr ended]

theorem foldl_take_ended (ended : box.ending ≠ none) : frames.foldl take box = box := by
  induction frames with
  | nil => rfl
  | cons frame rest ih => rw [List.foldl_cons, take_ended ended, ih]

/-- A frame that has neither payload nor an end changes nothing. -/
theorem take_silent (payload : frame.payload = []) (ending : frame.ending? = none) : box.take frame = box := by
  unfold take
  split_ifs with isOpen
  · rw [payload, ending, List.append_nil, ← (isOpen_iff.mp isOpen).2]
  · rfl

theorem payload_of_ending {error} (ends : frame.ending? = some error) : frame.payload = [] := by
  unfold Frame.payload
  split
  · rename_i psh
    simp [Frame.ending?, psh] at ends
  · rfl

/-- What an open stream gets from the frames, written out. -/
theorem foldl_take (isOpen : box.ending = none) : frames.foldl take box =
    ⟨box.sid,
      box.data ++ ((frames.filter (·.sid = box.sid)).takeWhile (·.ending?.isNone)).flatMap Frame.payload,
      (frames.filter (·.sid = box.sid)).findSome? Frame.ending?⟩ := by
  induction frames generalizing box with
  | nil => simp [← isOpen]
  | cons frame rest ih =>
    rw [List.foldl_cons]
    by_cases same : frame.sid = box.sid
    · rw [take_of_open (isOpen_iff.mpr ⟨same.symm, isOpen⟩)]
      cases ends : frame.ending? with
      | none => simp [ih, same, ends]
      | some error =>
        rw [foldl_take_ended (by simp), payload_of_ending ends]
        simp [same, ends]
    · rw [take_other same, ih isOpen]
      simp [same]

theorem received_eq : received sid frames =
    ⟨sid, ((frames.filter (·.sid = sid)).takeWhile (·.ending?.isNone)).flatMap Frame.payload,
      (frames.filter (·.sid = sid)).findSome? Frame.ending?⟩ := by
  rw [received, foldl_take rfl]
  rfl

/-- A stream keeps its place, and gets what the frames have for it. -/
theorem foldl_demux_getElem? {i : Nat} (placed : boxes[i]? = some box) :
    (frames.foldl demux boxes)[i]? = some (frames.foldl take box) := by
  induction frames generalizing boxes box with
  | nil => exact placed
  | cons frame rest ih =>
    refine ih (List.getElem?_append_left ?_ |>.trans ?_)
    · rw [List.length_map]
      exact (List.getElem?_eq_some_iff.mp placed).1
    · rw [List.getElem?_map, placed, Option.map_some]

/-- A SYN makes a stream if none of its sid is open. -/
theorem demux_syn (syn : frame.cmd = .syn) (unknown : ∀ box ∈ boxes, box.isOpen frame.sid = false) :
    demux boxes frame = boxes ++ [new frame.sid] := by
  have shut : (boxes.all fun box => !box.isOpen frame.sid) = true := by
    rw [List.all_eq_true]
    intro box member
    simp [unknown box member]
  have kept : boxes.map (·.take frame) = boxes :=
    (List.map_congr_left fun box member => take_of_not (unknown box member)).trans (List.map_id' boxes)
  rw [demux, if_pos ⟨syn, shut⟩, kept]

/-- Where a stream comes from: a SYN that found none of its sid open, and what followed it. -/
theorem foldl_demux_made {i : Nat} : (frames.foldl demux [])[i]? = some box ↔
    ∃ (before : List Frame) (syn : Frame) (after : List Frame), frames = before ++ syn :: after ∧ syn.cmd = .syn ∧
      (∀ other ∈ before.foldl demux [], other.isOpen syn.sid = false) ∧ i = (before.foldl demux []).length ∧
      box = received syn.sid after := by
  constructor
  · intro placed
    induction frames using List.reverseRecOn generalizing box with
    | nil => cases placed
    | append_singleton frames frame ih =>
      rw [List.foldl_append, List.foldl_cons, List.foldl_nil, demux] at placed
      rcases Nat.lt_or_ge i (frames.foldl demux []).length with old | new
      · rw [List.getElem?_append_left (by simpa using old), List.getElem?_map] at placed
        obtain ⟨earlier, found, rfl⟩ := Option.map_eq_some_iff.mp placed
        obtain ⟨before, syn, after, rfl, cmd, unknown, index, rfl⟩ := ih found
        refine ⟨before, syn, after ++ [frame], by simp, cmd, unknown, index, ?_⟩
        rw [received, received, List.foldl_append, List.foldl_cons, List.foldl_nil]
      · rw [List.getElem?_append_right (by simpa using new), List.length_map] at placed
        split_ifs at placed with makes
        · obtain ⟨within, same⟩ := List.getElem?_eq_some_iff.mp placed
          have last : i = (frames.foldl demux []).length := by
            rw [List.length_singleton] at within
            omega
          subst last
          refine ⟨frames, frame, [], rfl, makes.1, fun other member => ?_, rfl, ?_⟩
          · simpa using List.all_eq_true.mp makes.2 other member
          · simpa [received] using same.symm
        · cases placed
  · rintro ⟨before, syn, after, rfl, cmd, unknown, rfl, rfl⟩
    rw [List.foldl_append, List.foldl_cons, demux_syn cmd unknown]
    exact foldl_demux_getElem? (by simp)

theorem demux_filter : (demux boxes frame).filter (·.sid = sid) =
    if frame.sid = sid then demux (boxes.filter (·.sid = sid)) frame else boxes.filter (·.sid = sid) := by
  have taken : (boxes.map (·.take frame)).filter (·.sid = sid) =
      (boxes.filter (·.sid = sid)).map (·.take frame) := by
    rw [List.filter_map]
    refine congrArg (List.map _) (List.filter_congr fun box _ => ?_)
    rw [Function.comp_apply, take_sid]
  rw [demux, List.filter_append, taken]
  by_cases same : frame.sid = sid
  · -- the test for an open stream sees only those of the sid
    subst same
    have test : ((boxes.filter (·.sid = frame.sid)).all fun box => !box.isOpen frame.sid) =
        boxes.all fun box => !box.isOpen frame.sid := by
      rw [Bool.eq_iff_iff, List.all_eq_true, List.all_eq_true]
      refine ⟨fun all box member => ?_, fun all box member => all box (List.mem_of_mem_filter member)⟩
      by_cases here : box.sid = frame.sid
      · exact all box (List.mem_filter.mpr ⟨member, decide_eq_true here⟩)
      · simp [isOpen, here]
    rw [if_pos rfl, demux, test]
    split_ifs
    · simp [new]
    · rfl
  · have kept (box : Inbox) (member : box ∈ boxes.filter (·.sid = sid)) : box.take frame = box := by
      apply take_other
      rw [of_decide_eq_true (List.mem_filter.mp member).2]
      exact same
    rw [if_neg same, List.map_congr_left kept]
    split_ifs
    · simp [new, same]
    · simp

/-- The streams of a sid come from the frames of that sid alone. -/
theorem foldl_demux_filter : (frames.foldl demux []).filter (·.sid = sid) =
    (frames.filter (·.sid = sid)).foldl demux [] := by
  induction frames using List.reverseRecOn with
  | nil => rfl
  | append_singleton frames frame ih =>
    rw [List.foldl_append, List.foldl_cons, List.foldl_nil, demux_filter, ih, List.filter_append]
    split_ifs with same
    · simp [same]
    · simp [same]

end

end Inbox

end AnyTls
