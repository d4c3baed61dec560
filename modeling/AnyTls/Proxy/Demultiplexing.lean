import AnyTls.Proxy.Tracking

/-! The streams of a server against the frames it has handled. Between two frames the streams
are those that the frames alone determine, each with the payload and the end that the frames
have for it, whatever the tasks that write to them, read from them and serve them have done. -/
namespace AnyTls

/-- No stream is opened, closed or abandoned from this side, and neither the session nor its
writer task ends. -/
def SessionAction.passive : SessionAction → Bool
  | .openStream _ | .close _ | .dropRead _ | .terminate | .writerFails _ _ => false
  | _ => true

theorem SessionAction.steady_of_passive {a : SessionAction} (passive : a.passive = true) : a.steady = true := by
  cases a with
  | terminate | writerFails => cases passive
  | _ => rfl

/-- The frame in progress is refused, or the loop has failed. -/
def RecvPc.refuses : RecvPc → Bool
  | .applying (.alertAndFail _ :: _) => true
  | pc => pc.pending.isNone

theorem onSettings_makes {state} (settings : StringMap) :
    (Engine.onSettings state settings).2.filterMap ProtocolAction.incoming? = [] := by
  simp only [Engine.onSettings]
  split
  · split_ifs <;> rfl
  · split_ifs <;> rfl

/-- What a frame makes a server do about its streams. -/
theorem onFrame_makes {md5 state frame} :
    (frame.cmd = .syn ∧ ((Engine.onFrame md5 state false frame).2 = [.ensureIncomingStream frame.sid] ∨
      ∃ message, (Engine.onFrame md5 state false frame).2 = [.alertAndFail message])) ∨
    (frame.cmd ≠ .syn ∧ (Engine.onFrame md5 state false frame).2.filterMap ProtocolAction.incoming? = []) := by
  obtain ⟨cmd, sid, data⟩ := frame
  cases cmd with
  | syn =>
    refine .inl ⟨rfl, ?_⟩
    simp only [Engine.onFrame, Bool.false_eq_true, if_false]
    split_ifs
    · exact .inl rfl
    · exact .inr ⟨_, rfl⟩
  | psh | synAck =>
    refine .inr ⟨by simp, ?_⟩
    simp only [Engine.onFrame]
    split_ifs
    · rfl
    · rfl
  | settings =>
    refine .inr ⟨by simp, ?_⟩
    simp only [Engine.onFrame]
    split_ifs
    · exact onSettings_makes _
    · rfl
  | updatePaddingScheme | serverSettings =>
    refine .inr ⟨by simp, ?_⟩
    simp only [Engine.onFrame, Bool.false_and, Bool.false_eq_true, if_false]
    rfl
  | waste | fin | alert | heartRequest | heartResponse | unknown value => exact .inr ⟨by simp, rfl⟩

namespace Session
variable {md5 : Bytes → String} {s t : Session} {a : SessionAction}

/-- What the frames handled since have for each stream. -/
def inboxes (s : Session) : List Inbox :=
  s.objects.map fun o => Inbox.received o.stream.id (s.handled.drop o.history.born)

/-- The stream that the loop is about to make. -/
def coming (s : Session) : List Inbox :=
  (s.recv.awaited.filter fun sid => (s.streams.lookup sid).isNone).map Inbox.new

/-- A server on which nothing is ended from this side. -/
structure Demuxes (s : Session) : Prop where
  server : s.isClient = false
  opens : s.opens = []
  steady : s.Steady
  traced : s.Traced
  follows : ∀ (ref : StreamRef) o, s.objects[ref]? = some o → s.Follows ref o (Inbox.new o.stream.id)
  offered : s.newStreams = List.range s.objects.length
  single : ∀ sid ∈ s.recv.awaited, s.recv = .applying [.ensureIncomingStream sid] ∨ s.recv = .incoming sid []
  boxes : s.recv.refuses = false → s.inboxes ++ s.coming = s.handled.foldl Inbox.demux []

theorem refuses_step (refuses : s.recv.refuses = true) (stepped : s.step md5 a = some t) :
    t.recv.refuses = true := by
  have stopped (failed : t.recv.pending = none) : t.recv.refuses = true := by
    unfold RecvPc.refuses
    split
    · rfl
    · rw [failed]
      rfl
  unfold RecvPc.refuses at refuses
  split at refuses
  · rename_i message rest receiving
    cases (step_effect stepped).inbound with
    | same same =>
      have recv : t.recv = s.recv := congrArg (·.1) same
      rw [recv, receiving]
      rfl
    | receive chunk called reading | disconnect error called reading => cases receiving.symm.trans reading
    | recv called =>
      subst called
      simp only [step, recvStep, receiving, applyAction] at stepped
      obtain ⟨result, -, rfl⟩ := Option.map_eq_some_iff.mp stepped
      cases result <;> rfl
  · apply stopped
    by_contra running
    exact (step_move stepped).pending running (Option.isNone_iff_eq_none.mp refuses)

/-- A SYN is refused, or comes after the end of the session, or goes on to the table. -/
theorem ensure_step {sid rest} (receiving : s.recv = .applying (.ensureIncomingStream sid :: rest))
    (stepped : s.step md5 .recvStep = some t) :
    (∃ error, t = { s with recv := .failed error }) ∨ (s.isTerminated = true ∧ t = { s with recv := .applying rest }) ∨
      t = { s with recv := .incoming sid rest } := by
  simp only [step, recvStep, receiving, applyAction] at stepped
  split_ifs at stepped with zero late
  · cases stepped
    exact .inl ⟨_, rfl⟩
  · cases stepped
    exact .inr (.inl ⟨late, rfl⟩)
  · cases stepped
    exact .inr (.inr rfl)

theorem incoming_step {sid rest} (receiving : s.recv = .incoming sid rest)
    (stepped : s.step md5 .recvStep = some t) : t = s.createIncoming sid rest := by
  simp only [step, recvStep, receiving, Option.some.injEq] at stepped
  exact stepped.symm

theorem running_of_accepted {pc : RecvPc} (accepted : pc.refuses = false) : pc.pending ≠ none := by
  intro failed
  unfold RecvPc.refuses at accepted
  split at accepted
  · cases accepted
  · rw [failed] at accepted
    cases accepted

/-- Other tasks leave the table alone. -/
theorem Demuxes.table (demuxes : s.Demuxes) (passive : a.passive = true) (running : s.recv.pending ≠ none)
    (other : a ≠ .recvStep) (stepped : s.step md5 a = some t) : t.streams = s.streams := by
  obtain ⟨actions, pending⟩ := Option.ne_none_iff_exists'.mp running
  have uncalled {i : Nat} {pc : OpenPc} (placed : s.opens[i]? = some pc) : False := by
    rw [demuxes.opens] at placed
    cases placed
  cases step_move stepped with
  | inserts placed | undoRemoves placed => exact (uncalled placed).elim
  | removes found closing =>
    obtain ⟨box, tracked, -⟩ := demuxes.follows _ _ found actions pending
    have writer := tracked.writer
    rw [closing] at writer
    cases writer
  | clears ending => cases (demuxes.steady.unset running).2.symm.trans ending
  | ends | creates => exact absurd rfl other
  | _ => rfl

/-- A sid is in the table if and only if a stream of it is open. -/
theorem Demuxes.lookup_none (demuxes : s.Demuxes) (pending : s.recv.pending = some []) (sid) :
    s.streams.lookup sid = none ↔ ∀ box ∈ s.inboxes, box.isOpen sid = false := by
  constructor
  · intro absent box member
    obtain ⟨o, listed, rfl⟩ := List.mem_map.mp member
    obtain ⟨ref, stored⟩ := List.mem_iff_getElem?.mp listed
    obtain ⟨box, tracked, rfl⟩ := demuxes.follows ref o stored [] pending
    rw [Bool.eq_false_iff]
    intro isOpen
    cases absent.symm.trans (tracked.isOpen isOpen)
  · intro shut
    rw [Option.eq_none_iff_forall_ne_some]
    intro ref listed
    obtain ⟨o, stored, rfl⟩ := demuxes.traced.mapped sid ref listed
    obtain ⟨box, tracked, same⟩ := demuxes.follows ref o stored [] pending
    have isOpen : box.isOpen o.stream.id = true := Inbox.isOpen_iff.mpr ⟨tracked.sid, tracked.listed.mp listed⟩
    have closed := shut box (List.mem_map.mpr ⟨o, List.mem_of_getElem? stored, same.symm⟩)
    cases isOpen.symm.trans closed

/-- A stream is made only for a SYN whose sid is not in the table. -/
theorem Demuxes.created (demuxes : s.Demuxes) {o} (created : Created s a o) :
    ∃ sid, a = .recvStep ∧ s.recv = .incoming sid [] ∧ s.streams.lookup sid = none ∧
      o = StreamObject.new sid .idle s.handled.length := by
  cases created with
  | incoming sid rest called receiving absent =>
    rcases demuxes.single sid (by rw [receiving]; exact List.mem_cons_self) with applying | incoming
    · cases receiving.symm.trans applying
    · exact ⟨sid, called, incoming, absent, rfl⟩
  | opened i maxStreams called placed =>
    rw [demuxes.opens] at placed
    cases placed

theorem Demuxes.follows_step (demuxes : s.Demuxes) (passive : a.passive = true) (stepped : s.step md5 a = some t) :
    ∀ (ref : StreamRef) o, t.objects[ref]? = some o → t.Follows ref o (Inbox.new o.stream.id) := by
  intro ref after stored actions left
  have running := (step_move stepped).pending (by rw [left]; exact Option.some_ne_none _)
  rcases (step_effect stepped).objects.2 ref after stored with ⟨o, was, change⟩ | ⟨rfl, made⟩
  · have calm : a ≠ .close ref ∧ a ≠ .dropRead ref := by
      constructor
      · rintro rfl
        cases passive
      · rintro rfl
        cases passive
    obtain ⟨_, kept, follows⟩ := (demuxes.follows ref o was).step demuxes.steady demuxes.traced was calm
      (fun other => by rw [demuxes.table passive running other stepped]) stepped
    cases stored.symm.trans kept
    rw [change.id]
    exact follows actions left
  · obtain ⟨sid, rfl, receiving, absent, rfl⟩ := demuxes.created made
    have made := incoming_step receiving stepped
    simp only [createIncoming, absent] at made
    subst made
    exact Follows.new rfl (AList.lookup_insert _) rfl actions left

theorem Demuxes.offered_step (demuxes : s.Demuxes) (stepped : s.step md5 a = some t) :
    t.newStreams = List.range t.objects.length := by
  cases step_move stepped with
  | creates => simp [demuxes.offered, List.range_succ]
  | inserts placed =>
    rw [demuxes.opens] at placed
    cases placed
  | _ => simp [modifyObject, demuxes.offered]

theorem Demuxes.single_step (demuxes : s.Demuxes) (stepped : s.step md5 a = some t) :
    ∀ sid ∈ t.recv.awaited, t.recv = .applying [.ensureIncomingStream sid] ∨ t.recv = .incoming sid [] := by
  intro sid awaited
  cases (step_effect stepped).inbound with
  | same same =>
    have recv : t.recv = s.recv := congrArg (·.1) same
    rw [recv] at awaited ⊢
    exact demuxes.single sid awaited
  | receive chunk called reading same | disconnect error called reading same =>
    subst same
    cases awaited
  | recv called =>
    subst called
    rcases recvStep_cases stepped with ⟨frame, rest, -, -, rfl⟩ | onward
    · unfold handleFrame at awaited ⊢
      split_ifs at awaited with alert
      · cases awaited
      · rw [if_neg alert]
        simp only [demuxes.server] at awaited ⊢
        rcases onFrame_makes with ⟨-, makes | ⟨message, refuses⟩⟩ | ⟨-, none⟩
        · rw [makes] at awaited ⊢
          cases List.mem_singleton.mp awaited
          exact .inl rfl
        · rw [refuses] at awaited
          cases awaited
        · rw [RecvPc.awaited, RecvPc.pending, Option.getD_some, none] at awaited
          cases awaited
    · obtain ⟨made, -, sublist⟩ := onward.made
      have before := demuxes.single sid (sublist.subset (List.mem_append_right _ awaited))
      rcases before with receiving | receiving
      · rcases ensure_step receiving stepped with ⟨error, rfl⟩ | ⟨-, rfl⟩ | rfl
        · cases awaited
        · cases awaited
        · exact .inr rfl
      · rw [incoming_step receiving stepped, createIncoming] at awaited
        split at awaited
        · cases awaited
        · cases awaited

/-! ### The list of inboxes -/

/-- What an inbox is computed from. -/
def birth (o : StreamObject) : UInt32 × Nat := (o.stream.id, o.history.born)

theorem inboxes_births (s : Session) :
    s.inboxes = (s.objects.map birth).map fun made => Inbox.received made.1 (s.handled.drop made.2) := by
  rw [List.map_map]
  rfl

/-- A step that neither takes a frame nor makes a stream leaves the inboxes. -/
theorem inboxes_same (births : t.objects.map birth = s.objects.map birth) (handled : t.handled = s.handled) :
    t.inboxes = s.inboxes := by
  rw [inboxes_births, inboxes_births, births, handled]

theorem Demuxes.births (demuxes : s.Demuxes) (stepped : s.step md5 a = some t)
    (unmade : ∀ sid, a = .recvStep → s.recv = .incoming sid [] → s.streams.lookup sid ≠ none) :
    t.objects.map birth = s.objects.map birth := by
  have fixed (ref : StreamRef) (before after : StreamObject) (change : Change s a t ref before after) :
      birth after = birth before := by
    rw [birth, birth, change.id, change.born]
  rcases (step_effect stepped).objects.map birth fixed with same | ⟨o, created, -⟩
  · exact same
  · obtain ⟨sid, called, receiving, absent, -⟩ := demuxes.created created
    exact absurd absent (unmade sid called receiving)

/-- A frame goes to the inbox of its sid. -/
theorem Demuxes.inboxes_handled (demuxes : s.Demuxes) (pending : s.recv.pending = some []) (frame)
    (objects : t.objects = s.objects) (handled : t.handled = s.handled ++ [frame]) :
    t.inboxes = s.inboxes.map (·.take frame) := by
  rw [inboxes, inboxes, objects, handled, List.map_map]
  refine List.map_congr_left fun o member => ?_
  obtain ⟨ref, stored⟩ := List.mem_iff_getElem?.mp member
  obtain ⟨box, tracked, -⟩ := demuxes.follows ref o stored [] pending
  rw [List.drop_append_of_le_length tracked.born, Function.comp_apply, Inbox.received, Inbox.received,
    List.foldl_append]
  rfl

/-- A server takes a frame. -/
theorem Demuxes.boxes_frame (demuxes : s.Demuxes) {frame} (receiving : s.recv = .decoding)
    (same : (t.objects, t.streams) = (s.objects, s.streams)) (handled : t.handled = s.handled ++ [frame])
    (applying : t.recv = .applying (Engine.onFrame md5 s.protocolState false frame).2)
    (accepted : t.recv.refuses = false) : t.inboxes ++ t.coming = t.handled.foldl Inbox.demux [] := by
  simp only [Prod.mk.injEq] at same
  have pending : s.recv.pending = some [] := by rw [receiving]; rfl
  have before := demuxes.boxes (by rw [receiving]; rfl)
  have unawaited : s.coming = [] := by
    rw [coming, receiving]
    rfl
  rw [unawaited, List.append_nil] at before
  rw [demuxes.inboxes_handled pending frame same.1 handled, handled, List.foldl_append, ← before, List.foldl_cons,
    List.foldl_nil, Inbox.demux, coming, applying, same.2]
  refine congrArg (s.inboxes.map (·.take frame) ++ ·) ?_
  rcases onFrame_makes with ⟨syn, makes | ⟨message, refuses⟩⟩ | ⟨other, none⟩
  · -- a SYN makes a stream if its sid is not in the table
    have unknown := demuxes.lookup_none pending frame.sid
    rw [makes]
    by_cases absent : s.streams.lookup frame.sid = none
    · have shut : (s.inboxes.all fun box => !box.isOpen frame.sid) = true := by
        rw [List.all_eq_true]
        intro box member
        rw [unknown.mp absent box member]
        rfl
      simp [RecvPc.awaited, RecvPc.arriving, RecvPc.pending, ProtocolAction.incoming?, absent, syn, shut]
    · have shut : ¬ (s.inboxes.all fun box => !box.isOpen frame.sid) = true := by
        intro all
        refine absent (unknown.mpr fun box member => ?_)
        simpa using List.all_eq_true.mp all box member
      simp [RecvPc.awaited, RecvPc.arriving, RecvPc.pending, ProtocolAction.incoming?, absent, shut]
  · rw [applying, refuses] at accepted
    cases accepted
  · rw [RecvPc.awaited, RecvPc.pending, Option.getD_some, none, if_neg fun syn => other syn.1]
    rfl

theorem Demuxes.boxes_step (demuxes : s.Demuxes) (passive : a.passive = true) (stepped : s.step md5 a = some t)
    (accepted : t.recv.refuses = false) : t.inboxes ++ t.coming = t.handled.foldl Inbox.demux [] := by
  have before : s.recv.refuses = false := by
    by_contra refuses
    rw [refuses_step (by simpa using refuses) stepped] at accepted
    cases accepted
  have boxes := demuxes.boxes before
  -- no stream is made, and the one that is about to be made stays so
  have unchanged (unmade : ∀ sid, a = .recvStep → s.recv = .incoming sid [] → s.streams.lookup sid ≠ none)
      (handled : t.handled = s.handled) (coming : t.coming = s.coming) : t.inboxes ++ t.coming = t.handled.foldl Inbox.demux [] := by
    rw [inboxes_same (demuxes.births stepped unmade) handled, coming, handled]
    exact boxes
  by_cases loop : a = .recvStep
  · subst loop
    rcases recvStep_cases stepped with ⟨frame, rest, receiving, -, rfl⟩ | onward
    · unfold handleFrame at accepted ⊢
      split_ifs at accepted ⊢ with alert
      · cases accepted
      · exact demuxes.boxes_frame receiving rfl rfl (by rw [← demuxes.server]) accepted
    · have handled : t.handled = s.handled := congrArg (·.2.2.1) onward.inbound
      cases awaited : s.recv.awaited with
      | nil =>
        obtain ⟨made, -, sublist⟩ := onward.made
        rw [awaited] at sublist
        refine unchanged (fun sid _ receiving => ?_) handled ?_
        · rw [receiving] at awaited
          cases awaited
        · have later := (List.append_eq_nil_iff.mp (List.sublist_nil.mp sublist)).2
          rw [coming, coming, later, awaited]
          rfl
      | cons sid more =>
        rcases demuxes.single sid (by rw [awaited]; exact List.mem_cons_self) with receiving | receiving
        · refine unchanged (fun _ _ incoming => ?_) handled ?_
          · cases receiving.symm.trans incoming
          · rcases ensure_step receiving stepped with ⟨error, rfl⟩ | ⟨late, -⟩ | rfl
            · cases accepted
            · -- the session does not end while the loop runs
              have unset := (demuxes.steady.unset (by rw [receiving]; exact Option.some_ne_none _)).1
              rw [isTerminated, unset, demuxes.steady.alive] at late
              cases late
            · rw [coming, coming, receiving]
              rfl
        · have made := incoming_step receiving stepped
          cases lookup : s.streams.lookup sid with
          | some ref =>
            refine unchanged (fun other _ incoming => ?_) handled ?_
            · cases receiving.symm.trans incoming
              rw [lookup]
              exact Option.some_ne_none _
            · simp only [createIncoming, lookup] at made
              subst made
              rw [coming, coming, receiving]
              simp [RecvPc.awaited, RecvPc.arriving, RecvPc.pending, lookup]
          | none =>
            simp only [createIncoming, lookup] at made
            subst made
            rw [← boxes, coming, coming, receiving]
            simp [inboxes, StreamObject.new, RecvPc.awaited, RecvPc.arriving, RecvPc.pending, lookup]
            rfl
  · have streams := demuxes.table passive (running_of_accepted before) loop stepped
    have idle : t.handled = s.handled ∧ t.recv.awaited = s.recv.awaited := by
      cases (step_effect stepped).inbound with
      | same same =>
        simp only [Prod.mk.injEq] at same
        exact ⟨same.2.2.2.1, by rw [same.1]⟩
      | receive chunk called receiving same | disconnect error called receiving same =>
        subst same
        exact ⟨rfl, by rw [receiving]; rfl⟩
      | recv called => exact absurd called loop
    refine unchanged (fun _ called => absurd called loop) idle.1 ?_
    rw [coming, coming, idle.2, streams]

theorem demuxes_step (demuxes : s.Demuxes) (passive : a.passive = true) (stepped : s.step md5 a = some t) :
    t.Demuxes where
  server := (role_step stepped).trans demuxes.server
  opens := by
    cases step_move stepped with
    | asks => cases passive
    | waits placed | exhausts placed | inserts placed | synSent placed | undoRemoves placed | undoAnnounces placed
    | undoMarks placed | undoFinishes placed =>
      rw [demuxes.opens] at placed
      cases placed
    | _ => exact demuxes.opens
  steady := steady_step demuxes.steady (SessionAction.steady_of_passive passive) stepped
  traced := traced_step demuxes.traced stepped
  follows := demuxes.follows_step passive stepped
  offered := demuxes.offered_step stepped
  single := demuxes.single_step stepped
  boxes := demuxes.boxes_step passive stepped

theorem Fresh.demuxes (fresh : s.Fresh) (server : s.isClient = false) : s.Demuxes where
  server := server
  opens := fresh.opens
  steady := fresh.steady
  traced := fresh.traced
  follows _ _ stored := fresh.empty stored
  offered := by rw [fresh.newStreams, fresh.objects]; rfl
  single := by
    rw [fresh.recv]
    exact fun _ awaited => by cases awaited
  boxes _ := by
    rw [inboxes, coming, fresh.objects, fresh.recv, fresh.handled]
    rfl

/-! ### Between two frames -/

/-- A stream has what its inbox says. Reads have returned the first of its payload and the pipe
holds the rest. The stream is in the table and open until it has ended; then its reads return
what is left, and the end. -/
structure Holds (md5 : Bytes → String) (s : Session) (ref : StreamRef) (o : StreamObject) (box : Inbox) : Prop where
  sid : o.stream.id = box.sid
  payload : o.history.pushed = box.data
  order : o.history.got ++ o.stream.pipe.unread o.reader.pc = box.data
  open_ : box.ending = none → o.stream.closed = false ∧ o.stream.pipe.closed = false ∧
    s.streams.lookup box.sid = some ref
  ended : box.ending ≠ none → o.stream.closed = true ∧ s.streams.lookup box.sid ≠ some ref
  answers : ∀ len pc pipe result, 0 < len → o.reader = .reading len pc →
    o.stream.pipe.readStep len pc = some (pipe, .returned result) →
    (∃ bytes, result = .ok bytes ∧ bytes ≠ []) ∨ (pc = .restore none ∧ ∃ error, result = .error error) ∨
    (o.history.got = box.data ∧ ∃ error, box.ending = some error ∧
      (result = streamEnding error ∨ o.stream.pipe.closed = true ∧ result = .ok []))
  reaches : ∀ error len, box.ending = some error → 0 < len → o.stream.pipe.closed = false →
    ∃ actions t size, Transition.run (step md5) s actions = some t ∧
      t.AtEnd ref box.data size (streamEnding error) ∧ ∀ a ∈ actions, a = .read ref len ∨ a = .readStep ref

variable {ref : StreamRef} {o : StreamObject} {box : Inbox}

theorem Tracked.holds (md5 : Bytes → String) (tracked : s.Tracked ref o box) (stored : s.objects[ref]? = some o)
    (between : s.recv = .reading ∨ s.recv = .decoding) : s.Holds md5 ref o box := by
  have idle : s.recv.errand ref = .none := by
    rcases between with reading | decoding
    · rw [reading]
      rfl
    · rw [decoding]
      rfl
  obtain ⟨stage, drains, stands⟩ := tracked.stands
  rw [idle] at stands
  obtain ⟨all, unended, ended⟩ := stands.of_none
  have listed := tracked.listed
  rw [← tracked.sid] at listed
  refine ⟨tracked.sid.symm, all.symm, all ▸ tracked.ordered.order, ?_, ?_, ?_, ?_⟩
  · intro none
    obtain ⟨unset, rfl⟩ := unended none
    exact ⟨unset, drains.stage.1, listed.mpr none⟩
  · intro some
    obtain ⟨error, ending⟩ := Option.ne_none_iff_exists'.mp some
    exact ⟨(ended error ending).1, fun present => some (listed.mp present)⟩
  · intro len pc pipe result room reading read
    rw [reading] at drains
    rcases tracked.ordered.answers reading drains read with ⟨-, ⟨bytes, same, filled⟩ | late⟩ | ⟨got, finished, same⟩
    · exact .inl ⟨bytes, same, filled room⟩
    · exact .inr (.inl late)
    · refine .inr (.inr ⟨got.trans all.symm, ?_⟩)
      cases ending : box.ending with
      | none => exact absurd (unended ending).2 finished
      | some error =>
        refine ⟨error, rfl, ?_⟩
        rcases (ended error ending).2 with rfl | rfl
        · cases error with
          | none => exact .inl same
          | some error => exact .inl same
        · exact .inr ⟨drains.stage.1, same⟩
  · intro error len ending room unclosed
    rcases (ended error ending).2 with rfl | rfl
    · obtain ⟨actions, t, size, path, atEnd, -, only⟩ :=
        reads_on md5 room stored tracked.ordered drains (by simp)
      refine ⟨actions, t, size, path, ?_, only⟩
      rw [all]
      cases error with
      | none => exact atEnd
      | some error => exact atEnd
    · cases unclosed.symm.trans drains.stage.1

theorem Demuxes.holds (demuxes : s.Demuxes) (md5 : Bytes → String) (stored : s.objects[ref]? = some o)
    (between : s.recv = .reading ∨ s.recv = .decoding) :
    s.Holds md5 ref o (Inbox.received o.stream.id (s.handled.drop o.history.born)) := by
  have pending : s.recv.pending = some [] := by
    rcases between with reading | decoding
    · rw [reading]
      rfl
    · rw [decoding]
      rfl
  obtain ⟨box, tracked, rfl⟩ := demuxes.follows ref o stored [] pending
  exact tracked.holds md5 stored between

theorem Demuxes.all (demuxes : s.Demuxes) (between : s.recv = .reading ∨ s.recv = .decoding) :
    s.inboxes = s.handled.foldl Inbox.demux [] := by
  rcases between with reading | decoding
  · have boxes := demuxes.boxes (by rw [reading]; rfl)
    rw [coming, reading] at boxes
    simpa [RecvPc.awaited, RecvPc.arriving, RecvPc.pending] using boxes
  · have boxes := demuxes.boxes (by rw [decoding]; rfl)
    rw [coming, decoding] at boxes
    simpa [RecvPc.awaited, RecvPc.arriving, RecvPc.pending] using boxes

/-- The payloads of the streams, with their sids. -/
theorem Demuxes.contents (demuxes : s.Demuxes) (between : s.recv = .reading ∨ s.recv = .decoding) :
    s.objects.map (fun o => (o.stream.id, o.history.pushed)) =
      (s.handled.foldl Inbox.demux []).map fun box => (box.sid, box.data) := by
  rw [← demuxes.all between, inboxes, List.map_map]
  refine List.map_congr_left fun o member => ?_
  obtain ⟨ref, stored⟩ := List.mem_iff_getElem?.mp member
  have holds := demuxes.holds (fun _ => "") stored between
  rw [Function.comp_apply, holds.payload, ← holds.sid]

/-- Demultiplexing. In every run of a server in which nothing is ended from this side, between two
frames: `on_new_stream` has been called once for each stream. A stream comes from a SYN that found
none of its sid open, and every such SYN has made one. It has the payload of the PSH frames of its
sid that came after the SYN and before the first FIN or SynAck with an error, and then the end
that this one brings. What the streams of a sid have depends on the frames of that sid alone. -/
theorem demultiplexing (md5 : Bytes → String) (iterate : StringMap.Order)
    (padding : PaddingFactory) {actions : List SessionAction} {s : Session}
    (passive : ∀ a ∈ actions, a.passive = true)
    (path : Transition.run (step md5) ((new false padding).ensureStarted iterate) actions = some s)
    (between : s.recv = .reading ∨ s.recv = .decoding) :
    s.newStreams = List.range s.objects.length ∧
    (∀ (ref : StreamRef) o, s.objects[ref]? = some o → ∃ before syn after, s.handled = before ++ syn :: after ∧
      syn.cmd = .syn ∧ (∀ box ∈ before.foldl Inbox.demux [], box.isOpen syn.sid = false) ∧
      ref = (before.foldl Inbox.demux []).length ∧
      s.Holds md5 ref o ⟨syn.sid,
        ((after.filter (·.sid = syn.sid)).takeWhile (·.ending?.isNone)).flatMap Frame.payload,
        (after.filter (·.sid = syn.sid)).findSome? Frame.ending?⟩) ∧
    (∀ before syn after, s.handled = before ++ syn :: after → syn.cmd = .syn →
      (∀ box ∈ before.foldl Inbox.demux [], box.isOpen syn.sid = false) →
      (before.foldl Inbox.demux []).length < s.objects.length) ∧
    ∀ sid, (s.objects.filter (·.stream.id = sid)).map (·.history.pushed) =
      ((s.handled.filter (·.sid = sid)).foldl Inbox.demux []).map Inbox.data := by
  have server : ((new false padding).ensureStarted iterate).isClient = false := by
    obtain ⟨queue, accepted, started⟩ := ensureStarted_eq iterate false padding
    rw [started]
    rfl
  have allowed : Transition.Along (step md5) (fun _ a => a.passive = true)
      ((new false padding).ensureStarted iterate) actions := Transition.along_of_mem passive
  have demuxes : s.Demuxes := Transition.invariant_along demuxes_step
    ((fresh_started iterate false padding).demuxes server) allowed path
  have boxes := demuxes.all between
  refine ⟨demuxes.offered, fun ref o stored => ?_, fun before syn after split cmd unknown => ?_, fun sid => ?_⟩
  · have placed : s.inboxes[ref]? = some (Inbox.received o.stream.id (s.handled.drop o.history.born)) := by
      rw [inboxes, List.getElem?_map, stored, Option.map_some]
    rw [boxes] at placed
    obtain ⟨before, syn, after, split, cmd, unknown, index, same⟩ := Inbox.foldl_demux_made.mp placed
    have holds := demuxes.holds md5 stored between
    rw [same, Inbox.received_eq] at holds
    exact ⟨before, syn, after, split, cmd, unknown, index, holds⟩
  · have made := Inbox.foldl_demux_made.mpr ⟨before, syn, after, split, cmd, unknown, rfl, rfl⟩
    rw [← boxes, inboxes, List.getElem?_map] at made
    obtain ⟨o, stored, -⟩ := Option.map_eq_some_iff.mp made
    exact (List.getElem?_eq_some_iff.mp stored).1
  · have contents := congrArg (fun pairs => (pairs.filter (·.1 = sid)).map Prod.snd) (demuxes.contents between)
    rw [← Inbox.foldl_demux_filter]
    simpa only [List.filter_map, List.map_map, Function.comp_def] using contents

/-- A SYN, a payload, a payload of another sid and a FIN, a SYN after the end and one while the
stream is open. -/
def synTwice : List SessionAction :=
  [SessionAction.receive ((Frame.withData .settings 0 (asBytes "padding-md5=")).toBytes ++ (Frame.new .syn 1).toBytes ++
      (Frame.withData .psh 1 [7]).toBytes ++ (Frame.withData .psh 2 [8]).toBytes ++ (Frame.new .fin 1).toBytes ++
      (Frame.new .syn 1).toBytes ++ (Frame.new .syn 1).toBytes)] ++
    List.replicate 30 SessionAction.recvStep

theorem synTwice_demultiplexed : ∃ s first second, Transition.run (step fun _ => "")
      ((new false plainPadding).ensureStarted AList.entries) synTwice = some s ∧
    s.recv = .reading ∧ s.newStreams = [0, 1] ∧ s.objects = [first, second] ∧
    ∃ before syn after, s.handled = before ++ syn :: after ∧ syn.cmd = .syn ∧
      s.Holds (fun _ => "") 0 first ⟨syn.sid,
        ((after.filter (·.sid = syn.sid)).takeWhile (·.ending?.isNone)).flatMap Frame.payload,
        (after.filter (·.sid = syn.sid)).findSome? Frame.ending?⟩ := by
  have reached : (Transition.run (step fun _ => "") ((new false plainPadding).ensureStarted AList.entries)
      synTwice).any (fun s => decide (s.recv = .reading ∧ s.objects.length = 2)) = true := by decide +kernel
  obtain ⟨s, path, reached⟩ := (Option.any_eq_true _ _).mp reached
  obtain ⟨reading, two⟩ := of_decide_eq_true reached
  obtain ⟨first, second, objects⟩ := List.length_eq_two.mp two
  obtain ⟨offered, streams, -⟩ := demultiplexing (fun _ => "") AList.entries plainPadding (by decide) path
    (.inl reading)
  obtain ⟨before, syn, after, split, cmd, -, -, holds⟩ := streams 0 first (by rw [objects]; rfl)
  refine ⟨s, first, second, path, reading, ?_, objects, before, syn, after, split, cmd, holds⟩
  rw [offered, objects]
  rfl

end Session

end AnyTls
