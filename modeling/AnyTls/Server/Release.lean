import AnyTls.Server.HandlerReads

/-! What a handler leaves behind. A stream is released when it is closed, out of the
session's table, and its FIN is queued, unless the session closed it first. The
handler's own `close` does all three; several exits through `?` do not call it. -/
namespace AnyTls
variable {Address : Type}

/-- The `close` calls of the handler between `mark_closed` and their end. -/
def ClosePc.active : ClosePc → List ClosePc
  | .mark => []
  | pc => [pc]

def S2oPc.active : S2oPc → List ClosePc
  | .closing pc => pc.active
  | _ => []

def O2sPc.active : O2sPc → List ClosePc
  | .closing pc => pc.active
  | _ => []

def Phase.active : Phase Address → List ClosePc
  | .closing pc _ => pc.active
  | .tcpRelay s2o o2s _ => s2o.active ++ o2s.active
  | _ => []

def Phase.isOver : Phase Address → Bool
  | .returned _ | .panicked => true
  | _ => false

/-- The flag, the table entry and the FIN of a stream, by who closed it. -/
def Accounted (stream : ServerStream) (active : List ClosePc) : Prop :=
  match stream.cause with
  | none => active = [] ∧ stream.fins = 0 ∧ stream.closed = false
  | some .localClose => stream.closed = true ∧
      (active = [] ∧ stream.fins = 1 ∧ stream.inMap = false ∨
        ∃ pc, active = [pc] ∧ stream.fins = 0 ∧ (pc = .remove ∨ stream.inMap = false))
  | some _ => stream.closed = true ∧ active = [] ∧ stream.fins = 0 ∧ stream.inMap = false

/-- The phases that a closed stream alone leads to. -/
def Phase.Ends (closed : Bool) : Phase Address → Prop
  | .returned _ | .retrieveFailed _ => closed = true
  | .uotRelay relay => ∀ error, relay.status = .ended (.error error) → closed = true
  | _ => True

structure Releasing (s : Handler Address) : Prop where
  alive : s.phase.isOver = false → s.stream.txClosed = false
  closer : ∀ cause error marked, s.stream.closer = some (cause, error, marked) →
    cause ≠ .localClose ∧ s.stream.inMap = false
  accounted : s.phase ≠ .panicked → Accounted s.stream s.phase.active
  ends : s.phase.Ends s.stream.closed

/-- The bytes that arrive make the decoder fail. -/
def rejects {α : Type} (pipe : PipeInner) (fut : ReadFut) (program : ReadProgram IoError α)
    (held : Bytes) : Bool :=
  match pollProgram pipe fut program held with
  | some (_, _, bytes, .failed _) =>
    match (program.feed (held ++ bytes)).1 with
    | .fail _ => true
    | _ => false
  | _ => false

/-- While the handler runs the writer task lives, and on an open stream no decoder
rejects the bytes, the UDP outbound is made, and its sends and receives succeed. -/
def careful (s : Handler Address) : HandlerAction → Bool
  | .session .writerDies => s.phase.isOver
  | .poll =>
    match s.phase with
    | .retrieve program held => !rejects s.stream.pipe s.readFut program held || s.stream.closed
    | .uotRequest program held => !rejects s.stream.pipe s.readFut program held || s.stream.closed
    | _ => true
  | .relay .poll =>
    match s.phase with
    | .uotRelay relay => !rejects s.stream.pipe s.readFut relay.decoder relay.held || s.stream.closed
    | _ => true
  | .createOutbound (.error _) | .relay (.sent (.error _)) | .relay (.inbound (.error _)) =>
    s.stream.closed
  | _ => true

section
variable {s t : Handler Address} {codec : AddressCodec Address} {a : HandlerAction}

theorem failed_closed {α : Type} {program : ReadProgram IoError α} {held bytes : Bytes}
    {pipe : PipeInner} {fut : ReadFut} {error : IoError} (reads : Reads s)
    (polling : pollProgram s.stream.pipe s.readFut program held = some (pipe, fut, bytes, .failed error))
    (accepts : (!rejects s.stream.pipe s.readFut program held || s.stream.closed) = true) :
    s.stream.closed = true := by
  by_contra still
  have delivering := reads.delivering (by simpa using still)
  obtain ⟨left, rejected⟩ := ((pollProgram_cases polling).delivers reads.room delivering).2 error rfl
  have fails : rejects s.stream.pipe s.readFut program held = true := by
    simp [rejects, polling, rejected]
  simp [fails, still] at accepts

theorem Quiet.active {phase} (quiet : Quiet codec s a phase) :
    phase.active = s.phase.active := by
  -- the two phases have the same `close` calls by computation
  have same {before after : Phase Address} (here : s.phase = before)
      (calls : after.active = before.active) : after.active = s.phase.active := here ▸ calls
  cases quiet with
  | terminated here | proceeds here | approved here | denied here => exact same here rfl
  | exits _ here | fails _ here | ready _ here | connects _ here | uotStarts _ here => exact same here rfl
  | tcpStarts _ here | refuses _ here | relayEnds _ here | relayPanics _ here => exact same here rfl
  | relayDenied _ here | joins _ here | s2oCancelled _ here | o2sCancelled _ here => exact same here rfl
  | createFails _ _ here | readyFails _ _ here | connectFails _ _ here => exact same here rfl
  | relayFails _ _ here | o2sEof _ _ here | s2oFails _ _ _ _ here => exact same here rfl
  | s2oWrote _ _ _ here | o2sWrote _ _ _ here | o2sRefused _ _ _ here => exact same here rfl
  | o2sFails _ _ _ here | s2oShutdown _ _ _ _ _ here => exact same here rfl
  | created request _ here next => rcases next with rfl | rfl <;> exact same here rfl
  | handshakeFails error here =>
    rcases here with ⟨_, here⟩ | ⟨_, here⟩ | ⟨_, here⟩ <;> exact same here rfl
  | s2oTick _ _ approved here | o2sTick _ _ approved here => cases approved <;> exact same here rfl

/-- The `close` calls that go on beside the one that takes a step. -/
theorem Closes.active {pc : ClosePc} {outcome : ClosePc ⊕ Except IoError Unit}
    {before after : Phase Address} (closes : Closes before pc outcome after) :
    ∃ left right, before.active = left ++ pc.active ++ right ∧
      after.active = left ++ (outcome.elim ClosePc.active fun _ => []) ++ right := by
  cases closes with
  | main => exact ⟨[], [], (List.append_nil _).symm, (List.append_nil _).symm⟩
  | mainDone pc next result =>
    refine ⟨[], [], (List.append_nil _).symm, ?_⟩
    cases next with
    | returnOk | again => rfl
    | returnError error => cases result <;> rfl
  | s2o pc next o2s => exact ⟨[], o2s.active, rfl, rfl⟩
  | s2oDone pc o2s => exact ⟨[], o2s.active, rfl, rfl⟩
  | o2s pc next s2o => exact ⟨s2o.active, [], (List.append_nil _).symm, (List.append_nil _).symm⟩
  | o2sDone pc s2o =>
    refine ⟨s2o.active, [], (List.append_nil _).symm, ?_⟩
    simp [Phase.active, O2sPc.active]

/-- The one `close` past its mark is the one that set the flag. -/
theorem Accounted.closing {stream pc left right} (accounted : Accounted stream (left ++ [pc] ++ right)) :
    left = [] ∧ right = [] ∧ stream.cause = some .localClose ∧ stream.closed = true ∧
      stream.fins = 0 ∧ (pc = .remove ∨ stream.inMap = false) := by
  have busy : left ++ [pc] ++ right ≠ [] := by simp
  unfold Accounted at accounted
  split at accounted
  · exact absurd accounted.1 busy
  · rename_i cause
    obtain ⟨closed, ⟨idle, -⟩ | ⟨only, single, fins, removed⟩⟩ := accounted
    · exact absurd idle busy
    · have alone : left = [] ∧ right = [] := by
        have size := congrArg List.length single
        simp only [List.length_append, List.length_singleton] at size
        exact ⟨List.eq_nil_of_length_eq_zero (by omega), List.eq_nil_of_length_eq_zero (by omega)⟩
      obtain ⟨rfl, rfl⟩ := alone
      cases single
      exact ⟨rfl, rfl, cause, closed, fins, removed⟩
  · exact absurd accounted.2.1 busy

theorem Accounted.unmarked {stream active} (accounted : Accounted stream active)
    (still : stream.closed = false) :
    active = [] ∧ stream.fins = 0 := by
  unfold Accounted at accounted
  split at accounted
  · exact ⟨accounted.1, accounted.2.1⟩
  · exact nomatch accounted.1.symm.trans still
  · exact nomatch accounted.1.symm.trans still

theorem Accounted.released {stream stream' active} (accounted : Accounted stream active)
    (cause : stream'.cause = stream.cause) (closed : stream'.closed = stream.closed)
    (fins : stream'.fins = stream.fins) (removed : stream.inMap = false → stream'.inMap = false) :
    Accounted stream' active := by
  unfold Accounted at accounted ⊢
  rw [cause, closed, fins]
  split at accounted
  · exact accounted
  · obtain ⟨marked, ⟨idle, sent, gone⟩ | ⟨pc, single, unsent, gone⟩⟩ := accounted
    · exact ⟨marked, .inl ⟨idle, sent, removed gone⟩⟩
    · exact ⟨marked, .inr ⟨pc, single, unsent, gone.imp_right removed⟩⟩
  · exact ⟨accounted.1, accounted.2.1, accounted.2.2.1, removed accounted.2.2.2⟩

theorem Accounted.close {stream pc left right} (alive : stream.txClosed = false)
    (accounted : Accounted stream (left ++ pc.active ++ right)) :
    Accounted (stream.closeStep pc).1
      (left ++ ((stream.closeStep pc).2.elim ClosePc.active fun _ => []) ++ right) := by
  cases pc with
  | mark =>
    simp only [ServerStream.closeStep]
    split_ifs with closed
    · exact accounted
    · obtain ⟨idle, unsent⟩ := accounted.unmarked (by simpa using closed)
      simp only [ClosePc.active, List.append_nil, List.append_eq_nil_iff] at idle
      obtain ⟨rfl, rfl⟩ := idle
      exact ⟨rfl, .inr ⟨.remove, rfl, unsent, .inl rfl⟩⟩
  | remove =>
    obtain ⟨rfl, rfl, cause, closed, fins, -⟩ := accounted.closing
    simp only [ServerStream.closeStep, Accounted, cause]
    exact ⟨closed, .inr ⟨.spawn, rfl, fins, .inr trivial⟩⟩
  | spawn =>
    obtain ⟨rfl, rfl, cause, closed, fins, removed⟩ := accounted.closing
    simp only [ServerStream.closeStep, Accounted, cause]
    exact ⟨closed, .inr ⟨.fin, rfl, fins, .inr (removed.resolve_left (by decide))⟩⟩
  | fin =>
    obtain ⟨rfl, rfl, cause, closed, fins, removed⟩ := accounted.closing
    simp only [ServerStream.closeStep, alive, Bool.false_eq_true, if_false, Accounted, cause]
    exact ⟨closed, .inl ⟨rfl, by rw [fins], removed.resolve_left (by decide)⟩⟩

theorem Phase.Ends.mono {before after} {phase : Phase Address} (ends : phase.Ends before)
    (later : before = true → after = true) : phase.Ends after := by
  cases phase with
  | returned | retrieveFailed => exact later ends
  | uotRelay relay => exact fun error failed => later (ends error failed)
  | _ => trivial

theorem Releasing.event {event stream} (releasing : Releasing s) (safe : careful s (.session event) = true)
    (happened : s.stream.event event = some stream) :
    Releasing { s with stream } := by
  have ends := releasing.ends.mono (event_stays happened).1
  obtain ⟨alive, closer, accounted, -⟩ := releasing
  cases event with
  | push data =>
    simp only [ServerStream.event] at happened
    split_ifs at happened
    split at happened
    · cases happened
      exact ⟨alive, closer, accounted, ends⟩
    · cases happened
      exact ⟨alive, closer, accounted, ends⟩
  | remove cause error =>
    simp only [ServerStream.event] at happened
    split_ifs at happened with present
    cases happened
    refine ⟨alive, ?_, fun live => (accounted live).released rfl rfl rfl fun _ => rfl, ends⟩
    rintro _ _ _ ⟨⟩
    exact ⟨present.2.2, rfl⟩
  | mark =>
    simp only [ServerStream.event] at happened
    split at happened
    · rename_i cause error closing
      obtain ⟨foreign, removed⟩ := closer _ _ _ closing
      split_ifs at happened with closed
      · cases happened
        exact ⟨alive, by simp, accounted, ends⟩
      · cases happened
        refine ⟨alive, ?_, fun live => ?_, ends⟩
        · rintro _ _ _ ⟨⟩
          exact ⟨foreign, removed⟩
        · obtain ⟨idle, unsent⟩ := (accounted live).unmarked (by simpa using closed)
          cases cause with
          | localClose => exact absurd rfl foreign
          | _ => exact ⟨rfl, idle, unsent, removed⟩
    · cases happened
  | finish =>
    simp only [ServerStream.event] at happened
    split at happened
    · cases happened
      exact ⟨alive, by simp, accounted, ends⟩
    · cases happened
  | pipeClose =>
    simp only [ServerStream.event] at happened
    split_ifs at happened
    cases happened
    exact ⟨alive, closer, accounted, ends⟩
  | writerDies =>
    cases happened
    exact ⟨fun running => absurd (running.symm.trans safe) Bool.false_ne_true, closer, accounted, ends⟩

theorem terminated_closed (releasing : Releasing s) (running : s.phase.isOver = false)
    (terminated : s.stream.isTerminated = true) : s.stream.closed = true := by
  simpa [ServerStream.isTerminated, releasing.alive running] using terminated

theorem Quiet.running {phase} (quiet : Quiet codec s a phase) :
    s.phase.isOver = false := by
  cases quiet with
  | terminated here | proceeds here | approved here | denied here => rw [here]; rfl
  | exits _ here | fails _ here | ready _ here | connects _ here | uotStarts _ here => rw [here]; rfl
  | tcpStarts _ here | refuses _ here | relayEnds _ here | relayPanics _ here => rw [here]; rfl
  | relayDenied _ here | joins _ here | s2oCancelled _ here | o2sCancelled _ here => rw [here]; rfl
  | created _ _ here | createFails _ _ here | readyFails _ _ here | connectFails _ _ here =>
    rw [here]; rfl
  | relayFails _ _ here | o2sEof _ _ here | s2oFails _ _ _ _ here => rw [here]; rfl
  | s2oWrote _ _ _ here | o2sWrote _ _ _ here | o2sRefused _ _ _ here => rw [here]; rfl
  | o2sFails _ _ _ here | s2oShutdown _ _ _ _ _ here => rw [here]; rfl
  | s2oTick _ _ _ here | o2sTick _ _ _ here => rw [here]; rfl
  | handshakeFails _ here =>
    rcases here with ⟨_, here⟩ | ⟨_, here⟩ | ⟨_, here⟩ <;> rw [here] <;> rfl

/-- A handler returns, or is about to, only from a closed stream. -/
theorem Quiet.ends {phase} (quiet : Quiet codec s a phase) (releasing : Releasing s)
    (safe : careful s a = true) : phase.Ends s.stream.closed := by
  have running := quiet.running
  have ends := releasing.ends
  cases quiet with
  | terminated here gone => exact terminated_closed releasing running gone
  | exits error here | fails error here => rwa [here] at ends
  | createFails => exact safe
  | handshakeFails error here gone => exact nomatch gone.symm.trans (releasing.alive running)
  | uotStarts => nofun
  | relayFails relay error here failed =>
    rw [here] at ends
    exact ends error failed
  | created request _ here next => rcases next with rfl | rfl <;> trivial
  | _ => trivial

theorem Phase.Ends.relay {relay next : Relay Address} {outer inner : RelayAction} (reads : Reads s)
    (releasing : Releasing s) (here : s.phase = .uotRelay relay)
    (passed : inner = outer ∨ (∃ result, outer = .inbound result ∧
      inner = .inbound (result.bind fun _ => s.stream.write)))
    (safe : careful s (.relay outer) = true)
    (moved : Relay.Moved codec { relay with pipe := s.stream.pipe, readFut := s.readFut } inner next) :
    (Phase.uotRelay next).Ends s.stream.closed := by
  have ends := releasing.ends
  rw [here] at ends
  cases moved with
  | poll pipe fut bytes polled polling =>
    obtain rfl : outer = .poll := by
      rcases passed with same | ⟨_, -, ⟨⟩⟩
      exact same.symm
    simp only [careful, here] at safe
    cases polled with
    | pending program held => exact ends
    | done packet => nofun
    | failed error => exact fun _ _ => failed_closed reads polling safe
    | panicked => nofun
  | restarts => nofun
  | handles status running => exact fun error ended => absurd ended (running _)
  | fails _ error failed =>
    refine fun _ _ => ?_
    rcases passed with rfl | ⟨result, rfl, rfl⟩
    · rcases failed with rfl | rfl <;> exact safe
    · have same := failed.resolve_left nofun
      cases result with
      | error cause => exact safe
      | ok done =>
        -- the write to the stream failed
        have refused : s.stream.write = .error error := RelayAction.inbound.inj same
        exact terminated_closed releasing (by rw [here]; rfl) (Handler.write_error refused)

theorem Closes.running {pc outcome} {before after : Phase Address} (closes : Closes before pc outcome after) :
    before.isOver = false := by
  cases closes <;> rfl

theorem Closes.ends {pc outcome} {before after : Phase Address} (closes : Closes before pc outcome after) :
    after.Ends true := by
  cases closes with
  | mainDone pc next result =>
    cases next with
    | returnOk => rfl
    | returnError error => cases result <;> rfl
    | again => trivial
  | _ => trivial

theorem ServerStream.closeStep_table (stream : ServerStream) (pc : ClosePc) :
    (stream.closeStep pc).1.closer = stream.closer ∧
    (stream.closeStep pc).1.txClosed = stream.txClosed ∧
    (stream.inMap = false → (stream.closeStep pc).1.inMap = false) := by
  cases pc with
  | mark | fin =>
    simp only [ServerStream.closeStep]
    split_ifs
    · exact ⟨rfl, rfl, id⟩
    · exact ⟨rfl, rfl, id⟩
  | remove => exact ⟨rfl, rfl, fun _ => rfl⟩
  | spawn => exact ⟨rfl, rfl, id⟩

/-- A poll of the reader changes the pipe only. -/
theorem Releasing.poll {pipe readFut} {phase : Phase Address} {destinations} (releasing : Releasing s)
    (running : s.phase.isOver = false) (calls : phase ≠ .panicked → phase.active = s.phase.active)
    (ends : phase.Ends s.stream.closed) :
    Releasing { s with stream := { s.stream with pipe }, readFut, phase, destinations } := by
  refine ⟨fun _ => releasing.alive running, releasing.closer, fun live => ?_, ends⟩
  have accounted := releasing.accounted fun gone => by rw [gone] at running; cases running
  exact calls live ▸ accounted

theorem releasing_step (inv : Reads s ∧ Releasing s) (safe : careful s a = true)
    (stepped : s.step codec a = some t) : Reads t ∧ Releasing t := by
  obtain ⟨reads, releasing⟩ := inv
  refine ⟨reads.step stepped, ?_⟩
  have moved := Handler.step_moved stepped
  cases moved with
  | session event stream happened => exact releasing.event safe happened
  | quiet _ phase quiet =>
    exact releasing.poll quiet.running (fun _ => quiet.active) (quiet.ends releasing safe)
  | close _ pc phase closes =>
    have running := closes.running
    have alive := releasing.alive running
    have closed := ServerStream.closeStep_closed fun past => reads.marked (closes.past past)
    obtain ⟨closer, gone, removed⟩ := s.stream.closeStep_table pc
    refine ⟨fun _ => gone.trans alive, fun cause error marked closing => ?_, fun _ => ?_, ?_⟩
    · obtain ⟨foreign, out⟩ := releasing.closer cause error marked (closer ▸ closing)
      exact ⟨foreign, removed out⟩
    · have accounted := releasing.accounted fun gone => by rw [gone] at running; cases running
      obtain ⟨left, right, before, after⟩ := closes.active
      rw [before] at accounted
      simp only [after]
      exact accounted.close alive
    · simp only [closed]
      exact closes.ends
  | retrieve program held bytes pipe fut polled here polling =>
    simp only [careful, here] at safe
    have running : s.phase.isOver = false := by rw [here]; rfl
    cases polled with
    | pending program held => exact releasing.poll running (fun _ => by rw [here]; rfl) trivial
    | done destination =>
      refine releasing.poll running (fun _ => ?_) ?_
      · rw [here]
        split_ifs <;> rfl
      · split_ifs <;> trivial
    | failed error =>
      exact releasing.poll running (fun _ => by rw [here]; rfl) (failed_closed reads polling safe)
    | panicked => exact releasing.poll running (fun live => absurd rfl live) trivial
  | request program held bytes pipe fut polled here polling =>
    simp only [careful, here] at safe
    have running : s.phase.isOver = false := by rw [here]; rfl
    cases polled with
    | pending program held => exact releasing.poll running (fun _ => by rw [here]; rfl) trivial
    | done request => exact releasing.poll running (fun _ => by rw [here]; rfl) trivial
    | failed error =>
      exact releasing.poll running (fun _ => by rw [here]; rfl) (failed_closed reads polling safe)
    | panicked => exact releasing.poll running (fun live => absurd rfl live) trivial
  | relay relay next outer inner here passed relayed looping =>
    exact releasing.poll (by rw [here]; rfl) (fun _ => by rw [here]; rfl)
      (.relay reads releasing here passed safe (Relay.step_moved relayed looping))
  | s2oPoll o2s cancel pipe fut result here polled =>
    have running : s.phase.isOver = false := by rw [here]; rfl
    cases result with
    | pending | failed error => exact releasing.poll running (fun _ => by rw [here]; rfl) trivial
    | ready bytes => cases bytes <;> exact releasing.poll running (fun _ => by rw [here]; rfl) trivial
    | panicked => exact releasing.poll running (fun live => absurd rfl live) trivial

end

/-- A handler that returns has released its stream. In every run that is careful at
each step, a stream whose handler has returned is closed and out of the table, and
its FIN has been queued once if the handler closed it, and not at all otherwise. -/
theorem handler_releases (codec : AddressCodec Address) (peerVersion : UInt8)
    (actions : List HandlerAction) (s : Handler Address)
    (path : Transition.run (Handler.step codec) (Handler.start peerVersion) actions = some s)
    (safe : Transition.Along (Handler.step codec) (fun s a => careful s a = true)
      (Handler.start peerVersion) actions)
    (result : Except IoError Unit) (returned : s.phase = .returned result) :
    s.stream.closed = true ∧ s.stream.inMap = false ∧
    s.stream.fins = if s.stream.cause = some .localClose then 1 else 0 := by
  have inv : Reads s ∧ Releasing s :=
    Transition.invariant_along releasing_step
      ⟨.start peerVersion, fun _ => rfl, nofun, fun _ => ⟨rfl, rfl, rfl⟩, trivial⟩ safe path
  have closed := inv.2.ends
  have accounted := inv.2.accounted (by rw [returned]; nofun)
  rw [returned] at closed accounted
  refine ⟨closed, ?_⟩
  unfold Accounted at accounted
  split at accounted
  · exact nomatch accounted.2.2.symm.trans closed
  · rename_i cause
    rw [cause]
    obtain ⟨-, ⟨-, sent, removed⟩ | ⟨pc, busy, -⟩⟩ := accounted
    · exact ⟨removed, sent⟩
    · cases busy
  · rename_i cause foreign same
    rw [same, if_neg fun eq => foreign (Option.some.inj eq)]
    exact ⟨accounted.2.2.2, accounted.2.2.1⟩

/-- A destination that refuses the connection, and the stream terminated. -/
theorem refused_releases :
    ∃ s, Transition.run (Handler.step ipv4Codec) (Handler.start 2)
        ([.advance, .approved true, .session (.push [1, 10, 0, 0, 1, 0, 80])] ++
          List.replicate 9 .poll ++
          [.connected (.error ⟨.connectionReset, "reset"⟩), .advance, .advance, .advance, .advance,
            .advance]) = some s ∧
      s.phase = .returned (.error ⟨.connectionReset, "reset"⟩) ∧ s.stream.closed = true ∧
      s.stream.inMap = false ∧
      s.stream.fins = if s.stream.cause = some .localClose then 1 else 0 :=
  ⟨_, rfl, rfl, handler_releases ipv4Codec 2
    ([HandlerAction.advance, .approved true, .session (.push [1, 10, 0, 0, 1, 0, 80])] ++
      List.replicate 9 HandlerAction.poll ++
      [HandlerAction.connected (.error ⟨.connectionReset, "reset"⟩), .advance, .advance, .advance, .advance,
        .advance]) _ rfl (by decide) _ rfl⟩

/-- A destination of an unknown type. The handler returns the decoder's error, and the
stream stays open and in the table without a FIN. -/
theorem bad_address_leaks_stream :
    ∃ s error, Transition.run (Handler.step ipv4Codec) (Handler.start 2)
        ([.advance, .approved true, .session (.push [9, 10, 0, 0, 1, 0, 80])] ++
          List.replicate 5 .poll ++ [.advance]) = some s ∧
      s.phase = .returned (.error error) ∧ s.stream.closed = false ∧ s.stream.inMap = true ∧
      s.stream.fins = 0 :=
  ⟨_, _, rfl, rfl, rfl, rfl, rfl⟩

end AnyTls
