import AnyTls.Proxy.Listening
import AnyTls.Proxy.Terminating
import AnyTls.Proxy.Tracing
import Mathlib.Data.List.Infix

/-! The settings gate of a server session. No stream is made before a client has sent its
settings; a SYN that comes before them is the last frame the session handles: the loop hands
the alert to the writer, fails, and the table of streams is empty when `terminate` is done. -/
namespace AnyTls

/-- A Settings frame with data is among the frames. -/
def Greeted (frames : List Frame) : Prop := ∃ frame ∈ frames, frame.cmd = .settings ∧ frame.data ≠ []

/-- There was one before the last frame. -/
def GreetedBefore (frames : List Frame) : Prop := ∃ earlier frame, frames = earlier ++ [frame] ∧ Greeted earlier

/-- The last frame is a SYN and there was none before it. -/
def Refused (frames : List Frame) : Prop :=
  ∃ (earlier : List Frame) (frame : Frame), frames = earlier ++ [frame] ∧ frame.cmd = .syn ∧ ¬ Greeted earlier

def settingsMissing : String := "client did not send its settings"

def missingAlert : Frame := Frame.withData .alert 0 (asBytes settingsMissing)

theorem greeted_snoc {frames frame} :
    Greeted (frames ++ [frame]) ↔ Greeted frames ∨ (frame.cmd = .settings ∧ frame.data ≠ []) := by
  simp only [Greeted, List.mem_append, List.mem_singleton, or_and_right, exists_or, exists_eq_left]

theorem Greeted.mono {frames all} (greeted : Greeted frames) (part : frames <+: all) : Greeted all := by
  obtain ⟨frame, member, settings⟩ := greeted
  exact ⟨frame, part.subset member, settings⟩

section
variable {md5 : Bytes → String} {state : State} {isClient : Bool} {frame : Frame}

theorem onSettings_known (settings : StringMap) :
    (Engine.onSettings state settings).1.receivedSettingsFromClient = true := by
  simp only [Engine.onSettings]
  split
  · split_ifs <;> rfl
  · rfl

/-- A server learns of the settings by a Settings frame with data, and by nothing else. -/
theorem onFrame_known : (Engine.onFrame md5 state false frame).1.receivedSettingsFromClient = true ↔
    state.receivedSettingsFromClient = true ∨ (frame.cmd = .settings ∧ frame.data ≠ []) := by
  obtain ⟨cmd, sid, data⟩ := frame
  cases cmd with
  | psh | synAck | syn =>
    simp only [Engine.onFrame]
    split_ifs <;> simp
  | settings =>
    cases data with
    | nil => simp [Engine.onFrame]
    | cons byte data => simp [Engine.onFrame, onSettings_known]
  | updatePaddingScheme | serverSettings => simp [Engine.onFrame]
  | waste | alert | fin | heartRequest | heartResponse | unknown value => simp [Engine.onFrame]

theorem onFrame_refuses (syn : frame.cmd = .syn) (unknown : state.receivedSettingsFromClient = false) :
    (Engine.onFrame md5 state false frame).2 = [.alertAndFail settingsMissing] := by
  simp [Engine.onFrame, syn, unknown, settingsMissing]

/-- What the actions of a frame may send and make. -/
def ProtocolAction.Answers (state : State) (frame : Frame) : ProtocolAction → Prop
  | .sendFrame answer | .sendFrameSync answer => answer.cmd ≠ .settings ∧ answer.cmd ≠ .alert
  | .ensureIncomingStream _ => state.receivedSettingsFromClient = true
  | .alertAndFail message => message = settingsMissing ∧ frame.cmd = .syn ∧
      state.receivedSettingsFromClient = false
  | .pushStreamData _ _ | .closeLocalStream _ | .closeRemoteStream _ _ | .releaseWriteBuffering => True

theorem onFrame_answers : ∀ action ∈ (Engine.onFrame md5 state isClient frame).2, action.Answers state frame := by
  intro action member
  cases onFrame_raises action member with
  | makes known => exact known
  | refuses unknown => exact ⟨rfl, rfl, unknown⟩
  | updates | settings | beats => simp [ProtocolAction.Answers, Engine.serverSettings, Frame.withData, Frame.new]
  | payload | ends | fails => trivial

end

namespace Session
variable {s t : Session} {a : SessionAction} {md5 : Bytes → String}

theorem accepted_grows (stepped : s.step md5 a = some t) : s.accepted <+: t.accepted := by
  cases step_move stepped with
  | synSent | pshSent | finSent | acknowledges | answers => exact List.prefix_append ..
  | _ => exact List.prefix_rfl

/-- The loop is on its way out: it has still to send the alert, or the writer has it, or
there is no writer any more. -/
def Refusing (s : Session) : Prop :=
  s.recv = .applying [.alertAndFail settingsMissing] ∨
  ((s.recv = .alerting settingsMissing ∨ s.recv = .failed (IoError.otherError settingsMissing) ∨
      s.recv = .ended) ∧
    (missingAlert ∈ s.accepted ∨ s.frameTx.isClosed = true))

theorem refusing_recvStep (refusing : s.Refusing) (stepped : s.recvStep md5 = some t) :
    t.Refusing ∧ t.handled = s.handled := by
  rcases refusing with applying | ⟨alerting | failed | ended, told⟩
  · simp only [recvStep, applying, applyAction] at stepped
    obtain ⟨result, sent, rfl⟩ := Option.map_eq_some_iff.mp stepped
    rcases send_cases sent with ⟨gone, rfl⟩ | ⟨-, -, rfl⟩
    · exact ⟨.inr ⟨.inr (.inl rfl), .inr gone⟩, rfl⟩
    · exact ⟨.inr ⟨.inl rfl, .inl (by simp [missingAlert])⟩, rfl⟩
  · simp only [recvStep, alerting] at stepped
    split_ifs at stepped
    cases stepped
    exact ⟨.inr ⟨.inr (.inl rfl), told⟩, rfl⟩
  · simp only [recvStep, failed, beginTerminate_eq] at stepped
    cases stepped
    exact ⟨.inr ⟨.inr (.inr rfl), told⟩, rfl⟩
  · simp only [recvStep, ended] at stepped
    cases stepped

/-- Once refusing, always refusing: no further frame is handled. -/
theorem refusing_step (refusing : s.Refusing) (stepped : s.step md5 a = some t) :
    t.Refusing ∧ t.handled = s.handled := by
  have busy : s.recv ≠ .reading := by
    rintro reading
    simp [Refusing, reading] at refusing
  cases (step_effect stepped).inbound with
  | same unchanged =>
    simp only [Prod.mk.injEq] at unchanged
    obtain ⟨recv, -, -, handled, -⟩ := unchanged
    refine ⟨?_, handled⟩
    unfold Refusing
    rw [recv]
    exact refusing.imp_right fun ⟨past, told⟩ =>
      ⟨past, told.imp (fun sent => (accepted_grows stepped).subset sent) (writer_stays stepped)⟩
  | receive _ _ reading => exact absurd reading busy
  | disconnect _ _ reading => exact absurd reading busy
  | recv called =>
    subst called
    exact refusing_recvStep refusing stepped

/-- Of the actions still to be applied, given the frames handled. -/
def Allowed (handled : List Frame) : ProtocolAction → Prop
  | .sendFrame answer | .sendFrameSync answer => answer.cmd ≠ .settings ∧ answer.cmd ≠ .alert
  | .ensureIncomingStream _ => GreetedBefore handled
  | .alertAndFail message => message = settingsMissing ∧ Refused handled
  | .pushStreamData _ _ | .closeLocalStream _ | .closeRemoteStream _ _ | .releaseWriteBuffering => True

structure Gated (s : Session) : Prop where
  known : s.protocolState.receivedSettingsFromClient = true ↔ Greeted s.handled
  pending : ∀ actions, s.recv.pending = some actions → ∀ action ∈ actions, Allowed s.handled action
  arriving : ∀ sid, s.recv.arriving = some sid → GreetedBefore s.handled
  refused : ∀ {earlier : List Frame} {frame : Frame} {later : List Frame}, s.handled = earlier ++ frame :: later → frame.cmd = .syn →
    ¬ Greeted earlier → later = [] ∧ s.Refusing
  alerted : missingAlert ∈ s.accepted → Refused s.handled

theorem Fresh.gated (fresh : s.Fresh) (unknown : s.protocolState.receivedSettingsFromClient = false)
    (silent : missingAlert ∉ s.accepted) : s.Gated where
  known := by simp [unknown, fresh.handled, Greeted]
  pending := by simp [fresh.recv, RecvPc.pending]
  arriving := by simp [fresh.recv, RecvPc.arriving]
  refused split := by simp [fresh.handled] at split
  alerted sent := absurd sent silent

theorem Gated.refusing (gated : s.Gated) (refused : Refused s.handled) : s.Refusing := by
  obtain ⟨earlier, frame, split, syn, ungreeted⟩ := refused
  exact (gated.refused split syn ungreeted).2

/-- A step in which the loop takes no frame and starts on none of its actions. -/
theorem Gated.unmoved (gated : s.Gated) (stepped : s.step md5 a = some t)
    (handled : t.handled = s.handled) (state : t.protocolState = s.protocolState)
    (pending : ∀ actions, t.recv.pending = some actions → ∀ action ∈ actions, Allowed s.handled action)
    (arriving : ∀ sid, t.recv.arriving = some sid → GreetedBefore s.handled)
    (alerted : missingAlert ∈ t.accepted → Refused s.handled) : t.Gated where
  known := by rw [handled, state]; exact gated.known
  pending := by rw [handled]; exact pending
  arriving := by rw [handled]; exact arriving
  refused {earlier frame later} split syn ungreeted := by
    obtain ⟨last, refusing⟩ := gated.refused (handled ▸ split) syn ungreeted
    exact ⟨last, (refusing_step refusing stepped).1⟩
  alerted := by rw [handled]; exact alerted

/-- The alert is sent only for a SYN that came too early. -/
theorem Gated.alert (gated : s.Gated) (out : OutChange s a t) (sent : missingAlert ∈ t.accepted) :
    Refused s.handled := by
  cases out with
  | same accepted | release accepted | fails _ _ _ accepted => exact gated.alerted (accepted ▸ sent)
  | emit next rest padding _ _ _ accepted => exact gated.alerted (accepted ▸ sent)
  | send frame ack sends alive accepted =>
    rw [accepted, List.mem_append, List.mem_singleton] at sent
    rcases sent with before | rfl
    · exact gated.alerted before
    · generalize same : missingAlert = frame at sends
      have command : frame.cmd = .alert := by rw [← same]; rfl
      cases sends with
      | syn i ref o => cases command
      | psh ref o buf => cases command
      | fin ref o => cases command
      | synAck ref o error => cases command
      | answer action rest frame receiving answers =>
        have allowed := gated.pending (action :: rest) (by rw [receiving]; rfl) action List.mem_cons_self
        rcases answers with rfl | rfl | ⟨message, rfl, -⟩
        · exact absurd command allowed.2
        · exact absurd command allowed.2
        · exact allowed.2

theorem Gated.decodes (gated : s.Gated) (server : s.isClient = false) (decodes : Decodes md5 s t) :
    t.Gated := by
  obtain ⟨frame, rest, decoding, -, rfl⟩ := decodes
  have idle : ¬ s.Refusing := by simp [Refusing, decoding]
  have quiet : missingAlert ∉ s.accepted := fun sent => idle (gated.refusing (gated.alerted sent))
  -- no frame handled before was refused, so only the new one can be
  have latest {earlier : List Frame} {syn : Frame} {later : List Frame}
      (split : s.handled ++ [frame] = earlier ++ syn :: later) (command : syn.cmd = .syn)
      (ungreeted : ¬ Greeted earlier) : later = [] ∧ frame = syn ∧ earlier = s.handled := by
    rcases List.eq_nil_or_concat later with rfl | ⟨before, last, rfl⟩
    · obtain ⟨same, last⟩ := List.append_inj' split rfl
      cases last
      exact ⟨rfl, rfl, same.symm⟩
    · rw [List.concat_eq_append, ← List.cons_append, ← List.append_assoc] at split
      obtain ⟨same, -⟩ := List.append_inj' split rfl
      exact absurd (gated.refused same command ungreeted).2 idle
  unfold handleFrame
  split_ifs with alert
  · refine ⟨?_, by simp [RecvPc.pending], by simp [RecvPc.arriving], fun split command ungreeted => ?_,
      fun sent => absurd sent quiet⟩
    · rw [greeted_snoc]
      simp [gated.known, alert]
    · obtain ⟨-, rfl, -⟩ := latest split command ungreeted
      cases alert.symm.trans command
  · refine ⟨?_, fun actions left action member => ?_, by simp [RecvPc.arriving],
      fun split command ungreeted => ?_, fun sent => absurd sent quiet⟩
    · rw [greeted_snoc, ← gated.known]
      simp only [server]
      exact onFrame_known
    · cases left
      have answers := onFrame_answers action member
      cases action with
      | sendFrame answer | sendFrameSync answer => exact answers
      | ensureIncomingStream sid => exact ⟨s.handled, frame, rfl, gated.known.mp answers⟩
      | alertAndFail message =>
        obtain ⟨rfl, syn, unknown⟩ := answers
        refine ⟨rfl, s.handled, frame, rfl, syn, ?_⟩
        rw [← gated.known, unknown]
        exact Bool.false_ne_true
      | _ => trivial
    · obtain ⟨rfl, rfl, rfl⟩ := latest split command ungreeted
      refine ⟨rfl, .inl ?_⟩
      have unknown : s.protocolState.receivedSettingsFromClient = false := by
        rw [← Bool.not_eq_true, gated.known]
        exact ungreeted
      simp only [server, onFrame_refuses command unknown]

theorem Gated.onward (gated : s.Gated) (stepped : s.step md5 a = some t) (onward : Onward s t) : t.Gated := by
  have inbound := onward.inbound
  simp only [Prod.mk.injEq] at inbound
  obtain ⟨-, -, handled, state, -⟩ := inbound
  refine gated.unmoved stepped handled state (fun actions left action member => ?_) (fun sid waits => ?_)
    (gated.alert (step_effect stepped).out)
  · obtain ⟨done, before⟩ := onward.actions actions left
    exact gated.pending _ before action (List.mem_append_right _ member)
  · obtain ⟨rest, receiving⟩ := onward.arriving sid waits
    exact gated.pending (.ensureIncomingStream sid :: rest) (by rw [receiving]; rfl)
      (.ensureIncomingStream sid) List.mem_cons_self

theorem gated_step (gated : s.Gated) (server : s.isClient = false) (stepped : s.step md5 a = some t) :
    t.Gated := by
  have alerted := gated.alert (step_effect stepped).out
  cases (step_effect stepped).inbound with
  | same unchanged =>
    simp only [Prod.mk.injEq] at unchanged
    obtain ⟨recv, -, -, handled, state, -⟩ := unchanged
    exact gated.unmoved stepped handled state (recv ▸ gated.pending) (recv ▸ gated.arriving) alerted
  | receive chunk _ _ same =>
    refine gated.unmoved stepped ?_ ?_ ?_ ?_ alerted <;> simp [same, RecvPc.pending, RecvPc.arriving]
  | disconnect error _ _ same =>
    refine gated.unmoved stepped ?_ ?_ ?_ ?_ alerted <;> simp [same, RecvPc.pending, RecvPc.arriving]
  | recv called =>
    subst called
    rcases recvStep_cases stepped with decodes | onward
    · exact gated.decodes server decodes
    · exact gated.onward stepped onward

/-! ### The streams announced -/

/-- A step makes at most one stream. -/
theorem Evolved.count (evolved : s.Evolved a t) : t.objects.length = s.objects.length ∨
    ∃ o, Created s a o ∧ t.objects.length = s.objects.length + 1 := by
  rcases evolved.ids with same | ⟨o, created, more⟩
  · exact .inl (by simpa using congrArg List.length same)
  · exact .inr ⟨o, created, by simpa using congrArg List.length more⟩

theorem opens_nil (opens : OpensChange s a t) (none : t.opens = []) : s.opens = [] := by
  cases opens with
  | same unchanged => exact (congrArg (·.1) unchanged).symm.trans none
  | start maxStreams _ more => simp [more] at none
  | move i pc next placed _ moved =>
    rw [moved, List.set_eq_nil_iff] at none
    exact none

structure Admitted (s : Session) : Prop where
  greeted : ∀ ref ∈ s.newStreams, ∃ o, s.objects[ref]? = some o ∧
    Greeted (s.handled.take (o.history.born - 1))
  all : s.opens = [] → s.newStreams = List.range s.objects.length
  cleared : ¬ Greeted s.handled → s.closed = true → s.ending ≠ .clear → s.streams = ∅

theorem Fresh.admitted (fresh : s.Fresh) : s.Admitted where
  greeted := by simp [fresh.newStreams]
  all _ := by simp [fresh.newStreams, fresh.objects]
  cleared _ _ _ := fresh.streams

theorem Admitted.kept (admitted : s.Admitted) (stepped : s.step md5 a = some t) :
    ∀ ref ∈ s.newStreams, ∃ o, t.objects[ref]? = some o ∧ Greeted (t.handled.take (o.history.born - 1)) := by
  intro ref member
  obtain ⟨o, stored, greeted⟩ := admitted.greeted ref member
  obtain ⟨after, present, change⟩ := (step_effect stepped).objects.kept stored
  refine ⟨after, present, ?_⟩
  rw [change.born]
  exact greeted.mono ((handled_grows stepped).take _)

/-- A cleared table stays empty until a client has sent its settings. -/
theorem Admitted.empty (admitted : s.Admitted) (gated : s.Gated) (stepped : s.step md5 a = some t)
    (ungreeted : ¬ Greeted t.handled) (closed : t.closed = true) (past : t.ending ≠ .clear) : t.streams = ∅ := by
  have before : ¬ Greeted s.handled := fun greeted => ungreeted (greeted.mono (handled_grows stepped))
  have unmade (was : s.closed = true) {o : StreamObject} : ¬ Created s a o := by
    intro created
    cases created with
    | incoming sid rest _ arriving =>
      obtain ⟨earlier, frame, split, greeted⟩ := gated.arriving sid (by rw [arriving]; rfl)
      exact before (greeted.mono ⟨[frame], split.symm⟩)
    | opened i maxStreams _ _ unclosed => cases was.symm.trans unclosed
  have still (was : s.closed = true) (done : s.ending ≠ .clear) : t.streams = ∅ := by
    have empty := admitted.cleared before was done
    cases (step_effect stepped).table with
    | same streams => rw [streams, empty]
    | erase sid streams => rw [streams, empty]; rfl
    | clear streams => exact streams
    | insert o created => exact absurd created (unmade was)
  cases (step_settles stepped).closing with
  | same unchanged =>
    simp only [Prod.mk.injEq] at unchanged
    exact still (unchanged.1 ▸ closed) (unchanged.2 ▸ past)
  | begun _ flags => exact absurd (congrArg (·.2) flags) past
  | cleared _ streams => exact streams
  | marking done _ _ _ unchanged =>
    simp only [Prod.mk.injEq] at unchanged
    exact still (unchanged.1 ▸ closed) done

theorem admitted_step (admitted : s.Admitted) (gated : s.Gated) (stepped : s.step md5 a = some t) :
    t.Admitted := by
  refine ⟨?_, fun none => ?_, admitted.empty gated stepped⟩
  · have kept := admitted.kept stepped
    rcases (step_settles stepped).announces with same | ⟨sid, rest, arriving, made⟩
    · rw [same]
      exact kept
    · obtain ⟨earlier, frame, split, greeted⟩ := gated.arriving sid (by rw [arriving]; rfl)
      unfold createIncoming at made
      split at made
      · rw [made] at kept ⊢
        exact kept
      · intro ref member
        have announced : t.newStreams = s.newStreams ++ [s.objects.length] := by rw [made]
        rw [announced, List.mem_append, List.mem_singleton] at member
        rcases member with old | rfl
        · exact kept ref old
        · refine ⟨StreamObject.new sid .idle s.handled.length, by rw [made]; simp, ?_⟩
          rw [made]
          simpa [StreamObject.new, split] using greeted
  · have before := opens_nil (step_effect stepped).opens none
    have all := admitted.all before
    have evolved := (step_effect stepped).objects
    rcases (step_settles stepped).announces with same | ⟨sid, rest, arriving, made⟩
    · rcases evolved.count with count | ⟨o, created, more⟩
      · rw [same, all, count]
      · cases created with
        | incoming sid rest called arriving =>
          subst called
          simp only [step, recvStep, arriving, Option.some.injEq] at stepped
          unfold createIncoming at stepped
          split at stepped
          · simp [← stepped] at more
          · simp [← stepped] at same
        | opened i maxStreams _ placed => simp [before] at placed
    · unfold createIncoming at made
      split at made
      · rw [made]
        exact all
      · rw [made]
        simp [all, List.range_succ]

end Session

end AnyTls
