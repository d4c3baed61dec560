import AnyTls.Proxy.SettingsGate

/-! A refused session comes to its end. From wherever it stands after a SYN without settings,
the steps of its loop, of `terminate` and of its writer lead to a session whose loop has ended
and whose table is empty. -/
namespace AnyTls

/-- The steps of the loop, of `terminate` and of the writer. -/
def SessionAction.internal : SessionAction → Prop
  | .recvStep | .endStep | .emit _ => True
  | _ => False

theorem Refused.ungreeted {frames} (refused : Refused frames) : ¬ Greeted frames := by
  obtain ⟨earlier, frame, split, syn, ungreeted⟩ := refused
  rw [split, greeted_snoc]
  rintro (greeted | ⟨settings, -⟩)
  · exact ungreeted greeted
  · cases settings.symm.trans syn

namespace Session
variable {s t : Session} {a : SessionAction} {md5 : Bytes → String}

/-- From `s` such steps alone lead to a session with the property. -/
def Reaches (md5 : Bytes → String) (P : Session → Prop) (s : Session) : Prop :=
  ∃ actions t, (∀ a ∈ actions, a.internal) ∧ Transition.run (step md5) s actions = some t ∧ P t

theorem Reaches.here {P} (holds : P s) : s.Reaches md5 P :=
  ⟨[], s, by simp, rfl, holds⟩

theorem Reaches.after {P} (internal : a.internal) (stepped : s.step md5 a = some t)
    (reaches : t.Reaches md5 P) : s.Reaches md5 P := by
  obtain ⟨actions, u, all, path, holds⟩ := reaches
  refine ⟨a :: actions, u, ?_, Transition.run_cons_some.mpr ⟨t, stepped, path⟩, holds⟩
  intro action member
  rcases List.mem_cons.mp member with rfl | later
  · exact internal
  · exact all action later

theorem Reaches.trans {P Q} (reaches : s.Reaches md5 P) (further : ∀ t, P t → t.Reaches md5 Q) : s.Reaches md5 Q := by
  obtain ⟨actions, t, all, path, holds⟩ := reaches
  obtain ⟨more, u, rest, onward, last⟩ := further t holds
  refine ⟨actions ++ more, u, fun a member => ?_, Transition.run_append_some.mpr ⟨t, path, onward⟩, last⟩
  exact (List.mem_append.mp member).elim (all a) (rest a)

/-- The session reached has kept what every step keeps. -/
theorem Reaches.keep {P Inv : Session → Prop} (reaches : s.Reaches md5 P)
    (preserves : ∀ {s t : Session} {a : SessionAction}, Inv s → s.step md5 a = some t → Inv t)
    (initial : Inv s) : s.Reaches md5 fun t => P t ∧ Inv t := by
  obtain ⟨actions, t, all, path, holds⟩ := reaches
  exact ⟨actions, t, all, path, holds, Transition.invariant (fun kept stepped => preserves kept stepped) initial path⟩

/-! ### What the loop and `terminate` rely on -/

structure Unstuck (s : Session) : Prop where
  alert : ∀ message, s.recv = .alerting message →
    s.acked = true ∨ s.frameTx.isClosed = true ∨ ∃ write ∈ s.frameTx.queue, write.ack = true
  refs : ∀ ref ∈ s.ending.refs, ref < s.objects.length
  traced : s.Traced

theorem Fresh.unstuck (fresh : s.Fresh) : s.Unstuck where
  alert := by simp [fresh.recv]
  refs := by simp [fresh.ending, EndPc.refs]
  traced := fresh.traced

theorem Evolved.grows (evolved : s.Evolved a t) : s.objects.length ≤ t.objects.length := by
  rcases evolved.count with same | ⟨o, -, more⟩
  · exact same.ge
  · omega

theorem Unstuck.alert_step (unstuck : s.Unstuck) (stepped : s.step md5 a = some t) :
    ∀ message, t.recv = .alerting message →
      t.acked = true ∨ t.frameTx.isClosed = true ∨ ∃ write ∈ t.frameTx.queue, write.ack = true := by
  intro message alerting
  rcases (step_settles stepped).alerts message alerting with ⟨before, acked⟩ | queued
  · rcases unstuck.alert message before with done | closed | ⟨write, queued, ack⟩
    · exact .inl (acked done)
    · exact .inr (.inl (writer_stays stepped closed))
    · cases (step_effect stepped).out with
      | same _ queue | release _ queue => exact .inr (.inr ⟨write, queue ▸ queued, ack⟩)
      | send frame sync _ _ _ queue =>
        exact .inr (.inr ⟨write, by rw [queue]; exact List.mem_append_left _ queued, ack⟩)
      | emit next rest padding called queue left =>
        subst called
        rw [queue] at queued
        rcases List.mem_cons.mp queued with rfl | later
        · simp only [step, queue, Option.some.injEq] at stepped
          exact .inl (by rw [← stepped]; simp [ack])
        · exact .inr (.inr ⟨write, by rw [left]; exact later, ack⟩)
      | fails padding count called =>
        subst called
        simp only [step] at stepped
        split at stepped
        · cases stepped
          exact .inr (.inl rfl)
        · cases stepped
  · exact .inr (.inr queued)

theorem unstuck_step (unstuck : s.Unstuck) (stepped : s.step md5 a = some t) : t.Unstuck := by
  refine ⟨unstuck.alert_step stepped, fun ref member => ?_, traced_step unstuck.traced stepped⟩
  refine Nat.lt_of_lt_of_le ?_ (step_effect stepped).objects.grows
  cases (step_settles stepped).closing with
  | same unchanged => exact unstuck.refs ref ((congrArg (·.2) unchanged : t.ending = s.ending) ▸ member)
  | begun _ flags =>
    have ending : t.ending = .clear := congrArg (·.2) flags
    rw [ending] at member
    cases member
  | cleared _ _ ending =>
    rw [ending] at member
    obtain ⟨⟨sid, found⟩, listed, rfl⟩ := List.mem_map.mp member
    obtain ⟨o, stored, -⟩ := unstuck.traced.mapped sid found (AList.mem_lookup_iff.mpr listed)
    exact (List.getElem?_eq_some_iff.mp stored).1
  | marking _ _ fewer => exact unstuck.refs ref (fewer member)

/-! ### Steps to the end -/

/-- The steps that `terminate` has still to take. -/
def endWork (s : Session) : Nat :=
  match s.ending with
  | .none => 0
  | .clear => 2 + 2 * s.streams.entries.length
  | .mark refs => 1 + 2 * refs.length
  | .finish _ refs => 2 + 2 * refs.length

theorem endStep_enabled (refs : ∀ ref ∈ s.ending.refs, ref < s.objects.length) (busy : s.ending ≠ .none) :
    ∃ t, s.endStep = some t := by
  cases ending : s.ending with
  | none => exact absurd ending busy
  | clear => simp [endStep, ending]
  | mark pending =>
    cases pending with
    | nil => simp [endStep, ending]
    | cons ref rest =>
      have within := refs ref (by rw [ending]; exact List.mem_cons_self)
      simp [endStep, ending, List.getElem?_eq_getElem within]
  | finish ref rest => simp [endStep, ending]

theorem endStep_work (stepped : s.endStep = some t) : t.endWork < s.endWork ∧ t.recv = s.recv := by
  have moves : Move (fun _ => "") s .endStep t := endStep_move stepped
  cases moves with
  | clears ending | endsAll ending | endSkips ending | endFinishes ending => simp [endWork, ending]
  | endMarks ending =>
    simp [endWork, ending]
    omega
  | acknowledges call | acknowledged call => cases call

/-- `terminate` comes to its end. -/
theorem terminate_reaches (unstuck : s.Unstuck) :
    s.Reaches md5 fun t => t.ending = .none ∧ t.recv = s.recv := by
  generalize work : s.endWork = n
  induction n using Nat.strong_induction_on generalizing s with
  | _ n ih =>
    by_cases done : s.ending = .none
    · exact .here ⟨done, rfl⟩
    · obtain ⟨t, ended⟩ := endStep_enabled unstuck.refs done
      obtain ⟨less, recv⟩ := endStep_work ended
      have stepped : s.step md5 .endStep = some t := ended
      have onward := ih t.endWork (work ▸ less) (unstuck_step unstuck stepped) rfl
      rw [recv] at onward
      exact .after (a := .endStep) trivial stepped onward

/-- A live writer writes all that is queued. -/
theorem emits_reach (alive : s.frameTx.isClosed = false) :
    s.Reaches md5 fun t => t.frameTx = ⟨[], false⟩ ∧ t.recv = s.recv := by
  obtain ⟨queue, channel⟩ : ∃ queue, s.frameTx = ⟨queue, false⟩ := ⟨s.frameTx.queue, by rw [← alive]⟩
  induction queue generalizing s with
  | nil => exact .here ⟨channel, rfl⟩
  | cons next rest ih =>
    have emitted : ∃ t, s.step md5 (.emit ⟨0, []⟩) = some t ∧ t.frameTx = ⟨rest, false⟩ ∧ t.recv = s.recv := by
      simp [step, channel]
    obtain ⟨t, stepped, left, recv⟩ := emitted
    have onward := ih (by rw [left]) left
    rw [recv] at onward
    exact .after (a := .emit ⟨0, []⟩) trivial stepped onward

theorem failed_reaches {error} (failed : s.recv = .failed error) :
    s.Reaches md5 fun t => t.recv = .ended := by
  have stepped : ∃ t, s.step md5 .recvStep = some t ∧ t.recv = .ended := by simp [step, recvStep, failed]
  obtain ⟨t, stepped, ended⟩ := stepped
  exact .after (a := .recvStep) trivial stepped (.here ended)

theorem alert_reaches (unstuck : s.Unstuck) {message : String} (alerting : s.recv = .alerting message) :
    s.Reaches md5 fun t => t.recv = .ended := by
  -- once the writer has written the alert, or is gone, the loop goes on
  have last {t : Session} (recv : t.recv = .alerting message)
      (done : (t.acked || t.frameTx.isClosed) = true) : t.Reaches md5 fun u => u.recv = .ended := by
    have stepped : ∃ u, t.step md5 .recvStep = some u ∧ u.recv = .failed (IoError.otherError message) := by
      simp [step, recvStep, recv, done]
    obtain ⟨u, stepped, failed⟩ := stepped
    exact .after (a := .recvStep) trivial stepped (failed_reaches failed)
  by_cases done : (s.acked || s.frameTx.isClosed) = true
  · exact last alerting done
  · simp only [Bool.or_eq_true, not_or, Bool.not_eq_true] at done
    refine ((emits_reach done.2).keep unstuck_step unstuck).trans ?_
    rintro t ⟨⟨empty, recv⟩, unstuck⟩
    have recv := recv.trans alerting
    refine last recv ?_
    rcases unstuck.alert message recv with acked | closed | ⟨write, queued, -⟩
    · simp [acked]
    · simp [closed]
    · simp [empty] at queued

theorem loop_reaches (refusing : s.Refusing) (unstuck : s.Unstuck) :
    s.Reaches md5 fun t => t.recv = .ended := by
  rcases refusing with applying | ⟨alerting | failed | ended, -⟩
  · cases closed : s.frameTx.isClosed with
    | true =>
      have stepped : ∃ t, s.step md5 .recvStep = some t ∧
          t.recv = .failed (IoError.otherError settingsMissing) := by
        simp [step, recvStep, applying, applyAction, send, FrameTx.trySend, FrameTx.send, closed]
      obtain ⟨t, stepped, failed⟩ := stepped
      exact .after (a := .recvStep) trivial stepped (failed_reaches failed)
    | false =>
      refine ((emits_reach closed).keep unstuck_step unstuck).trans ?_
      rintro t ⟨⟨empty, recv⟩, unstuck⟩
      have stepped : ∃ u, t.step md5 .recvStep = some u ∧ u.recv = .alerting settingsMissing := by
        simp [step, recvStep, recv.trans applying, applyAction, send, FrameTx.trySend, FrameTx.send, empty,
          FrameTx.capacity]
      obtain ⟨u, stepped, alerting⟩ := stepped
      exact .after (a := .recvStep) trivial stepped (alert_reaches (unstuck_step unstuck stepped) alerting)
  · exact alert_reaches unstuck alerting
  · exact failed_reaches failed
  · exact .here ended

/-! ### Refused sessions -/

structure Guarded (s : Session) : Prop where
  server : s.isClient = false
  gated : s.Gated
  admitted : s.Admitted
  unstuck : s.Unstuck
  ended : s.EndedClosed

theorem guarded_step (guarded : s.Guarded) (stepped : s.step md5 a = some t) : t.Guarded where
  server := (role_step stepped).trans guarded.server
  gated := gated_step guarded.gated guarded.server stepped
  admitted := admitted_step guarded.admitted guarded.gated stepped
  unstuck := unstuck_step guarded.unstuck stepped
  ended := endedClosed_step guarded.ended stepped

theorem guarded_started (iterate : StringMap.Order) (padding) :
    ((new false padding).ensureStarted iterate).Guarded := by
  have fresh := fresh_started iterate false padding
  exact ⟨rfl, fresh.gated rfl (by simp [ensureStarted, Engine.onSessionStart, new]), fresh.admitted, fresh.unstuck,
    fresh.endedClosed⟩

/-- The table of a refused session is empty once `terminate` has cleared it. -/
theorem Guarded.cleared (guarded : s.Guarded) (refused : Refused s.handled) (ended : s.recv = .ended)
    (done : s.ending = .none) : s.streams = ∅ :=
  guarded.admitted.cleared refused.ungreeted (guarded.ended ended) (by simp [done])

/-- A refused session comes to its end. -/
theorem Guarded.finishes (guarded : s.Guarded) (refused : Refused s.handled) :
    s.Reaches md5 fun t => t.recv = .ended ∧ t.ending = .none ∧ t.streams = ∅ := by
  have kept {s t : Session} {a : SessionAction} (inv : s.Guarded ∧ Refused s.handled)
      (stepped : s.step md5 a = some t) : t.Guarded ∧ Refused t.handled := by
    have same := (refusing_step (inv.1.gated.refusing inv.2) stepped).2
    exact ⟨guarded_step inv.1 stepped, same ▸ inv.2⟩
  refine ((loop_reaches (guarded.gated.refusing refused) guarded.unstuck).keep kept ⟨guarded, refused⟩).trans ?_
  rintro t ⟨ended, guarded, refused⟩
  refine ((terminate_reaches guarded.unstuck).keep kept ⟨guarded, refused⟩).trans ?_
  rintro u ⟨⟨done, recv⟩, guarded, refused⟩
  have ended := recv.trans ended
  exact .here ⟨ended, done, guarded.cleared refused ended done⟩

end Session

end AnyTls
