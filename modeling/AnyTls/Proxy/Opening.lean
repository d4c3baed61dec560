import AnyTls.Proxy.SessionSteps

/-! `open_stream` calls between their lock section and the SYN. Each has made a stream of
its own, on which no other call has begun. -/
namespace AnyTls

namespace Session
variable {s t : Session} {a : SessionAction}

theorem opening_stays {ref before after} (changed : Change s a t ref before after)
    (opening : before.writer = .opening) : after.writer = .opening ∨
      ∃ i : Nat, s.opens[i]? = some (.syn ref) ∧ t.opens = s.opens.set i (.returned (.ok ref)) := by
  have busy {P : Prop} {writer : WriterPc} (other : before.writer = writer) (apart : writer ≠ .opening) : P :=
    absurd (other.symm.trans opening) apart
  cases changed with
  | opened i placed moved => exact .inr ⟨i, placed, moved⟩
  | startWrite buf _ idle => exact busy idle (by simp)
  | startClose idle => exact busy idle (by simp)
  | sent buf sending => exact busy sending (by simp)
  | refused called =>
    rcases called with ⟨buf, sending⟩ | finishing
    · exact busy sending (by simp)
    · exact busy finishing (by simp)
  | removed isIdle closing => exact busy closing (by simp)
  | announced isIdle closing => exact busy closing (by simp)
  | spawned closing => exact busy closing (by simp)
  | finSent closing => exact busy closing (by simp)
  | read len pc pipe state | deadline len pc pipe state =>
    obtain ⟨reader, got, eof, firstEnd, same⟩ := before.afterRead_eq len pipe state
    rw [same]
    exact .inl opening
  | _ => exact .inl opening

/-- A call about to send its SYN was there before, or has just made its stream. -/
theorem opens_syn (opens : OpensChange s a t) : ∃ call : Nat, ∀ (i : Nat) ref,
    t.opens[i]? = some (.syn ref) → s.opens[i]? = some (.syn ref) ∨
      (i = call ∧ ref = s.objects.length ∧ ∃ o : StreamObject, o.writer = .opening ∧ t.objects = s.objects ++ [o]) := by
  cases opens with
  | same unchanged =>
    refine ⟨0, fun i ref placed => .inl ?_⟩
    rwa [(Prod.mk.inj unchanged).1] at placed
  | start maxStreams _ more =>
    refine ⟨0, fun i ref placed => .inl ?_⟩
    rw [more, List.getElem?_append] at placed
    split_ifs at placed
    · exact placed
    · rw [List.getElem?_singleton] at placed
      split_ifs at placed
      cases placed
  | move call pc next was moved set =>
    refine ⟨call, fun i ref placed => ?_⟩
    rw [set, List.getElem?_set] at placed
    split_ifs at placed with hit bound
    · cases placed
      cases moved with
      | created maxStreams o opening _ _ _ objects => exact .inr ⟨hit.symm, rfl, o, opening, objects⟩
      | later _ _ notSyn => exact absurd rfl (notSyn ref)
    · exact .inl placed

structure Opening (s : Session) : Prop where
  opening : ∀ (i : Nat) ref o, s.opens[i]? = some (.syn ref) → s.objects[ref]? = some o → o.writer = .opening
  made : ∀ (i : Nat) ref, s.opens[i]? = some (.syn ref) → ref < s.objects.length
  single : ∀ (i j : Nat) ref, s.opens[i]? = some (.syn ref) → s.opens[j]? = some (.syn ref) → i = j

theorem Fresh.opening (fresh : s.Fresh) : s.Opening := by
  refine ⟨fun i ref o placed => ?_, fun i ref placed => ?_, fun i j ref placed => ?_⟩
  · simp [fresh.opens] at placed
  · simp [fresh.opens] at placed
  · simp [fresh.opens] at placed

theorem opening_step {md5} (calls : s.Opening) (stepped : s.step md5 a = some t) : t.Opening := by
  have effect := step_effect stepped
  obtain ⟨call, source⟩ := opens_syn effect.opens
  refine ⟨fun i ref after placed stored => ?_, fun i ref placed => ?_, fun i j ref first second => ?_⟩
  · rcases source i ref placed with waited | ⟨-, rfl, o, opening, objects⟩
    · have bound := calls.made i ref waited
      rcases effect.objects.2 ref after stored with ⟨before, was, change⟩ | ⟨new, -⟩
      · rcases opening_stays change (calls.opening i ref before waited was) with stays | ⟨j, sent, moved⟩
        · exact stays
        · -- the SYN just sent was that of this call
          cases calls.single i j ref waited sent
          rw [moved, List.getElem?_set_self (List.getElem?_eq_some_iff.mp sent).1] at placed
          cases placed
      · exact absurd new (Nat.ne_of_lt bound)
    · rw [objects, List.getElem?_append_right (Nat.le_refl _), Nat.sub_self] at stored
      cases stored
      exact opening
  · rcases source i ref placed with before | ⟨-, rfl, o, -, objects⟩
    · exact Nat.lt_of_lt_of_le (calls.made i ref before) effect.objects.1
    · simp [objects]
  · rcases source i ref first with before | ⟨atCall, new, -⟩
    · rcases source j ref second with other | ⟨-, new, -⟩
      · exact calls.single i j ref before other
      · exact absurd new (Nat.ne_of_lt (calls.made i ref before))
    · rcases source j ref second with other | ⟨also, -, -⟩
      · exact absurd new (Nat.ne_of_lt (calls.made j ref other))
      · exact atCall.trans also.symm

end Session

end AnyTls
