import AnyTls.Proxy.PushSafety
import AnyTls.Proxy.SessionMoves
import AnyTls.Proxy.Terminating

/-! No stream outlives its session. `terminate` sets the closed flag and then empties the table
under its lock; `open_stream` tests the flag under that lock, `create_incoming_stream` only
before it takes the lock. Until it is closed, a stream is in the table, on the list of the
`terminate` in progress, or in the hands of a call that has taken it out of the table. -/
namespace AnyTls

/-- The stream the loop has taken out of the table and has yet to close. -/
def RecvPc.taken : RecvPc → Option StreamRef
  | .closeAnnounce ref _ _ _ => ref
  | .closeMark ref _ _ => some ref
  | _ => none

/-- The stream that a failed `open_stream` has taken out of the table and has yet to close. -/
def OpenPc.undoes : OpenPc → Option StreamRef
  | .undoAnnounce ref _ | .undoMark ref => some ref
  | _ => none

namespace Session
variable {md5 : Bytes → String} {s t : Session} {a : SessionAction} {ref : StreamRef} {o : StreamObject}

/-- Where the stream `ref` of `sid` waits for its end. -/
def Houses (s : Session) (sid : UInt32) (ref : StreamRef) : Prop :=
  s.streams.lookup sid = some ref ∨ ref ∈ s.ending.refs ∨ s.recv.taken = some ref ∨
    ∃ pc ∈ s.opens, pc.undoes = some ref

structure Housed (s : Session) : Prop where
  unended : s.closed = false → s.ending = .none
  emptied : s.closed = true → s.ending ≠ .clear → s.streams = ∅ ∧ s.idleState = true
  closing : ∀ {ref : StreamRef} {o : StreamObject}, s.objects[ref]? = some o → o.writer.closing = true →
    o.stream.closed = true
  housed : ∀ {ref : StreamRef} {o : StreamObject}, s.objects[ref]? = some o →
    o.stream.closed = true ∨ s.Houses o.stream.id ref

theorem Fresh.housed (fresh : s.Fresh) : s.Housed where
  unended _ := fresh.ending
  emptied closed := by cases (congrArg (·.1) fresh.flags).symm.trans closed
  closing stored := fresh.empty stored
  housed stored := fresh.empty stored

/-- A stream of the peer enters the table only while the flag is unset, one of ours only under
a sid that the table does not hold, and a call takes out of the table only its own stream. -/
def entersOpen (s : Session) : SessionAction → Bool
  | .recvStep =>
    match s.recv with
    | .incoming sid _ => (s.streams.lookup sid).isSome || !s.closed
    | _ => true
  | .openStep i =>
    match s.opens[i]? with
    | some (.insert _) => (s.streams.lookup (s.nextStreamId + 1)).isNone
    | some (.undoRemove ref) => s.objects[ref]?.all fun o => (s.streams.lookup o.stream.id).all (· == ref)
    | _ => true
  | .writeStep ref => s.objects[ref]?.all fun o =>
    o.writer != .removing || (s.streams.lookup o.stream.id).all (· == ref)
  | _ => true

/-! ### The flag -/

theorem unended_step (housed : s.Housed) (moves : Move md5 s a t) (unset : t.closed = false) :
    t.ending = .none := by
  cases moves with
  | fails | terminates => cases unset
  | clears ending | endsAll ending | endSkips ending | endMarks ending | endFinishes ending =>
    cases ending.symm.trans (housed.unended unset)
  | _ => exact housed.unended unset

theorem emptied_step (housed : s.Housed) (enters : s.entersOpen a = true) (moves : Move md5 s a t)
    (closed : t.closed = true) (past : t.ending ≠ .clear) : t.streams = ∅ ∧ t.idleState = true := by
  cases moves with
  | inserts placed unset => cases unset.symm.trans closed
  | creates receiving absent =>
    simp only [entersOpen, receiving, absent, Option.isSome_none, Bool.false_or, Bool.not_eq_true'] at enters
    cases enters.symm.trans closed
  | undoRemoves | removes | ends =>
    obtain ⟨empty, idle⟩ := housed.emptied closed past
    refine ⟨?_, idle⟩
    simp only [empty]
    rfl
  | undoAnnounces | announces | closeAnnounces =>
    obtain ⟨empty, idle⟩ := housed.emptied closed past
    exact ⟨empty, by simp [idle]⟩
  | fails | terminates =>
    cases before : s.closed with
    | true =>
      simp only [before, if_true] at past
      exact housed.emptied before past
    | false => simp [before] at past
  | clears => exact ⟨rfl, rfl⟩
  | endsAll ending | endSkips ending | endMarks ending | endFinishes ending =>
    exact housed.emptied closed (by simp [ending])
  | _ => exact housed.emptied closed past

theorem closing_change {after} (changed : Change s a t ref o after)
    (before : o.writer.closing = true → o.stream.closed = true) (closing : after.writer.closing = true) :
    after.stream.closed = true := by
  cases changed with
  | opened | sent | refused | finSent => cases closing
  | startWrite buf _ idle =>
    simp only [StreamObject.startWrite] at closing ⊢
    split_ifs at closing <;> cases closing
  | startClose idle =>
    unfold StreamObject.startClose at closing ⊢
    split_ifs at closing ⊢ with closed
    · exact closed
    · rfl
  | removed _ writing | announced _ writing | spawned writing => exact before (by rw [writing]; rfl)
  | mark => rfl
  | read len pc pipe state | deadline len pc pipe state =>
    obtain ⟨reader, got, eof, firstEnd, same⟩ := o.afterRead_eq len pipe state
    rw [same] at closing ⊢
    exact before closing
  | _ => exact before closing

/-! ### The streams -/

theorem undoes_append {call} (undoes : ∃ pc ∈ s.opens, pc.undoes = some ref) :
    ∃ pc ∈ s.opens ++ [call], pc.undoes = some ref := by
  obtain ⟨pc, called, same⟩ := undoes
  exact ⟨pc, List.mem_append_left _ called, same⟩

/-- The step of a call that undoes nothing. -/
theorem undoes_set {i pc next} (placed : s.opens[i]? = some pc) (quiet : pc.undoes ≠ some ref)
    (undoes : ∃ pc ∈ s.opens, pc.undoes = some ref) : ∃ pc ∈ s.opens.set i next, pc.undoes = some ref := by
  obtain ⟨other, called, same⟩ := undoes
  refine ⟨other, ListUpdate.mem_set_other placed called ?_, same⟩
  rintro rfl
  exact quiet same

theorem undoes_moved {i pc next} (placed : s.opens[i]? = some pc) (moved : next.undoes = some ref) :
    ∃ pc ∈ s.opens.set i next, pc.undoes = some ref :=
  ⟨next, List.mem_set (List.getElem?_eq_some_iff.mp placed).1 _, moved⟩

/-- An erased sid takes its own entry with it, and no other. -/
theorem lookup_erase {sid} (other) (listed : s.streams.lookup sid = some ref) :
    (s.streams.erase other).lookup sid = some ref ∨ sid = other := by
  by_cases same : sid = other
  · exact .inr same
  · exact .inl ((AList.lookup_erase_ne same).trans listed)

def Ended (s : Session) (ref : StreamRef) : Prop :=
  ∃ o : StreamObject, s.objects[ref]? = some o ∧ o.stream.closed = true

theorem marked_here {f} (stored : s.objects[ref]? = some o) (marks : ∀ o, (f o).stream.closed = true) :
    ∃ after, (s.objects.modify ref f)[ref]? = some after ∧ after.stream.closed = true := by
  refine ⟨f o, ?_, marks o⟩
  rw [List.getElem?_modify_eq, stored]
  rfl

/-- A turn of the loop gives up only a stream that is closed. -/
theorem Turns.gives_up {next} (turns : Turns s next) (taken : s.recv.taken = some ref) : s.Ended ref := by
  cases turns with
  | markedBefore receiving stored closed =>
    rw [receiving] at taken
    cases taken
    exact ⟨_, stored, closed⟩
  | woken receiving | drained receiving | applied receiving | refused receiving | pushes receiving
  | pushUnknown receiving | synZero receiving | synLate receiving | synPasses receiving | synKnown receiving
  | acked receiving | ackLost receiving | alerted receiving | pushIgnored receiving | pushChecked receiving
  | pushClosed receiving | pushOpen receiving | pushRefused receiving | pushForgiven receiving
  | pushFails receiving =>
    rw [receiving] at taken
    cases taken

/-- Nor does an `open_stream` call. -/
theorem Waits.gives_up {pc next} (waits : Waits s pc next) (undoes : pc.undoes = some ref) :
    s.Ended ref := by
  cases waits with
  | undoneBefore stored closed =>
    cases undoes
    exact ⟨_, stored, closed⟩
  | checkFails | checkPasses | closed | full | synRefused => cases undoes

/-- A stream in the table stays there, or is in the hands of the call that takes it out. -/
theorem listed_step (housed : s.Housed) (enters : s.entersOpen a = true) (moves : Move md5 s a t)
    (stored : s.objects[ref]? = some o) (unclosed : o.stream.closed = false)
    (listed : s.streams.lookup o.stream.id = some ref) : t.Houses o.stream.id ref := by
  cases moves with
  | inserts placed =>
    simp only [entersOpen, placed, Option.isNone_iff_eq_none] at enters
    refine .inl ((AList.lookup_insert_ne ?_).trans listed)
    intro same
    cases (same ▸ enters).symm.trans listed
  | @undoRemoves i other p placed found =>
    simp only [entersOpen, placed, found, Option.all_some] at enters
    rcases lookup_erase p.stream.id listed with kept | hit
    · exact .inl kept
    · rw [← hit, listed] at enters
      have same : ref = other := by simpa using enters
      subst same
      exact .inr (.inr (.inr (undoes_moved placed rfl)))
  | @removes other p found removing =>
    simp only [entersOpen, found, Option.all_some, removing, bne_self_eq_false, Bool.false_or] at enters
    rcases lookup_erase p.stream.id listed with kept | hit
    · exact .inl kept
    · -- the call would take out this stream, which it has marked before
      rw [← hit, listed] at enters
      have same : ref = other := by simpa using enters
      subst same
      cases stored.symm.trans found
      cases (housed.closing stored (by rw [removing]; rfl)).symm.trans unclosed
  | @ends action rest sid error receiving =>
    rcases lookup_erase sid listed with kept | hit
    · exact .inl kept
    · exact .inr (.inr (.inl (hit ▸ listed)))
  | creates receiving absent =>
    refine .inl ((AList.lookup_insert_ne ?_).trans listed)
    rintro rfl
    cases absent.symm.trans listed
  | clears => exact .inr (.inl (List.mem_map.mpr ⟨_, AList.mem_lookup_iff.mp listed, rfl⟩))
  | _ => exact .inl listed

/-- `terminate` takes only a closed stream off its list. -/
theorem ending_step (housed : s.Housed) (moves : Move md5 s a t) (stored : s.objects[ref]? = some o)
    (ending : ref ∈ s.ending.refs) : ref ∈ t.ending.refs ∨ t.Ended ref := by
  cases moves with
  | fails | terminates =>
    cases before : s.closed with
    | true => exact .inl (by simpa [before] using ending)
    | false =>
      rw [housed.unended before] at ending
      cases ending
  | clears started | endsAll started =>
    rw [started] at ending
    cases ending
  | endSkips marking found closed =>
    rw [marking] at ending
    rcases List.mem_cons.mp ending with rfl | later
    · exact .inr ⟨_, found, closed⟩
    · exact .inl later
  | endMarks marking found =>
    rw [marking] at ending
    rcases List.mem_cons.mp ending with rfl | later
    · exact .inr (marked_here stored fun _ => rfl)
    · exact .inl later
  | endFinishes finishing =>
    rw [finishing] at ending
    exact .inl ending
  | _ => exact .inl ending

/-- The loop keeps the stream it has taken out until it is closed. -/
theorem taken_step (moves : Move md5 s a t) (stored : s.objects[ref]? = some o)
    (taken : s.recv.taken = some ref) : t.recv.taken = some ref ∨ t.Ended ref := by
  cases moves with
  | turns turns => exact .inr (turns.gives_up taken)
  | receives receiving | disconnects receiving | alerts receiving | handles receiving | answers receiving
  | releases receiving | pushed receiving | ends receiving | creates receiving | closeFinishes receiving
  | fails receiving =>
    rw [receiving] at taken
    cases taken
  | closeAnnounces receiving =>
    rw [receiving] at taken
    cases taken
    exact .inl rfl
  | closeMarks receiving =>
    rw [receiving] at taken
    cases taken
    exact .inr (marked_here stored fun _ => rfl)
  | _ => exact .inl taken

/-- So does a failed `open_stream` call. -/
theorem undone_step (moves : Move md5 s a t) (stored : s.objects[ref]? = some o)
    (undoes : ∃ pc ∈ s.opens, pc.undoes = some ref) : (∃ pc ∈ t.opens, pc.undoes = some ref) ∨ t.Ended ref := by
  cases moves with
  | asks => exact .inl (undoes_append undoes)
  | @waits i pc next placed waits =>
    by_cases held : pc.undoes = some ref
    · exact .inr (waits.gives_up held)
    · exact .inl (undoes_set placed held undoes)
  | exhausts placed | inserts placed | synSent placed | undoRemoves placed | undoFinishes placed =>
    exact .inl (undoes_set placed (by simp [OpenPc.undoes]) undoes)
  | @undoAnnounces i other isIdle placed =>
    by_cases same : other = ref
    · exact .inl (undoes_moved placed (congrArg some same))
    · exact .inl (undoes_set placed (by simpa [OpenPc.undoes] using same) undoes)
  | @undoMarks i other p placed =>
    by_cases same : other = ref
    · subst same
      exact .inr (marked_here stored fun _ => rfl)
    · exact .inl (undoes_set placed (by simpa [OpenPc.undoes] using same) undoes)
  | _ => exact .inl undoes

/-- A stream that is not closed stays in someone's hands, or is closed. -/
theorem houses_step (housed : s.Housed) (enters : s.entersOpen a = true) (moves : Move md5 s a t)
    (stored : s.objects[ref]? = some o) (unclosed : o.stream.closed = false) (houses : s.Houses o.stream.id ref) :
    t.Houses o.stream.id ref ∨ t.Ended ref := by
  rcases houses with listed | ending | taken | undoes
  · exact .inl (listed_step housed enters moves stored unclosed listed)
  · exact (ending_step housed moves stored ending).imp_left fun kept => .inr (.inl kept)
  · exact (taken_step moves stored taken).imp_left fun kept => .inr (.inr (.inl kept))
  · exact (undone_step moves stored undoes).imp_left fun kept => .inr (.inr (.inr kept))

/-- A step adds a stream only with its entry in the table. -/
theorem Move.adds (moves : Move md5 s a t) : t.objects.length = s.objects.length ∨
    ∃ o : StreamObject, t.objects = s.objects ++ [o] ∧ t.streams.lookup o.stream.id = some s.objects.length := by
  cases moves with
  | inserts | creates => exact .inr ⟨_, rfl, AList.lookup_insert _⟩
  | _ => exact .inl (by simp [modifyObject])

theorem housed_step (housed : s.Housed) (enters : s.entersOpen a = true) (stepped : s.step md5 a = some t) :
    t.Housed := by
  have moves := step_move stepped
  have evolved := (step_effect stepped).objects
  refine ⟨unended_step housed moves, emptied_step housed enters moves, fun stored closing => ?_, fun stored => ?_⟩
  · rcases evolved.2 _ _ stored with ⟨before, was, changed⟩ | ⟨-, created⟩
    · exact closing_change changed (housed.closing was) closing
    · cases created <;> cases closing
  · rcases evolved.2 _ _ stored with ⟨before, was, changed⟩ | ⟨rfl, -⟩
    · cases unclosed : before.stream.closed with
      | true => exact .inl (changed.closed_stays unclosed)
      | false =>
        have houses := (housed.housed was).resolve_left (by simp [unclosed])
        rcases houses_step housed enters moves was unclosed houses with kept | ⟨after, found, closed⟩
        · exact .inr (changed.id ▸ kept)
        · cases stored.symm.trans found
          exact .inl closed
    · rcases moves.adds with same | ⟨o, objects, listed⟩
      · exact absurd (List.getElem?_eq_some_iff.mp stored).1 (by rw [same]; exact Nat.lt_irrefl _)
      · rw [objects, List.getElem?_concat_length] at stored
        cases stored
        exact .inr (.inl listed)

/-- In every run that lets streams enter the table only so: once `terminate` is through and no call
is in progress, the table is empty, the session is idle and every stream ever made is closed. -/
theorem no_stream_survives {iterate : StringMap.Order} {isClient : Bool}
    {padding : PaddingFactory} {actions : List SessionAction}
    (enters : Transition.Along (step md5) (fun s a => s.entersOpen a = true)
      ((new isClient padding).ensureStarted iterate) actions)
    (path : Transition.run (step md5) ((new isClient padding).ensureStarted iterate) actions = some s)
    (closed : s.closed = true) (completed : s.ending = .none)
    (returned : ∀ pc ∈ s.opens, ∃ result, pc = .returned result) (handled : s.recv.taken = none) :
    s.streams = ∅ ∧ s.idleState = true ∧ ∀ o ∈ s.objects, o.stream.closed = true := by
  have housed : s.Housed := Transition.invariant_along housed_step (fresh_started iterate isClient padding).housed
    enters path
  obtain ⟨empty, idle⟩ := housed.emptied closed (by simp [completed])
  refine ⟨empty, idle, fun o member => ?_⟩
  obtain ⟨ref, stored⟩ := List.mem_iff_getElem?.mp member
  rcases housed.housed stored with ended | listed | ending | closes | ⟨pc, called, undoes⟩
  · exact ended
  · rw [empty] at listed
    cases listed
  · rw [completed] at ending
    cases ending
  · cases handled.symm.trans closes
  · obtain ⟨result, rfl⟩ := returned pc called
    cases undoes

/-- The settings of a client, and a SYN, which the loop has checked against the closed flag. -/
def synChecked : List SessionAction :=
  [SessionAction.receive ((Frame.withData .settings 0 (asBytes "padding-md5=")).toBytes ++ (Frame.new .syn 1).toBytes)] ++
    List.replicate 4 SessionAction.recvStep

theorem synChecked_ended : ∃ s, Transition.run (step fun _ => "")
      ((new false plainPadding).ensureStarted AList.entries)
      (synChecked ++ [.recvStep, .terminate] ++ List.replicate 4 .endStep) = some s ∧
    s.objects.length = 1 ∧ s.streams = ∅ ∧ s.idleState = true ∧ ∀ o ∈ s.objects, o.stream.closed = true := by
  have reached : (Transition.run (step fun _ => "") ((new false plainPadding).ensureStarted AList.entries)
      (synChecked ++ [SessionAction.recvStep, .terminate] ++ List.replicate 4 SessionAction.endStep)).any (fun s : Session =>
        decide (s.objects.length = 1 ∧ s.closed = true ∧ s.ending = .none ∧ s.opens = [] ∧
          s.recv = .applying [])) = true := by decide +kernel
  obtain ⟨s, path, reached⟩ := (Option.any_eq_true _ _).mp reached
  obtain ⟨single, closed, completed, unopened, handled⟩ := of_decide_eq_true reached
  refine ⟨s, path, single, no_stream_survives (by decide +kernel) path closed completed ?_ (by rw [handled]; rfl)⟩
  simp [unopened]

/-- `terminate` runs between the check of the flag and the lock section of a SYN. -/
theorem synChecked_survives : ∃ s o, Transition.run (step fun _ => "")
      ((new false plainPadding).ensureStarted AList.entries)
      (synChecked ++ [.terminate, .endStep, .endStep] ++ List.replicate 5 .recvStep) = some s ∧
    s.closed = true ∧ s.ending = .none ∧ s.opens = [] ∧ s.recv = .ended ∧
    s.streams.lookup 1 = some 0 ∧ s.idleState = false ∧ s.objects[0]? = some o ∧ o.stream.closed = false := by
  have reached : (Transition.run (step fun _ => "") ((new false plainPadding).ensureStarted AList.entries)
      (synChecked ++ [SessionAction.terminate, .endStep, .endStep] ++ List.replicate 5 SessionAction.recvStep)).any (fun s : Session =>
        decide (s.closed = true ∧ s.ending = .none ∧ s.opens = [] ∧ s.recv = .ended ∧
          s.streams.lookup 1 = some 0 ∧ s.idleState = false) &&
        s.objects[0]?.any fun o : StreamObject => decide (o.stream.closed = false)) = true := by decide +kernel
  obtain ⟨s, path, reached⟩ := (Option.any_eq_true _ _).mp reached
  obtain ⟨ended, stream⟩ := Bool.and_eq_true_iff.mp reached
  obtain ⟨closed, completed, unopened, loop, listed, busy⟩ := of_decide_eq_true ended
  obtain ⟨o, stored, unclosed⟩ := (Option.any_eq_true _ _).mp stream
  exact ⟨s, o, path, closed, completed, unopened, loop, listed, busy, stored, of_decide_eq_true unclosed⟩

end Session

end AnyTls
