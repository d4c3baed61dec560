import AnyTls.Proxy.IdleFlag
import AnyTls.Proxy.Listening
import AnyTls.Proxy.SessionMoves

/-! The ids of a client's streams. `open_stream` takes the next value of a 32-bit counter that
wraps and refuses the value 0 only when it meets it: the call that finds the counter used up
fails, and the one after it starts again from 1. Up to there the ids rise with every stream. -/
namespace AnyTls

/-- The limit that the call has still to test. -/
def OpenPc.limit? : OpenPc → Option Nat
  | .check maxStreams | .insert maxStreams => some maxStreams
  | _ => none

/-- The stream that the call has made. -/
def OpenPc.stream? : OpenPc → Option StreamRef
  | .syn ref | .undoRemove ref | .undoAnnounce ref _ | .undoMark ref | .undoFinish ref
  | .returned (.ok ref) => some ref
  | _ => none

namespace Session
variable {md5 : Bytes → String} {s t : Session} {a : SessionAction} {ref : StreamRef} {o : StreamObject}

/-- No stream is put into the table once the counter has wrapped. -/
def numbersLeft (s : Session) (a : SessionAction) : Bool :=
  !s.inserts a || s.nextStreamId != 0 || s.objects.isEmpty

/-! ### The calls -/

/-- The loop of a client waits to make no stream. -/
theorem awaited_step (client : s.isClient = true) (quiet : s.recv.awaited = [])
    (stepped : s.step md5 a = some t) : t.recv.awaited = [] := by
  cases (step_effect stepped).inbound with
  | same unchanged =>
    have recv : t.recv = s.recv := congrArg (·.1) unchanged
    exact recv ▸ quiet
  | receive chunk _ _ same => simp [same, RecvPc.awaited, RecvPc.arriving, RecvPc.pending]
  | disconnect error _ _ same => simp [same, RecvPc.awaited, RecvPc.arriving, RecvPc.pending]
  | recv called =>
    subst called
    rcases recvStep_cases stepped with ⟨frame, rest, -, -, rfl⟩ | onward
    · unfold handleFrame
      split_ifs
      · rfl
      · exact (onFrame_incoming md5 _ _ frame s.handled 0).2 client
    · obtain ⟨made, -, sublist⟩ := onward.made
      rw [quiet] at sublist
      exact (List.append_eq_nil_iff.mp (List.sublist_nil.mp sublist)).2

theorem Waits.limit {pc next limit} (waits : Waits s pc next) (has : next.limit? = some limit) :
    pc.limit? = some limit := by
  cases waits with
  | checkPasses => exact has
  | checkFails | closed | full | synRefused | undoneBefore => cases has

theorem Waits.stream {pc next} (waits : Waits s pc next) (has : next.stream? = some ref) :
    pc.stream? = some ref := by
  cases waits with
  | synRefused => exact has
  | checkFails | checkPasses | closed | full | undoneBefore => cases has

/-- A limit that a call has to test is the one it was called with. -/
theorem Move.limits {limit} (moves : Move md5 s a t) (asked : ∀ m, a = .openStream m → m = limit)
    (before : ∀ pc ∈ s.opens, ∀ m, pc.limit? = some m → m = limit) :
    ∀ pc ∈ t.opens, ∀ m, pc.limit? = some m → m = limit := by
  have moved {i : Nat} {next : OpenPc} (kept : ∀ m, next.limit? = some m → m = limit) :
      ∀ pc ∈ s.opens.set i next, ∀ m, pc.limit? = some m → m = limit := by
    intro pc called
    rcases List.mem_or_eq_of_mem_set called with old | rfl
    · exact before pc old
    · exact kept
  cases moves with
  | asks maxStreams =>
    intro pc called m has
    rcases List.mem_append.mp called with old | new
    · exact before pc old m has
    · rw [List.mem_singleton.mp new] at has
      cases has
      exact asked maxStreams rfl
  | waits placed waits => exact moved fun m has => before _ (List.mem_of_getElem? placed) m (waits.limit has)
  | exhausts | inserts | synSent | undoRemoves | undoAnnounces | undoMarks | undoFinishes =>
    exact moved fun m has => by cases has
  | _ => exact before

/-- A stream that a call has made was made before, or is the one just added. -/
theorem Move.made (moves : Move md5 s a t) : ∃ call : Nat, ∀ (i : Nat) ref,
    (t.opens[i]?).bind OpenPc.stream? = some ref → (s.opens[i]?).bind OpenPc.stream? = some ref ∨
      (i = call ∧ ref = s.objects.length ∧ t.objects.length = s.objects.length + 1) := by
  have moved {i : Nat} {pc next : OpenPc} (placed : s.opens[i]? = some pc)
      (kept : ∀ ref, next.stream? = some ref → pc.stream? = some ref) (j : Nat) (ref : StreamRef)
      (made : ((s.opens.set i next)[j]?).bind OpenPc.stream? = some ref) :
      (s.opens[j]?).bind OpenPc.stream? = some ref := by
    rw [List.getElem?_set] at made
    split_ifs at made with same within
    · subst same
      rw [placed]
      exact kept ref made
    · cases made
    · exact made
  cases moves with
  | asks maxStreams =>
    refine ⟨0, fun i ref made => .inl ?_⟩
    rw [List.getElem?_append] at made
    split_ifs at made
    · exact made
    · rw [List.getElem?_singleton] at made
      split_ifs at made <;> cases made
  | waits placed waits => exact ⟨0, fun i ref made => .inl (moved placed (fun _ => waits.stream) i ref made)⟩
  | exhausts placed | undoFinishes placed =>
    exact ⟨0, fun i ref made => .inl (moved placed (fun _ has => by cases has) i ref made)⟩
  | synSent placed | undoRemoves placed | undoAnnounces placed | undoMarks placed =>
    refine ⟨0, fun i ref made => .inl (moved placed ?_ i ref made)⟩
    intro ref has
    exact has
  | @inserts call maxStreams placed =>
    refine ⟨call, fun i ref made => ?_⟩
    rw [List.getElem?_set] at made
    split_ifs at made with same within
    · cases made
      exact .inr ⟨same.symm, rfl, by simp⟩
    · cases made
    · exact .inl made
  | _ => exact ⟨0, fun i ref made => .inl made⟩

/-! ### The table -/

/-- What a step of a client does to its table. -/
theorem Move.clientTable (moves : Move md5 s a t) (quiet : s.recv.awaited = []) :
    t.streams = s.streams ∨ (∃ sid, t.streams = s.streams.erase sid) ∨ t.streams = ∅ ∨
    (s.inserts a = true ∧ (∃ (i maxStreams : Nat), s.opens[i]? = some (.insert maxStreams) ∧
      s.streams.keys.length < maxStreams) ∧ s.nextStreamId + 1 ≠ 0 ∧
      t.streams = s.streams.insert (s.nextStreamId + 1) s.objects.length) := by
  cases moves with
  | @inserts i maxStreams placed unset room left =>
    refine .inr (.inr (.inr ⟨?_, ⟨i, maxStreams, placed, room⟩, left, rfl⟩))
    simp [Session.inserts, placed, unset, room, left]
  | creates receiving absent =>
    rw [receiving] at quiet
    cases quiet
  | undoRemoves | removes | ends => exact .inr (.inl ⟨_, rfl⟩)
  | clears => exact .inr (.inr (.inl rfl))
  | _ => exact .inl rfl

/-- The counter moves only with a stream, or when it wraps. -/
theorem Move.counter (moves : Move md5 s a t) (quiet : s.recv.awaited = []) :
    (t.nextStreamId = s.nextStreamId ∧ t.objects.length = s.objects.length) ∨ t.nextStreamId = 0 ∨
    (s.inserts a = true ∧ s.nextStreamId + 1 ≠ 0 ∧ t.nextStreamId = s.nextStreamId + 1) := by
  cases moves with
  | @inserts i maxStreams placed unset room left =>
    refine .inr (.inr ⟨?_, left, rfl⟩)
    simp [Session.inserts, placed, unset, room, left]
  | exhausts _ _ _ none => exact .inr (.inl none)
  | creates receiving absent =>
    rw [receiving] at quiet
    cases quiet
  | _ => exact .inl ⟨rfl, by simp [modifyObject]⟩

/-! ### The invariant -/

/-- The ids of a client's streams rise with every stream, up to the counter. -/
structure Numbered (s : Session) : Prop where
  client : s.isClient = true
  quiet : s.recv.awaited = []
  rising : (s.objects.map (·.stream.id)).Pairwise (· < ·)
  positive : ∀ o ∈ s.objects, 0 < o.stream.id
  counted : s.nextStreamId ≠ 0 → ∀ o ∈ s.objects, o.stream.id ≤ s.nextStreamId
  listed : ∀ sid ref, s.streams.lookup sid = some ref → ∃ o, s.objects[ref]? = some o ∧ o.stream.id = sid

theorem Fresh.numbered (fresh : s.Fresh) (client : s.isClient = true) : s.Numbered where
  client := client
  quiet := by rw [fresh.recv]; rfl
  rising := by simp [fresh.objects]
  positive := by simp [fresh.objects]
  counted := by simp [fresh.objects]
  listed _ _ listed := fresh.unlisted listed

namespace Numbered

/-- The next id is above all others. -/
theorem next (numbered : s.Numbered) (left : s.numbersLeft a = true) (inserts : s.inserts a = true)
    (nonzero : s.nextStreamId + 1 ≠ 0) : ∀ o ∈ s.objects, o.stream.id < s.nextStreamId + 1 := by
  intro o member
  have started : s.nextStreamId ≠ 0 := by
    rintro zero
    simp only [numbersLeft, inserts, zero, Bool.not_true, bne_self_eq_false, Bool.false_or,
      List.isEmpty_iff] at left
    rw [left] at member
    cases member
  have below := numbered.counted started o member
  rw [UInt32.le_iff_toNat_le] at below
  rw [UInt32.lt_iff_toNat_lt]
  have nonzero : (s.nextStreamId + 1).toNat ≠ 0 := fun zero => nonzero (UInt32.toNat_inj.mp zero)
  have small := s.nextStreamId.toNat_lt
  rw [UInt32.toNat_add] at nonzero ⊢
  simp only [UInt32.reduceToNat] at nonzero ⊢
  omega

/-- The ids are in the order of the streams. -/
theorem ordered (numbered : s.Numbered) {x y : StreamRef} {u v : StreamObject} (before : x < y)
    (first : s.objects[x]? = some u) (second : s.objects[y]? = some v) : u.stream.id < v.stream.id := by
  obtain ⟨-, rfl⟩ := List.getElem?_eq_some_iff.mp first
  obtain ⟨within, rfl⟩ := List.getElem?_eq_some_iff.mp second
  have rising := List.pairwise_iff_getElem.mp numbered.rising x y
    (by simpa using Nat.lt_trans before within) (by simpa using within) before
  simpa using rising

theorem distinct (numbered : s.Numbered) {x y : StreamRef} {u v : StreamObject} (apart : x ≠ y)
    (first : s.objects[x]? = some u) (second : s.objects[y]? = some v) : u.stream.id ≠ v.stream.id := by
  rcases Nat.lt_or_gt_of_ne apart with before | after
  · exact UInt32.ne_of_lt (numbered.ordered before first second)
  · exact (UInt32.ne_of_lt (numbered.ordered after second first)).symm

/-- An entry of the table is not replaced by that of another stream. -/
theorem kept (numbered : s.Numbered) (left : s.numbersLeft a = true) (moves : Move md5 s a t)
    {sid ref other} (listed : s.streams.lookup sid = some ref) (now : t.streams.lookup sid = some other) :
    other = ref := by
  rcases moves.clientTable numbered.quiet with same | ⟨gone, erased⟩ | empty | ⟨inserts, -, nonzero, inserted⟩
  · rw [same, listed] at now
    exact (Option.some.inj now).symm
  · rw [erased] at now
    by_cases same : sid = gone
    · rw [same, AList.lookup_erase] at now
      cases now
    · rw [AList.lookup_erase_ne same, listed] at now
      exact (Option.some.inj now).symm
  · rw [empty] at now
    cases now
  · obtain ⟨o, stored, id⟩ := numbered.listed sid ref listed
    have below := numbered.next left inserts nonzero o (List.mem_of_getElem? stored)
    have other : sid ≠ s.nextStreamId + 1 := by
      rw [← id]
      exact UInt32.ne_of_lt below
    rw [inserted, AList.lookup_insert_ne other, listed] at now
    exact (Option.some.inj now).symm

/-- The ids after a step: those before, or one more at the end. -/
theorem ids (numbered : s.Numbered) (stepped : s.step md5 a = some t) :
    t.objects.map (·.stream.id) = s.objects.map (·.stream.id) ∨
    (s.inserts a = true ∧ s.nextStreamId + 1 ≠ 0 ∧ t.nextStreamId = s.nextStreamId + 1 ∧
      t.objects.map (·.stream.id) = s.objects.map (·.stream.id) ++ [s.nextStreamId + 1]) := by
  have moves := step_move stepped
  cases moves with
  | @inserts i maxStreams placed unset room left =>
    refine .inr ⟨?_, left, rfl, by simp [StreamObject.new, Stream.new]⟩
    simp [Session.inserts, placed, unset, room, left]
  | creates receiving absent =>
    have quiet := numbered.quiet
    rw [receiving] at quiet
    cases quiet
  | _ =>
    rcases (step_effect stepped).objects.ids with same | ⟨o, -, more⟩
    · exact .inl same
    · have longer := congrArg List.length more
      simp [modifyObject] at longer

/-- An id after a step was there before, or is the new one. -/
theorem old_or_new (numbered : s.Numbered) (stepped : s.step md5 a = some t) {o} (member : o ∈ t.objects) :
    (∃ old ∈ s.objects, o.stream.id = old.stream.id) ∨
      (s.inserts a = true ∧ s.nextStreamId + 1 ≠ 0 ∧ t.nextStreamId = s.nextStreamId + 1 ∧
        o.stream.id = s.nextStreamId + 1) := by
  have listed : o.stream.id ∈ t.objects.map (·.stream.id) := List.mem_map_of_mem member
  have known (old : o.stream.id ∈ s.objects.map (·.stream.id)) : ∃ old ∈ s.objects, o.stream.id = old.stream.id := by
    obtain ⟨before, member, same⟩ := List.mem_map.mp old
    exact ⟨before, member, same.symm⟩
  rcases numbered.ids stepped with same | ⟨inserts, nonzero, counter, more⟩
  · exact .inl (known (same ▸ listed))
  · rw [more] at listed
    rcases List.mem_append.mp listed with old | new
    · exact .inl (known old)
    · exact .inr ⟨inserts, nonzero, counter, List.mem_singleton.mp new⟩

end Numbered

theorem numbered_step (numbered : s.Numbered) (left : s.numbersLeft a = true) (stepped : s.step md5 a = some t) :
    t.Numbered := by
  have moves := step_move stepped
  refine ⟨(role_step stepped).trans numbered.client, awaited_step numbered.client numbered.quiet stepped, ?_,
    fun o member => ?_, fun nonzero o member => ?_, (step_effect stepped).mapped numbered.listed⟩
  · rcases numbered.ids stepped with same | ⟨inserts, nonzero, -, more⟩
    · exact same ▸ numbered.rising
    · rw [more, List.pairwise_append]
      refine ⟨numbered.rising, List.pairwise_singleton .., ?_⟩
      intro id old next new
      obtain ⟨o, member, rfl⟩ := List.mem_map.mp old
      rw [List.mem_singleton.mp new]
      exact numbered.next left inserts nonzero o member
  · rcases numbered.old_or_new stepped member with ⟨old, known, same⟩ | ⟨-, nonzero, -, same⟩
    · rw [same]
      exact numbered.positive old known
    · rw [same]
      exact UInt32.pos_iff_ne_zero.mpr nonzero
  · rcases numbered.old_or_new stepped member with ⟨old, known, same⟩ | ⟨-, -, counter, same⟩
    · rw [same]
      rcases moves.counter numbered.quiet with ⟨counter, -⟩ | zero | ⟨inserts, above, counter⟩
      · rw [counter] at nonzero ⊢
        exact numbered.counted nonzero old known
      · exact absurd zero nonzero
      · rw [counter]
        exact UInt32.le_of_lt (numbered.next left inserts above old known)
    · rw [same, counter]
      exact UInt32.le_refl _

/-- A client with at most `limit` streams at a time. -/
structure Issued (limit : Nat) (s : Session) : Prop extends s.Numbered where
  asked : ∀ pc ∈ s.opens, ∀ m, pc.limit? = some m → m = limit
  bound : s.streams.keys.length ≤ limit
  made : ∀ (i : Nat) ref, (s.opens[i]?).bind OpenPc.stream? = some ref → ref < s.objects.length
  single : ∀ (i j : Nat) ref, (s.opens[i]?).bind OpenPc.stream? = some ref →
    (s.opens[j]?).bind OpenPc.stream? = some ref → i = j

variable {limit : Nat}

theorem Fresh.issued (fresh : s.Fresh) (client : s.isClient = true) (limit) : s.Issued limit where
  toNumbered := fresh.numbered client
  asked := by simp [fresh.opens]
  bound := by rw [fresh.streams]; exact Nat.zero_le _
  made := by simp [fresh.opens]
  single := by simp [fresh.opens]

theorem Issued.bound_step (issued : s.Issued limit) (moves : Move md5 s a t) :
    t.streams.keys.length ≤ limit := by
  rcases moves.clientTable issued.quiet with same | ⟨sid, erased⟩ | empty | ⟨-, ⟨i, m, placed, room⟩, -, inserted⟩
  · exact same ▸ issued.bound
  · rw [erased, AList.keys_erase]
    exact (List.length_erase_le ..).trans issued.bound
  · rw [empty]
    exact Nat.zero_le _
  · have same := issued.asked _ (List.mem_of_getElem? placed) m rfl
    rw [inserted, AList.keys_insert, List.length_cons]
    have fewer := List.length_erase_le (a := s.nextStreamId + 1) (l := s.streams.keys)
    omega

theorem issued_step (issued : s.Issued limit) (asked : ∀ m, a = .openStream m → m = limit)
    (left : s.numbersLeft a = true) (stepped : s.step md5 a = some t) : t.Issued limit := by
  have moves := step_move stepped
  have effect := step_effect stepped
  obtain ⟨call, made⟩ := moves.made
  refine ⟨numbered_step issued.toNumbered left stepped, moves.limits asked issued.asked, issued.bound_step moves,
    fun i ref has => ?_, fun i j ref first second => ?_⟩
  · rcases made i ref has with old | ⟨-, rfl, longer⟩
    · exact Nat.lt_of_lt_of_le (issued.made i ref old) effect.objects.1
    · rw [longer]
      exact Nat.lt_succ_self _
  · rcases made i ref first with old | ⟨rfl, here, -⟩
    · rcases made j ref second with known | ⟨-, there, -⟩
      · exact issued.single i j ref old known
      · exact absurd there (Nat.ne_of_lt (issued.made i ref old))
    · rcases made j ref second with known | ⟨rfl, -, -⟩
      · exact absurd here (Nat.ne_of_lt (issued.made j ref known))
      · rfl

/-- A call that meets the counter at its last value fails. -/
theorem exhausted_fails {i maxStreams} (placed : s.opens[i]? = some (.insert maxStreams))
    (none : s.nextStreamId + 1 = 0) (stepped : s.step md5 (.openStep i) = some t) :
    ∃ error, t.opens[i]? = some (.returned (.error error)) := by
  have within := (List.getElem?_eq_some_iff.mp placed).1
  have fails {error : IoError} : (s.opens.set i (.returned (.error error)))[i]? =
      some (.returned (.error error)) := List.getElem?_set_self within
  generalize called : SessionAction.openStep i = a at stepped
  cases step_move stepped with
  | waits found waits =>
    cases called
    cases placed.symm.trans found
    cases waits with
    | closed | full => exact ⟨_, fails⟩
  | exhausts =>
    cases called
    exact ⟨_, fails⟩
  | inserts _ _ _ left => exact absurd none left
  | synSent found | undoRemoves found | undoAnnounces found | undoMarks found | undoFinishes found =>
    cases called
    cases placed.symm.trans found
  | acknowledges acknowledges | acknowledged acknowledges => cases acknowledges <;> cases called
  | _ => cases called

/-- In every run of a client whose calls all have the same limit, while the counter has numbers left:
the sids rise and are not zero, so that two calls never return the same one; the table keeps to the
limit and never gives a sid in it to another stream; and a call at the end of the counter fails. -/
theorem stream_ids_unique {iterate : StringMap.Order} {padding : PaddingFactory}
    {actions : List SessionAction} (fixed : ∀ m, .openStream m ∈ actions → m = limit)
    (left : Transition.Along (step md5) (fun s a => s.numbersLeft a = true)
      ((new true padding).ensureStarted iterate) actions)
    (path : Transition.run (step md5) ((new true padding).ensureStarted iterate) actions = some s) :
    (s.objects.map (·.stream.id)).Pairwise (· < ·) ∧ (∀ o ∈ s.objects, o.stream.id ≠ 0) ∧
    (∀ (i j : Nat) (ref other : StreamRef) (o p : StreamObject), i ≠ j →
      s.opens[i]? = some (.returned (.ok ref)) → s.opens[j]? = some (.returned (.ok other)) →
      s.objects[ref]? = some o → s.objects[other]? = some p → o.stream.id ≠ p.stream.id) ∧
    s.streams.keys.length ≤ limit ∧
    (∀ a t, s.numbersLeft a = true → s.step md5 a = some t → ∀ sid ref other,
      s.streams.lookup sid = some ref → t.streams.lookup sid = some other → other = ref) ∧
    ∀ (i maxStreams : Nat) t, s.opens[i]? = some (.insert maxStreams) → s.nextStreamId + 1 = 0 →
      s.step md5 (.openStep i) = some t → ∃ error, t.opens[i]? = some (.returned (.error error)) := by
  have asked : Transition.Along (step md5) (fun _ a => ∀ m, a = .openStream m → m = limit)
      ((new true padding).ensureStarted iterate) actions :=
    Transition.along_of_mem fun a member m same => fixed m (same ▸ member)
  have issued : s.Issued limit := Transition.invariant_along
    (fun issued holds stepped => issued_step issued holds.1 holds.2 stepped)
    ((fresh_started iterate true padding).issued rfl limit) (asked.and left) path
  refine ⟨issued.rising, fun o member => (UInt32.pos_iff_ne_zero.mp (issued.positive o member)), ?_, issued.bound,
    fun a t left stepped sid ref other => issued.toNumbered.kept left (step_move stepped), ?_⟩
  · intro i j ref other o p apart first second stored found same
    have refs : ref ≠ other := by
      rintro rfl
      exact apart (issued.single i j ref (by rw [first]; rfl) (by rw [second]; rfl))
    exact issued.toNumbered.distinct refs stored found same
  · intro i maxStreams t placed none stepped
    exact exhausted_fails placed none stepped

/-- One `open_stream` call, and a turn of the writer. -/
def openRound (limit calls : Nat) : List SessionAction :=
  [.openStream limit, .openStep calls, .openStep calls, .openStep calls, .emit ⟨0, []⟩]

theorem openRound_ids : ∃ s, Transition.run (step fun _ => "") ((new true plainPadding).ensureStarted AList.entries)
      (openRound 2 0 ++ openRound 2 1) = some s ∧
    s.opens = [.returned (.ok 0), .returned (.ok 1)] ∧ (s.objects.map (·.stream.id)).Pairwise (· < ·) ∧
    s.objects.length = 2 ∧ s.streams.keys.length ≤ 2 := by
  have reached : (Transition.run (step fun _ => "") ((new true plainPadding).ensureStarted AList.entries)
      (openRound 2 0 ++ openRound 2 1)).any (fun s =>
        decide (s.opens = [.returned (.ok 0), .returned (.ok 1)] ∧ s.objects.length = 2)) = true := by
    decide +kernel
  obtain ⟨s, path, reached⟩ := (Option.any_eq_true _ _).mp reached
  obtain ⟨opens, both⟩ := of_decide_eq_true reached
  have fixed : ∀ m, .openStream m ∈ openRound 2 0 ++ openRound 2 1 → m = 2 := by simp [openRound]
  have unique := stream_ids_unique fixed (by decide +kernel) path
  exact ⟨s, path, opens, unique.1, both, unique.2.2.2.1⟩

/-! ### Past the last id -/

theorem modify_last {α : Type*} {l : List α} {a f} :
    (l ++ [a]).modify l.length f = l ++ [f a] := by
  rw [ListUpdate.modify_eq_set List.getElem?_concat_length, List.set_append_right _ _ (Nat.le_refl _),
    Nat.sub_self, List.set_cons_zero]

theorem open_round (md5 : Bytes → String) (unset : s.closed = false)
    (idle : s.frameTx = ⟨[], false⟩) (room : s.streams.keys.length < limit) (left : s.nextStreamId + 1 ≠ 0) :
    ∃ t, Transition.run (step md5) s (openRound limit s.opens.length) = some t ∧
      (t.closed = false ∧ t.frameTx = ⟨[], false⟩) ∧
      t.opens = s.opens ++ [OpenPc.returned (.ok s.objects.length)] ∧
      t.objects = s.objects ++ [StreamObject.new (s.nextStreamId + 1) .idle s.handled.length] ∧
      t.nextStreamId = s.nextStreamId + 1 ∧
      t.streams = s.streams.insert (s.nextStreamId + 1) s.objects.length := by
  have roomy : ¬ limit ≤ s.streams.keys.length := Nat.not_le.mpr room
  simp [openRound, Transition.run, step, openStep, openInsert, isTerminated, unset, idle, roomy, left,
    send, FrameTx.trySend, FrameTx.send, FrameTx.capacity, modifyObject, modify_last, StreamObject.new]

theorem exhausted_round (md5 : Bytes → String) (unset : s.closed = false) (idle : s.frameTx = ⟨[], false⟩)
    (room : s.streams.keys.length < limit) (none : s.nextStreamId + 1 = 0) :
    ∃ t, Transition.run (step md5) s ((openRound limit s.opens.length).take 3) = some t ∧
      (t.closed = false ∧ t.frameTx = ⟨[], false⟩) ∧
      t.opens = s.opens ++ [OpenPc.returned (.error (IoError.otherError "Stream identifier exhausted"))] ∧
      t.objects = s.objects ∧ t.nextStreamId = 0 ∧ t.streams = s.streams := by
  have roomy : ¬ limit ≤ s.streams.keys.length := Nat.not_le.mpr room
  simp [openRound, Transition.run, step, openStep, openInsert, isTerminated, unset, idle, roomy, none]

/-- A client that has opened `n` streams and closed none. -/
structure AllOpen (n : Nat) (s : Session) : Prop where
  unset : s.closed = false
  idle : s.frameTx = ⟨[], false⟩
  calls : s.opens.length = n
  objects : s.objects.length = n
  counter : s.nextStreamId = UInt32.ofNat n
  size : s.streams.keys.length ≤ n
  first : 0 < n → s.opens[0]? = some (OpenPc.returned (.ok 0)) ∧ s.streams.lookup 1 = some 0 ∧
    ∃ o : StreamObject, s.objects[0]? = some o ∧ o.stream.id = 1 ∧ o.stream.closed = false

theorem nextId_toNat {n} (room : n + 1 < 2 ^ 32) : (UInt32.ofNat n + 1).toNat = n + 1 := by
  rw [UInt32.toNat_add, UInt32.toNat_ofNat']
  simp only [UInt32.reduceToNat]
  omega

theorem AllOpen.next {n} (md5 : Bytes → String) (opened : s.AllOpen n) (room : n + 1 < 2 ^ 32) :
    ∃ t, Transition.run (step md5) s (openRound (2 ^ 32) n) = some t ∧ t.AllOpen (n + 1) := by
  have above := nextId_toNat room
  have left : s.nextStreamId + 1 ≠ 0 := by
    intro zero
    rw [opened.counter] at zero
    rw [zero] at above
    cases above
  have space : s.streams.keys.length < 2 ^ 32 := Nat.lt_of_le_of_lt opened.size (Nat.lt_of_succ_lt room)
  obtain ⟨t, path, ⟨unset, idle⟩, opens, objects, counter, streams⟩ :=
    open_round md5 opened.unset opened.idle space left
  rw [opened.calls] at path
  refine ⟨t, path, unset, idle, ?_, ?_, ?_, ?_, fun _ => ?_⟩
  · rw [opens, List.length_append, opened.calls, List.length_singleton]
  · rw [objects, List.length_append, opened.objects, List.length_singleton]
  · rw [counter, opened.counter]
    refine UInt32.toNat_inj.mp (above.trans ?_)
    rw [UInt32.toNat_ofNat', Nat.mod_eq_of_lt room]
  · rw [streams, AList.keys_insert, List.length_cons]
    exact Nat.succ_le_succ ((List.length_erase_le ..).trans opened.size)
  · rcases Nat.eq_zero_or_pos n with rfl | started
    · -- the first stream
      have none : s.objects = [] := List.length_eq_zero_iff.mp opened.objects
      have unasked : s.opens = [] := List.length_eq_zero_iff.mp opened.calls
      have zero : s.nextStreamId = 0 := opened.counter
      rw [opens, objects, streams, none, unasked, zero]
      exact ⟨rfl, AList.lookup_insert _, _, rfl, rfl, rfl⟩
    · obtain ⟨returned, listed, o, stored, id, unclosed⟩ := opened.first started
      have other : (1 : UInt32) ≠ s.nextStreamId + 1 := by
        intro same
        rw [opened.counter] at same
        rw [← same] at above
        simp only [UInt32.reduceToNat] at above
        omega
      refine ⟨?_, ?_, o, ?_, id, unclosed⟩
      · rw [opens, List.getElem?_append_left (by rw [opened.calls]; exact started), returned]
      · rw [streams, AList.lookup_insert_ne other, listed]
      · rw [objects, List.getElem?_append_left (by rw [opened.objects]; exact started), stored]

theorem all_open (n) (room : n < 2 ^ 32) : ∃ actions s, (∀ m, .openStream m ∈ actions → m = 2 ^ 32) ∧
    Transition.run (step fun _ => "") ((new true plainPadding).ensureStarted AList.entries) actions = some s ∧
    s.AllOpen n := by
  induction n with
  | zero =>
    refine ⟨[.emit ⟨0, []⟩], _, by simp, rfl, rfl, rfl, rfl, rfl, rfl, Nat.le_refl _, ?_⟩
    intro impossible
    cases impossible
  | succ n ih =>
    obtain ⟨actions, s, fixed, path, opened⟩ := ih (Nat.lt_of_succ_lt room)
    obtain ⟨t, more, opened⟩ := opened.next (fun _ => "") room
    refine ⟨actions ++ openRound (2 ^ 32) n, t, fun m member => ?_,
      Transition.run_append_some.mpr ⟨s, path, more⟩, opened⟩
    rcases List.mem_append.mp member with old | new
    · exact fixed m old
    · simpa [openRound] using new

/-- The call after the one that fails opens a stream under the id of the first, which is still open. -/
theorem first_id_reused : ∃ actions before s o p last,
    (∀ m, .openStream m ∈ actions → m = 2 ^ 32) ∧
    Transition.run (step fun _ => "") ((new true plainPadding).ensureStarted AList.entries) actions = some before ∧
    before.opens[2 ^ 32 - 1]? = some (.returned (.error (IoError.otherError "Stream identifier exhausted"))) ∧
    before.streams.lookup 1 = some 0 ∧
    Transition.run (step fun _ => "") before (openRound (2 ^ 32) (2 ^ 32)) = some s ∧
    s.opens[0]? = some (.returned (.ok 0)) ∧ s.opens[2 ^ 32]? = some (.returned (.ok last)) ∧ last ≠ 0 ∧
    s.objects[0]? = some o ∧ s.objects[last]? = some p ∧ o.stream.id = 1 ∧ p.stream.id = 1 ∧
    o.stream.closed = false ∧ s.streams.lookup 1 = some last := by
  obtain ⟨actions, s, fixed, path, opened⟩ := all_open (2 ^ 32 - 1) (by decide)
  obtain ⟨returned, listed, o, stored, id, unclosed⟩ := opened.first (by decide)
  have space : s.streams.keys.length < 2 ^ 32 := Nat.lt_of_le_of_lt opened.size (by decide)
  have wraps : s.nextStreamId + 1 = 0 := by
    rw [opened.counter]
    decide
  obtain ⟨before, more, ⟨unset, idle⟩, opens, objects, counter, streams⟩ :=
    exhausted_round (fun _ => "") opened.unset opened.idle space wraps
  have calls : before.opens.length = 2 ^ 32 := by
    have earlier := opened.calls
    simp only [opens, List.length_append, List.length_singleton]
    omega
  have spaceLeft : before.streams.keys.length < 2 ^ 32 := streams ▸ space
  obtain ⟨t, last, -, opensAfter, objectsAfter, -, streamsAfter⟩ :=
    open_round (fun _ => "") unset idle spaceLeft (by rw [counter]; decide)
  rw [calls] at last
  rw [counter] at objectsAfter streamsAfter
  have size : before.objects.length = 2 ^ 32 - 1 := by rw [objects, opened.objects]
  refine ⟨actions ++ (openRound (2 ^ 32) s.opens.length).take 3, before, t, o,
    StreamObject.new (0 + 1) .idle before.handled.length, before.objects.length, ?_,
    Transition.run_append_some.mpr ⟨s, path, more⟩, ?_, ?_, last, ?_, ?_, ?_, ?_, ?_, id, rfl, unclosed, ?_⟩
  · intro m member
    rcases List.mem_append.mp member with old | new
    · exact fixed m old
    · simpa [openRound] using new
  · rw [opens, ← opened.calls, List.getElem?_concat_length]
  · rw [streams, listed]
  · rw [opensAfter, List.getElem?_append_left (by rw [calls]; decide), opens,
      List.getElem?_append_left (by rw [opened.calls]; decide), returned]
  · rw [opensAfter, ← calls, List.getElem?_concat_length]
  · rw [size]
    decide
  · rw [objectsAfter, List.getElem?_append_left (by rw [size]; decide), objects, stored]
  · rw [objectsAfter, List.getElem?_concat_length]
  · rw [streamsAfter]
    exact AList.lookup_insert _

end Session

end AnyTls
