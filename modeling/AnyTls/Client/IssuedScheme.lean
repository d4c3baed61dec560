import AnyTls.Client.SettingsFirst

/-! The padding scheme that a client's sessions start with. An `UpdatePaddingScheme` frame
replaces the scheme in the state of the session that handles it; the cell of the client, which
the dial and the next session read, keeps the scheme the client was made with. -/
namespace AnyTls

variable {md5 : Bytes → String} {iterate : StringMap.Order}
  {setup : ClientSetup} {padding scheme : PaddingFactory}

/-- The preamble, the state and the settings of a session are those of the scheme. -/
structure Connection.StartsWith (md5 : Bytes → String)
    (iterate : StringMap.Order) (setup : ClientSetup)
    (scheme : PaddingFactory) (conn : Connection) : Prop where
  preamble : ∃ random, conn.preamble = authPreamble random scheme setup.passwordSha256 setup.clientId
  state : conn.Lived md5 iterate scheme
  settings : conn.started = true →
    conn.session.accepted.head? = some (settingsFrame iterate scheme PROGRAM_VERSION_NAME)

theorem Connection.Change.history {c a id} {conn after : Connection}
    (change : conn.Change md5 iterate c a id after) : (after.preamble, after.issued) = (conn.preamble, conn.issued) := by
  have ensured {result : Except IoError Unit} {after : Connection}
      (same : conn.ensureStarted iterate = some (result, after)) :
      (after.preamble, after.issued) = (conn.preamble, conn.issued) := by
    unfold Connection.ensureStarted at same
    split_ifs at same
    · cases same
      rfl
    · obtain ⟨⟨outcome, session⟩, -, moved⟩ := Option.map_eq_some_iff.mp same
      cases outcome <;> cases moved <;> rfl
  cases change with
  | same | steps | spawns | ends => rfl
  | starts same => exact ensured same
  | runs _ same | runFails _ same =>
    have kept := ensured same
    exact kept

namespace Client
variable {c t : Client} {a : LifecycleAction}

/-- A dial finds the scheme last issued, if there is one, in the client's cell. -/
def heeds (c : Client) : LifecycleAction → Bool
  | .advance i _ =>
    match c.calls[i]? with
    | some (.dial _) => c.issued.all fun scheme => decide (scheme.rawScheme = c.padding.rawScheme)
    | _ => true
  | _ => true

/-- Where the scheme issued last comes from. -/
theorem Move.issued (moves : Move md5 iterate setup c a t) (issued : t.issued = some scheme) :
    c.issued = some scheme ∨ PaddingFactory.new md5 scheme.rawScheme = some scheme := by
  cases moves with
  | @call i dialed pc next u placed moves =>
    have same : u.issued = c.issued := congrArg (·.2.2.2.2) moves.kept
    exact .inl (same ▸ issued)
  | @session id action conn session stored unmanaged receives stepped =>
    have issued : (conn.session.issuedSince md5 session).head?.or c.issued = some scheme := issued
    cases latest : (conn.session.issuedSince md5 session).head? with
    | none =>
      rw [latest] at issued
      exact .inl issued
    | some found =>
      rw [latest] at issued
      cases issued
      have member := List.mem_of_head? latest
      rw [Session.issuedSince, List.mem_reverse, List.mem_filterMap] at member
      obtain ⟨frame, -, accepted⟩ := member
      unfold acceptedScheme at accepted
      split_ifs at accepted
      rw [(PaddingFactory.new_fields accepted).1]
      exact .inr accepted
  | _ => exact .inl issued

/-- A preamble drawn from the cell, and the scheme issued last, which was that of the cell. -/
def DrawnFrom (setup : ClientSetup) (padding : PaddingFactory) (preamble : Bytes) (issued : Option PaddingFactory) :
    Prop :=
  (∃ random, preamble = authPreamble random padding setup.passwordSha256 setup.clientId) ∧
  ∀ scheme, issued = some scheme → scheme = padding

structure Heeding (md5 : Bytes → String) (iterate : StringMap.Order)
    (setup : ClientSetup) (padding : PaddingFactory) (c : Client) : Prop where
  sound : c.Sound md5 iterate padding
  issued : ∀ scheme, c.issued = some scheme → PaddingFactory.new md5 scheme.rawScheme = some scheme
  making : ∀ {attempt preamble issued}, .make attempt preamble issued ∈ c.calls →
    DrawnFrom setup padding preamble issued
  dialed : ∀ {id : SessionId} {conn : Connection}, c.sessions[id]? = some conn →
    DrawnFrom setup padding conn.preamble conn.issued

theorem heeding_new : (new padding).Heeding md5 iterate setup padding where
  sound := sound_new
  issued := by simp [new]
  making := by simp [new]
  dialed := by simp [new]

/-- A call that has dialed has done so in this step or before. -/
theorem Move.making {attempt preamble issued} (moves : Move md5 iterate setup c a t)
    (called : .make attempt preamble issued ∈ t.calls) :
    .make attempt preamble issued ∈ c.calls ∨ ∃ i dialed random, a = .advance i dialed ∧
      c.calls[i]? = some (.dial attempt) ∧ issued = c.issued ∧
      preamble = authPreamble random c.padding setup.passwordSha256 setup.clientId := by
  rcases moves.calls.origin called (by rintro ⟨⟩) with old | ⟨i, dialed, before, u, advances, placed, moved, -⟩
  · exact .inl old
  · cases moved with
    | walks before after => cases after
    | acts action before after => cases after
    | dials random => exact .inr ⟨i, dialed, random, advances, placed, rfl, rfl⟩

theorem heeding_step {raw} (made : PaddingFactory.new md5 raw = some padding)
    (heeding : c.Heeding md5 iterate setup padding) (heeds : c.heeds a = true)
    (stepped : c.step md5 iterate setup a = some t) : t.Heeding md5 iterate setup padding := by
  have moves := step_move stepped
  refine ⟨sound_step heeding.sound stepped, fun scheme issued => ?_, fun called => ?_, fun stored => ?_⟩
  · rcases moves.issued issued with before | accepted
    · exact heeding.issued scheme before
    · exact accepted
  · rcases moves.making called with before | ⟨i, dialed, random, rfl, placed, rfl, rfl⟩
    · exact heeding.making before
    · rw [heeding.sound.cell]
      refine ⟨⟨random, rfl⟩, fun scheme issued => ?_⟩
      -- two factories made of the same text are the same
      have same : scheme.rawScheme = padding.rawScheme := by
        simpa [Client.heeds, placed, issued, heeding.sound.cell] using heeds
      have known := heeding.issued scheme issued
      rw [same, (PaddingFactory.new_fields made).1, made] at known
      exact (Option.some.inj known).symm
  · rcases (moves.sessions heeding.sound).origin stored with
      ⟨conn, found, change⟩ | ⟨attempt, preamble, issued, called, -, rfl⟩
    · have history := change.history
      simp only [Prod.mk.injEq] at history
      rw [history.1, history.2]
      exact heeding.dialed found
    · exact heeding.making called

/-- Schemes issued to a client. In every run in which no call dials while the scheme last
issued differs from the one the client was made with, every session starts with the scheme
that was last issued when it was dialed. -/
theorem issued_scheme_used {raw : Bytes} (made : PaddingFactory.new md5 raw = some padding)
    {actions : List LifecycleAction}
    (allowed : Transition.Along (step md5 iterate setup) (fun c a => c.heeds a = true) (new padding) actions)
    (path : Transition.run (step md5 iterate setup) (new padding) actions = some c) {conn : Connection}
    (member : conn ∈ c.sessions) (issued : conn.issued = some scheme) :
    conn.StartsWith md5 iterate setup scheme := by
  have heeding : c.Heeding md5 iterate setup padding :=
    Transition.invariant_along (heeding_step made) heeding_new allowed path
  obtain ⟨id, stored⟩ := List.mem_iff_getElem?.mp member
  obtain ⟨drawn, same⟩ := heeding.dialed stored
  cases same scheme issued
  have lived := heeding.sound.lived stored
  refine ⟨drawn, lived, fun started => ?_⟩
  rcases lived_introduced lived with ⟨unstarted, -⟩ | ⟨rest, accepted, -⟩
  · cases unstarted.symm.trans started
  · rw [accepted, List.head?_cons]

/-- A client opens a stream, its session is issued a scheme, and the next stream takes a
session of its own. -/
def reissued (raw : Bytes) : List LifecycleAction :=
  let dialed : AnyTls.Dialed := .connected fun _ low _ => low
  LifecycleAction.createStream :: List.replicate 18 (LifecycleAction.advance 0 dialed) ++
    [LifecycleAction.runStart 0, .session 0 (.receive (Frame.withData .updatePaddingScheme 0 raw).toBytes),
      .session 0 .recvStep, .createStream] ++ List.replicate 12 (LifecycleAction.advance 1 dialed)

def oneStreamSetup : ClientSetup := ⟨⟨30, 0, 1⟩, [1, 2], []⟩

def oldScheme : Bytes := asBytes "stop=8"

def newScheme : Bytes := asBytes "stop=8\n0=2-2"

theorem sameScheme_used : ∃ padding scheme c conn,
    PaddingFactory.new lengthDigest oldScheme = some padding ∧
    Transition.run (step lengthDigest AList.entries oneStreamSetup) (new padding) (reissued oldScheme) = some c ∧
    conn ∈ c.sessions ∧ conn.started = true ∧ conn.issued = some scheme ∧
    conn.StartsWith lengthDigest AList.entries oneStreamSetup scheme := by
  have reached : (PaddingFactory.new lengthDigest oldScheme).any (fun padding =>
      decide (Transition.Along (step lengthDigest AList.entries oneStreamSetup) (fun c a => c.heeds a = true)
        (new padding) (reissued oldScheme)) &&
      (Transition.run (step lengthDigest AList.entries oneStreamSetup) (new padding) (reissued oldScheme)).any
        fun c => c.sessions.any fun conn => conn.started && conn.issued.isSome) = true := by decide +kernel
  obtain ⟨padding, made, reached⟩ := (Option.any_eq_true _ _).mp reached
  obtain ⟨allowed, reached⟩ := Bool.and_eq_true_iff.mp reached
  obtain ⟨c, path, reached⟩ := (Option.any_eq_true _ _).mp reached
  obtain ⟨conn, member, reached⟩ := List.any_eq_true.mp reached
  obtain ⟨started, issued⟩ := Bool.and_eq_true_iff.mp reached
  obtain ⟨scheme, issued⟩ := Option.isSome_iff_exists.mp issued
  exact ⟨padding, scheme, c, conn, made, path, member, started, issued,
    issued_scheme_used made (of_decide_eq_true allowed) path member issued⟩

/-- The preamble that the line `2-2` for packet 0 asks for. -/
theorem authPreamble_two {scheme} (line : scheme.scheme.lookup "0" = some "2-2")
    (random : Nat → Int → Int → Int) : authPreamble random scheme [1, 2] [] = [1, 2, 0, 2, 0, 0] := by
  have key : toString (0 : UInt32).toNat = "0" := rfl
  have sizes : scheme.generateRecordPayloadSizes random 0 = [2] := by
    rw [PaddingFactory.generateRecordPayloadSizes, key, line]
    rfl
  simp only [authPreamble, preamblePadding, sizes]
  rfl

/-- The next session knows nothing of the scheme issued to the first. -/
theorem issued_scheme_lost : ∃ padding scheme c first second,
    PaddingFactory.new lengthDigest oldScheme = some padding ∧
    PaddingFactory.new lengthDigest newScheme = some scheme ∧
    Transition.run (step lengthDigest AList.entries oneStreamSetup) (new padding) (reissued newScheme) = some c ∧
    c.sessions[0]? = some first ∧ first.session.handled = [Frame.withData .updatePaddingScheme 0 newScheme] ∧
    c.sessions[1]? = some second ∧ second.issued.map (·.rawScheme) = some newScheme ∧
    second.session.protocolState.padding.rawScheme = oldScheme ∧
    second.session.accepted = [settingsFrame AList.entries padding PROGRAM_VERSION_NAME] ∧
    padding.md5 ≠ scheme.md5 ∧
    ∀ random, second.preamble ≠ authPreamble random scheme oneStreamSetup.passwordSha256 oneStreamSetup.clientId := by
  have reached : (PaddingFactory.new lengthDigest oldScheme).any (fun padding =>
      (PaddingFactory.new lengthDigest newScheme).any fun scheme =>
        decide (padding.md5 ≠ scheme.md5 ∧ scheme.scheme.lookup "0" = some "2-2") &&
        (Transition.run (step lengthDigest AList.entries oneStreamSetup) (new padding) (reissued newScheme)).any
          fun c => c.sessions[0]?.any (fun first =>
              decide (first.session.handled = [Frame.withData .updatePaddingScheme 0 newScheme])) &&
            c.sessions[1]?.any fun second => decide (second.issued.map (·.rawScheme) = some newScheme ∧
              second.session.protocolState.padding.rawScheme = oldScheme ∧
              second.session.accepted = [settingsFrame AList.entries padding PROGRAM_VERSION_NAME] ∧
              second.preamble = [1, 2, 0, 0])) = true := by decide +kernel
  obtain ⟨padding, made, reached⟩ := (Option.any_eq_true _ _).mp reached
  obtain ⟨scheme, issued, reached⟩ := (Option.any_eq_true _ _).mp reached
  obtain ⟨known, reached⟩ := Bool.and_eq_true_iff.mp reached
  obtain ⟨differ, line⟩ := of_decide_eq_true known
  obtain ⟨c, path, reached⟩ := (Option.any_eq_true _ _).mp reached
  obtain ⟨handled, reached⟩ := Bool.and_eq_true_iff.mp reached
  obtain ⟨first, stored, handled⟩ := (Option.any_eq_true _ _).mp handled
  obtain ⟨second, later, reached⟩ := (Option.any_eq_true _ _).mp reached
  obtain ⟨latest, state, settings, preamble⟩ := of_decide_eq_true reached
  refine ⟨padding, scheme, c, first, second, made, issued, path, stored, of_decide_eq_true handled, later, latest,
    state, settings, differ, fun random same => ?_⟩
  rw [preamble, oneStreamSetup, authPreamble_two line random] at same
  exact absurd same (by decide)

end Client

end AnyTls
