import AnyTls.Core.Handshake
import AnyTls.Proxy.Delivery

/-! A padding scheme too long for its frame. The length field keeps sixteen bits, so the
peer reads the first bytes of the scheme as the frame and the rest as frames of their
own: payload that nobody wrote. -/
namespace AnyTls

/-- A frame that is too long is a shorter frame, followed by the rest of its data. -/
theorem Frame.toBytes_overlong (cmd : Command) (sid data) :
    (Frame.withData cmd sid data).toBytes =
      (Frame.withData cmd sid (data.take (data.length % 2 ^ 16))).toBytes ++ data.drop (data.length % 2 ^ 16) := by
  have kept : (data.take (data.length % 2 ^ 16)).length % 2 ^ 16 = data.length % 2 ^ 16 := by
    rw [List.length_take, Nat.min_eq_left (Nat.mod_le ..), Nat.mod_mod]
  simp only [Frame.toBytes, Frame.withData, kept, List.append_assoc, List.take_append_drop]

/-- What the server answers first to a client with another scheme. -/
theorem Engine.onSettings_scheme (state : State) {settings}
    (other : settings.lookup "padding-md5" ≠ some state.padding.md5) :
    ∃ later, (Engine.onSettings state settings).2 =
      .sendFrameSync (Frame.withData .updatePaddingScheme 0 state.padding.rawScheme) :: later := by
  simp only [Engine.onSettings, if_neg other]
  cases Engine.version? settings with
  | none => exact ⟨[], rfl⟩
  | some version =>
    dsimp only
    split_ifs
    · exact ⟨_, rfl⟩
    · exact ⟨[], rfl⟩

namespace Session

/-- A server sends its scheme in one frame, whatever its length. -/
theorem scheme_sent (md5 : Bytes → String) {server bytes rest frame}
    (next : Frame.next bytes = some (frame, rest)) (settings : frame.cmd = .settings)
    (filled : frame.data.isEmpty = false)
    (other : (StringMap.fromBytes frame.data).lookup "padding-md5" ≠ some server.md5) (padding) :
    ∃ s t, step md5 (Session.new false server) (.receive bytes) = some s ∧
      Transition.run (step md5) s [.recvStep, .recvStep, .emit padding] = some t ∧
      t.transcript.wire = (Frame.withData .updatePaddingScheme 0 server.rawScheme).toBytes ∧ t.objects = [] := by
  have filledBytes : bytes ≠ [] := by
    rintro rfl
    cases next
  rcases answer : Engine.onSettings (State.new server) (StringMap.fromBytes frame.data) with ⟨state, actions⟩
  obtain ⟨later, scheme⟩ : ∃ later, actions =
      .sendFrameSync (Frame.withData .updatePaddingScheme 0 server.rawScheme) :: later := by
    have first := Engine.onSettings_scheme (State.new server) other
    rwa [answer] at first
  have onFrame : Engine.onFrame md5 (State.new server) false frame = (state, actions) := by
    simp only [Engine.onFrame, settings, filled, Bool.not_false, Bool.and_self, if_true, answer]
  refine ⟨{ Session.new false server with pending := bytes, received := bytes, recv := .decoding }, ?_⟩
  have decoded : recvStep md5 { Session.new false server with
        pending := bytes, received := bytes, recv := .decoding } =
      some { Session.new false server with
        pending := rest, received := bytes, handled := [frame], protocolState := state, recv := .applying actions } := by
    simp only [recvStep, next, handleFrame, settings, reduceCtorEq, if_false, Session.new, onFrame, List.nil_append]
  subst scheme
  refine ⟨_, by rw [step, if_pos ⟨rfl, filledBytes⟩]; rfl, Transition.run_cons_some.mpr ⟨_, decoded,
    Transition.run_cons_some.mpr ⟨_, rfl, Transition.run_cons_some.mpr ⟨_, rfl, rfl⟩⟩⟩, ?_, rfl⟩
  exact List.append_nil _

end Session

/-! ### A scheme that contains a frame -/

/-- Lines without an equals sign are skipped. -/
theorem PaddingFactory.new_skips (md5 : Bytes → String) {tail} (filled : tail ≠ []) (oneLine : '\n' ∉ tail)
    (plain : '=' ∉ tail) :
    ∃ factory, PaddingFactory.new md5 (asBytes ("stop=8\n" ++ String.ofList tail)) = some factory := by
  have first : linesFrom [] ("stop=8".toList ++ '\n' :: tail) = "stop=8".toList :: linesFrom [] tail :=
    linesFrom_newline (by decide) tail
  have second : linesFrom [] tail = [tail] := linesFrom_plain oneLine filled
  have text : ("stop=8\n" ++ String.ofList tail).toList = "stop=8".toList ++ '\n' :: tail := by simp
  have scheme : StringMap.fromBytes (asBytes ("stop=8\n" ++ String.ofList tail)) =
      (∅ : StringMap).insert "stop" "8" := by
    rw [StringMap.fromBytes, fromUtf8Lossy_asBytes, text, lines, first, second]
    simp only [List.foldl_cons, List.foldl_nil, splitOnce_none plain]
    rfl
  rw [PaddingFactory.new, scheme]
  exact ⟨_, rfl⟩

/-- The characters of a frame with a payload, and zeros. -/
def forgedTail (zeros : Nat) : List Char :=
  [2, 0, 0, 0, 1, 0, 1, 88].map Char.ofNat ++ List.replicate zeros (Char.ofNat 0)

def forgedScheme (zeros : Nat) : Bytes := asBytes ("stop=8\n" ++ String.ofList (forgedTail zeros))

theorem forgedScheme_eq (zeros) : forgedScheme zeros =
    asBytes "stop=8\n" ++ ((Frame.withData .psh 1 [88]).toBytes ++ List.replicate zeros 0) := by
  have tail : asBytes (String.ofList (forgedTail zeros)) =
      (Frame.withData .psh 1 [88]).toBytes ++ List.replicate zeros 0 := by
    rw [asBytes, String.toList_ofList, forgedTail, List.flatMap_append, List.flatMap_replicate]
    exact congrArg _ List.flatten_replicate_singleton
  rw [forgedScheme, StringMap.asBytes_append, tail]

theorem forgedTail_plain {char} (zeros) (absent : char ∉ [2, 0, 0, 0, 1, 0, 1, 88].map Char.ofNat) :
    char ∉ forgedTail zeros := by
  rw [forgedTail, List.mem_append, not_or]
  refine ⟨absent, fun member => absent ?_⟩
  rw [(List.mem_replicate.mp member).2]
  simp

theorem forgedScheme_accepted (md5 : Bytes → String) (zeros) :
    ∃ factory, PaddingFactory.new md5 (forgedScheme zeros) = some factory :=
  PaddingFactory.new_skips md5 (by simp [forgedTail]) (forgedTail_plain zeros (by decide))
    (forgedTail_plain zeros (by decide))

theorem forgedScheme_length (zeros) : (forgedScheme zeros).length = 15 + zeros := by
  rw [forgedScheme_eq, List.length_append, List.length_append, List.length_replicate, ← Nat.add_assoc]
  rfl

/-- With enough zeros the frame of the scheme ends after its first line. -/
theorem forgedScheme_sent : ∃ later, (Frame.withData .updatePaddingScheme 0 (forgedScheme 65528)).toBytes =
    (Frame.withData .updatePaddingScheme 0 (asBytes "stop=8\n")).toBytes ++
      (Frame.withData .psh 1 [88]).toBytes ++ later := by
  have length : (forgedScheme 65528).length % 2 ^ 16 = 7 := by
    rw [forgedScheme_length]
    rfl
  refine ⟨List.replicate 65528 0, ?_⟩
  rw [Frame.toBytes_overlong, length, forgedScheme_eq, List.append_assoc]
  have first : (asBytes "stop=8\n").length = 7 := rfl
  rw [List.take_left' first, List.drop_left' first]

namespace Duplex

/-- One end receives and goes on. -/
theorem run_deliver {d side md5 count t u actions}
    (arrives : (d.session side).step md5 (.receive ((d.inTransit side).take count)) = some t)
    (path : Transition.run (Session.step md5) t actions = some u)
    (internal : ∀ action ∈ actions, ∀ chunk, action ≠ .receive chunk) :
    Transition.run (step md5) d (.deliver side count :: actions.map (.act side)) = some (d.set u side) := by
  refine Transition.run_cons_some.mpr ⟨d.set t side, ?_, ?_⟩
  · rw [step, arrives]
    rfl
  · rw [← set_set d t u side]
    exact run_end (by rwa [session_set_self]) internal

def shortScheme : PaddingFactory :=
  (PaddingFactory.new lengthDigest (asBytes "stop=8")).get (by decide +kernel)

/-- What the client reads as its first two frames. -/
def forgedFrames : Bytes :=
  (Frame.withData .updatePaddingScheme 0 (asBytes "stop=8\n")).toBytes ++ (Frame.withData .psh 1 [88]).toBytes

def clientOpens : List SessionAction :=
  [.openStream 8, .openStep 0, .openStep 0, .openStep 0, .emit ⟨0, []⟩]

def clientReads : List SessionAction :=
  List.replicate 7 SessionAction.recvStep ++ [SessionAction.read 0 4, .readStep 0, .readStep 0, .readStep 0, .readStep 0]

/-- A server whose scheme does not fit a frame. The client reads a byte on its stream
although the server has not even seen the stream. -/
theorem forged_payload_read : ∃ server actions d o,
    PaddingFactory.new lengthDigest (asBytes "stop=8") = some shortScheme ∧
    PaddingFactory.new lengthDigest (forgedScheme 65528) = some server ∧
    (∀ a ∈ actions, modest a = true) ∧
    Transition.run (step lengthDigest) (start AList.entries shortScheme server) actions = some d ∧
    (d.session .client).objects[0]? = some o ∧ o.history.got = [88] ∧
    (d.session .server).objects = [] := by
  obtain ⟨server, made⟩ := forgedScheme_accepted lengthDigest 65528
  have opened : (Transition.run (Session.step lengthDigest) ((Session.new true shortScheme).ensureStarted AList.entries)
      clientOpens).any (fun c => c.received.isEmpty && (Frame.next c.transcript.wire).any fun (frame, _) =>
        decide (frame.cmd = .settings) && !frame.data.isEmpty &&
          decide ((StringMap.fromBytes frame.data).lookup "padding-md5" = some "6a")) = true := by
    decide +kernel
  have read : (Transition.run (Session.step lengthDigest) ((Session.new true shortScheme).ensureStarted AList.entries)
      (clientOpens ++ SessionAction.receive forgedFrames :: clientReads)).any
        (fun c : Session => c.objects[0]?.any fun o : StreamObject => decide (o.history.got = [88])) = true := by
    decide +kernel
  obtain ⟨c, first, asked⟩ := (Option.any_eq_true _ _).mp opened
  obtain ⟨silent, next⟩ := Bool.and_eq_true_iff.mp asked
  obtain ⟨⟨frame, rest⟩, next, asked⟩ := (Option.any_eq_true _ _).mp next
  simp only [Bool.and_eq_true, Bool.not_eq_true', decide_eq_true_eq] at asked
  obtain ⟨⟨settings, filled⟩, digest⟩ := asked
  obtain ⟨e, path, read⟩ := (Option.any_eq_true _ _).mp read
  obtain ⟨o, stored, got⟩ := (Option.any_eq_true _ _).mp read
  obtain ⟨c', first', second⟩ := Transition.run_append_some.mp path
  cases first.symm.trans first'
  obtain ⟨heard, received, third⟩ := Transition.run_cons_some.mp second
  have other : (StringMap.fromBytes frame.data).lookup "padding-md5" ≠ some server.md5 := by
    rw [digest, (PaddingFactory.new_fields made).2, lengthDigest, if_neg (by rw [forgedScheme_length]; decide)]
    decide
  obtain ⟨s, t, arrived, answered, wire, streams⟩ := Session.scheme_sent lengthDigest next settings filled other ⟨0, []⟩
  obtain ⟨later, sent⟩ := forgedScheme_sent
  rw [(PaddingFactory.new_fields made).1, sent] at wire
  refine ⟨server, clientOpens.map (DuplexAction.act .client) ++ (DuplexAction.deliver .server c.transcript.wire.length ::
    [SessionAction.recvStep, .recvStep, .emit ⟨0, []⟩].map (DuplexAction.act .server) ++
    DuplexAction.deliver .client forgedFrames.length :: clientReads.map (DuplexAction.act .client)), ⟨e, t⟩, o, 
    (Option.some_get _).symm, made, ?_, ?_, stored, of_decide_eq_true got, streams⟩
  · exact List.all_eq_true.mp rfl
  · refine Transition.run_append_some.mpr ⟨⟨c, Session.new false server⟩, run_end first ?_, ?_⟩
    · rintro action member chunk rfl
      simp [clientOpens] at member
    refine Transition.run_append_some.mpr ⟨⟨c, t⟩, run_deliver (t := s) ?_ answered ?_, run_deliver (t := heard) ?_ third ?_⟩
    · change Session.step lengthDigest (Session.new false server)
        (.receive ((c.transcript.wire.drop 0).take c.transcript.wire.length)) = some s
      rwa [List.drop_zero, List.take_length]
    · rintro action member chunk rfl
      simp at member
    · change Session.step lengthDigest c
        (.receive ((t.transcript.wire.drop c.received.length).take forgedFrames.length)) = some heard
      rwa [List.isEmpty_iff.mp silent, List.length_nil, List.drop_zero, wire, ← forgedFrames, List.take_left]
    · rintro action member chunk rfl
      simp [clientReads] at member

end Duplex

end AnyTls
