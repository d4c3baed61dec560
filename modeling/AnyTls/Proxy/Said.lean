import AnyTls.Core.Engine
import AnyTls.Runtime.WriterRuns

/-! What a sequence of frames says on one stream: how often it is opened, the payload
since, and whether it is finished. Senders append to it and receivers act on a prefix
of it, so both ends of a stream are compared through it. -/
namespace AnyTls

structure Said where
  syns : Nat
  bytes : Bytes
  fin : Bool
deriving DecidableEq, Repr

namespace Said

def nothing : Said := ⟨0, [], false⟩

/-- A SYN opens the stream anew, and nothing is said after a FIN. -/
def add (said : Said) (data : Bytes) : Command → Said
  | .syn => ⟨said.syns + 1, [], false⟩
  | .psh => if said.fin then said else { said with bytes := said.bytes ++ data }
  | .fin => { said with fin := true }
  | _ => said

def hear (sid : UInt32) (said : Said) (frame : Frame) : Said :=
  if frame.sid = sid then said.add frame.data frame.cmd else said

/-- No payload and no FIN so far. -/
def Fresh (said : Said) : Prop := said.bytes = [] ∧ said.fin = false

/-- `later` says the same and perhaps more. -/
structure Extends (said later : Said) : Prop where
  bytes : said.bytes <+: later.bytes
  fin : said.fin = true → later.bytes = said.bytes ∧ later.fin = true

theorem Extends.refl (said : Said) : said.Extends said := ⟨List.prefix_refl _, fun fin => ⟨rfl, fin⟩⟩

theorem Extends.trans {first second third : Said} (early : first.Extends second)
    (late : second.Extends third) : first.Extends third := by
  refine ⟨early.bytes.trans late.bytes, fun fin => ?_⟩
  obtain ⟨same, stays⟩ := early.fin fin
  obtain ⟨same', stays'⟩ := late.fin stays
  exact ⟨same'.trans same, stays'⟩

theorem Extends.fresh {said later : Said} (grown : said.Extends later) (fresh : later.Fresh) :
    said.Fresh := by
  refine ⟨List.prefix_nil.mp (fresh.1 ▸ grown.bytes), ?_⟩
  cases fin : said.fin with
  | false => rfl
  | true => exact (grown.fin fin).2.symm.trans fresh.2

section
variable {sid : UInt32} {frame : Frame}

theorem hear_ne (said : Said) (other : frame.sid ≠ sid) : said.hear sid frame = said := if_neg other

theorem hear_self (said : Said) (cmd : Command) (data) :
    said.hear sid ⟨cmd, sid, data⟩ = said.add data cmd := if_pos rfl

theorem add_syns_le (said : Said) (data) (cmd : Command) :
    said.syns ≤ (said.add data cmd).syns := by
  cases cmd with
  | syn => exact Nat.le_succ _
  | psh =>
    simp only [add]
    split_ifs
    · exact Nat.le_refl _
    · exact Nat.le_refl _
  | _ => exact Nat.le_refl _

theorem hear_syns_le (said : Said) : said.syns ≤ (said.hear sid frame).syns := by
  unfold hear
  split_ifs
  · exact add_syns_le ..
  · exact Nat.le_refl _

theorem add_extends {said : Said} {data cmd} (same : (said.add data cmd).syns = said.syns) :
    said.Extends (said.add data cmd) := by
  cases cmd with
  | syn => exact absurd same (Nat.succ_ne_self _)
  | psh =>
    simp only [add]
    split_ifs with done
    · exact .refl _
    · exact ⟨List.prefix_append .., fun fin => absurd fin done⟩
  | fin => exact ⟨List.prefix_refl _, fun _ => ⟨rfl, rfl⟩⟩
  | _ => exact .refl _

theorem hear_extends {said : Said} (same : (said.hear sid frame).syns = said.syns) :
    said.Extends (said.hear sid frame) := by
  unfold hear at same ⊢
  split_ifs at same ⊢
  · exact add_extends same
  · exact .refl _

end

end Said

def said (sid : UInt32) (frames : List Frame) : Said := frames.foldl (Said.hear sid) .nothing

section
variable {sid : UInt32}

theorem said_append (frames more) :
    said sid (frames ++ more) = more.foldl (Said.hear sid) (said sid frames) :=
  List.foldl_append ..

theorem said_snoc (frames frame) :
    said sid (frames ++ [frame]) = (said sid frames).hear sid frame := said_append frames [frame]

theorem said_syns_le {frames all} (part : frames <+: all) :
    (said sid frames).syns ≤ (said sid all).syns := by
  obtain ⟨more, rfl⟩ := part
  induction more using List.reverseRecOn with
  | nil => rw [List.append_nil]
  | append_singleton more frame ih =>
    rw [← List.append_assoc, said_snoc]
    exact ih.trans (Said.hear_syns_le _)

/-- Between two openings of the stream, more frames say more. -/
theorem said_extends {frames all} (part : frames <+: all)
    (same : (said sid all).syns ≤ (said sid frames).syns) :
    (said sid frames).Extends (said sid all) := by
  obtain ⟨more, rfl⟩ := part
  induction more using List.reverseRecOn with
  | nil =>
    rw [List.append_nil]
    exact .refl _
  | append_singleton more frame ih =>
    rw [← List.append_assoc, said_snoc] at same ⊢
    have grows : (said sid (frames ++ more)).syns ≤ ((said sid (frames ++ more)).hear sid frame).syns :=
      Said.hear_syns_le _
    have before : (said sid frames).syns ≤ (said sid (frames ++ more)).syns :=
      said_syns_le (List.prefix_append frames more)
    exact (ih (grows.trans same)).trans (Said.hear_extends (by omega))

/-- A frame that says nothing on any stream. -/
def Command.control : Command → Bool
  | .syn | .psh | .fin => false
  | _ => true

theorem Said.hear_control {frame} (control : frame.cmd.control = true) (words : Said) :
    words.hear sid frame = words := by
  obtain ⟨cmd, other, data⟩ := frame
  unfold hear
  split_ifs
  · cases cmd with
    | syn | psh | fin => cases control
    | _ => rfl
  · rfl

theorem Padded.said {sent all} (padded : Padded sent all) : said sid all = said sid sent := by
  induction padded with
  | nil => rfl
  | frame f _ ih => rw [said_snoc, said_snoc, ih]
  | waste length _ ih =>
    rw [said_snoc, ih]
    exact Said.hear_control rfl _

/-- What is said by a part of the padded frames is said by a part of the frames. -/
theorem Padded.part {sent all frames} (padded : Padded sent all) (part : frames <+: all) :
    ∃ spoken, spoken <+: sent ∧ ∀ sid, AnyTls.said sid frames = AnyTls.said sid spoken := by
  have last {sent all : List Frame} {f : Frame} (whole : Padded sent (all ++ [f]))
      (earlier : frames <+: all → ∃ spoken, spoken <+: sent ∧
        ∀ sid, AnyTls.said sid frames = AnyTls.said sid spoken) (part : frames <+: all ++ [f]) :
      ∃ spoken, spoken <+: sent ∧ ∀ sid, AnyTls.said sid frames = AnyTls.said sid spoken := by
    rcases List.prefix_concat_iff.mp part with rfl | shorter
    · exact ⟨sent, List.prefix_refl _, fun sid => whole.said⟩
    · exact earlier shorter
  induction padded with
  | nil => exact ⟨[], List.nil_prefix, fun sid => by rw [List.prefix_nil.mp part]⟩
  | frame f padded ih =>
    refine last (padded.frame f) (fun part => ?_) part
    obtain ⟨spoken, among, same⟩ := ih part
    exact ⟨spoken, among.trans (List.prefix_append ..), same⟩
  | waste length padded ih => exact last (padded.waste length) ih part

end

/-! ### The engine's actions -/

/-- What an action of the engine does to a stream's payload and end. -/
def heed (sid : UInt32) (state : Bytes × Bool) : ProtocolAction → Bytes × Bool
  | .pushStreamData other data =>
    if other = sid ∧ state.2 = false then (state.1 ++ data, false) else state
  | .closeLocalStream other => if other = sid then (state.1, true) else state
  | _ => state

section
variable {sid : UInt32}

theorem heed_finished (bytes) (action : ProtocolAction) :
    heed sid (bytes, true) action = (bytes, true) := by
  cases action with
  | pushStreamData other data => simp [heed]
  | closeLocalStream other => simp [heed]
  | _ => rfl

theorem foldl_heed_finished (bytes) (actions : List ProtocolAction) :
    actions.foldl (heed sid) (bytes, true) = (bytes, true) := by
  induction actions with
  | nil => rfl
  | cons action rest ih => rw [List.foldl_cons, heed_finished, ih]

theorem foldl_heed_prefix (sid) (state : Bytes × Bool) (actions : List ProtocolAction) :
    state.1 <+: (actions.foldl (heed sid) state).1 := by
  induction actions generalizing state with
  | nil => exact List.prefix_refl _
  | cons action rest ih =>
    refine List.IsPrefix.trans ?_ (ih _)
    cases action with
    | pushStreamData other data =>
      simp only [heed]
      split_ifs
      · exact List.prefix_append ..
      · exact List.prefix_refl _
    | closeLocalStream other =>
      simp only [heed]
      split_ifs
      · exact List.prefix_refl _
      · exact List.prefix_refl _
    | _ => exact List.prefix_refl _

variable {md5 : Bytes → String} {state : State} {isClient : Bool} {frame : Frame}

theorem onSettings_heed (settings : StringMap) (start : Bytes × Bool) :
    (Engine.onSettings state settings).2.foldl (heed sid) start = start := by
  simp only [Engine.onSettings]
  split
  · split_ifs <;> rfl
  · split_ifs <;> rfl

/-- The engine acts on a stream as the frame says. -/
theorem onFrame_heed {words : Said} (notSyn : frame.cmd = .syn → frame.sid ≠ sid) :
    (Engine.onFrame md5 state isClient frame).2.foldl (heed sid) (words.bytes, words.fin) =
      ((words.hear sid frame).bytes, (words.hear sid frame).fin) := by
  obtain ⟨cmd, other, data⟩ := frame
  cases cmd with
  | syn =>
    rw [Said.hear_ne _ (notSyn rfl)]
    simp only [Engine.onFrame]
    split_ifs <;> rfl
  | psh =>
    by_cases mine : other = sid
    · subst mine
      rw [Said.hear_self]
      cases done : words.fin with
      | true => cases data <;> simp [Engine.onFrame, Said.add, heed, done]
      | false => cases data <;> simp [Engine.onFrame, Said.add, heed, done]
    · rw [Said.hear_ne _ mine]
      simp only [Engine.onFrame]
      split_ifs
      · rfl
      · simp [heed, mine]
  | fin =>
    by_cases mine : other = sid
    · subst mine
      simp [Engine.onFrame, Said.hear_self, Said.add, heed]
    · rw [Said.hear_ne _ mine]
      simp [Engine.onFrame, heed, mine]
  | settings =>
    rw [Said.hear_control rfl]
    simp only [Engine.onFrame]
    split_ifs
    · exact onSettings_heed _ _
    · rfl
  | updatePaddingScheme | serverSettings =>
    rw [Said.hear_control rfl]
    simp only [Engine.onFrame]
    split_ifs
    · split <;> rfl
    · rfl
  | synAck =>
    rw [Said.hear_control rfl]
    simp only [Engine.onFrame]
    split_ifs <;> rfl
  | waste | alert | heartRequest | heartResponse | unknown value =>
    rw [Said.hear_control rfl]
    rfl

end

end AnyTls
