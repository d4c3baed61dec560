import AnyTls.Core.Frame
import Mathlib.Data.List.Perm.Basic

/-! `IdleSessionPool` of `proxy/session/client.rs`, as the lock sections of its
methods. An `IndexMap` is the list of its entries in index order, a session is
its place among the client's sessions, and an `Instant` is a number. -/
namespace AnyTls

abbrev SessionId := Nat

structure IdleEntry where
  seq : UInt64
  session : SessionId
  idleSince : Nat
deriving DecidableEq, Repr

/-- `IndexMap::swap_remove_index`: the last entry takes the place of the removed. -/
def swapRemoveIndex {α : Type*} (entries : List α) (index : Nat) : Option (α × List α) :=
  match entries[index]?, entries.getLast? with
  | some removed, some last => some (removed, (entries.set index last).dropLast)
  | _, _ => none

/-- `IndexMap::insert`: a key that is present keeps its index. -/
def insertKey {α : Type*} (entries : List (UInt64 × α)) (key : UInt64) (value : α) :
    List (UInt64 × α) :=
  if entries.any fun entry => entry.1 == key then
    entries.map fun entry => if entry.1 == key then (key, value) else entry
  else entries ++ [(key, value)]

/-- `IndexMap::swap_remove`. -/
def swapRemove {α : Type*} (entries : List (UInt64 × α)) (key : UInt64) : List (UInt64 × α) :=
  match (entries.findIdx? fun entry => entry.1 == key).bind (swapRemoveIndex entries) with
  | some (_, rest) => rest
  | none => entries

abbrev IdleSessionPool := List IdleEntry

namespace IdleSessionPool

/-- The lock section of `take_reusable`: the last entry, and whether the reserve
protects it. -/
def popLast (pool : IdleSessionPool) (minIdleSessions : Nat) :
    Option ((IdleEntry × Bool) × IdleSessionPool) :=
  (swapRemoveIndex pool (pool.length - 1)).map fun (entry, rest) =>
    ((entry, decide (pool.length ≤ minIdleSessions)), rest)

def returnSession (pool : IdleSessionPool) (seq : UInt64) (session : SessionId) (now : Nat) :
    IdleSessionPool :=
  if pool.any fun entry => entry.seq == seq then pool else pool ++ [⟨seq, session, now⟩]

def timedOutIndices (pool : IdleSessionPool) (now timeout : Nat) : List Nat :=
  (List.range pool.length).filter fun index =>
    (pool[index]?).any fun entry => decide (timeout ≤ now - entry.idleSince)

/-- The removal loop of `cleanup_stale`, with the sessions in the order in which
they are terminated. -/
def removeIndices : List Nat → IdleSessionPool → IdleSessionPool × List SessionId
  | [], pool => (pool, [])
  | index :: rest, pool =>
    match swapRemoveIndex pool index with
    | some (entry, pool) =>
      ((removeIndices rest pool).1, entry.session :: (removeIndices rest pool).2)
    | none => removeIndices rest pool

/-- The lock section of `cleanup_stale`. -/
def cleanupStale (pool : IdleSessionPool) (now timeout minIdle : Nat) :
    IdleSessionPool × List SessionId :=
  if pool.length ≤ minIdle then (pool, [])
  else
    let timedOut := pool.timedOutIndices now timeout
    let removeCount := min (pool.length - minIdle) timedOut.length
    removeIndices (timedOut.take removeCount).reverse pool

end IdleSessionPool

/-- `swap_remove_index` takes away the entry at the index and keeps the others. -/
theorem swapRemoveIndex_perm {α : Type*} {entries rest : List α} {index : Nat} {removed : α}
    (swapped : swapRemoveIndex entries index = some (removed, rest)) :
    entries[index]? = some removed ∧ (removed :: rest).Perm entries := by
  unfold swapRemoveIndex at swapped
  split at swapped
  · rename_i first last found final
    cases swapped
    refine ⟨found, ?_⟩
    obtain ⟨init, rfl⟩ := List.getLast?_eq_some_iff.mp final
    rcases Nat.lt_or_ge index init.length with within | beyond
    · rw [List.set_append_left _ _ within, List.dropLast_concat]
      rw [List.getElem?_append_left within, List.getElem?_eq_getElem within] at found
      cases found
      have replaced := (List.set_perm_cons_eraseIdx within last).cons init[index]
      have restored := (List.getElem_cons_eraseIdx_perm within).cons last
      exact (replaced.trans ((List.Perm.swap ..).trans restored)).trans (List.perm_append_singleton ..).symm
    · have place : index = init.length := by
        have within := (List.getElem?_eq_some_iff.mp found).1
        simp only [List.length_append, List.length_singleton] at within
        omega
      subst place
      simp only [List.getElem?_concat_length, Option.some.injEq] at found
      subst found
      rw [List.set_append_right _ _ (Nat.le_refl _), Nat.sub_self, List.set_cons_zero, List.dropLast_concat]
      exact (List.perm_append_singleton ..).symm
  · cases swapped

theorem swapRemoveIndex_mem {α : Type*} {entries rest : List α} {index : Nat} {removed : α}
    (swapped : swapRemoveIndex entries index = some (removed, rest)) :
    removed ∈ entries ∧ ∀ entry ∈ rest, entry ∈ entries := by
  have perm := (swapRemoveIndex_perm swapped).2
  exact ⟨perm.subset List.mem_cons_self, fun entry kept => perm.subset (List.mem_cons_of_mem _ kept)⟩

section
variable {α : Type*} {entries : List (UInt64 × α)} {key : UInt64} {value : α} {entry : UInt64 × α}

theorem insertKey_mem (member : entry ∈ insertKey entries key value) : entry ∈ entries ∨ entry = (key, value) := by
  unfold insertKey at member
  split_ifs at member
  · obtain ⟨old, listed, same⟩ := List.mem_map.mp member
    split_ifs at same
    · exact .inr same.symm
    · exact .inl (same ▸ listed)
  · exact (List.mem_append.mp member).imp_right List.mem_singleton.mp

theorem insertKey_fresh (fresh : ∀ entry ∈ entries, entry.1 ≠ key) :
    insertKey entries key value = entries ++ [(key, value)] := by
  have absent : ¬ (entries.any fun entry => entry.1 == key) = true := by
    rw [List.any_eq_true]
    rintro ⟨entry, member, keyed⟩
    exact fresh entry member (by simpa using keyed)
  rw [insertKey, if_neg absent]

/-- `swap_remove` takes one entry of the key away, if there is one. -/
theorem swapRemove_cases (entries : List (UInt64 × α)) (key) : swapRemove entries key = entries ∨
    ∃ removed, removed.1 = key ∧ (removed :: swapRemove entries key).Perm entries := by
  unfold swapRemove
  split
  · rename_i removed rest found
    obtain ⟨index, at_index, swapped⟩ := Option.bind_eq_some_iff.mp found
    obtain ⟨stored, same⟩ := swapRemoveIndex_perm swapped
    obtain ⟨within, keyed, -⟩ := List.findIdx?_eq_some_iff_getElem.mp at_index
    rw [List.getElem?_eq_getElem within] at stored
    cases stored
    exact .inr ⟨_, by simpa using keyed, same⟩
  · exact .inl rfl

theorem swapRemove_mem (member : entry ∈ swapRemove entries key) : entry ∈ entries := by
  rcases swapRemove_cases entries key with same | ⟨removed, -, perm⟩
  · exact same ▸ member
  · exact perm.subset (List.mem_cons_of_mem _ member)

theorem swapRemove_keeps (member : entry ∈ entries) (other : entry.1 ≠ key) : entry ∈ swapRemove entries key := by
  rcases swapRemove_cases entries key with same | ⟨removed, keyed, perm⟩
  · rw [same]
    exact member
  · rcases List.mem_cons.mp (perm.symm.subset member) with rfl | kept
    · exact absurd keyed other
    · exact kept

theorem swapRemove_keys (distinct : (entries.map Prod.fst).Nodup) :
    ((swapRemove entries key).map Prod.fst).Nodup := by
  rcases swapRemove_cases entries key with same | ⟨removed, -, perm⟩
  · rw [same]
    exact distinct
  · exact ((perm.map Prod.fst).nodup_iff.mpr distinct).of_cons

end

namespace IdleSessionPool
variable {pool : IdleSessionPool}

theorem popLast_mem {minIdle : Nat} {entry : IdleEntry} {guarded : Bool} {rest : IdleSessionPool}
    (popped : pool.popLast minIdle = some ((entry, guarded), rest)) :
    entry ∈ pool ∧ ∀ other ∈ rest, other ∈ pool := by
  obtain ⟨⟨first, others⟩, swapped, same⟩ := Option.map_eq_some_iff.mp popped
  cases same
  exact swapRemoveIndex_mem swapped

theorem popLast_length {minIdle : Nat} {entry : IdleEntry} {guarded : Bool} {rest : IdleSessionPool}
    (popped : pool.popLast minIdle = some ((entry, guarded), rest)) : pool.length = rest.length + 1 := by
  obtain ⟨⟨first, others⟩, swapped, same⟩ := Option.map_eq_some_iff.mp popped
  cases same
  exact (swapRemoveIndex_perm swapped).2.length_eq.symm

theorem returnSession_mem {seq session now entry} (kept : entry ∈ pool.returnSession seq session now) :
    entry ∈ pool ∨ entry.session = session := by
  unfold returnSession at kept
  split_ifs at kept
  · exact .inl kept
  · rcases List.mem_append.mp kept with old | new
    · exact .inl old
    · exact .inr (by rw [List.mem_singleton.mp new])

theorem removeIndices_mem (indices : List Nat) (pool) :
    (∀ entry ∈ (removeIndices indices pool).1, entry ∈ pool) ∧
    ∀ session ∈ (removeIndices indices pool).2, ∃ entry ∈ pool, entry.session = session := by
  induction indices generalizing pool with
  | nil => exact ⟨fun _ kept => kept, by simp [removeIndices]⟩
  | cons index rest ih =>
    unfold removeIndices
    split
    · rename_i removed others swapped
      obtain ⟨was, subset⟩ := swapRemoveIndex_mem swapped
      obtain ⟨kept, taken⟩ := ih others
      refine ⟨fun entry mem => subset entry (kept entry mem), fun session mem => ?_⟩
      rcases List.mem_cons.mp mem with rfl | later
      · exact ⟨removed, was, rfl⟩
      · obtain ⟨entry, mem, same⟩ := taken session later
        exact ⟨entry, subset entry mem, same⟩
    · exact ih pool

theorem cleanupStale_mem (pool : IdleSessionPool) (now timeout minIdle) :
    (∀ entry ∈ (pool.cleanupStale now timeout minIdle).1, entry ∈ pool) ∧
    ∀ session ∈ (pool.cleanupStale now timeout minIdle).2, ∃ entry ∈ pool, entry.session = session := by
  unfold cleanupStale
  split
  · exact ⟨fun _ kept => kept, by simp⟩
  · exact removeIndices_mem _ pool

end IdleSessionPool

end AnyTls
