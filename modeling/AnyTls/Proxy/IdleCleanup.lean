import AnyTls.Proxy.IdlePool
import Mathlib.Data.List.Induction
import Mathlib.Data.List.Rotate

/-! What `cleanup_stale` removes. It collects the indices of the stale entries, keeps the first
of them that the reserve allows, and removes these from the highest down; `swap_remove_index`
then moves only entries behind the index, so the later removals find what was collected. -/
namespace AnyTls

section
variable {α : Type*} {entries rest : List α} {removed : α} {index : Nat}

theorem swapRemoveIndex_isSome (within : index < entries.length) :
    ∃ removed rest, swapRemoveIndex entries index = some (removed, rest) := by
  have filled : entries ≠ [] := List.ne_nil_of_length_pos (Nat.zero_lt_of_lt within)
  refine ⟨entries[index], (entries.set index (entries.getLast filled)).dropLast, ?_⟩
  simp [swapRemoveIndex, within, List.getLast?_eq_some_getLast filled]

/-- The entries before the index stay where they are. -/
theorem swapRemoveIndex_before (swapped : swapRemoveIndex entries index = some (removed, rest)) {i}
    (before : i < index) : rest[i]? = entries[i]? := by
  unfold swapRemoveIndex at swapped
  split at swapped
  · rename_i first last found _
    cases swapped
    have within := (List.getElem?_eq_some_iff.mp found).1
    rw [List.getElem?_dropLast, List.length_set, if_pos (by omega), List.getElem?_set_ne (by omega)]
  · cases swapped

theorem swapRemoveIndex_last {α : Type*} (init : List α) (last : α) :
    swapRemoveIndex (init ++ [last]) init.length = some (last, init) := by
  simp [swapRemoveIndex]

/-- The entries at the indices where `p` holds are those that meet `p`. -/
theorem filter_range_getElem? (p : α → Bool) (l : List α) :
    ((List.range l.length).filter fun i => (l[i]?).any p).map (l[·]?) = (l.filter p).map some := by
  induction l using List.reverseRecOn with
  | nil => rfl
  | append_singleton l a ih =>
    have early : ((List.range l.length).filter fun i => ((l ++ [a])[i]?).any p).map ((l ++ [a])[·]?) =
        ((List.range l.length).filter fun i => (l[i]?).any p).map (l[·]?) := by
      have same {i : Nat} (member : i ∈ List.range l.length) : (l ++ [a])[i]? = l[i]? :=
        List.getElem?_append_left (List.mem_range.mp member)
      rw [List.filter_congr fun i member => by rw [same member]]
      exact List.map_congr_left fun i member => same (List.mem_of_mem_filter member)
    rw [List.length_append, List.length_singleton, List.range_succ, List.filter_append, List.map_append, early, ih,
      List.filter_append, List.map_append]
    cases met : p a with
    | true => simp [met]
    | false => simp [met]

/-- The indices where `p` holds are the first ones, if it holds below each of them. -/
theorem filter_range_initial {p n} (closed : ∀ i j, i < j → j < n → p j = true → p i = true) :
    (List.range n).filter p = List.range ((List.range n).filter p).length := by
  induction n with
  | zero => rfl
  | succ n ih =>
    rw [List.range_succ, List.filter_append]
    cases met : p n with
    | true =>
      have all : (List.range n).filter p = List.range n :=
        List.filter_eq_self.mpr fun i member => closed i n (List.mem_range.mp member) (Nat.lt_succ_self n) met
      simp [all, met, List.range_succ]
    | false =>
      have early := ih fun i j below within => closed i j below (Nat.lt_succ_of_lt within)
      simpa [met] using early

end

namespace IdleSessionPool
variable {pool : IdleSessionPool} {now timeout minIdle : Nat}

/-- The removal loop, on indices from the highest down. -/
theorem removeIndices_exact {indices} (descending : indices.Pairwise (· > ·)) {removed}
    (found : indices.map (pool[·]?) = removed.map some) :
    (removeIndices indices pool).2 = removed.map (·.session) ∧
      (removed ++ (removeIndices indices pool).1).Perm pool := by
  induction indices generalizing pool removed with
  | nil =>
    cases removed with
    | nil => exact ⟨rfl, .refl _⟩
    | cons => cases found
  | cons index rest ih =>
    cases removed with
    | nil => cases found
    | cons entry removed =>
      rw [List.map_cons, List.map_cons, List.cons.injEq] at found
      obtain ⟨below, descending⟩ := List.pairwise_cons.mp descending
      obtain ⟨first, others, swapped⟩ := swapRemoveIndex_isSome (List.getElem?_eq_some_iff.mp found.1).1
      obtain ⟨stored, perm⟩ := swapRemoveIndex_perm swapped
      cases found.1.symm.trans stored
      have later : rest.map (others[·]?) = removed.map some := by
        rw [← found.2]
        exact List.map_congr_left fun i member => swapRemoveIndex_before swapped (below i member)
      obtain ⟨sessions, kept⟩ := ih descending later
      simp only [removeIndices, swapped]
      exact ⟨by rw [sessions, List.map_cons], (kept.cons entry).trans perm⟩

/-- The entries idle for at least the timeout, in index order. -/
def stale (pool : IdleSessionPool) (now timeout : Nat) : List IdleEntry :=
  pool.filter fun entry => decide (timeout ≤ now - entry.idleSince)

/-- The first of the stale entries, as many as the reserve allows. -/
def removable (pool : IdleSessionPool) (now timeout minIdle : Nat) : List IdleEntry :=
  (pool.stale now timeout).take (min (pool.length - minIdle) (pool.stale now timeout).length)

theorem timedOutIndices_map (pool : IdleSessionPool) (now timeout) :
    (pool.timedOutIndices now timeout).map (pool[·]?) = (pool.stale now timeout).map some :=
  filter_range_getElem? _ pool

theorem timedOutIndices_length (pool : IdleSessionPool) (now timeout) :
    (pool.timedOutIndices now timeout).length = (pool.stale now timeout).length := by
  have lengths := congrArg List.length (timedOutIndices_map pool now timeout)
  simpa using lengths

theorem cleanupStale_exact (pool : IdleSessionPool) (now timeout minIdle) :
    (pool.cleanupStale now timeout minIdle).2 = (pool.removable now timeout minIdle).reverse.map (·.session) ∧
    (pool.removable now timeout minIdle ++ (pool.cleanupStale now timeout minIdle).1).Perm pool := by
  have count := timedOutIndices_length pool now timeout
  unfold cleanupStale removable
  split_ifs with few
  · rw [Nat.sub_eq_zero_of_le few, Nat.zero_min, List.take_zero]
    exact ⟨rfl, .refl _⟩
  · have ascending : (pool.timedOutIndices now timeout).Pairwise (· < ·) :=
      List.pairwise_lt_range.sublist List.filter_sublist
    have found : ((pool.timedOutIndices now timeout).take
          (min (pool.length - minIdle) (pool.timedOutIndices now timeout).length)).reverse.map (pool[·]?) =
        ((pool.stale now timeout).take
          (min (pool.length - minIdle) (pool.stale now timeout).length)).reverse.map some := by
      rw [List.map_reverse, List.map_take, timedOutIndices_map, count, ← List.map_take, ← List.map_reverse]
    obtain ⟨sessions, kept⟩ := removeIndices_exact
      (List.pairwise_reverse.mpr (ascending.sublist (List.take_sublist ..))) found
    exact ⟨sessions, (List.Perm.append_right _ (List.reverse_perm _).symm).trans kept⟩

theorem removable_sublist : (pool.removable now timeout minIdle).Sublist pool :=
  (List.take_sublist ..).trans List.filter_sublist

theorem removable_stale {entry} (member : entry ∈ pool.removable now timeout minIdle) :
    timeout ≤ now - entry.idleSince :=
  of_decide_eq_true (List.mem_filter.mp (List.mem_of_mem_take member)).2

theorem removable_length :
    (pool.removable now timeout minIdle).length = min (pool.length - minIdle) (pool.stale now timeout).length := by
  rw [removable, List.length_take, Nat.min_assoc, Nat.min_self]

/-- The entries that stay are those not removed. -/
theorem cleanupStale_kept (distinct : pool.Nodup) (entry : IdleEntry) :
    entry ∈ (pool.cleanupStale now timeout minIdle).1 ↔
      entry ∈ pool ∧ entry ∉ pool.removable now timeout minIdle := by
  have perm := (cleanupStale_exact pool now timeout minIdle).2
  have apart := List.nodup_append.mp (perm.nodup_iff.mpr distinct)
  constructor
  · intro kept
    exact ⟨perm.subset (List.mem_append_right _ kept), fun gone => apart.2.2 entry gone entry kept rfl⟩
  · rintro ⟨member, stays⟩
    rcases List.mem_append.mp (perm.symm.subset member) with gone | kept
    · exact absurd gone stays
    · exact kept

/-! ### The order of the entries that stay -/

/-- The removal of an entry that others follow turns these round by one place. -/
theorem removeIndices_rotates (front back) :
    (removeIndices (List.range front.length).reverse (front ++ back)).1.rotate front.length = back := by
  induction front using List.reverseRecOn generalizing back with
  | nil => rw [List.length_nil, List.rotate_zero]; rfl
  | append_singleton front entry ih =>
    rw [List.length_append, List.length_singleton, List.range_succ, List.reverse_append, List.reverse_singleton,
      List.singleton_append, ← List.rotate_rotate]
    rcases List.eq_nil_or_concat back with rfl | ⟨back, last, rfl⟩
    · rw [List.append_nil, removeIndices, swapRemoveIndex_last]
      have rest := ih []
      rw [List.append_nil] at rest
      simp only [rest, List.rotate_nil]
    · have swapped : swapRemoveIndex (front ++ [entry] ++ (back ++ [last])) front.length =
          some (entry, front ++ last :: back) := by
        have shape : front ++ [entry] ++ (back ++ [last]) = front ++ entry :: back ++ [last] := by simp
        rw [shape, swapRemoveIndex, List.getLast?_concat]
        simp [List.dropLast_cons_of_ne_nil]
      rw [List.concat_eq_append, removeIndices, swapped]
      simp only [ih, List.rotate_cons_succ, List.rotate_zero]

section
variable (times : pool.Pairwise fun first second => first.idleSince ≤ second.idleSince)
include times

/-- In a pool in the order of the times the stale entries are the first ones. -/
theorem timedOutIndices_initial :
    pool.timedOutIndices now timeout = List.range (pool.stale now timeout).length := by
  rw [← timedOutIndices_length]
  refine filter_range_initial fun i j below within stale => ?_
  have older := List.pairwise_iff_getElem.mp times i j (below.trans within) within below
  rw [List.getElem?_eq_getElem within, Option.any_some, decide_eq_true_eq] at stale
  rw [List.getElem?_eq_getElem (below.trans within), Option.any_some, decide_eq_true_eq]
  omega

theorem cleanupStale_rotates (now timeout minIdle) :
    (pool.cleanupStale now timeout minIdle).1.rotate (pool.removable now timeout minIdle).length =
      pool.drop (pool.removable now timeout minIdle).length := by
  rw [cleanupStale, removable_length]
  split_ifs with few
  · rw [Nat.sub_eq_zero_of_le few, Nat.zero_min, List.rotate_zero, List.drop_zero]
  · have stales : (pool.stale now timeout).length ≤ pool.length := List.length_filter_le ..
    have rotated := removeIndices_rotates (pool.take (min (pool.length - minIdle) (pool.stale now timeout).length))
      (pool.drop (min (pool.length - minIdle) (pool.stale now timeout).length))
    rw [List.take_append_drop, List.length_take, Nat.min_eq_left (by omega)] at rotated
    simp only [timedOutIndices_initial times, List.length_range, List.take_range, Nat.min_assoc, Nat.min_self, rotated]

/-- A cleanup of a pool in the order of the times leaves the others in their order, if it removes
a multiple of what it leaves. -/
theorem cleanupStale_sublist
    (whole : (pool.removable now timeout minIdle).length = pool.length ∨
      pool.length - (pool.removable now timeout minIdle).length ∣ (pool.removable now timeout minIdle).length) :
    (pool.cleanupStale now timeout minIdle).1.Sublist pool := by
  have rotated := cleanupStale_rotates times now timeout minIdle
  have length : (pool.cleanupStale now timeout minIdle).1.length =
      pool.length - (pool.removable now timeout minIdle).length := by
    rw [← List.length_rotate, rotated, List.length_drop]
  rcases whole with all | divides
  · rw [all, Nat.sub_self] at length
    rw [List.eq_nil_of_length_eq_zero length]
    exact List.nil_sublist pool
  · rw [← List.rotate_mod, length, Nat.mod_eq_zero_of_dvd divides, List.rotate_zero] at rotated
    rw [rotated]
    exact List.drop_sublist ..

end

end IdleSessionPool

end AnyTls
