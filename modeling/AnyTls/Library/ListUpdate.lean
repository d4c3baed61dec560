import Mathlib.Algebra.BigOperators.Group.List.Basic
import Mathlib.Algebra.GroupWithZero.Nat
import Mathlib.Data.List.Basic

/-! Lists updated in one place: what a projection or a test of all elements sees of it. -/
namespace ListUpdate
variable {α β : Type*} {l : List α} {f : α → α} {i : Nat} {a : α}

/-- A projection that the update leaves alone. -/
theorem map_modify {g : α → β} (same : ∀ a, g (f a) = g a) : (l.modify i f).map g = l.map g := by
  refine List.ext_getElem? fun j => ?_
  simp only [List.getElem?_map, List.getElem?_modify]
  cases l[j]? with
  | none => rfl
  | some a =>
    simp only [Option.map_some]
    split_ifs
    · exact congrArg some (same a)
    · rfl

theorem modify_eq_set (placed : l[i]? = some a) : l.modify i f = l.set i (f a) := by
  rw [List.modify_eq_set_getElem?, placed]
  rfl

theorem modify_congr {g} (placed : l[i]? = some a) (same : f a = g a) : l.modify i f = l.modify i g := by
  rw [modify_eq_set placed, modify_eq_set placed, same]

/-- The elements other than the one replaced stay. -/
theorem mem_set_other {b c} (placed : l[i]? = some a) (member : c ∈ l) (other : c ≠ a) : c ∈ l.set i b := by
  obtain ⟨j, found⟩ := List.mem_iff_getElem?.mp member
  have apart : i ≠ j := by
    rintro rfl
    exact other (Option.some.inj (found.symm.trans placed))
  exact List.mem_of_getElem? ((List.getElem?_set_ne apart).trans found)

/-- A sum, with one of its terms apart. -/
theorem sum_map_split {f : α → Nat} (placed : l[i]? = some a) :
    (l.map f).sum = ((l.eraseIdx i).map f).sum + f a := by
  induction l generalizing i with
  | nil => cases placed
  | cons b l ih =>
    cases i with
    | zero =>
      cases placed
      simp only [List.eraseIdx_cons_zero, List.map_cons, List.sum_cons]
      omega
    | succ i =>
      have rest := ih (i := i) placed
      simp only [List.eraseIdx_cons_succ, List.map_cons, List.sum_cons]
      omega

theorem sum_map_set {f : α → Nat} {b : α} (placed : l[i]? = some a) :
    ((l.set i b).map f).sum = ((l.eraseIdx i).map f).sum + f b := by
  have inside := (List.getElem?_eq_some_iff.mp placed).1
  rw [sum_map_split (List.getElem?_set_self inside), List.eraseIdx_set_eq]

/-- A test that the element replaced does not pass. -/
theorem any_set {p b} (placed : l[i]? = some a) (unmet : p a = false) :
    (l.set i b).any p = (l.any p || p b) := by
  induction l generalizing i with
  | nil => cases placed
  | cons c l ih =>
    cases i with
    | zero =>
      cases placed
      simp [unmet, Bool.or_comm]
    | succ i => simp [ih (i := i) placed, Bool.or_assoc]

theorem any_modify {p} (placed : l[i]? = some a) (unmet : p a = false) :
    (l.modify i f).any p = (l.any p || p (f a)) := by
  rw [modify_eq_set placed, any_set placed unmet]

/-- Counting without one of the elements counted. -/
theorem countP_except [DecidableEq α] {p} (distinct : l.Nodup) (met : p a = true) :
    l.countP p = (l.countP fun b => if b = a then false else p b) + if a ∈ l then 1 else 0 := by
  induction l with
  | nil => rfl
  | cons b l ih =>
    obtain ⟨fresh, distinct⟩ := List.nodup_cons.mp distinct
    rw [List.countP_cons, List.countP_cons, ih distinct]
    by_cases same : b = a
    · subst same
      simp [fresh, met]
    · simp only [same, if_false, List.mem_cons, Ne.symm same, false_or]
      omega

end ListUpdate
