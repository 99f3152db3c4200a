import Tenure.Memory
import Tenure.Proofs.Checked

/-!
# Windows of memory

A reservation begins at the next window and never exceeds it, and neither does its
extension. The count of committed bytes follows what was granted, and it never exceeds the
budget.
-/

set_option autoImplicit false

namespace Tenure.WindowedMemory

/-- What was committed stays within the budget. -/
def WithinBudget (memory : WindowedMemory) : Prop :=
  ∀ limit, memory.budget = some limit → memory.committed ≤ limit

/-- The extended reservation would leave its window, or the budget. -/
def Exceeds (memory : WindowedMemory) (current additional : Nat) : Prop :=
  window < current + additional ∨
    ∃ limit, memory.budget = some limit ∧ limit < memory.committed + additional

variable {memory after : WindowedMemory}

theorem admits_iff {bytes : Nat} : memory.admits bytes = true ↔
    ∀ limit, memory.budget = some limit → Word.addSaturating memory.committed bytes ≤ limit := by
  unfold admits
  cases memory.budget with
  | none => simp
  | some budget => simp

theorem committed_le_of_admits {bytes limit : Nat} (admitted : memory.admits bytes = true)
    (small : memory.committed + bytes < Word.limit) (budget : memory.budget = some limit) :
    memory.committed + bytes ≤ limit := by
  have within := admits_iff.mp admitted limit budget
  simp only [Word.addSaturating, Word.greatest, Word.limit] at within small
  omega

theorem exists_limit_of_not_admits {bytes : Nat} (denied : memory.admits bytes = false) :
    ∃ limit, memory.budget = some limit ∧ limit < memory.committed + bytes := by
  rw [← Bool.not_eq_true, admits_iff] at denied
  simp only [Classical.not_forall, Nat.not_le, exists_prop] at denied
  obtain ⟨limit, budget, exceeds⟩ := denied
  exact ⟨limit, budget, Nat.lt_of_lt_of_le exceeds (Nat.min_le_left _ _)⟩

theorem reserve_eq_ok {space : Space} {bytes base : Nat}
    (ran : memory.reserve space bytes = .ok (.ok base, after)) :
    bytes ≤ window ∧ base = memory.nextWindow ∧
      after.nextWindow = memory.nextWindow + window ∧
      after.committed = memory.committed + bytes ∧
      after.budget = memory.budget ∧ after.WithinBudget := by
  unfold reserve at ran
  split at ran
  · simp [Checked.pure_eq_ok_iff] at ran
  · rename_i granted
    simp only [Bool.or_eq_true, decide_eq_true_eq, Bool.not_eq_true', not_or, Nat.not_lt,
      Bool.not_eq_false] at granted
    simp only [Checked.bind_eq_ok_iff, Word.add_eq_ok_iff, Checked.pure_eq_ok_iff,
      Prod.mk.injEq, Except.ok.injEq] at ran
    obtain ⟨next, ⟨_, rfl⟩, committed, ⟨small, rfl⟩, rfl, rfl⟩ := ran
    exact ⟨granted.1, rfl, rfl, rfl, rfl,
      fun limit budget => committed_le_of_admits granted.2 small budget⟩

theorem le_of_addSaturating_le {left right : Nat}
    (within : Word.addSaturating left right ≤ window) : left + right ≤ window := by
  simp only [Word.addSaturating, Word.greatest, Word.limit, window] at within ⊢
  omega

/-- A request for more bytes is refused because it exceeds the window or the budget. -/
theorem extend_eq_ok {current additional : Nat} {granted : Bool}
    (ran : memory.extend current additional = .ok (granted, after)) :
    (granted = false ∧ after = memory ∧ memory.Exceeds current additional) ∨
      (granted = true ∧ current + additional ≤ window ∧
        after.committed = memory.committed + additional ∧
        after.budget = memory.budget ∧ after.WithinBudget) := by
  unfold extend at ran
  split at ran
  · rename_i beyond
    simp only [Bool.or_eq_true, decide_eq_true_eq, Bool.not_eq_true'] at beyond
    simp only [Checked.pure_eq_ok_iff, Prod.mk.injEq] at ran
    refine .inl ⟨ran.1.symm, ran.2.symm, ?_⟩
    rcases beyond with wide | denied
    · exact .inl (Nat.lt_of_lt_of_le wide (Nat.min_le_left _ _))
    · exact .inr (exists_limit_of_not_admits denied)
  · rename_i within
    simp only [Bool.or_eq_true, decide_eq_true_eq, Bool.not_eq_true', not_or, Nat.not_lt,
      Bool.not_eq_false] at within
    simp only [Checked.bind_eq_ok_iff, Word.add_eq_ok_iff, Checked.pure_eq_ok_iff,
      Prod.mk.injEq] at ran
    obtain ⟨committed, ⟨small, rfl⟩, rfl, rfl⟩ := ran
    exact .inr ⟨rfl, le_of_addSaturating_le within.1, rfl, rfl,
      fun limit budget => committed_le_of_admits within.2 small budget⟩

/-- A request that is too large stays so while more is committed, and so do larger ones. -/
theorem Exceeds.mono {current later additional more : Nat}
    (exceeds : memory.Exceeds current additional) (budget : after.budget = memory.budget)
    (committed : memory.committed ≤ after.committed) (wider : current ≤ later)
    (larger : additional ≤ more) : after.Exceeds later more := by
  rcases exceeds with wide | ⟨limit, bounded, beyond⟩
  · exact .inl (by omega)
  · exact .inr ⟨limit, budget.trans bounded, by omega⟩

/-- Only less is granted than a request that is too large. -/
theorem Exceeds.lt_of_granted {current additional granted : Nat}
    (exceeds : memory.Exceeds current additional)
    (ran : memory.extend current granted = .ok (true, after)) : granted < additional := by
  rcases extend_eq_ok ran with ⟨refused, _⟩ | ⟨_, within, committed, budget, bounded⟩
  · cases refused
  rcases exceeds with wide | ⟨limit, limited, beyond⟩
  · omega
  · have below := bounded limit (budget.trans limited)
    omega

theorem answers_reserve (addresses : memory.nextWindow + window < Word.limit)
    (room : memory.committed + window < Word.limit) (space : Space) (bytes : Nat) :
    Checked.Answers (memory.reserve space bytes) := by
  unfold reserve
  split
  · exact Checked.answers_pure _
  · rename_i within
    simp only [Bool.or_eq_true, decide_eq_true_eq, not_or, Nat.not_lt] at within
    refine Checked.Answers.bind ⟨_, Word.add_of_lt addresses⟩ fun _ _ => ?_
    exact Checked.Answers.bind ⟨_, Word.add_of_lt (by omega)⟩ fun _ _ => Checked.answers_pure _

/-- The committed bytes stay words as long as another window of them would. -/
theorem answers_extend (room : memory.committed + window < Word.limit)
    (current additional : Nat) : Checked.Answers (memory.extend current additional) := by
  unfold extend
  split
  · exact Checked.answers_pure _
  · rename_i within
    simp only [Bool.or_eq_true, decide_eq_true_eq, not_or, Nat.not_lt] at within
    have small := le_of_addSaturating_le within.1
    exact Checked.Answers.bind ⟨_, Word.add_of_lt (by omega)⟩ fun _ _ => Checked.answers_pure _

end Tenure.WindowedMemory
