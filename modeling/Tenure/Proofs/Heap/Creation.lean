import Tenure.Proofs.Heap.Addressable

/-!
# New heaps

A heap on windowed memory is created, or the settings or the memory are the reason why not.
Nothing traps on the way: four windows are far from the end of the address space, and the
table of the cards is no larger than the old space.
-/

set_option autoImplicit false

namespace Tenure

open WindowedMemory (window)
open Checked (Achieves Answers Ends achieves_lift achieves_pure answers_pure ends_lift ends_pure)

/-- The settings are out of range, or a space cannot be reserved. -/
inductive Failure.OfCreation : Failure → Prop where
  | settings (reason : String) : OfCreation (.configuration reason)
  | space (space : Space) (bytes : Nat) : OfCreation (.regionReservation space bytes)

namespace Heap

/-! ## Causes of a refusal -/

section Refusable

variable {Value : Type} {answer : Answer Value}

theorem ends_refusable {refuses : Failure → Prop}
    (error : ∀ failure, answer = .error failure → refuses failure) :
    Ends (Refusable.of answer) (fun value => answer = .ok value) refuses where
  ok := fun _ ran => refusable_of_eq_ok ran
  error := fun failure ran => error failure (by cases ran; rfl)

theorem achieves_refusable (answer : Answer Value) :
    Achieves (Refusable.of answer) (fun value => answer = .ok value) where
  answers := ⟨answer, rfl⟩
  ok := fun _ ran => refusable_of_eq_ok ran

end Refusable

theorem ofCreation_of_validate {settings : Settings} {failure : Failure}
    (invalid : settings.validate = .error failure) : failure.OfCreation := by
  unfold Settings.validate at invalid
  cases found : settings.fault? with
  | none =>
      rw [found] at invalid
      cases invalid
  | some fault =>
      rw [found] at invalid
      cases invalid
      exact .settings fault.message

theorem ofCreation_of_reserve {memory after : WindowedMemory} {space : Space} {bytes : Nat}
    {failure : Failure} (ran : memory.reserve space bytes = .ok (.error failure, after)) :
    failure.OfCreation := by
  unfold WindowedMemory.reserve at ran
  split at ran
  · simp only [Checked.pure_eq_ok_iff, Prod.mk.injEq, Except.error.injEq] at ran
    obtain ⟨rfl, _⟩ := ran
    exact .space space bytes
  · simp only [Checked.bind_eq_ok_iff, Checked.pure_eq_ok_iff, Prod.mk.injEq] at ran
    obtain ⟨_, _, _, _, granted, _⟩ := ran
    cases granted

theorem ends_reserveArena (memory : WindowedMemory) (space : Space) (capacity : Nat) :
    Ends (reserveArena memory space capacity) (fun _ => True) Failure.OfCreation := by
  have reserved : Ends (liftM (MemorySource.reserve memory space capacity) : Refusable _)
      (fun reserved => ∀ failure, reserved.1 = .error failure → failure.OfCreation)
      Failure.OfCreation := by
    refine ends_lift fun ⟨answer, rest⟩ ran failure refused => ?_
    dsimp only at refused
    subst refused
    exact ofCreation_of_reserve ran
  refine reserved.bind fun ⟨answer, rest⟩ causes => ?_
  exact (ends_refusable causes).bind fun base _ => ends_pure trivial

/-- Creation is refused for the settings or for the lack of memory only. -/
theorem ends_create (settings : Settings) (memory : WindowedMemory) :
    Ends (create settings memory) (fun _ => True) Failure.OfCreation := by
  refine (ends_refusable fun _ invalid => ofCreation_of_validate invalid).bind fun _ _ => ?_
  refine (ends_reserveArena _ _ _).bind fun ⟨eden, _⟩ _ => ?_
  refine (ends_reserveArena _ _ _).bind fun ⟨survivorA, _⟩ _ => ?_
  refine (ends_reserveArena _ _ _).bind fun ⟨survivorB, _⟩ _ => ?_
  refine (ends_reserveArena _ _ _).bind fun ⟨old, _⟩ _ => ?_
  have cards : Ends (liftM (CardTable.create old.base old.capacity settings.cardSize.toNat) :
      Refusable _) (fun _ => True) Failure.OfCreation := ends_lift fun _ _ => trivial
  exact cards.bind fun _ _ => ends_pure trivial

/-! ## Creation without a trap -/

/-- Whether so many more windows keep the addresses and the committed bytes words. -/
def HasWindows (memory : WindowedMemory) (windows : Nat) : Prop :=
  memory.nextWindow + windows * window < Word.limit ∧
    memory.committed + windows * window < Word.limit

theorem hasWindows_fresh (budget : Option Nat) :
    HasWindows (WindowedMemory.fresh budget) 4 :=
  ⟨show window + 4 * window < Word.limit by decide, show 0 + 4 * window < Word.limit by decide⟩

theorem achieves_reserveArena {memory : WindowedMemory} {windows : Nat}
    (room : HasWindows memory (windows + 1)) (space : Space) (capacity : Nat) :
    Achieves (reserveArena memory space capacity) fun reserved =>
      reserved.1.capacity ≤ window ∧ HasWindows reserved.2 windows := by
  obtain ⟨addresses, bytes⟩ := room
  rw [Nat.succ_mul] at addresses bytes
  constructor
  · have reserved : Achieves (liftM (MemorySource.reserve memory space capacity) : Refusable _)
        (fun _ => True) :=
      achieves_lift (WindowedMemory.answers_reserve (by omega) (by omega) _ _) fun _ _ => trivial
    have reserves : Achieves (reserveArena memory space capacity) fun _ => True :=
      reserved.bind fun ⟨answer, _⟩ _ =>
        (achieves_refusable answer).bind fun _ _ => achieves_pure trivial
    exact reserves.answers
  · intro reserved ran
    obtain ⟨_, capacity, next, committed, _⟩ := reserveArena_window ran
    refine ⟨capacity, ?_, ?_⟩
    · rw [next]
      omega
    · rw [committed]
      omega

theorem answers_create (settings : Settings) (budget : Option Nat) :
    Answers (create settings (WindowedMemory.fresh budget)).run := by
  have created : Achieves (create settings (WindowedMemory.fresh budget)) fun _ => True := by
    refine (achieves_refusable _).bind fun _ valid => ?_
    obtain ⟨power, _⟩ := validate_eq_ok valid
    have room := hasWindows_fresh budget
    refine (achieves_reserveArena room _ _).bind fun ⟨eden, afterEden⟩ ⟨_, room⟩ => ?_
    refine (achieves_reserveArena room _ _).bind fun ⟨survivorA, afterA⟩ ⟨_, room⟩ => ?_
    refine (achieves_reserveArena room _ _).bind fun ⟨survivorB, afterB⟩ ⟨_, room⟩ => ?_
    refine (achieves_reserveArena room _ _).bind fun ⟨old, afterOld⟩ ⟨capacity, _⟩ => ?_
    have small : old.capacity ≤ Word.largestTable := Nat.le_trans capacity (by decide)
    have cards : Achieves (liftM (CardTable.create old.base old.capacity settings.cardSize.toNat) :
        Refusable _) fun _ => True :=
      achieves_lift (CardTable.answers_create power small _) fun _ _ => trivial
    exact cards.bind fun _ _ => achieves_pure trivial
  exact created.answers

end Heap

end Tenure
