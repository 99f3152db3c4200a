import Tenure.Handle

/-!
# The worklist of a trace

A first-in first-out queue of handles. It is kept as a front in order and a back
in reverse, so that both ends are cheap; `toList` is the queue it stands for.
-/

set_option autoImplicit false

namespace Tenure.Marking

structure Worklist where
  front : List Handle
  back : List Handle

namespace Worklist

def empty : Worklist := { front := [], back := [] }

def toList (queue : Worklist) : List Handle := queue.front ++ queue.back.reverse

def push (queue : Worklist) (handle : Handle) : Worklist :=
  { queue with back := handle :: queue.back }

def pop? (queue : Worklist) : Option (Handle × Worklist) :=
  match queue.front with
  | handle :: front => some (handle, { queue with front })
  | [] =>
    match queue.back.reverse with
    | handle :: front => some (handle, { front, back := [] })
    | [] => none

@[simp] theorem toList_empty : empty.toList = [] := rfl

@[simp] theorem toList_push (queue : Worklist) (handle : Handle) :
    (queue.push handle).toList = queue.toList ++ [handle] := by
  simp [toList, push]

theorem pop?_eq_none_iff {queue : Worklist} : queue.pop? = none ↔ queue.toList = [] := by
  obtain ⟨front, back⟩ := queue
  cases front with
  | cons => simp [pop?, toList]
  | nil =>
      cases reversed : back.reverse with
      | nil => simp [pop?, toList, reversed]
      | cons => simp [pop?, toList, reversed]

theorem toList_of_pop?_eq_some {queue rest : Worklist} {handle : Handle}
    (popped : queue.pop? = some (handle, rest)) : queue.toList = handle :: rest.toList := by
  obtain ⟨front, back⟩ := queue
  cases front with
  | cons first others =>
      simp only [pop?, Option.some.injEq, Prod.mk.injEq] at popped
      obtain ⟨rfl, rfl⟩ := popped
      rfl
  | nil =>
      cases reversed : back.reverse with
      | nil => simp [pop?, reversed] at popped
      | cons first others =>
          simp only [pop?, reversed, Option.some.injEq, Prod.mk.injEq] at popped
          obtain ⟨rfl, rfl⟩ := popped
          simp [toList, reversed]

end Worklist

end Tenure.Marking
