import Tenure.Proofs.Heap.Reclamation

/-!
# Handles do not alias

A handle is handed out once, and after its object is reclaimed it is stale for good: no
load and no store accepts it, however often its slot is used again. Epochs come around,
so all of this holds while no slot is reclaimed as often as there are epochs.
-/

set_option autoImplicit false

namespace Tenure.Heap

variable {Source : Type}

/-! ## Stale handles -/

/-- What becomes of loads and stores with a stale handle. Of two stale handles a store
reports the value. -/
structure Rejects (heap : Heap Source) (handle : Handle) : Prop where
  load : ∀ index, heap.load handle index = .error (.staleHandle handle)
  storeOf : ∀ holder index,
    heap.store holder index (some handle) = .ok (.error (.staleHandle handle), heap)
  storeInto : ∀ index value, ∃ stale,
    heap.store handle index value = .ok (.error (.staleHandle stale), heap) ∧
      heap.directory.isLive stale = false ∧
      (value = some stale ∨
        (stale = handle ∧ ∀ target, value = some target → heap.directory.isLive target = true))

theorem valueGeneration_of_stale {heap : Heap Source} {target : Handle}
    (stale : heap.directory.isLive target = false) :
    heap.valueGeneration (some target) = .error (.staleHandle target) := by
  have missing : heap.directory.get? target = none := by
    simpa [Directory.isLive] using stale
  simp [valueGeneration, Directory.generation?, missing]

theorem valueGeneration_of_live {heap : Heap Source} {value : Option Handle}
    (live : ∀ target, value = some target → heap.directory.isLive target = true) :
    ∃ generation, heap.valueGeneration value = .ok generation := by
  cases value with
  | none => exact ⟨none, rfl⟩
  | some target =>
      obtain ⟨record, found⟩ := Directory.isLive_iff.mp (live target rfl)
      exact ⟨some record.generation, by simp [valueGeneration, Directory.generation?, found]⟩

theorem store_of_checkStore_error {heap : Heap Source} {holder : Handle} {index : Nat}
    {value : Option Handle} {failure : Failure}
    (refused : heap.checkStore holder index value = .error failure) :
    heap.store holder index value = .ok (.error failure, heap) := by
  rw [store, refused]
  rfl

theorem rejects_of_stale {heap : Heap Source} {handle : Handle}
    (stale : heap.directory.isLive handle = false) : heap.Rejects handle := by
  have missing : heap.directory.get? handle = none := by
    simpa [Directory.isLive] using stale
  have rejectsValue : ∀ holder index target, heap.directory.isLive target = false →
      heap.store holder index (some target) = .ok (.error (.staleHandle target), heap) := by
    intro holder index target gone
    refine store_of_checkStore_error ?_
    rw [checkStore, valueGeneration_of_stale gone]
    rfl
  constructor
  · intro index
    simp [load, missing]
  · exact fun holder index => rejectsValue holder index handle stale
  · intro index value
    by_cases live : ∀ target, value = some target → heap.directory.isLive target = true
    · obtain ⟨generation, valued⟩ := valueGeneration_of_live live
      refine ⟨handle, store_of_checkStore_error ?_, stale, .inr ⟨rfl, live⟩⟩
      rw [checkStore, valued, missing]
      rfl
    · simp only [not_forall, Bool.not_eq_true] at live
      obtain ⟨target, rfl, gone⟩ := live
      exact ⟨target, rejectsValue handle index target gone, gone, .inl rfl⟩

/-! ## Runs -/

variable [MemorySource Source]

/-- The handle that an operation answers, if it is an allocation that succeeds. -/
def answered (heap : Heap Source) : Operation → Option Handle
  | .allocate size fieldCount =>
    match heap.tryAllocate size fieldCount with
    | .ok (placed, _) => placed
    | .error _ => none
  | _ => none

/-- The handles that the allocations of a run answer, from first to last. -/
def handedOut (heap : Heap Source) : List Operation → List Handle
  | [] => []
  | operation :: rest =>
    match heap.perform operation with
    | .ok next => (heap.answered operation).toList ++ next.handedOut rest
    | .error _ => []

/-- How many operations of a run reclaim the object in a slot. -/
def timesReclaimed (heap : Heap Source) (slot : UInt32) : List Operation → Nat
  | [] => 0
  | operation :: rest =>
    match heap.perform operation with
    | .ok next =>
      (if heap.directory.reclaims next.directory slot then 1 else 0) +
        next.timesReclaimed slot rest
    | .error _ => 0

variable {heap next middle after : Heap Source} {operation : Operation}
  {rest earlier later operations : List Operation}

theorem handedOut_cons (stepped : heap.perform operation = .ok next) :
    heap.handedOut (operation :: rest) =
      (heap.answered operation).toList ++ next.handedOut rest := by
  simp only [handedOut, stepped]

theorem timesReclaimed_cons (stepped : heap.perform operation = .ok next) (slot : UInt32) :
    heap.timesReclaimed slot (operation :: rest) =
      (if heap.directory.reclaims next.directory slot then 1 else 0) +
        next.timesReclaimed slot rest := by
  simp only [timesReclaimed, stepped]

theorem timesReclaimed_append (ran : heap.performAll earlier = .ok middle) (slot : UInt32) :
    heap.timesReclaimed slot (earlier ++ later) =
      heap.timesReclaimed slot earlier + middle.timesReclaimed slot later := by
  induction earlier generalizing heap with
  | nil =>
      cases ran
      simp [timesReclaimed]
  | cons operation rest ih =>
      obtain ⟨next, stepped, ran⟩ := performAll_cons_eq_ok.mp ran
      rw [List.cons_append, timesReclaimed_cons stepped, timesReclaimed_cons stepped, ih ran,
        Nat.add_assoc]

theorem timesReclaimed_le_length (heap : Heap Source) (slot : UInt32)
    (operations : List Operation) : heap.timesReclaimed slot operations ≤ operations.length := by
  induction operations generalizing heap with
  | nil => exact Nat.le_refl 0
  | cons operation rest ih =>
      cases stepped : heap.perform operation with
      | error trap => simp [timesReclaimed, stepped]
      | ok next =>
          have fewer := ih next
          rw [timesReclaimed_cons stepped, List.length_cons]
          split <;> omega

/-- Only a cycle reclaims, and it reclaims a slot at most once. -/
theorem Sound.recycles_of_perform (sound : heap.Sound) (ran : heap.perform operation = .ok after)
    (slot : UInt32) : heap.directory.Recycles slot
      (if heap.directory.reclaims after.directory slot then 1 else 0) after.directory := by
  have formed := sound.consistent.directory
  cases perform_eq_ok ran with
  | allocate allocated =>
      rcases tryAllocate_eq_ok allocated with ⟨_, rfl⟩ | ⟨handle, room, _, _, _, _, rfl⟩
      · exact (Directory.Turns.of_occupancy rfl).recycles formed slot
      · rw [Heap.withNew, Directory.reclaims_insert formed]
        exact Directory.recycles_insert _ _ slot
  | store stored =>
      rcases store_eq_ok stored with ⟨_, _, rfl⟩ | ⟨_, _, _, _, _, _, _, _, rfl⟩
      · exact (Directory.Turns.of_occupancy rfl).recycles formed slot
      · exact (Directory.Turns.of_occupancy (Directory.occupancy_update ..)).recycles formed slot
  | minorCycle cycled => exact (sound.retains_of_minorCycle cycled).turns.recycles formed slot
  | majorCycle cycled => exact (sound.retains_of_majorCycle cycled).turns.recycles formed slot
  | setThreshold threshold =>
      rw [directory_setThreshold]
      exact (Directory.Turns.of_occupancy rfl).recycles formed slot

theorem Sound.recycles_of_performAll (sound : heap.Sound)
    (ran : heap.performAll operations = .ok after) (slot : UInt32) :
    heap.directory.Recycles slot (heap.timesReclaimed slot operations) after.directory := by
  induction operations generalizing heap with
  | nil =>
      cases ran
      exact .refl _ slot
  | cons operation rest ih =>
      obtain ⟨next, stepped, ran⟩ := performAll_cons_eq_ok.mp ran
      rw [timesReclaimed_cons stepped]
      exact (sound.recycles_of_perform stepped slot).trans (ih (sound.perform stepped) ran)

/-! ## Handles are handed out once -/

theorem answered_eq_some {handle : Handle} (answers : heap.answered operation = some handle)
    (stepped : heap.perform operation = .ok next) :
    heap.directory.fresh? = some handle ∧ next.directory.isLive handle = true := by
  cases operation with
  | allocate size fieldCount =>
      cases perform_eq_ok stepped with
      | allocate allocated =>
          simp only [answered, allocated] at answers
          subst answers
          rcases tryAllocate_eq_ok allocated with ⟨none, _⟩ | ⟨_, _, placed, fresh, _, _, rfl⟩
          · cases none
          · cases placed
            exact ⟨fresh, by simp [isLive_withNew fresh]⟩
  | store _ _ _ => cases answers
  | minorCycle _ _ => cases answers
  | majorCycle _ _ => cases answers
  | setThreshold _ => cases answers

/-- The handle of an object that was live before a run is not handed out in the run. -/
theorem Sound.not_handed_out_again (sound : heap.Sound)
    (ran : heap.performAll operations = .ok after) {start : Directory} {times : Nat}
    {handle : Handle} (recycles : start.Recycles handle.slot times heap.directory)
    (live : start.isLive handle = true)
    (rare : times + heap.timesReclaimed handle.slot operations < UInt32.size) :
    handle ∉ heap.handedOut operations := by
  induction operations generalizing heap times with
  | nil => simp [handedOut]
  | cons operation rest ih =>
      obtain ⟨next, stepped, ran⟩ := performAll_cons_eq_ok.mp ran
      rw [timesReclaimed_cons stepped, ← Nat.add_assoc] at rare
      rw [handedOut_cons stepped, List.mem_append, Option.mem_toList, not_or]
      constructor
      · intro answers
        exact recycles.not_fresh sound.consistent.directory live (by omega)
          (answered_eq_some answers stepped).1
      · exact ih (sound.perform stepped) ran
          (recycles.trans (sound.recycles_of_perform stepped handle.slot)) rare

theorem Sound.nodup_handedOut (sound : heap.Sound)
    (ran : heap.performAll operations = .ok after)
    (rare : ∀ slot, heap.timesReclaimed slot operations < UInt32.size) :
    (heap.handedOut operations).Nodup := by
  induction operations generalizing heap with
  | nil => exact List.nodup_nil
  | cons operation rest ih =>
      obtain ⟨next, stepped, ran⟩ := performAll_cons_eq_ok.mp ran
      have rareLater : ∀ slot, next.timesReclaimed slot rest < UInt32.size := by
        intro slot
        have fewer := rare slot
        rw [timesReclaimed_cons stepped] at fewer
        omega
      have distinct := ih (sound.perform stepped) ran rareLater
      rw [handedOut_cons stepped]
      cases answers : heap.answered operation with
      | none => exact distinct
      | some handle =>
          refine List.nodup_cons.mpr ⟨?_, distinct⟩
          refine (sound.perform stepped).not_handed_out_again ran (.refl _ handle.slot)
            (answered_eq_some answers stepped).2 ?_
          rw [Nat.zero_add]
          exact rareLater handle.slot

/-! ## Both together -/

/-- While no slot is reclaimed 2³² times, a run hands out no handle twice, and once an
object is reclaimed its handle is stale and refused ever after. -/
theorem handles_never_alias {initial heap : Heap Source} (attainable : initial.Attainable)
    {operations : List Operation} (ran : initial.performAll operations = .ok heap)
    (rare : ∀ slot, initial.timesReclaimed slot operations < UInt32.size) :
    (initial.handedOut operations).Nodup ∧
      ∀ earlier operation later rest before reclaimed current handle,
        operations = earlier ++ operation :: later ++ rest →
        initial.performAll earlier = .ok before →
        before.perform operation = .ok reclaimed →
        reclaimed.performAll later = .ok current →
        before.directory.isLive handle = true →
        reclaimed.directory.isLive handle = false →
        current.directory.isLive handle = false ∧ current.Rejects handle := by
  refine ⟨attainable.sound.nodup_handedOut ran rare, ?_⟩
  intro earlier operation later rest before reclaimed current handle split performed stepped
    followed live gone
  have sound := (attainable.attains ⟨earlier, performed⟩).sound
  have fewer := rare handle.slot
  rw [split, List.append_assoc, List.cons_append, timesReclaimed_append performed,
    timesReclaimed_cons stepped, timesReclaimed_append followed] at fewer
  have stale : current.directory.isLive handle = false :=
    (sound.recycles_of_perform stepped handle.slot).not_live_again
      ((sound.perform stepped).recycles_of_performAll followed handle.slot) (by omega) live gone
  exact ⟨stale, rejects_of_stale stale⟩

/-- The slot of a reclaimed object is used again, under the next epoch. -/
def reusingOperations : List Operation :=
  [.allocate 16 1, .minorCycle .fresh [], .allocate 16 1]

def reusedHandle : Handle := { slot := 0, epoch := 1 }

theorem handles_never_alias_when_reused : ∃ initial heap : Heap WindowedMemory,
    initial.Attainable ∧ initial.performAll reusingOperations = .ok heap ∧
      initial.handedOut reusingOperations = [firstHandle, reusedHandle] ∧
      (initial.handedOut reusingOperations).Nodup ∧
      heap.directory.isLive reusedHandle = true ∧ heap.Rejects firstHandle := by
  obtain ⟨initial, heap, created, performed, reused⟩ := runs_of_leadsTo
    (show leadsTo smallSettings (WindowedMemory.fresh none) reusingOperations
      (fun heap => heap.directory.isLive reusedHandle) = true by decide +kernel)
  have unchanged : initial.performAll [] = .ok initial := rfl
  have handed := of_decide_eq_true (passes_of_leadsTo created unchanged
    (show leadsTo smallSettings (WindowedMemory.fresh none) []
      (fun initial => decide
        (initial.handedOut reusingOperations = [firstHandle, reusedHandle])) = true
      by decide +kernel))
  obtain ⟨before, allocated, ran⟩ := performAll_cons_eq_ok.mp performed
  obtain ⟨reclaimed, cycled, followed⟩ := performAll_cons_eq_ok.mp ran
  have placed : initial.performAll [.allocate 16 1] = .ok before :=
    performAll_cons_eq_ok.mpr ⟨before, allocated, rfl⟩
  have live := passes_of_leadsTo created placed
    (show leadsTo smallSettings (WindowedMemory.fresh none) [.allocate 16 1]
      (fun heap => heap.directory.isLive firstHandle) = true by decide +kernel)
  have gone := passes_of_leadsTo created
    (performAll_cons_eq_ok.mpr ⟨before, allocated, performAll_cons_eq_ok.mpr
      ⟨reclaimed, cycled, rfl⟩⟩)
    (show leadsTo smallSettings (WindowedMemory.fresh none)
      [.allocate 16 1, .minorCycle .fresh []]
      (fun heap => !heap.directory.isLive firstHandle) = true by decide +kernel)
  have attainable : initial.Attainable := ⟨_, _, initial, [], created, rfl⟩
  have rare : ∀ slot, initial.timesReclaimed slot reusingOperations < UInt32.size := fun slot =>
    Nat.lt_of_le_of_lt (initial.timesReclaimed_le_length slot reusingOperations) (by decide)
  obtain ⟨distinct, stale⟩ := handles_never_alias attainable performed rare
  exact ⟨initial, heap, attainable, performed, handed, distinct, reused,
    (stale [.allocate 16 1] (.minorCycle .fresh []) [.allocate 16 1] [] before reclaimed heap
      firstHandle rfl placed cycled followed live (by simpa using gone)).2⟩

end Tenure.Heap
