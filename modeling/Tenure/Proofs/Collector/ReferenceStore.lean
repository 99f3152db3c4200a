import Tenure.Proofs.Collector.Reuse
import Tenure.Proofs.Heap.Attainable

/-!
# The collector beside a store that never reclaims

A reference store is told of new objects and of stores and of nothing else. The live
objects of the heap have the fields that it says, so an object stays alive as long as
every cycle is given a live root from which the reference store leads to it. The running
program cannot tell such an object from one that no collector ever touched.
-/

set_option autoImplicit false

namespace Tenure

/-- The fields of every object that ever was, without any reclamation. -/
def ReferenceStore : Type := Handle → Option (List (Option Handle))

namespace ReferenceStore

variable {Source : Type}

def ofHeap (heap : Heap Source) : ReferenceStore :=
  fun handle => (heap.directory.get? handle).map Record.fields

def graph (store : ReferenceStore) : Graph := fun handle => (store handle).getD []

/-- The store after one moment. A new object has null fields, a store replaces one field,
and cycles pass unnoticed. -/
def next (store : ReferenceStore) : Moment Source → ReferenceStore
  | .cycle _ _ _ => store
  | .allocated handle fieldCount => fun other =>
    if other = handle then some (List.replicate fieldCount none) else store other
  | .stored holder index value => fun other =>
    if other = holder then (store holder).map fun fields => fields.set index value
    else store other

def replay (store : ReferenceStore) (moments : List (Moment Source)) : ReferenceStore :=
  moments.foldl next store

/-- At the start of every cycle the store leads to an object from a live root. -/
def Reaches (handle : Handle) : ReferenceStore → List (Moment Source) → Prop
  | _, [] => True
  | store, .cycle before roots _ :: rest =>
    (∃ root ∈ roots, before.directory.isLive root = true ∧ store.graph.Leads root handle) ∧
      Reaches handle store rest
  | store, moment :: rest => Reaches handle (store.next moment) rest

/-- The live objects of a heap have the fields that the store says. -/
def Describes (store : ReferenceStore) (heap : Heap Source) : Prop :=
  ∀ handle record, heap.directory.get? handle = some record → store handle = some record.fields

theorem describes_ofHeap (heap : Heap Source) : (ofHeap heap).Describes heap := by
  intro handle record found
  simp [ofHeap, found]

theorem Describes.next {store : ReferenceStore} {heap after : Heap Source}
    {moment : Moment Source} (describes : store.Describes heap)
    (changes : moment.Changes heap after) : (store.next moment).Describes after := by
  intro handle record found
  cases changes with
  | cycle retains =>
      obtain ⟨before, beforeFound, fields⟩ := retains.fields handle record found
      rw [fields]
      exact describes handle before beforeFound
  | allocated fresh =>
      rw [Heap.get?_withNew fresh] at found
      simp only [ReferenceStore.next]
      split at found
      · rename_i same
        rw [Option.some.injEq] at found
        rw [if_pos same, ← found]
        rfl
      · rename_i different
        rw [if_neg different]
        exact describes handle record found
  | stored holderFound =>
      rw [Heap.get?_withField] at found
      simp only [ReferenceStore.next]
      split at found
      · rename_i same
        rw [holderFound, Option.map_some, Option.some.injEq] at found
        rw [if_pos same, describes _ _ holderFound, ← found]
        rfl
      · rename_i different
        rw [if_neg different]
        exact describes handle record found

theorem Describes.replay {store : ReferenceStore} {heap after : Heap Source}
    {moments : List (Moment Source)} (describes : store.Describes heap)
    (history : History heap moments after) : (store.replay moments).Describes after := by
  unfold ReferenceStore.replay
  induction history generalizing store with
  | nil _ => exact describes
  | cons _ changes _ ih => exact ih (describes.next changes)

/-- From a live object the store leads where the heap leads. -/
theorem Describes.leads {store : ReferenceStore} {heap : Heap Source}
    (describes : store.Describes heap) (sound : heap.Sound) {root handle : Handle}
    (live : heap.directory.isLive root = true) (leads : store.graph.Leads root handle) :
    heap.directory.graph.Leads root handle := by
  refine leads.induction (motive := fun target => heap.directory.graph.Leads root target)
    (.refl _ root) fun holder target _ reached named => ?_
  obtain ⟨record, found⟩ := Directory.isLive_iff.mp (sound.isLive_of_leads live reached)
  rw [graph, describes holder record found] at named
  exact reached.field (Directory.mem_graph_iff.mpr ⟨record, found, named⟩)

/-- An object that every cycle is given a way to stays alive. -/
theorem Describes.isLive {store : ReferenceStore} {heap after : Heap Source}
    {moments : List (Moment Source)} (describes : store.Describes heap)
    (history : History heap moments after) {handle : Handle}
    (live : heap.directory.isLive handle = true) (reaches : store.Reaches handle moments) :
    after.directory.isLive handle = true := by
  induction history generalizing store with
  | nil _ => exact live
  | cons sound changes rest ih =>
      have describesNext := describes.next changes
      cases changes with
      | cycle retains =>
          obtain ⟨⟨root, member, rootLive, leads⟩, later⟩ := reaches
          exact ih describesNext (retains.live root member rootLive handle
            (describes.leads sound rootLive leads)) later
      | allocated fresh =>
          refine ih describesNext ?_ reaches
          rw [Heap.isLive_withNew fresh, live, Bool.or_true]
      | stored found =>
          refine ih describesNext ?_ reaches
          rw [Heap.isLive_withField, live]

/-- Only stores change the fields of an object, and they keep their number. -/
theorem length_replay {store : ReferenceStore} {moments : List (Moment Source)} {handle : Handle}
    {fields : List (Option Handle)} (known : store handle = some fields)
    (once : ∀ count, Moment.allocated handle count ∉ moments) :
    ∃ last, store.replay moments handle = some last ∧ last.length = fields.length := by
  unfold ReferenceStore.replay
  induction moments generalizing store fields with
  | nil => exact ⟨fields, known, rfl⟩
  | cons moment rest ih =>
      have later : ∀ count, Moment.allocated handle count ∉ rest :=
        fun count member => once count (List.mem_cons_of_mem moment member)
      have step : ∃ changed, store.next moment handle = some changed ∧
          changed.length = fields.length := by
        cases moment with
        | cycle before roots after => exact ⟨fields, known, rfl⟩
        | allocated other count =>
            have different : handle ≠ other := by
              intro equal
              subst equal
              exact once count List.mem_cons_self
            exact ⟨fields, (if_neg different).trans known, rfl⟩
        | stored holder index value =>
            by_cases same : handle = holder
            · subst same
              refine ⟨fields.set index value, ?_, List.length_set⟩
              simp [ReferenceStore.next, known]
            · exact ⟨fields, (if_neg same).trans known, rfl⟩
      obtain ⟨changed, changedKnown, length⟩ := step
      obtain ⟨last, lastKnown, lastLength⟩ := ih changedKnown later
      exact ⟨last, lastKnown, lastLength.trans length⟩

theorem replay_append (store : ReferenceStore) (moments later : List (Moment Source)) :
    store.replay (moments ++ later) = (store.replay moments).replay later :=
  List.foldl_append

theorem replay_allocated (store : ReferenceStore) (moments : List (Moment Source))
    (handle : Handle) (fieldCount : Nat) :
    store.replay (moments ++ [.allocated handle fieldCount]) handle =
      some (List.replicate fieldCount none) := by
  rw [replay_append]
  exact if_pos rfl

/-- At the start of every cycle the object is a live root, or a live root names it. -/
def reachesDirectly (handle : Handle) : ReferenceStore → List (Moment Source) → Bool
  | _, [] => true
  | store, .cycle before roots _ :: rest =>
    (roots.any fun root => before.directory.isLive root &&
        (root = handle || some handle ∈ store.graph root)) &&
      reachesDirectly handle store rest
  | store, moment :: rest => reachesDirectly handle (store.next moment) rest

theorem reaches_of_reachesDirectly {store : ReferenceStore} {handle : Handle}
    {moments : List (Moment Source)} (direct : store.reachesDirectly handle moments = true) :
    store.Reaches handle moments := by
  induction moments generalizing store with
  | nil => trivial
  | cons moment rest ih =>
      cases moment with
      | cycle before roots after =>
          simp only [reachesDirectly, Bool.and_eq_true, List.any_eq_true] at direct
          obtain ⟨⟨root, member, live, leads⟩, later⟩ := direct
          refine ⟨⟨root, member, live, ?_⟩, ih later⟩
          simp only [Bool.or_eq_true, decide_eq_true_eq] at leads
          rcases leads with rfl | named
          · exact .refl _ root
          · exact (Graph.Leads.refl _ root).field named
      | allocated other count => exact ih direct
      | stored holder index value => exact ih direct

end ReferenceStore

namespace History

variable {Source : Type} {heap placed after : Heap Source} {moments since : List (Moment Source)}
  {handle : Handle} {fieldCount : Nat}

theorem isLive_allocated
    (history : History heap (moments ++ [.allocated handle fieldCount]) after) :
    after.directory.isLive handle = true := by
  obtain ⟨middle, _, last⟩ := history.split
  cases last with
  | cons _ changes rest =>
      cases rest with
      | nil _ =>
          cases changes with
          | allocated fresh =>
              rw [Heap.isLive_withNew fresh]
              simp

/-- A new object to which the store leads from a live root of every later cycle has a record
with the fields that the store says. -/
theorem allocated_persists
    (opening : History heap (moments ++ [.allocated handle fieldCount]) placed)
    (history : History placed since after)
    (rare : reclaimCount handle.slot since < UInt32.size)
    (reaches : ((ReferenceStore.ofHeap heap).replay
      (moments ++ [.allocated handle fieldCount])).Reaches handle since) :
    ∃ record, after.directory.get? handle = some record ∧
      (ReferenceStore.ofHeap heap).replay (moments ++ [.allocated handle fieldCount] ++ since)
        handle = some record.fields ∧
      record.fields.length = fieldCount := by
  have live := opening.isLive_allocated
  have describes := (ReferenceStore.describes_ofHeap heap).replay opening
  obtain ⟨record, found⟩ := Directory.isLive_iff.mp (describes.isLive history live reaches)
  have known := describes.replay history handle record found
  have born :=
    ReferenceStore.replay_allocated (ReferenceStore.ofHeap heap) moments handle fieldCount
  obtain ⟨fields, last, length⟩ :=
    ReferenceStore.length_replay born (history.not_allocated_again live rare)
  have same : fields = record.fields := Option.some.inj (last.symm.trans known)
  subst same
  rw [List.length_replicate] at length
  rw [ReferenceStore.replay_append]
  exact ⟨record, found, known, length⟩

end History

namespace Collector

variable {Source Policy Hearer : Type}

theorem load_of_get? {collector : Collector Source Policy Hearer} {handle : Handle}
    {record : Record} (found : collector.heap.directory.get? handle = some record) :
    (∀ index value, record.fields[index]? = some value →
        collector.load handle index = .ok value) ∧
      ∀ index, record.fields.length ≤ index →
        collector.load handle index =
          .error (.fieldOutOfBounds handle index record.fields.length) := by
  refine ⟨fun index value named => ?_, fun index outside => ?_⟩
  · simp [load, Heap.load, found, named]
  · simp [load, Heap.load, found, List.getElem?_eq_none outside]

variable [MemorySource Source] [PromotionPolicy Policy] [Listener Hearer]
variable {Roots : Type} [RootProvider Roots]

/-- An object to which the reference store leads from a live root of every cycle since its
allocation reads as the reference store says, whatever the collector did meanwhile, and its
handle is not handed out again. The cycles of a run are those that its record tells. -/
theorem reachable_object_persists {heap : Heap Source} (attainable : heap.Attainable)
    {policy : Policy} {hearer : Hearer} {earlier placed after : Collector Source Policy Hearer}
    {before operations : List (Operation Roots)} {roots : Roots} {size fieldCount : Nat}
    {handle : Handle}
    (began : (ofHeap heap policy hearer).performAll before = .ok earlier)
    (allocated : earlier.allocate roots size fieldCount = .ok (.ok handle, placed))
    (ran : placed.performAll operations = .ok after) :
    ∃ past placing since : List (Moment Source),
      (ofHeap heap policy hearer).performAllRecorded before = .ok (earlier, past) ∧
      earlier.allocateRecorded roots size fieldCount = .ok (.ok handle, placed, placing) ∧
      placed.performAllRecorded operations = .ok (after, since) ∧
      (reclaimCount handle.slot since < UInt32.size →
        ¬ placed.HandsOut operations handle ∧
          (((ReferenceStore.ofHeap heap).replay (past ++ placing)).Reaches handle since →
            after.heap.directory.isLive handle = true ∧
              ∃ fields,
                (ReferenceStore.ofHeap heap).replay (past ++ placing ++ since) handle =
                  some fields ∧
                fields.length = fieldCount ∧
                (∀ index value, fields[index]? = some value →
                  after.load handle index = .ok value) ∧
                ∀ index, fieldCount ≤ index →
                  after.load handle index =
                    .error (.fieldOutOfBounds handle index fieldCount))) := by
  obtain ⟨past, began⟩ := performAll_eq_ok_iff.mp began
  obtain ⟨placing, allocated⟩ := allocate_eq_ok_iff.mp allocated
  obtain ⟨since, ran⟩ := performAll_eq_ok_iff.mp ran
  refine ⟨past, placing, since, began, allocated, ran, fun rare => ?_⟩
  have opening := history_of_performAll attainable.sound began
  have placement := history_of_allocation opening.sound_last (allocation_of_allocate allocated)
  have history := history_of_performAll placement.sound_last ran
  obtain ⟨cycles, _, places⟩ := records_of_allocation (allocation_of_allocate allocated)
  subst places
  refine ⟨fun handsOut => ?_, fun reaches => ?_⟩
  · obtain ⟨count, again⟩ := handsOut.recorded ran
    exact history.not_allocated_again placement.isLive_allocated rare count again
  · have whole := opening.append placement
    rw [← List.append_assoc] at whole reaches ⊢
    obtain ⟨record, found, known, length⟩ := whole.allocated_persists history rare reaches
    obtain ⟨inside, outside⟩ := load_of_get? found
    rw [length] at outside
    exact ⟨Directory.isLive_iff.mpr ⟨record, found⟩, record.fields, known, length, inside,
      outside⟩

/-- The first object is made to name the second, and only the first stays a root. -/
def linkingOperations : List (Operation (List Handle)) :=
  [.store Heap.firstHandle 0 (some Heap.secondHandle), .collect .minor [Heap.firstHandle],
    .allocate [Heap.firstHandle] 240 1, .request .major, .allocate [Heap.firstHandle] 64 0,
    .runPending [Heap.firstHandle]]

/-- Whether a run on a new heap keeps the second object. -/
def keepsSecond (heap : Heap WindowedMemory) : Bool :=
  match (ofHeap heap FixedPromotion.mk ()).performAllRecorded
    [.allocate ([] : List Handle) 16 1] with
  | .ok (earlier, past) =>
    match earlier.allocateRecorded [Heap.firstHandle] 8 2 with
    | .ok (.ok handle, placed, placing) =>
      match placed.performAllRecorded linkingOperations with
      | .ok (_, since) =>
        handle = Heap.secondHandle && decide (reclaimCount handle.slot since < UInt32.size) &&
          ((ReferenceStore.ofHeap heap).replay (past ++ placing)).reachesDirectly handle since
      | .error _ => false
    | _ => false
  | .error _ => false

theorem linked_object_persists :
    ∃ (heap : Heap WindowedMemory)
      (earlier placed after : Collector WindowedMemory FixedPromotion Unit)
      (past placing since : List (Moment WindowedMemory)),
      heap.Attainable ∧
        (ofHeap heap FixedPromotion.mk ()).performAll
          [Operation.allocate ([] : List Handle) 16 1] = .ok earlier ∧
        earlier.allocate [Heap.firstHandle] 8 2 = .ok (.ok Heap.secondHandle, placed) ∧
        placed.performAll linkingOperations = .ok after ∧
        (ofHeap heap FixedPromotion.mk ()).performAllRecorded
          [.allocate ([] : List Handle) 16 1] = .ok (earlier, past) ∧
        earlier.allocateRecorded [Heap.firstHandle] 8 2 =
          .ok (.ok Heap.secondHandle, placed, placing) ∧
        placed.performAllRecorded linkingOperations = .ok (after, since) ∧
        reclaimCount Heap.secondHandle.slot since < UInt32.size ∧
        ((ReferenceStore.ofHeap heap).replay (past ++ placing)).Reaches Heap.secondHandle since ∧
        ¬ placed.HandsOut linkingOperations Heap.secondHandle ∧
        after.heap.directory.isLive Heap.secondHandle = true ∧
        after.load Heap.secondHandle 2 =
          .error (.fieldOutOfBounds Heap.secondHandle 2 2) := by
  obtain ⟨heap, attainable, keeps⟩ := Heap.attainable_of_leadsTo
    (show Heap.leadsTo Heap.smallSettings (WindowedMemory.fresh none) [] keepsSecond = true
      by decide +kernel)
  unfold keepsSecond at keeps
  split at keeps
  · rename_i earlier past began
    split at keeps
    · rename_i handle placed placing allocated
      split at keeps
      · rename_i after since ran
        simp only [Bool.and_eq_true, decide_eq_true_eq] at keeps
        obtain ⟨⟨rfl, rare⟩, direct⟩ := keeps
        have reaches := ReferenceStore.reaches_of_reachesDirectly direct
        have begins := performAll_eq_ok_iff.mpr ⟨past, began⟩
        have allocates := allocate_eq_ok_iff.mpr ⟨placing, allocated⟩
        have runs := performAll_eq_ok_iff.mpr ⟨since, ran⟩
        obtain ⟨_, _, _, pastTold, placingTold, sinceTold, persists⟩ :=
          reachable_object_persists attainable begins allocates runs
        cases began.symm.trans pastTold
        cases allocated.symm.trans placingTold
        cases ran.symm.trans sinceTold
        obtain ⟨once, persists⟩ := persists rare
        obtain ⟨live, _, _, _, _, outside⟩ := persists reaches
        exact ⟨heap, earlier, placed, after, past, placing, since, attainable, begins, allocates,
          runs, began, allocated, ran, rare, reaches, once, live, outside 2 (Nat.le_refl 2)⟩
      · simp at keeps
    · simp at keeps
  · simp at keeps

end Collector

end Tenure
