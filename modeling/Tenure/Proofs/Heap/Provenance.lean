import Tenure.Proofs.Heap.Reclamation

/-!
# Which objects fields name

Slots are used again, and epochs are words that wrap, so in a long run one handle can
name many objects. Beside the heap we therefore number the objects in the order of their
allocation and write down which object was stored in which field. Since no field of a
live object dangles, reachable or not, no handle in a field is given away again: it still
names the object that was stored.
-/

set_option autoImplicit false

namespace Tenure

/-- What a run has allocated and stored, by the numbers of the objects. -/
structure Provenance where
  count : Nat
  /-- The number of the last object that was given the handle. -/
  number : Handle → Nat
  /-- The object stored last in a field of an object, unless it was null. -/
  stored : (holder index : Nat) → Option Nat

namespace Provenance

def initial : Provenance :=
  { count := 0, number := fun _ => 0, stored := fun _ _ => none }

def withNew (provenance : Provenance) (handle : Handle) : Provenance :=
  { provenance with
    count := provenance.count + 1
    number := fun other => if other = handle then provenance.count else provenance.number other }

def withField (provenance : Provenance) (holder : Handle) (index : Nat)
    (value : Option Handle) : Provenance :=
  { provenance with
    stored := fun other field =>
      if other = provenance.number holder ∧ field = index then value.map provenance.number
      else provenance.stored other field }

/-- The live objects have numbers of their own, and their fields name the objects that
were stored there. -/
structure Describes {Source : Type} (provenance : Provenance) (heap : Heap Source) : Prop where
  numbered : ∀ handle, heap.directory.isLive handle = true →
    provenance.number handle < provenance.count
  distinct : ∀ handle other, heap.directory.isLive handle = true →
    heap.directory.isLive other = true →
    provenance.number handle = provenance.number other → handle = other
  unborn : ∀ holder index, provenance.count ≤ holder → provenance.stored holder index = none
  fields : ∀ holder record index value, heap.directory.get? holder = some record →
    record.fields[index]? = some value →
    value.map provenance.number = provenance.stored (provenance.number holder) index

end Provenance

namespace Heap

variable {Source : Type}

/-- Performs an operation and notes what it allocated or stored. -/
def performNoted [MemorySource Source] (heap : Heap Source) (provenance : Provenance) :
    Operation → Checked (Heap Source × Provenance)
  | .allocate size fieldCount => do
    let (placed, heap) ← heap.tryAllocate size fieldCount
    match placed with
    | some handle => return (heap, provenance.withNew handle)
    | none => return (heap, provenance)
  | .store holder index value => do
    let (answer, heap) ← heap.store holder index value
    match answer with
    | .ok () => return (heap, provenance.withField holder index value)
    | .error _ => return (heap, provenance)
  | operation => do
    let heap ← heap.perform operation
    return (heap, provenance)

def performAllNoted [MemorySource Source] (heap : Heap Source) (provenance : Provenance)
    (operations : List Operation) : Checked (Heap Source × Provenance) :=
  operations.foldlM (fun (heap, provenance) => heap.performNoted provenance) (heap, provenance)

end Heap

namespace Provenance

variable {Source : Type} {heap after : Heap Source} {provenance : Provenance}

theorem describes_of_create [MemorySource Source] {settings : Settings} {memory : Source}
    (ran : (Heap.create settings memory).run = .ok (.ok heap)) : initial.Describes heap := by
  obtain ⟨_, directory, _, _⟩ := Heap.create_eq_ok ran
  refine ⟨fun handle live => ?_, fun handle other live => ?_, fun _ _ _ => rfl,
    fun holder record index value found => ?_⟩
  · simp [Directory.isLive, directory] at live
  · simp [Directory.isLive, directory] at live
  · simp [directory] at found

/-! ## Steps -/

/-- An object that lives after an allocation is the new one or an earlier one. -/
theorem Describes.number_withNew (describes : provenance.Describes heap) {handle other : Handle}
    {size fieldCount : Nat} (fresh : heap.directory.fresh? = some handle)
    (live : (heap.withNew handle size fieldCount).directory.isLive other = true) :
    (other = handle ∧ (provenance.withNew handle).number other = provenance.count) ∨
      (other ≠ handle ∧ heap.directory.isLive other = true ∧
        (provenance.withNew handle).number other = provenance.number other ∧
        provenance.number other < provenance.count) := by
  by_cases same : other = handle
  · exact .inl ⟨same, if_pos same⟩
  · rw [Heap.isLive_withNew fresh, decide_eq_false same, Bool.false_or] at live
    exact .inr ⟨same, live, if_neg same, describes.numbered other live⟩

theorem Describes.withNew (describes : provenance.Describes heap) (sound : heap.Sound)
    {handle : Handle} (fresh : heap.directory.fresh? = some handle) (size fieldCount : Nat) :
    (provenance.withNew handle).Describes (heap.withNew handle size fieldCount) where
  numbered := by
    intro other live
    change (provenance.withNew handle).number other < provenance.count + 1
    rcases describes.number_withNew fresh live with ⟨_, newest⟩ | ⟨_, _, older, below⟩
    · omega
    · omega
  distinct := by
    intro left right leftLive rightLive same
    rcases describes.number_withNew fresh leftLive with
      ⟨rfl, newest⟩ | ⟨_, leftLive, older, below⟩
    · rcases describes.number_withNew fresh rightLive with
        ⟨rfl, _⟩ | ⟨_, _, rightOlder, rightBelow⟩
      · rfl
      · omega
    · rcases describes.number_withNew fresh rightLive with
        ⟨rfl, newest⟩ | ⟨_, rightLive, rightOlder, _⟩
      · omega
      · rw [older, rightOlder] at same
        exact describes.distinct left right leftLive rightLive same
  unborn := fun holder index beyond => describes.unborn holder index (Nat.le_of_succ_le beyond)
  fields := by
    intro holder record index value found field
    have live := Directory.isLive_iff.mpr ⟨record, found⟩
    rw [Heap.get?_withNew fresh] at found
    change value.map (provenance.withNew handle).number =
      provenance.stored ((provenance.withNew handle).number holder) index
    rcases describes.number_withNew fresh live with ⟨same, newest⟩ | ⟨different, _, older, _⟩
    · rw [if_pos same] at found
      cases found
      have null : value = none := by
        obtain ⟨_, rfl⟩ := List.getElem?_eq_some_iff.mp field
        simp [Heap.newRecord]
      rw [null, newest]
      exact (describes.unborn provenance.count index (Nat.le_refl _)).symm
    · rw [if_neg different] at found
      rw [older, ← describes.fields holder record index value found field]
      cases value with
      | none => rfl
      | some target =>
          -- No field dangles, so the handle of the new object was in none of them.
          have named : some target ∈ heap.directory.graph holder :=
            Directory.mem_graph_iff.mpr ⟨record, found, List.mem_of_getElem? field⟩
          have old : target ≠ handle := by
            rintro rfl
            have alive := sound.closed holder target named
            simp [Directory.isLive, sound.consistent.directory.get?_fresh fresh] at alive
          exact congrArg some (if_neg old)

theorem Describes.withField (describes : provenance.Describes heap) {holder : Handle}
    {record : Record} (holderFound : heap.directory.get? holder = some record) (index : Nat)
    (value : Option Handle) (cards : CardTable) (barrier : BarrierCounts) :
    (provenance.withField holder index value).Describes
      (heap.withField holder index value cards barrier) := by
  have holderLive : heap.directory.isLive holder = true :=
    Directory.isLive_iff.mpr ⟨record, holderFound⟩
  refine
    { numbered := fun handle alive => ?_
      distinct := fun left right leftLive rightLive same => ?_
      unborn := fun number field beyond => ?_
      fields := fun other current field content found named => ?_ }
  · rw [Heap.isLive_withField] at alive
    exact describes.numbered handle alive
  · rw [Heap.isLive_withField] at leftLive rightLive
    exact describes.distinct left right leftLive rightLive same
  · have born := describes.numbered holder holderLive
    have beyond : provenance.count ≤ number := beyond
    refine (if_neg fun both => ?_).trans (describes.unborn number field beyond)
    omega
  · change content.map provenance.number =
      if provenance.number other = provenance.number holder ∧ field = index then
        value.map provenance.number
      else provenance.stored (provenance.number other) field
    rw [Heap.get?_withField, holderFound] at found
    split at found
    · rename_i equal
      subst equal
      cases found
      simp only [true_and]
      by_cases here : field = index
      · subst here
        rw [if_pos rfl]
        obtain ⟨inside, rfl⟩ := List.getElem?_eq_some_iff.mp named
        simp
      · rw [if_neg here]
        rw [List.getElem?_set_ne (Ne.symm here)] at named
        exact describes.fields other record field content holderFound named
    · rename_i different
      have otherLive : heap.directory.isLive other = true :=
        Directory.isLive_iff.mpr ⟨current, found⟩
      rw [if_neg fun both =>
        different (describes.distinct other holder otherLive holderLive both.1)]
      exact describes.fields other current field content found named

/-- Cycles reclaim objects and leave the fields of the others as they are. -/
theorem Describes.of_retains (describes : provenance.Describes heap) {roots : List Handle}
    (retains : heap.Retains roots after) : provenance.Describes after := by
  have live : ∀ handle, after.directory.isLive handle = true →
      heap.directory.isLive handle = true := by
    intro handle alive
    obtain ⟨record, found⟩ := Directory.isLive_iff.mp alive
    obtain ⟨before, beforeFound, _⟩ := retains.fields handle record found
    exact Directory.isLive_iff.mpr ⟨before, beforeFound⟩
  refine ⟨fun handle alive => describes.numbered handle (live handle alive),
    fun left right leftLive rightLive => describes.distinct left right (live left leftLive)
      (live right rightLive), describes.unborn, fun holder record index value found field => ?_⟩
  obtain ⟨before, beforeFound, same⟩ := retains.fields holder record found
  exact describes.fields holder before index value beforeFound (same ▸ field)

theorem Describes.of_directory (describes : provenance.Describes heap)
    (same : after.directory = heap.directory) : provenance.Describes after := by
  obtain ⟨numbered, distinct, unborn, fields⟩ := describes
  rw [← same] at numbered distinct fields
  exact ⟨numbered, distinct, unborn, fields⟩

/-! ## Runs -/

variable [MemorySource Source]

theorem Describes.perform (describes : provenance.Describes heap) (sound : heap.Sound)
    {operation : Heap.Operation} (ran : heap.perform operation = .ok after) :
    ∃ next, heap.performNoted provenance operation = .ok (after, next) ∧
      Describes next after := by
  cases Heap.perform_eq_ok ran with
  | @allocate size fieldCount placed after allocated =>
      simp only [Heap.performNoted, allocated]
      rcases Heap.tryAllocate_eq_ok allocated with
        ⟨rfl, rfl⟩ | ⟨handle, room, rfl, fresh, _, _, rfl⟩
      · exact ⟨provenance, rfl, describes⟩
      · exact ⟨_, rfl, describes.withNew sound fresh room fieldCount⟩
  | @store holder index value answer after stored =>
      simp only [Heap.performNoted, stored]
      rcases Heap.store_eq_ok stored with
        ⟨failure, rfl, rfl⟩ | ⟨_, record, _, cards, barrier, rfl, checked, _, rfl⟩
      · exact ⟨provenance, rfl, describes⟩
      · obtain ⟨_, found, _⟩ := Heap.checkStore_eq_ok checked
        exact ⟨_, rfl, describes.withField found index value cards barrier⟩
  | minorCycle cycled =>
      simp only [Heap.performNoted, ran]
      exact ⟨provenance, rfl, describes.of_retains (sound.retains_of_minorCycle cycled)⟩
  | majorCycle cycled =>
      simp only [Heap.performNoted, ran]
      exact ⟨provenance, rfl, describes.of_retains (sound.retains_of_majorCycle cycled)⟩
  | setThreshold threshold =>
      simp only [Heap.performNoted, ran]
      exact ⟨provenance, rfl, describes.of_directory (heap.directory_setThreshold threshold)⟩

/-- Notes can be taken of every run, and they describe the heap that it leads to. -/
theorem Describes.performAll {operations : List Heap.Operation}
    (describes : provenance.Describes heap) (sound : heap.Sound)
    (ran : heap.performAll operations = .ok after) :
    ∃ final, heap.performAllNoted provenance operations = .ok (after, final) ∧
      Describes final after := by
  induction operations generalizing heap provenance with
  | nil =>
      cases ran
      exact ⟨provenance, rfl, describes⟩
  | cons operation rest ih =>
      obtain ⟨middle, stepped, ran⟩ := Heap.performAll_cons_eq_ok.mp ran
      obtain ⟨next, noted, describesNext⟩ := describes.perform sound stepped
      obtain ⟨final, notedAll, describesFinal⟩ := ih describesNext (sound.perform stepped) ran
      refine ⟨final, ?_, describesFinal⟩
      rw [Heap.performAllNoted, List.foldlM_cons, Checked.bind_eq_ok_iff]
      exact ⟨(middle, next), noted, notedAll⟩

end Provenance

namespace Heap

variable {Source : Type} [MemorySource Source]

/-- However a run goes on, every field of every live object names a live object or none,
and this is the object that was stored there. -/
theorem fields_name_stored_objects {settings : Settings} {memory : Source}
    {initial heap : Heap Source} {operations : List Operation}
    (created : (create settings memory).run = .ok (.ok initial))
    (performed : initial.performAll operations = .ok heap) :
    (∀ holder record target, heap.directory.get? holder = some record →
      some target ∈ record.fields → heap.directory.isLive target = true) ∧
      ∃ provenance, initial.performAllNoted .initial operations = .ok (heap, provenance) ∧
        provenance.Describes heap := by
  have sound := sound_of_create created
  refine ⟨fun holder record target found field => ?_,
    (Provenance.describes_of_create created).performAll sound performed⟩
  exact (sound.performAll performed).closed holder target
    (Directory.mem_graph_iff.mpr ⟨record, found, field⟩)

/-- Without any root, an old object keeps the young one that was stored in its field. -/
theorem fields_name_stored_objects_without_roots :
    ∃ (initial heap : Heap WindowedMemory) (provenance : Provenance),
      initial.performAllNoted .initial
          (promotingOperations ++ [.minorCycle .fresh [], .allocate 8 0]) =
        .ok (heap, provenance) ∧
      heap.directory.isLive secondHandle = true ∧
      provenance.stored (provenance.number firstHandle) 0 =
        some (provenance.number secondHandle) := by
  obtain ⟨initial, heap, created, performed, facts⟩ := runs_of_leadsTo
    (show leadsTo smallSettings (WindowedMemory.fresh none)
      (promotingOperations ++ [.minorCycle .fresh [], .allocate 8 0])
      (fun heap => (heap.directory.get? firstHandle).any fun record =>
        decide (record.fields = [some secondHandle])) = true by decide +kernel)
  rw [Option.any_eq_true] at facts
  obtain ⟨record, found, fields⟩ := facts
  have fields := of_decide_eq_true fields
  obtain ⟨live, provenance, noted, describes⟩ := fields_name_stored_objects created performed
  refine ⟨initial, heap, provenance, noted, live firstHandle record secondHandle found ?_, ?_⟩
  · simp [fields]
  · exact (describes.fields firstHandle record 0 (some secondHandle) found (by simp [fields])).symm

end Heap

end Tenure
