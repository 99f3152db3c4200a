import Tenure.Heap.Access
import Tenure.Proofs.Heap.Sound

/-!
# Allocation and stores keep heaps sound

No field names the handle of a new object, so an allocation adds no reference. A
store adds one, to a live object; where it leads from an old object to a young one
the barrier has marked the card of the old object.
-/

set_option autoImplicit false

namespace Tenure.Heap

variable {Source : Type}

/-! ## Allocation -/

def newRecord (heap : Heap Source) (size fieldCount : Nat) : Record :=
  { generation := .eden
    age := 0
    space := .eden
    address := heap.eden.base + heap.eden.used
    size
    fields := List.replicate fieldCount none }

def withNew (heap : Heap Source) (handle : Handle) (size fieldCount : Nat) : Heap Source :=
  { heap with
    directory := heap.directory.insert (heap.newRecord size fieldCount)
    eden := heap.eden.push handle size }

/-- An allocation places an object of the aligned size in eden or changes nothing. -/
theorem tryAllocate_eq_ok {heap after : Heap Source} {size fieldCount : Nat}
    {placed : Option Handle} (ran : heap.tryAllocate size fieldCount = .ok (placed, after)) :
    (placed = none ∧ after = heap) ∨
      ∃ handle room, placed = some handle ∧ heap.directory.fresh? = some handle ∧
        alignSize size = .ok room ∧ heap.eden.used + room ≤ heap.eden.capacity ∧
        after = heap.withNew handle room fieldCount := by
  unfold tryAllocate at ran
  rw [Checked.bind_eq_ok_iff] at ran
  obtain ⟨answer, room_eq, ran⟩ := ran
  cases answer with
  | none =>
      simp only [Checked.pure_eq_ok_iff, Prod.mk.injEq] at ran
      exact .inl ⟨ran.1.symm, ran.2.symm⟩
  | some room =>
      obtain ⟨aligned, fits⟩ := Arena.room?_eq_some room_eq
      simp only [nullFields, Checked.bind_eq_ok_iff, Checked.pure_eq_ok_iff] at ran
      obtain ⟨fields, ⟨_, _, rfl⟩, ran⟩ := ran
      cases fresh : heap.directory.fresh? with
      | none =>
          simp only [fresh, Checked.pure_eq_ok_iff, Prod.mk.injEq] at ran
          exact .inl ⟨ran.1.symm, ran.2.symm⟩
      | some handle =>
          simp only [fresh] at ran
          rw [Checked.bind_eq_ok_iff] at ran
          obtain ⟨answer, placed, ran⟩ := ran
          obtain rfl := Arena.placement?_of_room? room_eq placed
          simp only [Checked.pure_eq_ok_iff, Prod.mk.injEq] at ran
          obtain ⟨rfl, rfl⟩ := ran
          exact .inr ⟨handle, room, rfl, rfl, aligned, fits, rfl⟩

/-- An allocation that places nothing lacks room in eden or a slot. -/
theorem tryAllocate_eq_none {heap after : Heap Source} {size fieldCount : Nat}
    (ran : heap.tryAllocate size fieldCount = .ok (none, after)) :
    (∃ room, alignSize size = .ok room ∧ heap.eden.capacity < heap.eden.used + room) ∨
      heap.directory.fresh? = none := by
  unfold tryAllocate at ran
  rw [Checked.bind_eq_ok_iff] at ran
  obtain ⟨answer, asked, ran⟩ := ran
  cases answer with
  | none => exact .inl (Arena.room?_eq_none asked)
  | some room =>
      cases fresh : heap.directory.fresh? with
      | none => exact .inr rfl
      | some handle =>
          simp only [fresh, Checked.bind_eq_ok_iff] at ran
          obtain ⟨_, _, answer, placed, ran⟩ := ran
          obtain rfl := Arena.placement?_of_room? asked placed
          cases ran

theorem get?_withNew {heap : Heap Source} {handle : Handle}
    (fresh : heap.directory.fresh? = some handle) (size fieldCount : Nat) (other : Handle) :
    (heap.withNew handle size fieldCount).directory.get? other =
      if other = handle then some (heap.newRecord size fieldCount)
      else heap.directory.get? other :=
  Directory.get?_insert _ fresh other

theorem isLive_withNew {heap : Heap Source} {handle : Handle}
    (fresh : heap.directory.fresh? = some handle) (size fieldCount : Nat) (other : Handle) :
    (heap.withNew handle size fieldCount).directory.isLive other =
      (decide (other = handle) || heap.directory.isLive other) := by
  rw [Directory.isLive, get?_withNew fresh]
  by_cases same : other = handle
  · simp [same]
  · simp [same, Directory.isLive]

theorem graph_withNew {heap : Heap Source} (consistent : heap.Consistent) {handle : Handle}
    (fresh : heap.directory.fresh? = some handle) (size fieldCount : Nat) (holder : Handle)
    (target : Handle) :
    some target ∈ (heap.withNew handle size fieldCount).directory.graph holder ↔
      some target ∈ heap.directory.graph holder := by
  rw [Directory.mem_graph_iff, Directory.mem_graph_iff, get?_withNew fresh]
  by_cases same : holder = handle
  · subst same
    rw [if_pos rfl, consistent.directory.get?_fresh fresh]
    simp [newRecord]
  · rw [if_neg same]

theorem Consistent.withNew {heap : Heap Source} (consistent : heap.Consistent) {handle : Handle}
    {size : Nat} (fresh : heap.directory.fresh? = some handle) (whole : WholeGranules size)
    (fits : heap.eden.used + size ≤ heap.eden.capacity) (fieldCount : Nat) :
    (heap.withNew handle size fieldCount).Consistent := by
  have unused := consistent.directory.get?_fresh fresh
  have lookup := get?_withNew fresh size fieldCount
  have here := (lookup handle).trans (if_pos rfl)
  have others : ∀ other, other ≠ handle →
      (heap.withNew handle size fieldCount).directory.get? other =
        heap.directory.get? other := fun other different => (lookup other).trans (if_neg different)
  have outside : ∀ space, handle ∉ (heap.arena space).handles := by
    intro space member
    obtain ⟨record, found, _⟩ := (consistent.fills space).mem_handles_iff.mp member
    simp [unused] at found
  have elsewhere : ∀ space, space ≠ .eden →
      (heap.withNew handle size fieldCount).directory.Fills space (heap.arena space) := by
    intro space different
    refine (consistent.fills space).of_change (outside space) others fun record found => ?_
    rw [here, Option.some.injEq] at found
    subst found
    exact different.symm
  refine ⟨consistent.directory.insert fresh _, fun space => ?_, fun other record found => ?_,
    consistent.cards⟩
  · cases space with
    | eden =>
        exact Directory.Fills.push (consistent.fills .eden) whole fits (outside .eden) here rfl
          others
    | survivor side => cases side <;> exact elsewhere (.survivor _) (by simp)
    | old => exact elsewhere .old (by simp)
  · by_cases same : other = handle
    · rw [same, here, Option.some.injEq] at found
      subst found
      rfl
    · rw [others other same] at found
      exact consistent.generation other record found

theorem Sound.withNew {heap : Heap Source} (sound : heap.Sound) {handle : Handle} {size : Nat}
    (fresh : heap.directory.fresh? = some handle) (whole : WholeGranules size)
    (fits : heap.eden.used + size ≤ heap.eden.capacity) (fieldCount : Nat) :
    (heap.withNew handle size fieldCount).Sound := by
  have unused := sound.consistent.directory.get?_fresh fresh
  have lookup := get?_withNew fresh size fieldCount
  have graph := graph_withNew sound.consistent fresh size fieldCount
  have live : ∀ target, heap.directory.isLive target = true → target ≠ handle := by
    rintro target live rfl
    simp [Directory.isLive, unused] at live
  refine ⟨sound.consistent.withNew fresh whole fits fieldCount, fun holder target field => ?_,
    fun holder record found old references => ?_⟩
  · have targetLive := sound.closed holder target ((graph holder target).mp field)
    rw [Directory.isLive, lookup, if_neg (live target targetLive)]
    exact targetLive
  · by_cases same : holder = handle
    · rw [same, lookup, if_pos rfl, Option.some.injEq] at found
      subst found
      simp [newRecord] at old
    · rw [lookup, if_neg same] at found
      refine sound.remembered holder record found old ?_
      obtain ⟨target, field, young⟩ := Directory.referencesYoung_iff.mp references
      have field := (graph holder target).mp field
      refine Directory.referencesYoung_iff.mpr ⟨target, field, ?_⟩
      have different := live target (sound.closed holder target field)
      rwa [Directory.isYoung, Directory.generation?, lookup, if_neg different] at young

theorem Sound.tryAllocate {heap after : Heap Source} (sound : heap.Sound) {size fieldCount : Nat}
    {placed : Option Handle} (ran : heap.tryAllocate size fieldCount = .ok (placed, after)) :
    after.Sound := by
  rcases tryAllocate_eq_ok ran with ⟨_, rfl⟩ | ⟨handle, room, _, fresh, aligned, fits, rfl⟩
  · exact sound
  · exact sound.withNew fresh (wholeGranules_of_alignSize aligned) fits fieldCount

/-! ## Stores -/

theorem onStore_eq_ok {table cards : CardTable} {counts barrier : BarrierCounts}
    {holder : Generation} {address : Nat} {value : Option Generation} {dirtied : Bool}
    (ran : table.onStore counts holder address value = .ok (dirtied, cards, barrier)) :
    (createsOldToYoung holder value = true ∧ table.mark address = .ok (dirtied, cards)) ∨
      (createsOldToYoung holder value = false ∧ dirtied = false ∧ cards = table) := by
  unfold CardTable.onStore at ran
  split at ran
  · rename_i creates
    simp only [Checked.bind_eq_ok_iff] at ran
    obtain ⟨⟨marked, marks⟩, ran_mark, ran⟩ := ran
    split at ran
    · rename_i isMarked
      simp only [Checked.pure_eq_ok_iff, Prod.mk.injEq] at ran
      obtain ⟨rfl, rfl, _⟩ := ran
      exact .inl ⟨creates, isMarked ▸ ran_mark⟩
    · rename_i unmarked
      simp only [Checked.pure_eq_ok_iff, Prod.mk.injEq] at ran
      obtain ⟨rfl, rfl, _⟩ := ran
      rw [Bool.not_eq_true] at unmarked
      exact .inl ⟨creates, unmarked ▸ ran_mark⟩
  · rename_i harmless
    simp only [Checked.pure_eq_ok_iff, Prod.mk.injEq] at ran
    obtain ⟨rfl, rfl, _⟩ := ran
    exact .inr ⟨by simpa using harmless, rfl, rfl⟩

theorem barrier_of_onStore {table cards : CardTable} {counts barrier : BarrierCounts}
    {holder : Generation} {address : Nat} {value : Option Generation} {dirtied : Bool}
    (ran : table.onStore counts holder address value = .ok (dirtied, cards, barrier)) :
    barrier.invocations = counts.invocations + 1 ∧
      barrier.cardsDirtied = if dirtied then counts.cardsDirtied + 1 else counts.cardsDirtied := by
  unfold CardTable.onStore at ran
  split at ran
  · rw [Checked.bind_eq_ok_iff] at ran
    obtain ⟨⟨marked, marks⟩, _, ran⟩ := ran
    cases marked with
    | true => cases ran; exact ⟨rfl, rfl⟩
    | false => cases ran; exact ⟨rfl, rfl⟩
  · cases ran
    exact ⟨rfl, rfl⟩

def withField (heap : Heap Source) (holder : Handle) (index : Nat) (value : Option Handle)
    (cards : CardTable) (barrier : BarrierCounts) : Heap Source :=
  { heap with
    cards
    barrier
    directory := heap.directory.update holder fun record =>
      { record with fields := record.fields.set index value } }

theorem checkStore_eq_ok {heap : Heap Source} {holder : Handle} {index : Nat}
    {value : Option Handle} {generation : Option Generation} {record : Record}
    (ran : heap.checkStore holder index value = .ok (generation, record)) :
    heap.valueGeneration value = .ok generation ∧ heap.directory.get? holder = some record ∧
      index < record.fields.length := by
  unfold checkStore at ran
  cases valued : heap.valueGeneration value with
  | error failure => simp [valued, bind, Except.bind] at ran
  | ok known =>
      simp only [valued, bind, Except.bind] at ran
      cases found : heap.directory.get? holder with
      | none => simp [found, throw, throwThe, MonadExceptOf.throw] at ran
      | some holderRecord =>
          simp only [found] at ran
          split at ran
          · rename_i inside
            simp only [pure, Except.pure, Except.ok.injEq, Prod.mk.injEq] at ran
            obtain ⟨rfl, rfl⟩ := ran
            exact ⟨rfl, rfl, inside⟩
          · simp [throw, throwThe, MonadExceptOf.throw] at ran

theorem valueGeneration_some_eq_ok {heap : Heap Source} {target : Handle}
    {generation : Option Generation}
    (ran : heap.valueGeneration (some target) = .ok generation) :
    generation = heap.directory.generation? target ∧ heap.directory.isLive target = true := by
  unfold valueGeneration at ran
  cases known : heap.directory.generation? target with
  | none => simp [known] at ran
  | some value =>
      simp only [known, Except.ok.injEq] at ran
      obtain ⟨record, found, _⟩ := Directory.generation?_eq_some_iff.mp known
      exact ⟨ran.symm, Directory.isLive_iff.mpr ⟨record, found⟩⟩

/-- A store that is refused changes nothing; another one has passed the barrier. -/
theorem store_eq_ok {heap after : Heap Source} {holder : Handle} {index : Nat}
    {value : Option Handle} {answer : Answer Unit}
    (ran : heap.store holder index value = .ok (answer, after)) :
    (∃ failure, answer = .error failure ∧ after = heap) ∨
      ∃ generation record dirtied cards barrier, answer = .ok () ∧
        heap.checkStore holder index value = .ok (generation, record) ∧
        heap.cards.onStore heap.barrier record.generation record.address generation =
          .ok (dirtied, cards, barrier) ∧
        after = heap.withField holder index value cards barrier := by
  unfold store at ran
  cases checked : heap.checkStore holder index value with
  | error failure =>
      simp only [checked, Checked.pure_eq_ok_iff, Prod.mk.injEq] at ran
      exact .inl ⟨failure, ran.1.symm, ran.2.symm⟩
  | ok passed =>
      obtain ⟨generation, record⟩ := passed
      simp only [checked, Checked.bind_eq_ok_iff, Checked.pure_eq_ok_iff, Prod.mk.injEq] at ran
      obtain ⟨⟨dirtied, cards, barrier⟩, passed, rfl, rfl⟩ := ran
      exact .inr ⟨generation, record, dirtied, cards, barrier, rfl, rfl, passed, rfl⟩

/-- A store of a live object into a field of another one passes. -/
theorem store_accepted {heap after : Heap Source} {holder target : Handle} {index : Nat}
    {record : Record} {answer : Answer Unit} (live : heap.directory.isLive target = true)
    (found : heap.directory.get? holder = some record) (inside : index < record.fields.length)
    (ran : heap.store holder index (some target) = .ok (answer, after)) :
    answer = .ok () ∧
      ∃ cards barrier, after = heap.withField holder index (some target) cards barrier := by
  obtain ⟨named, namedFound⟩ := Directory.isLive_iff.mp live
  have checked : heap.checkStore holder index (some target) =
      .ok (some named.generation, record) := by
    simp only [checkStore, valueGeneration, Directory.generation?, namedFound, Option.map_some,
      found, inside]
    rfl
  simp only [store, checked, Checked.bind_eq_ok_iff, Checked.pure_eq_ok_iff,
    Prod.mk.injEq] at ran
  obtain ⟨⟨_, cards, barrier⟩, _, rfl, rfl⟩ := ran
  exact ⟨rfl, cards, barrier, rfl⟩

theorem get?_withField (heap : Heap Source) (holder : Handle) (index : Nat)
    (value : Option Handle) (cards : CardTable) (barrier : BarrierCounts) (other : Handle) :
    (heap.withField holder index value cards barrier).directory.get? other =
      if other = holder then
        (heap.directory.get? holder).map fun record =>
          { record with fields := record.fields.set index value }
      else heap.directory.get? other :=
  Directory.get?_update heap.directory holder other _

@[simp] theorem isLive_withField (heap : Heap Source) (holder : Handle) (index : Nat)
    (value : Option Handle) (cards : CardTable) (barrier : BarrierCounts) (other : Handle) :
    (heap.withField holder index value cards barrier).directory.isLive other =
      heap.directory.isLive other :=
  Directory.isLive_update heap.directory holder other _

theorem isYoung_withField (heap : Heap Source) (holder : Handle) (index : Nat)
    (value : Option Handle) (cards : CardTable) (barrier : BarrierCounts) (other : Handle) :
    (heap.withField holder index value cards barrier).directory.isYoung other =
      heap.directory.isYoung other := by
  simp only [Directory.isYoung, Directory.generation?, get?_withField]
  split
  · rename_i same
    rw [same, Option.map_map]
    rfl
  · rfl

/-- A store adds at most one reference. -/
theorem graph_withField {heap : Heap Source} {holder : Handle} {index : Nat}
    {value : Option Handle} {cards : CardTable} {barrier : BarrierCounts} {source target : Handle}
    (field : some target ∈
      (heap.withField holder index value cards barrier).directory.graph source) :
    some target ∈ heap.directory.graph source ∨ (source = holder ∧ value = some target) := by
  obtain ⟨record, found, member⟩ := Directory.mem_graph_iff.mp field
  rw [get?_withField] at found
  split at found
  · rename_i same
    obtain ⟨earlier, earlierFound, rfl⟩ := Option.map_eq_some_iff.mp found
    rcases List.mem_or_eq_of_mem_set member with member | equal
    · exact .inl (Directory.mem_graph_iff.mpr ⟨earlier, same ▸ earlierFound, member⟩)
    · exact .inr ⟨same, equal.symm⟩
  · exact .inl (Directory.mem_graph_iff.mpr ⟨record, found, member⟩)

theorem Consistent.withField {heap : Heap Source} (consistent : heap.Consistent)
    {cards : CardTable} (same : heap.cards.SameCards cards) (holder : Handle) (index : Nat)
    (value : Option Handle) (barrier : BarrierCounts) :
    (heap.withField holder index value cards barrier).Consistent := by
  have lookup := get?_withField heap holder index value cards barrier
  have places : ∀ handle,
      ((heap.withField holder index value cards barrier).directory.get? handle).map Record.place =
        (heap.directory.get? handle).map Record.place := by
    intro handle
    rw [lookup]
    split
    · rename_i equal
      rw [equal, Option.map_map]
      rfl
    · rfl
  refine ⟨consistent.directory.update holder _, fun space => ?_, fun handle record found => ?_,
    same.spans consistent.cards⟩
  · have arena : (heap.withField holder index value cards barrier).arena space =
        heap.arena space := arena_congr rfl rfl rfl rfl space
    rw [arena]
    exact (consistent.fills space).of_places places
  · rw [lookup] at found
    split at found
    · obtain ⟨earlier, earlierFound, rfl⟩ := Option.map_eq_some_iff.mp found
      exact consistent.generation holder earlier earlierFound
    · exact consistent.generation handle record found

theorem Sound.store {heap after : Heap Source} (sound : heap.Sound) {holder : Handle}
    {index : Nat} {value : Option Handle} {answer : Answer Unit}
    (ran : heap.store holder index value = .ok (answer, after)) : after.Sound := by
  rcases store_eq_ok ran with
    ⟨_, _, rfl⟩ | ⟨generation, holderRecord, dirtied, cards, barrier, _, checked, passed, rfl⟩
  · exact sound
  obtain ⟨valued, holderFound, _⟩ := checkStore_eq_ok checked
  have same : heap.cards.SameCards cards := by
    rcases onStore_eq_ok passed with ⟨_, marked⟩ | ⟨_, _, rfl⟩
    · exact CardTable.sameCards_of_mark marked
    · exact .refl _
  have keeps : ∀ address, heap.cards.Remembers address → cards.Remembers address := by
    intro address remembered
    rcases onStore_eq_ok passed with ⟨_, marked⟩ | ⟨_, _, rfl⟩
    · exact remembered.of_mark marked
    · exact remembered
  refine ⟨sound.consistent.withField same holder index value barrier,
    fun source target field => ?_, fun source record found old references => ?_⟩
  · have live : heap.directory.isLive target = true := by
      rcases graph_withField field with field | ⟨_, rfl⟩
      · exact sound.closed source target field
      · exact (valueGeneration_some_eq_ok valued).2
    simpa [Heap.withField] using live
  · obtain ⟨target, field, young⟩ := Directory.referencesYoung_iff.mp references
    rw [isYoung_withField] at young
    -- The address and the generation of the holder are those before the store.
    have before : ∃ earlier, heap.directory.get? source = some earlier ∧
        earlier.address = record.address ∧ earlier.generation = record.generation := by
      rw [get?_withField] at found
      split at found
      · rename_i equal
        obtain ⟨earlier, earlierFound, rfl⟩ := Option.map_eq_some_iff.mp found
        exact ⟨earlier, equal ▸ earlierFound, rfl, rfl⟩
      · exact ⟨record, found, rfl, rfl⟩
    obtain ⟨earlier, earlierFound, address, generationSame⟩ := before
    rw [← generationSame] at old
    rw [← address]
    rcases graph_withField field with field | ⟨rfl, rfl⟩
    · exact keeps _ (sound.remembered source earlier earlierFound old
        (Directory.referencesYoung_iff.mpr ⟨target, field, young⟩))
    · rw [holderFound, Option.some.injEq] at earlierFound
      subst earlierFound
      have creates : createsOldToYoung holderRecord.generation generation = true := by
        rw [createsOldToYoung, old, (valueGeneration_some_eq_ok valued).1]
        simpa [Directory.isYoung] using young
      rcases onStore_eq_ok passed with ⟨_, marked⟩ | ⟨harmless, _, _⟩
      · exact CardTable.remembers_of_mark marked (sound.consistent.covers holderFound
          ((sound.consistent.old_iff holderFound).mp old))
      · simp [creates] at harmless

/-! ## Thresholds -/

theorem Sound.withThreshold {heap : Heap Source} (sound : heap.Sound) (threshold : Nat) :
    { heap with threshold }.Sound :=
  ⟨⟨sound.consistent.directory, sound.consistent.fills, sound.consistent.generation,
    sound.consistent.cards⟩, sound.closed, sound.remembered⟩

theorem directory_setThreshold (heap : Heap Source) (threshold : Nat) :
    (heap.setThreshold threshold).2.directory = heap.directory := by
  unfold Heap.setThreshold
  split <;> rfl

theorem eden_setThreshold (heap : Heap Source) (threshold : Nat) :
    (heap.setThreshold threshold).2.eden = heap.eden := by
  unfold Heap.setThreshold
  split <;> rfl

theorem Sound.setThreshold {heap : Heap Source} (sound : heap.Sound) (threshold : Nat) :
    (heap.setThreshold threshold).2.Sound := by
  unfold Heap.setThreshold
  split
  · exact sound.withThreshold threshold
  · exact sound

end Tenure.Heap
