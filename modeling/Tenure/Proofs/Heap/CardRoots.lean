import Mathlib.Algebra.BigOperators.Group.List.Lemmas
import Tenure.Proofs.Directory.Accounts
import Tenure.Proofs.Heap.Attainable

/-!
# Card roots

A minor cycle counts the roots that it takes from dirty cards while it walks the fields
of the holders. So an object that several fields of old objects name, of one holder or of
many, is counted once for each of them: the card roots are at least as many as the young
objects that are rooted through cards alone, and as many only where no two fields name
the same one.
-/

set_option autoImplicit false

namespace Tenure

theorem Graph.count_targets (graph : Graph) (holder target : Handle) :
    (graph.targets holder).count target = (graph holder).count (some target) := by
  rw [targets, List.count_filterMap, List.count]
  rfl

namespace Heap

variable {Source : Type} {heap after : Heap Source} {roots : List Handle}

/-- A young object that is no root, but that a field of an old object names. -/
def RootedByCards (heap : Heap Source) (roots : List Handle) (handle : Handle) : Prop :=
  heap.directory.isYoung handle = true ∧ handle ∉ roots ∧ ∃ holder record,
    heap.directory.get? holder = some record ∧ record.generation = .old ∧
      some handle ∈ record.fields

/-- The number of fields of old objects that name a handle. -/
def oldReferences (heap : Heap Source) (handle : Handle) : Nat :=
  (heap.old.handles.map fun holder => (heap.directory.graph holder).count (some handle)).sum

/-- How many card roots there are for some objects that are rooted through cards alone. -/
structure CountsCardRoots (heap : Heap Source) (roots objects : List Handle)
    (cardRoots : Nat) : Prop where
  distinct : objects.Nodup
  members : ∀ handle, handle ∈ objects ↔ heap.RootedByCards roots handle
  counted : cardRoots = (objects.map heap.oldReferences).sum
  at_least : objects.length ≤ cardRoots
  exact_iff : cardRoots = objects.length ↔ ∀ handle ∈ objects, heap.oldReferences handle = 1

/-! ## The fields of old objects -/

/-- Only holders that reference young objects have young targets. -/
theorem youngTargets_filter (heap : Heap Source) (holders : List Handle) :
    heap.youngTargets (holders.filter heap.directory.referencesYoung) =
      heap.youngTargets holders := by
  induction holders with
  | nil => rfl
  | cons holder rest ih =>
      unfold youngTargets at ih ⊢
      by_cases references : heap.directory.referencesYoung holder = true
      · rw [List.filter_cons_of_pos references, List.flatMap_cons, List.flatMap_cons, ih]
      · have none : (heap.directory.graph.targets holder).filter heap.directory.isYoung = [] := by
          rw [List.filter_eq_nil_iff]
          intro target member young
          exact references (List.any_eq_true.mpr ⟨target, member, young⟩)
        rw [List.filter_cons_of_neg references, List.flatMap_cons, ih, none, List.nil_append]

/-- The dirty cards lead to all fields of old objects that name young ones. -/
theorem Sound.perm_youngTargets (sound : heap.Sound) {found : List Handle} {cards : CardTable}
    (scanned : heap.cards.scanAll heap.cardView heap.cards.dirty = .ok (found, cards)) :
    (heap.youngTargets (HandleSet.of found).toList).Perm (heap.youngTargets heap.old.handles) := by
  have consistent := sound.consistent
  have distinct : heap.old.handles.Nodup := (consistent.fills .old).distinct
  have holders : (HandleSet.of found).toList.Perm
      (heap.old.handles.filter heap.directory.referencesYoung) := by
    refine (List.perm_ext_iff_of_nodup (HandleSet.nodup_toList _) (distinct.filter _)).mpr ?_
    intro holder
    rw [HandleSet.mem_toList_of, sound.mem_found_iff scanned, List.mem_filter,
      consistent.mem_old_handles]
  rw [← heap.youngTargets_filter heap.old.handles]
  exact holders.flatMap_right _

theorem count_youngTargets {handle : Handle} (young : heap.directory.isYoung handle = true) :
    (heap.youngTargets heap.old.handles).count handle = heap.oldReferences handle := by
  unfold youngTargets oldReferences
  rw [List.count_flatMap]
  apply congrArg List.sum
  apply List.map_congr_left
  intro holder _
  rw [Function.comp_apply, List.count_filter young, Graph.count_targets]

/-! ## The count -/

/-- A list has as many entries as members where each member is in it once. -/
theorem length_eq_dedup_iff {handles : List Handle} :
    handles.length = handles.dedup.length ↔ ∀ handle ∈ handles.dedup, handles.count handle = 1 := by
  have distinct : handles.length = handles.dedup.length ↔ handles.Nodup := by
    rw [← List.dedup_eq_self]
    constructor
    · intro same
      exact handles.dedup_sublist.eq_of_length same.symm
    · intro same
      rw [same]
  rw [distinct, List.nodup_iff_count_eq_one]
  simp only [List.mem_dedup]

/-- The targets of the holders, with repeats, that are no roots. -/
def MinorMarking.unrooted (marking : MinorMarking) (heap : Heap Source) (roots : List Handle) :
    List Handle :=
  (heap.youngTargets marking.holders).filter fun target => !(HandleSet.of roots).contains target

namespace MinorMarking.Run

variable {marking : MinorMarking}

theorem mem_unrooted (run : marking.Run heap roots) (sound : heap.Sound) {handle : Handle} :
    handle ∈ marking.unrooted heap roots ↔ heap.RootedByCards roots handle := by
  rw [MinorMarking.unrooted, List.mem_filter, HandleSet.not_contains_of, MinorMarking.holders,
    sound.mem_youngTargets_iff run.scanned]
  constructor
  · rintro ⟨⟨young, holder, old, field⟩, unrooted⟩
    obtain ⟨record, found, field⟩ := Directory.mem_graph_iff.mp field
    rw [Directory.generation?_eq_some_iff_of_get? found] at old
    exact ⟨young, unrooted, holder, record, found, old, field⟩
  · rintro ⟨young, unrooted, holder, record, found, old, field⟩
    exact ⟨⟨young, holder, Directory.generation?_eq_some_iff.mpr ⟨record, found, old⟩,
      Directory.mem_graph_iff.mpr ⟨record, found, field⟩⟩, unrooted⟩

theorem count_unrooted (run : marking.Run heap roots) (sound : heap.Sound) {handle : Handle}
    (rooted : heap.RootedByCards roots handle) :
    (marking.unrooted heap roots).count handle = heap.oldReferences handle := by
  obtain ⟨young, unrooted, _⟩ := rooted
  rw [MinorMarking.unrooted, List.count_filter, ← count_youngTargets young]
  · exact (sound.perm_youngTargets run.scanned).count_eq handle
  · exact HandleSet.not_contains_of.mpr unrooted

theorem countsCardRoots (run : marking.Run heap roots) (sound : heap.Sound) :
    heap.CountsCardRoots roots (marking.unrooted heap roots).dedup
      (marking.unrooted heap roots).length := by
  have references : ∀ handle ∈ (marking.unrooted heap roots).dedup,
      (marking.unrooted heap roots).count handle = heap.oldReferences handle := by
    intro handle member
    exact run.count_unrooted sound ((run.mem_unrooted sound).mp (List.mem_dedup.mp member))
  constructor
  · exact List.nodup_dedup _
  · intro handle
    rw [List.mem_dedup, run.mem_unrooted sound]
  · rw [← List.sum_map_count_dedup_eq_length, List.map_congr_left references]
  · exact (List.dedup_sublist _).length_le
  · rw [length_eq_dedup_iff]
    apply forall₂_congr
    intro handle member
    rw [references handle member]

end MinorMarking.Run

/-- After any operations the card roots of a minor cycle are counted by the fields that name
them. -/
theorem cardRoots_count_references [MemorySource Source] (attainable : heap.Attainable)
    {marker next : Marker} {answer : Answer MinorOutcome}
    (ran : heap.minorCycle marker roots = .ok (answer, after, next)) :
    ∃ outcome, answer = .ok outcome ∧
      ∃ objects, heap.CountsCardRoots roots objects outcome.cardRoots := by
  obtain ⟨outcome, rfl, stages, run, _, measures⟩ := minorCycle_measures ran
  refine ⟨outcome, rfl, ?_⟩
  rw [measures.cardRoots]
  exact ⟨_, run.countsCardRoots attainable.sound⟩

/-- One field of a promoted object names a young one. -/
theorem cardRoots_count_references_once :
    ∃ (heap after : Heap WindowedMemory) (next : Marker) (outcome : MinorOutcome),
      heap.Attainable ∧ heap.minorCycle .fresh [] = .ok (.ok outcome, after, next) ∧
        outcome.cardRoots = 1 ∧ ∃ objects, heap.CountsCardRoots [] objects outcome.cardRoots := by
  obtain ⟨heap, attainable, yields⟩ := attainable_of_leadsTo
    (show leadsTo smallSettings (WindowedMemory.fresh none) promotingOperations
      (fun heap => heap.minorYields [] fun outcome => decide (outcome.cardRoots = 1)) = true
      by decide +kernel)
  obtain ⟨outcome, after, next, ran, counted⟩ := ran_of_minorYields yields
  obtain ⟨_, answered, counts⟩ := cardRoots_count_references attainable ran
  cases answered
  exact ⟨heap, after, next, outcome, attainable, ran, of_decide_eq_true counted, counts⟩

/-- An object is promoted and then made to name a new one in both of its fields. -/
def namingTwiceOperations : List Operation :=
  [.allocate 16 2, .minorCycle .fresh [firstHandle], .minorCycle .fresh [firstHandle],
    .allocate 24 0, .store firstHandle 0 (some secondHandle),
    .store firstHandle 1 (some secondHandle)]

/-- One object is rooted through cards alone, and there are two card roots. -/
theorem cardRoots_exceed_objects :
    ∃ (heap after : Heap WindowedMemory) (next : Marker) (outcome : MinorOutcome)
      (objects : List Handle), heap.Attainable ∧
        heap.minorCycle .fresh [] = .ok (.ok outcome, after, next) ∧ objects.Nodup ∧
        (∀ handle, handle ∈ objects ↔ heap.RootedByCards [] handle) ∧
        objects.length = 1 ∧ outcome.cardRoots = 2 := by
  obtain ⟨heap, attainable, facts⟩ := attainable_of_leadsTo
    (show leadsTo smallSettings (WindowedMemory.fresh none) namingTwiceOperations
      (fun heap => (heap.directory.get? firstHandle).any (fun record =>
          decide (record.generation = .old ∧ some secondHandle ∈ record.fields)) &&
        decide (heap.directory.youngs = [secondHandle]) &&
        heap.minorYields [] fun outcome => decide (outcome.cardRoots = 2)) = true
      by decide +kernel)
  rw [Bool.and_eq_true, Bool.and_eq_true, Option.any_eq_true] at facts
  obtain ⟨⟨⟨record, found, named⟩, youngs⟩, yields⟩ := facts
  obtain ⟨old, field⟩ := of_decide_eq_true named
  have young : ∀ handle, heap.directory.isYoung handle = true ↔ handle = secondHandle := by
    intro handle
    rw [← attainable.sound.consistent.directory.mem_youngs, of_decide_eq_true youngs,
      List.mem_singleton]
  have members : ∀ handle, handle ∈ [secondHandle] ↔ heap.RootedByCards [] handle := by
    intro handle
    rw [List.mem_singleton]
    constructor
    · rintro rfl
      exact ⟨(young _).mpr rfl, List.not_mem_nil, firstHandle, record, found, old, field⟩
    · intro rooted
      exact (young handle).mp rooted.1
  obtain ⟨outcome, after, next, ran, counted⟩ := ran_of_minorYields yields
  exact ⟨heap, after, next, outcome, [secondHandle], attainable, ran,
    List.nodup_singleton _, members, rfl, of_decide_eq_true counted⟩

end Heap

end Tenure
