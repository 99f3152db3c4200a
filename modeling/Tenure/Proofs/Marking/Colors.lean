import Tenure.Marking.Marker
import Std.Data.TreeMap.Lemmas
import Tenure.Proofs.Checked
import Tenure.Proofs.Handle

/-!
# Colors and the worklist

The colors, the worklist and the count of pending handles are three accounts of one
set: the gray objects. While an object is scanned it is gray but no longer queued.
Here is what the parts of a marking step do to the colors, and that they keep the
three accounts together.
-/

set_option autoImplicit false

namespace Tenure.Marker

/-- The worklist together with the objects being scanned holds the gray objects, each
once, and is counted. Only objects that were reached have an entry. -/
structure Queued (marker : Marker) (scanning : List Handle) : Prop where
  gray_iff : ∀ handle,
    marker.colorOf handle = .gray ↔ handle ∈ scanning ++ marker.worklist.toList
  distinct : (scanning ++ marker.worklist.toList).Nodup
  pending_eq : marker.pending = marker.worklist.toList.length
  stored : ∀ handle, handle ∈ marker.colors ↔ marker.colorOf handle ≠ .white

private theorem getD_insert (colors : Std.TreeMap Handle Color) (handle other : Handle)
    (color fallback : Color) :
    (colors.insert handle color).getD other fallback =
      if other = handle then color else colors.getD other fallback := by
  rw [Std.TreeMap.getD_insert]
  by_cases same : other = handle
  · subst same
    simp
  · have different : compare handle other ≠ .eq := fun equal =>
      same (Std.LawfulEqOrd.compare_eq_iff_eq.mp equal).symm
    rw [if_neg same, if_neg different]

theorem colorOf_gray (marker : Marker) (handle other : Handle) :
    (marker.gray handle).colorOf other =
      if other = handle then .gray else marker.colorOf other :=
  getD_insert marker.colors handle other .gray .white

theorem mem_colors_insert {colors : Std.TreeMap Handle Color} {handle other : Handle}
    {color : Color} : other ∈ colors.insert handle color ↔ other = handle ∨ other ∈ colors := by
  rw [Std.TreeMap.mem_insert, Std.LawfulEqOrd.compare_eq_iff_eq]
  exact or_congr_left eq_comm

theorem colorOf_reset (marker : Marker) (handle : Handle) :
    marker.reset.colorOf handle = .white := by
  simp [reset, colorOf]

theorem queued_reset (marker : Marker) : marker.reset.Queued [] where
  gray_iff := by
    intro handle
    rw [colorOf_reset]
    simp [reset]
  distinct := by simp [reset]
  pending_eq := by simp [reset]
  stored := by
    intro handle
    rw [colorOf_reset]
    simp [reset]

theorem Queued.recount {marker : Marker} {scanning : List Handle}
    (queued : marker.Queued scanning) (counts : TraceCounts) :
    ({ marker with counts } : Marker).Queued scanning :=
  ⟨queued.gray_iff, queued.distinct, queued.pending_eq, queued.stored⟩

theorem Queued.gray {marker : Marker} {scanning : List Handle} (queued : marker.Queued scanning)
    {handle : Handle} (idle : marker.colorOf handle ≠ .gray) :
    (marker.gray handle).Queued scanning where
  gray_iff := by
    intro other
    have before := queued.gray_iff other
    rw [colorOf_gray]
    simp only [Marker.gray, Marking.Worklist.toList_push]
    rw [← List.append_assoc, List.mem_append, ← before, List.mem_singleton]
    split
    · rename_i same
      simp [same]
    · rename_i different
      simp [different]
  distinct := by
    simp only [Marker.gray, Marking.Worklist.toList_push]
    rw [← List.append_assoc, List.nodup_append]
    refine ⟨queued.distinct, by simp, ?_⟩
    intro other member last equal same
    rw [List.mem_singleton] at equal
    rw [← queued.gray_iff, same, equal] at member
    exact idle member
  pending_eq := by
    simp [Marker.gray, queued.pending_eq]
  stored := by
    intro other
    rw [colorOf_gray]
    simp only [Marker.gray, mem_colors_insert, queued.stored]
    split
    · rename_i same
      simp [same]
    · rename_i different
      simp [different]

theorem colorOf_reach (marker : Marker) (limit : ScanLimit) (handle other : Handle) :
    (marker.reach limit handle).colorOf other =
      if other = handle ∧ limit other = true ∧ marker.colorOf other = .white then .gray
      else marker.colorOf other := by
  unfold reach
  by_cases admitted : limit handle = true
  · by_cases white : marker.colorOf handle = .white
    · simp only [admitted, white, decide_true, Bool.and_true, ↓reduceIte, colorOf_gray]
      by_cases same : other = handle
      · subst same
        simp [admitted, white]
      · simp [same]
    · simp only [white, decide_false, Bool.and_false, Bool.false_eq_true, ↓reduceIte]
      rw [if_neg]
      intro reaches
      obtain ⟨rfl, _, reached⟩ := reaches
      exact white reached
  · simp only [admitted, Bool.false_and, Bool.false_eq_true, ↓reduceIte]
    rw [if_neg]
    intro reaches
    obtain ⟨rfl, reached, _⟩ := reaches
    exact admitted reached

theorem Queued.reach {marker : Marker} {scanning : List Handle}
    (queued : marker.Queued scanning) (limit : ScanLimit) (handle : Handle) :
    (marker.reach limit handle).Queued scanning := by
  unfold Marker.reach
  split
  · rename_i fresh
    simp only [Bool.and_eq_true, decide_eq_true_eq] at fresh
    refine queued.gray ?_
    rw [fresh.2]
    simp
  · exact queued

/-- A new trace has reached the admitted roots and nothing else. -/
theorem start_spec (marker : Marker) (roots : List Handle) (limit : ScanLimit) :
    (marker.start roots limit).Queued [] ∧ ∀ handle,
      (marker.start roots limit).colorOf handle =
        if handle ∈ roots ∧ limit handle = true then .gray else .white := by
  have fold : ∀ (rest : List Handle) (current : Marker), current.Queued [] →
      (rest.foldl (fun marker root => marker.reach limit root) current).Queued [] ∧
      ∀ handle, (rest.foldl (fun marker root => marker.reach limit root) current).colorOf handle =
        if handle ∈ rest ∧ limit handle = true ∧ current.colorOf handle = .white then .gray
        else current.colorOf handle := by
    intro rest
    induction rest with
    | nil =>
        intro current queued
        exact ⟨queued, fun handle => by simp⟩
    | cons root rest ih =>
        intro current queued
        obtain ⟨later, colors⟩ := ih (current.reach limit root) (queued.reach limit root)
        refine ⟨later, fun handle => ?_⟩
        rw [List.foldl_cons, colors, colorOf_reach]
        by_cases same : handle = root
        · subst same
          by_cases fresh : limit handle = true ∧ current.colorOf handle = .white
          · simp [fresh]
          · simp [fresh]
        · simp [same]
  obtain ⟨queued, colors⟩ := fold roots marker.reset (queued_reset marker)
  refine ⟨queued, fun handle => ?_⟩
  unfold start
  rw [colors, colorOf_reset]
  simp

/-! ## Scanning one object -/

theorem visit_eq_ok {marker after : Marker} {limit : ScanLimit} {target : Handle}
    (ran : marker.visit limit target = .ok after) :
    marker.counts.edges + 1 < Word.limit ∧ after =
      { marker with
        counts := { marker.counts with edges := marker.counts.edges + 1 } }.reach
          limit target := by
  unfold visit at ran
  simp only [Checked.bind_eq_ok_iff, Word.add_eq_ok_iff, Checked.pure_eq_ok_iff] at ran
  obtain ⟨edges, ⟨fits, rfl⟩, rfl⟩ := ran
  exact ⟨fits, rfl⟩

/-- Looking at references turns the admitted white ones among them gray. -/
theorem visitAll_spec {marker after : Marker} {limit : ScanLimit} {scanning targets : List Handle}
    (queued : marker.Queued scanning)
    (ran : targets.foldlM (fun marker target => marker.visit limit target) marker = .ok after) :
    after.Queued scanning ∧ ∀ handle, after.colorOf handle =
      if handle ∈ targets ∧ limit handle = true ∧ marker.colorOf handle = .white then .gray
      else marker.colorOf handle := by
  refine Checked.foldlM_induction (fun seen (current : Marker) =>
    current.Queued scanning ∧ ∀ handle, current.colorOf handle =
      if handle ∈ seen ∧ limit handle = true ∧ marker.colorOf handle = .white then .gray
      else marker.colorOf handle) ran ⟨queued, by simp⟩ ?_
  intro seen target rest current final _ holds visited
  obtain ⟨queued, colors⟩ := holds
  obtain ⟨_, rfl⟩ := visit_eq_ok visited
  refine ⟨(queued.recount _).reach limit target, fun handle => ?_⟩
  rw [colorOf_reach]
  simp only [List.mem_append, List.mem_singleton]
  have current_eq : ∀ counts : TraceCounts,
      ({ current with counts } : Marker).colorOf handle = current.colorOf handle := fun _ => rfl
  rw [current_eq, colors]
  by_cases same : handle = target
  · subst same
    by_cases fresh : limit handle = true ∧ marker.colorOf handle = .white
    · simp [fresh]
    · simp [fresh]
  · simp [same]

/-- The first object of the worklist is taken out of it for its scan. -/
private theorem Queued.pop {marker : Marker} {handle : Handle} {rest : Marking.Worklist}
    (queued : marker.Queued []) (popped : marker.worklist.pop? = some (handle, rest)) :
    ({ marker with worklist := rest, pending := marker.pending - 1 } : Marker).Queued
      [handle] := by
  have order := Marking.Worklist.toList_of_pop?_eq_some popped
  refine ⟨fun other => ?_, ?_, ?_, queued.stored⟩
  · have before := queued.gray_iff other
    rw [order] at before
    exact before
  · have distinct := queued.distinct
    rw [order] at distinct
    exact distinct
  · have before := queued.pending_eq
    rw [order, List.length_cons] at before
    simp only
    omega

private theorem colorOf_blackened (marker : Marker) (handle other : Handle) :
    ({ marker with colors := marker.colors.insert handle .black } : Marker).colorOf other =
      if other = handle then .black else marker.colorOf other :=
  getD_insert marker.colors handle other .black .white

private theorem Queued.blackened {marker : Marker} {handle : Handle}
    (queued : marker.Queued [handle]) :
    ({ marker with colors := marker.colors.insert handle .black } : Marker).Queued [] := by
  obtain ⟨unqueued, distinct⟩ := List.nodup_cons.mp queued.distinct
  refine ⟨fun other => ?_, distinct, queued.pending_eq, fun other => ?_⟩
  · rw [colorOf_blackened]
    have before := queued.gray_iff other
    by_cases same : other = handle
    · subst same
      simpa using unqueued
    · rw [if_neg same, before]
      simp [same]
  · rw [colorOf_blackened]
    simp only [mem_colors_insert, queued.stored]
    by_cases same : other = handle
    · simp [same]
    · simp [same]

/-- A scanned object is black, and those it references are not white any more. -/
theorem scan_spec {marker after : Marker} {graph : Graph} {limit : ScanLimit} {handle : Handle}
    {rest : Marking.Worklist} (queued : marker.Queued [])
    (popped : marker.worklist.pop? = some (handle, rest))
    (ran : { marker with worklist := rest }.scan graph limit handle = .ok after) :
    marker.colorOf handle = .gray ∧ after.Queued [] ∧ ∀ other, after.colorOf other =
      if other = handle then .black
      else if some other ∈ graph handle ∧ limit other = true ∧ marker.colorOf other = .white
        then .gray
      else marker.colorOf other := by
  have gray : marker.colorOf handle = .gray := by
    rw [queued.gray_iff, Marking.Worklist.toList_of_pop?_eq_some popped]
    simp
  unfold scan at ran
  simp only [Checked.bind_eq_ok_iff, Word.sub_eq_ok_iff, Checked.pure_eq_ok_iff] at ran
  obtain ⟨pending, ⟨_, rfl⟩, visited, walked, rfl⟩ := ran
  obtain ⟨visitedQueued, colors⟩ := visitAll_spec (queued.pop popped) walked
  refine ⟨gray, visitedQueued.blackened, fun other => ?_⟩
  rw [colorOf_blackened, colors]
  simp only [Graph.mem_targets]
  rfl

theorem colored_of_scan {marker after : Marker} {graph : Graph} {limit : ScanLimit}
    {handle other : Handle} {rest : Marking.Worklist} (queued : marker.Queued [])
    (popped : marker.worklist.pop? = some (handle, rest))
    (ran : { marker with worklist := rest }.scan graph limit handle = .ok after)
    (colored : marker.colorOf other ≠ .white) : after.colorOf other ≠ .white := by
  obtain ⟨_, _, colors⟩ := scan_spec queued popped ran
  rw [colors]
  split
  · simp
  · simp [colored]

/-- No black object references an admitted white one. -/
def Closed (marker : Marker) (graph : Graph) (limit : ScanLimit) : Prop :=
  ∀ holder, marker.colorOf holder = .black → ∀ target, some target ∈ graph holder →
    limit target = true → marker.colorOf target ≠ .white

theorem closed_start (marker : Marker) (roots : List Handle) (graph : Graph)
    (limit : ScanLimit) : (marker.start roots limit).Closed graph limit := by
  intro holder black
  obtain ⟨_, colors⟩ := marker.start_spec roots limit
  rw [colors] at black
  split at black
  · cases black
  · cases black

theorem Closed.scan {marker after : Marker} {graph : Graph} {limit : ScanLimit}
    {handle : Handle} {rest : Marking.Worklist} (closed : marker.Closed graph limit)
    (queued : marker.Queued []) (popped : marker.worklist.pop? = some (handle, rest))
    (ran : { marker with worklist := rest }.scan graph limit handle = .ok after) :
    after.Closed graph limit := by
  intro holder black target field admitted
  obtain ⟨_, _, colors⟩ := scan_spec queued popped ran
  by_cases same : holder = handle
  · -- The object itself was gray; the white ones it references have become gray.
    subst same
    rw [colors]
    split
    · simp
    · by_cases white : marker.colorOf target = .white
      · simp [field, admitted, white]
      · simp [white]
  · rw [colors, if_neg same] at black
    split at black
    · simp at black
    · exact colored_of_scan queued popped ran (closed holder black target field admitted)

/-! ## Steps -/

/-- What every scan keeps, a step keeps. -/
theorem step_induction {graph : Graph} {limit : ScanLimit} {budget : Nat}
    {marker after : Marker} {remaining : Bool} (invariant : Marker → Prop)
    (ran : marker.step graph limit budget = .ok (remaining, after)) (first : invariant marker)
    (recount : ∀ (current : Marker) (steps scanned : Nat), invariant current →
      invariant { current with counts := { current.counts with steps, scanned } })
    (scan : ∀ (current next : Marker) (handle : Handle) (rest : Marking.Worklist),
      invariant current → current.worklist.pop? = some (handle, rest) →
      { current with worklist := rest }.scan graph limit handle = .ok next → invariant next) :
    invariant after := by
  have scans : ∀ (budget done count : Nat) (current next : Marker), invariant current →
      scanUpTo graph limit budget done current = .ok (count, next) → invariant next := by
    intro budget
    induction budget with
    | zero =>
        intro done count current next holds ran
        simp only [scanUpTo, Except.ok.injEq, Prod.mk.injEq] at ran
        exact ran.2 ▸ holds
    | succ budget ih =>
        intro done count current next holds ran
        unfold scanUpTo at ran
        cases popped : current.worklist.pop? with
        | none =>
            simp only [popped, Except.ok.injEq, Prod.mk.injEq] at ran
            exact ran.2 ▸ holds
        | some entry =>
            obtain ⟨handle, rest⟩ := entry
            simp only [popped, Checked.bind_eq_ok_iff] at ran
            obtain ⟨scanned, stepped, ran⟩ := ran
            exact ih _ _ _ _ (scan current scanned handle rest holds popped stepped) ran
  unfold Marker.step at ran
  simp only [Checked.bind_eq_ok_iff, Checked.pure_eq_ok_iff, Prod.mk.injEq] at ran
  obtain ⟨⟨count, current⟩, scanned, _, rfl⟩ := ran
  have holds := scans _ _ _ _ _ first scanned
  split
  · exact recount current _ _ holds
  · exact holds

theorem Queued.step {graph : Graph} {limit : ScanLimit} {budget : Nat} {marker after : Marker}
    {remaining : Bool} (queued : marker.Queued [])
    (ran : marker.step graph limit budget = .ok (remaining, after)) : after.Queued [] :=
  step_induction (fun current => current.Queued []) ran queued
    (fun _ _ _ queued => queued.recount _)
    fun _ _ _ _ queued popped scanned => (scan_spec queued popped scanned).2.1

/-- An object that was reached stays so. -/
theorem Queued.colored_of_step {graph : Graph} {limit : ScanLimit} {budget : Nat}
    {marker after : Marker} {remaining : Bool} {handle : Handle} (queued : marker.Queued [])
    (ran : marker.step graph limit budget = .ok (remaining, after))
    (colored : marker.colorOf handle ≠ .white) : after.colorOf handle ≠ .white := by
  have kept := step_induction
    (fun current => current.Queued [] ∧ current.colorOf handle ≠ .white) ran ⟨queued, colored⟩
    (fun _ _ _ holds => ⟨holds.1.recount _, holds.2⟩)
    fun _ _ _ _ holds popped scanned =>
      ⟨(scan_spec holds.1 popped scanned).2.1, colored_of_scan holds.1 popped scanned holds.2⟩
  exact kept.2

theorem Closed.step {marker after : Marker} {graph : Graph} {limit : ScanLimit} {budget : Nat}
    {remaining : Bool} (closed : marker.Closed graph limit) (queued : marker.Queued [])
    (ran : marker.step graph limit budget = .ok (remaining, after)) :
    after.Closed graph limit := by
  have kept := step_induction (fun current => current.Closed graph limit ∧ current.Queued [])
    ran ⟨closed, queued⟩ (fun current _ _ holds => ⟨holds.1, holds.2.recount _⟩)
    fun current next handle rest holds popped scanned =>
      ⟨holds.1.scan holds.2 popped scanned, (scan_spec holds.2 popped scanned).2.1⟩
  exact kept.1

/-- A step answers whether gray objects remain. -/
theorem remaining_of_step {graph : Graph} {limit : ScanLimit} {budget : Nat}
    {marker after : Marker} {remaining : Bool}
    (ran : marker.step graph limit budget = .ok (remaining, after)) :
    remaining = decide (after.pending > 0) := by
  unfold Marker.step at ran
  simp only [Checked.bind_eq_ok_iff, Checked.pure_eq_ok_iff, Prod.mk.injEq] at ran
  obtain ⟨_, _, rfl, rfl⟩ := ran
  rfl

theorem Queued.worklist_of_step {graph : Graph} {limit : ScanLimit} {budget : Nat}
    {marker after : Marker} (queued : after.Queued [])
    (ran : marker.step graph limit budget = .ok (false, after)) :
    after.worklist.toList = [] := by
  have pending := queued.pending_eq
  have finished := remaining_of_step ran
  rw [eq_comm, decide_eq_false_iff_not, Nat.not_lt, Nat.le_zero_eq] at finished
  rw [finished] at pending
  exact List.eq_nil_of_length_eq_zero pending.symm

/-! ## Answers -/

/-- Nothing but a counter that leaves the words can stop the operation. -/
def OverflowsOnly {Value : Type} (operation : Checked Value) : Prop :=
  (∃ value, operation = .ok value) ∨ operation = .error .addOverflow

theorem OverflowsOnly.bind {First Second : Type} {source : Checked First}
    {next : First → Checked Second} (first : OverflowsOnly source)
    (later : ∀ value, source = .ok value → OverflowsOnly (next value)) : OverflowsOnly (source >>= next) := by
  cases first with
  | inl answered =>
      obtain ⟨value, rfl⟩ := answered
      exact later value rfl
  | inr overflows => exact .inr (by rw [overflows]; rfl)

theorem overflowsOnly_add (left right : Nat) : OverflowsOnly (Word.add left right) := by
  unfold Word.add
  split
  · exact .inl ⟨_, rfl⟩
  · exact .inr rfl

theorem overflowsOnly_visitAll (limit : ScanLimit) (targets : List Handle) (marker : Marker) :
    OverflowsOnly (targets.foldlM (fun marker target => marker.visit limit target) marker) := by
  induction targets generalizing marker with
  | nil => exact .inl ⟨marker, rfl⟩
  | cons target rest ih =>
      rw [List.foldlM_cons]
      refine OverflowsOnly.bind ?_ fun next _ => ih next
      exact (overflowsOnly_add _ 1).bind fun edges _ => .inl ⟨_, rfl⟩

theorem Queued.pending_pos {marker : Marker} {handle : Handle} {rest : Marking.Worklist}
    (queued : marker.Queued []) (popped : marker.worklist.pop? = some (handle, rest)) :
    1 ≤ marker.pending := by
  rw [queued.pending_eq, Marking.Worklist.toList_of_pop?_eq_some popped]
  exact Nat.succ_le_succ (Nat.zero_le _)

theorem Queued.overflowsOnly_scan {marker : Marker} {graph : Graph} {limit : ScanLimit}
    {handle : Handle} {rest : Marking.Worklist} (queued : marker.Queued [])
    (popped : marker.worklist.pop? = some (handle, rest)) :
    OverflowsOnly ({ marker with worklist := rest }.scan graph limit handle) := by
  unfold Marker.scan
  refine OverflowsOnly.bind (.inl ⟨_, Word.sub_of_le (queued.pending_pos popped)⟩) fun pending _ => ?_
  refine (overflowsOnly_visitAll limit _ _).bind fun visited _ => ?_
  exact .inl ⟨_, rfl⟩

theorem Queued.overflowsOnly_scanUpTo {marker : Marker} {graph : Graph} {limit : ScanLimit}
    {budget done : Nat} (queued : marker.Queued []) :
    OverflowsOnly (scanUpTo graph limit budget done marker) := by
  induction budget generalizing done marker with
  | zero => exact .inl ⟨_, rfl⟩
  | succ budget ih =>
      unfold scanUpTo
      cases popped : marker.worklist.pop? with
      | none => exact .inl ⟨_, rfl⟩
      | some entry =>
          refine (queued.overflowsOnly_scan popped).bind fun next scanned => ?_
          exact ih (scan_spec queued popped scanned).2.1

/-- A step answers as long as the references that it looks at can be counted. -/
theorem Queued.overflowsOnly_step {marker : Marker} {graph : Graph} {limit : ScanLimit} {budget : Nat}
    (queued : marker.Queued []) : OverflowsOnly (marker.step graph limit budget) :=
  queued.overflowsOnly_scanUpTo.bind fun _ _ => .inl ⟨_, rfl⟩

end Tenure.Marker
