import Mathlib.Data.List.Basic
import Tenure.Proofs.Cards.Bounds

/-!
# What a card table remembers

The cards divide the covered addresses into consecutive ranges, the last of which may be cut
off. A card is dirty exactly if an address in it was marked after the card was last scanned
and after the table was last cleared. Growth may lengthen the last card and adds clean ones;
it loses no mark.
-/

set_option autoImplicit false

namespace Tenure.CardTable

/-- An operation on a card table, with what a mark answered. -/
inductive Event where
  | marked (address : Nat) (answer : Bool)
  | scanned (index : Nat)
  | cleared
  | resized (extent : Nat)

/-- An operation leads from one table to the other. No table shrinks. -/
inductive Happens (table : CardTable) : Event → CardTable → Prop where
  | mark {address : Nat} {answer : Bool} {after : CardTable}
      (ran : table.mark address = .ok (answer, after)) : Happens table (.marked address answer) after
  | scan {view : CardView} {index : Nat} {found : List Handle} {after : CardTable}
      (ran : table.scan view index = .ok (found, after)) : Happens table (.scanned index) after
  | clear : Happens table .cleared table.clear
  | resize {extent : Nat} {after : CardTable} (grows : table.extent ≤ extent)
      (ran : table.resize extent = .ok after) : Happens table (.resized extent) after

/-- The operations that lead from one table to the other, from first to last. -/
inductive History (fresh : CardTable) : List Event → CardTable → Prop where
  | start : History fresh [] fresh
  | next {events : List Event} {event : Event} {table after : CardTable}
      (history : History fresh events table) (happens : table.Happens event after) :
      History fresh (events ++ [event]) after

/-- An address in a card was marked, and since then the card was not scanned and the table
was not cleared. -/
def MarkedSince (within : Nat → Prop) (index : Nat) (events : List Event) : Prop :=
  ∃ earlier address later, events = earlier ++ .marked address true :: later ∧
    within address ∧ Event.scanned index ∉ later ∧ Event.cleared ∉ later

/-- The cards are the pieces of the covered range, in address order. -/
structure Tiles (table : CardTable) : Prop where
  cardOf_iff : ∀ address index, table.cardOf address = .ok (some index) ↔
    ∃ first stop, table.range index = .ok (some (first, stop)) ∧
      first ≤ address ∧ address < stop
  uncovered_iff : ∀ address, table.cardOf address = .ok none ↔ ¬ table.Covers address
  first : ∃ stop, table.range 0 = .ok (some (table.base, stop))
  abut : ∀ index, index + 1 < table.size → ∃ first middle stop,
    table.range index = .ok (some (first, middle)) ∧
      table.range (index + 1) = .ok (some (middle, stop))
  last : ∃ first,
    table.range (table.size - 1) = .ok (some (first, table.base + table.extent))

/-- The marks are those that the operations so far have left. -/
structure Records (events : List Event) (table : CardTable) : Prop where
  mark_eq : ∀ address, ∃ after,
    table.mark address = .ok (decide (table.Covers address), after)
  isDirty_iff : ∀ index,
    table.isDirty index = true ↔ MarkedSince (table.InCard index) index events
  mem_dirty_iff : ∀ index,
    index ∈ table.dirty ↔ MarkedSince (table.InCard index) index events
  ascending : table.dirty.Pairwise fun earlier later => earlier < later
  count_eq : table.dirtyCount = table.dirty.length

variable {fresh table after : CardTable} {event : Event} {events : List Event} {index : Nat}

/-! ## Cards -/

section Cards

variable (wellFormed : table.WellFormed)
  (fits : table.base + table.size * table.cardSize < Word.limit)
include wellFormed fits

theorem WellFormed.ends : table.base + table.extent < Word.limit := by
  have reaches := le_cardsFor_mul table.extent wellFormed.cardSize_pos
  rw [← wellFormed.size_eq] at reaches
  omega

theorem WellFormed.range_eq (inside : index < table.size) :
    table.range index = .ok (some (table.cardStart index, table.cardStop index)) := by
  obtain ⟨answer, ran⟩ := wellFormed.answers_range fits index
  rcases range_eq_ok ran with ⟨_, rfl⟩ | ⟨outside, _⟩
  · exact ran
  · omega

theorem WellFormed.exists_range_iff {address : Nat} :
    (∃ first stop, table.range index = .ok (some (first, stop)) ∧
      first ≤ address ∧ address < stop) ↔ table.InCard index address := by
  constructor
  · intro ranges
    obtain ⟨first, stop, ran, above, below⟩ := ranges
    rcases range_eq_ok ran with ⟨inside, same⟩ | ⟨_, none⟩
    · cases same
      exact ⟨inside, above, below⟩
    · cases none
  · intro within
    exact ⟨_, _, wellFormed.range_eq fits within.inside, within.above, within.below⟩

theorem WellFormed.cardOf_eq (address : Nat) : table.cardOf address =
    .ok (if table.Covers address then some (table.cardIndex address) else none) := by
  obtain ⟨answer, ran⟩ := answers_cardOf (wellFormed.ends fits) address
  rcases cardOf_eq_ok ran with ⟨covered, rfl⟩ | ⟨uncovered, rfl⟩
  · rw [ran, if_pos covered]
  · rw [ran, if_neg uncovered]

theorem WellFormed.tiles (nonempty : 0 < table.size) : table.Tiles := by
  have reaches := le_cardsFor_mul table.extent wellFormed.cardSize_pos
  rw [← wellFormed.size_eq] at reaches
  refine
    { cardOf_iff := fun address index => ?_
      uncovered_iff := fun address => ?_
      first := ⟨table.cardStop 0, ?_⟩
      abut := fun index inside =>
        ⟨table.cardStart index, table.cardStart (index + 1), table.cardStop (index + 1), ?_, ?_⟩
      last := ⟨table.cardStart (table.size - 1), ?_⟩ }
  · rw [wellFormed.exists_range_iff fits, wellFormed.inCard_iff, wellFormed.cardOf_eq fits]
    by_cases covered : table.Covers address <;> simp [covered]
  · rw [wellFormed.cardOf_eq fits]
    by_cases covered : table.Covers address <;> simp [covered]
  · rw [wellFormed.range_eq fits nonempty]
    simp [cardStart]
  · have begins := mul_lt_of_lt_cardsFor wellFormed.cardSize_pos (wellFormed.size_eq ▸ inside)
    rw [wellFormed.range_eq fits (by omega), cardStop, cardStart, cardStart]
    rw [Nat.succ_mul] at begins ⊢
    rw [Nat.min_eq_left (by omega), Nat.add_assoc]
  · exact wellFormed.range_eq fits inside
  · rw [wellFormed.range_eq fits (by omega), cardStop, cardStart]
    have whole : (table.size - 1) * table.cardSize + table.cardSize =
        table.size * table.cardSize := by
      rw [← Nat.succ_mul, Nat.succ_eq_add_one, Nat.sub_add_cancel nonempty]
    rw [Nat.min_eq_right (by omega)]

theorem WellFormed.mark_eq (address : Nat) :
    ∃ after, table.mark address = .ok (decide (table.Covers address), after) := by
  obtain ⟨⟨marked, after⟩, ran⟩ := wellFormed.answers_mark (wellFormed.ends fits) address
  rcases mark_eq_ok ran with ⟨rfl, uncovered, _⟩ | ⟨rfl, covered, _⟩
  · exact ⟨after, by rw [ran, decide_eq_false uncovered]⟩
  · exact ⟨after, by rw [ran, decide_eq_true covered]⟩

end Cards

/-! ## Marks -/

/-- Of the latest operation and those before it, only the latest mark or the earlier ones that
it leaves alone count. -/
theorem markedSince_concat {within : Nat → Prop} :
    MarkedSince within index (events ++ [event]) ↔
      (∃ address, event = .marked address true ∧ within address) ∨
        (MarkedSince within index events ∧ event ≠ .scanned index ∧ event ≠ .cleared) := by
  constructor
  · intro marked
    obtain ⟨earlier, address, later, split, inside, unscanned, uncleared⟩ := marked
    rcases Checked.split_concat_iff.mp split with ⟨_, _, rfl⟩ | ⟨before, rfl, rfl⟩
    · exact .inl ⟨address, rfl, inside⟩
    · simp only [List.mem_append, List.mem_singleton, not_or] at unscanned uncleared
      exact .inr ⟨⟨earlier, address, before, rfl, inside, unscanned.1, uncleared.1⟩,
        Ne.symm unscanned.2, Ne.symm uncleared.2⟩
  · intro marked
    rcases marked with ⟨address, rfl, inside⟩ | ⟨⟨earlier, address, later, rfl, inside,
      unscanned, uncleared⟩, notScanned, notCleared⟩
    · exact ⟨events, address, [], rfl, inside, List.not_mem_nil, List.not_mem_nil⟩
    · refine ⟨earlier, address, later ++ [event], by simp, inside, ?_, ?_⟩
      · simp [unscanned, notScanned.symm]
      · simp [uncleared, notCleared.symm]

theorem markedSince_congr {within other : Nat → Prop}
    (same : ∀ address, Event.marked address true ∈ events → (within address ↔ other address)) :
    MarkedSince within index events ↔ MarkedSince other index events := by
  unfold MarkedSince
  refine exists_congr fun earlier => exists_congr fun address => exists_congr fun later =>
    and_congr_right fun split => and_congr_left fun _ => ?_
  exact same address (by simp [split])

/-- What one operation does to the marks: one card becomes dirty, one card or all become
clean, or nothing changes. -/
theorem Happens.isDirty_iff (wellFormed : table.WellFormed)
    (happens : table.Happens event after) (index : Nat) :
    after.isDirty index = true ↔
      (∃ address, event = .marked address true ∧ table.InCard index address) ∨
        (table.isDirty index = true ∧ event ≠ .scanned index ∧ event ≠ .cleared) := by
  cases happens with
  | @mark address answer _ ran =>
      rw [isDirty_of_mark ran]
      rcases mark_eq_ok ran with ⟨rfl, uncovered, _⟩ | ⟨rfl, covered, _⟩
      · simp [uncovered]
      · simp [wellFormed.inCard_iff, covered, or_comm]
  | @scan view scanned found _ ran =>
      rw [(scan_eq_ok ran).1, isDirty_clean]
      simp
  | clear => simp [isDirty_clear]
  | resize grows ran =>
      obtain ⟨_, _, _, _, same⟩ := resize_eq_ok wellFormed grows ran
      simp [same]

/-- A table keeps its cards, of which only the last one may become longer. -/
structure Extends (table after : CardTable) : Prop where
  base : after.base = table.base
  cardSize : after.cardSize = table.cardSize
  extent : table.extent ≤ after.extent

theorem SameCards.extends (same : table.SameCards after) : table.Extends after :=
  ⟨same.base, same.cardSize, Nat.le_of_eq same.extent.symm⟩

theorem Extends.covers (grows : table.Extends after) {address : Nat}
    (covered : table.Covers address) : after.Covers address := by
  obtain ⟨above, below⟩ := covered
  have wider := grows.extent
  have base := grows.base
  exact ⟨by omega, by omega⟩

theorem Extends.inCard_iff (grows : table.Extends after) (before : table.WellFormed)
    (wellFormed : after.WellFormed) {address : Nat} (covered : table.Covers address) :
    after.InCard index address ↔ table.InCard index address := by
  have same : after.cardIndex address = table.cardIndex address := by
    unfold cardIndex
    rw [grows.base, grows.cardSize]
  simp only [wellFormed.inCard_iff, before.inCard_iff, covered, grows.covers covered, same]

theorem Happens.wellFormed (before : table.WellFormed) (happens : table.Happens event after) :
    after.WellFormed ∧ table.Extends after := by
  have kept : table.SameCards after → after.WellFormed ∧ table.Extends after :=
    fun same => ⟨same.wellFormed before, same.extends⟩
  cases happens with
  | mark ran => exact kept (sameCards_of_mark ran)
  | @scan view scanned found _ ran =>
      rw [(scan_eq_ok ran).1]
      have same := sameCards_clean table scanned
      exact ⟨same.wellFormed before, same.extends⟩
  | clear => exact kept (sameCards_clear table)
  | resize grows ran =>
      obtain ⟨wellFormed, base, extent, cardSize, _⟩ := resize_eq_ok before grows ran
      exact ⟨wellFormed, base, cardSize, extent ▸ grows⟩

theorem Happens.covers_of_marked {address : Nat}
    (happens : table.Happens (.marked address true) after) : table.Covers address := by
  cases happens with
  | mark ran =>
      rcases mark_eq_ok ran with ⟨answer, _⟩ | ⟨_, covered, _⟩
      · cases answer
      · exact covered

/-! ## Histories -/

/-- What every history keeps: a marked address is covered from then on, and the dirty cards
are those that were marked since they were cleaned. -/
structure Recounts (events : List Event) (table : CardTable) : Prop where
  wellFormed : table.WellFormed
  covers : ∀ address, Event.marked address true ∈ events → table.Covers address
  isDirty_iff : ∀ index,
    table.isDirty index = true ↔ MarkedSince (table.InCard index) index events

theorem Recounts.next (recounts : table.Recounts events)
    (happens : table.Happens event after) : after.Recounts (events ++ [event]) := by
  have before := recounts.wellFormed
  obtain ⟨wellFormed, grows⟩ := happens.wellFormed before
  have covers : ∀ address, Event.marked address true ∈ events ++ [event] →
      table.Covers address := by
    intro address listed
    rcases List.mem_append.mp listed with earlier | latest
    · exact recounts.covers address earlier
    · obtain rfl := List.mem_singleton.mp latest
      exact happens.covers_of_marked
  refine ⟨wellFormed, fun address listed => grows.covers (covers address listed),
    fun index => ?_⟩
  rw [happens.isDirty_iff before, recounts.isDirty_iff, ← markedSince_concat]
  exact markedSince_congr fun address listed =>
    (grows.inCard_iff before wellFormed (covers address listed)).symm

theorem isDirty_of_create {base extent cardSize : Nat}
    (created : create base extent cardSize = .ok fresh) (index : Nat) :
    fresh.isDirty index = false := by
  unfold create at created
  split at created
  · simp only [Checked.bind_eq_ok_iff, Checked.pure_eq_ok_iff] at created
    obtain ⟨_, _, rfl⟩ := created
    simp only [isDirty, Array.getD_eq_getD_getElem?, Array.getElem?_replicate]
    split <;> rfl
  · simp at created

theorem History.recounts {base extent cardSize : Nat}
    (created : create base extent cardSize = .ok fresh)
    (history : fresh.History events table) : table.Recounts events := by
  induction history with
  | start =>
      refine ⟨(create_eq_ok created).1, by simp, fun index => ?_⟩
      simp [isDirty_of_create created, MarkedSince]
  | next _ happens ih => exact ih.next happens

/-! ## Dirty cards -/

theorem ascending_dirty (table : CardTable) :
    table.dirty.Pairwise fun earlier later => earlier < later :=
  List.pairwise_lt_range.sublist List.filter_sublist

theorem dirtyCount_eq (table : CardTable) : table.dirtyCount = table.dirty.length := by
  have listed : table.marks.toList = (List.range table.size).map table.isDirty := by
    refine List.ext_getElem (by simp [size]) fun index inside _ => ?_
    have inside : index < table.marks.size := by simpa using inside
    simp [isDirty, inside]
  rw [dirtyCount, dirty, ← Array.count_toList, listed, List.count_eq_countP, List.countP_map,
    ← List.countP_eq_length_filter]
  exact List.countP_congr fun index _ => by simp

/-- Whatever operations ran on a new table, its cards tile what it covers, and its marks are
those that came after the last cleaning. -/
theorem history_decides_cards {base extent cardSize : Nat}
    (created : create base extent cardSize = .ok fresh)
    (history : fresh.History events table) (nonempty : 0 < table.size)
    (fits : table.base + table.size * table.cardSize < Word.limit) :
    table.Tiles ∧ table.Records events := by
  have recounts := history.recounts created
  have wellFormed := recounts.wellFormed
  refine ⟨wellFormed.tiles fits nonempty, ?_⟩
  exact
    { mark_eq := wellFormed.mark_eq fits
      isDirty_iff := recounts.isDirty_iff
      mem_dirty_iff := fun index => mem_dirty.trans (recounts.isDirty_iff index)
      ascending := ascending_dirty table
      count_eq := dirtyCount_eq table }

/-- Card 0 was scanned after its mark. The marks of cards 1 and 2 are still there, the one
from before the table grew too. -/
theorem history_decides_cards_after_growth :
    ∃ fresh table : CardTable, ∃ events,
      (create 4096 1000 512 = .ok fresh ∧ fresh.History events table ∧ 0 < table.size ∧
        table.base + table.size * table.cardSize < Word.limit) ∧
      table.dirty = [1, 2] ∧ table.Tiles ∧ table.Records events := by
  let marked (extent : Nat) (marks : Array Bool) : CardTable := ⟨4096, extent, 512, marks⟩
  let view : CardView := ⟨fun _ _ => [], fun _ => [], fun _ => false⟩
  have created : create 4096 1000 512 = .ok (marked 1000 #[false, false]) := rfl
  have second : (marked 1000 #[false, false]).Happens (.marked 4696 true)
      (marked 1000 #[false, true]) := .mark (by decide)
  have grown : (marked 1000 #[false, true]).Happens (.resized 2000)
      (marked 2000 #[false, true, false, false]) := .resize (by decide) (by decide)
  have third : (marked 2000 #[false, true, false, false]).Happens (.marked 5200 true)
      (marked 2000 #[false, true, true, false]) := .mark (by decide)
  have first : (marked 2000 #[false, true, true, false]).Happens (.marked 4100 true)
      (marked 2000 #[true, true, true, false]) := .mark (by decide)
  have cleaned : (marked 2000 #[true, true, true, false]).Happens (.scanned 0)
      (marked 2000 #[false, true, true, false]) :=
    .scan (show CardTable.scan _ view 0 = .ok ([], _) by decide)
  have history := History.start.next second |>.next grown |>.next third |>.next first
    |>.next cleaned
  exact ⟨_, _, _, ⟨created, history, by decide, by decide⟩, by decide,
    history_decides_cards created history (by decide) (by decide)⟩

end Tenure.CardTable
