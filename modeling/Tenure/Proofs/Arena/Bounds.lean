import Tenure.Proofs.Arena.Compaction

/-!
# Arenas inside the address space

If no address of an arena leaves the words, no sum of the addresses and sizes that its
operations meet does, and each of them answers. The one request that cannot be answered is
for a size that cannot even be rounded up.
-/

set_option autoImplicit false

namespace Tenure

open Checked

theorem answers_alignSize {size : Nat} (small : size + granule < Word.limit) :
    Answers (alignSize size) := by
  have fits : max size 1 + granule < Word.limit := by
    simp only [granule, Word.limit] at small ⊢
    omega
  exact Answers.bind ⟨_, Word.add_of_lt fits⟩ fun beyond _ => answers_pure _

namespace Arena

variable {arena : Arena} {size : Nat}

/-- The addresses of an arena are words, and so is the one after its end. -/
def Addressable (arena : Arena) : Prop := arena.base + arena.capacity < Word.limit

theorem WellFormed.answers_room? (wellFormed : arena.WellFormed)
    (small : size + granule < Word.limit) : Answers (arena.room? size) := by
  refine (answers_alignSize small).bind fun aligned _ => ?_
  refine Answers.bind ⟨_, Word.sub_of_le wellFormed.used_le⟩ fun left _ => ?_
  split
  · exact answers_pure _
  · exact answers_pure _

theorem WellFormed.answers_frontier (wellFormed : arena.WellFormed)
    (addressable : arena.Addressable) : Answers arena.frontier := by
  have inside := wellFormed.used_le
  unfold Addressable at addressable
  exact ⟨_, Word.add_of_lt (by omega)⟩

theorem WellFormed.answers_placement? (wellFormed : arena.WellFormed)
    (addressable : arena.Addressable) (small : size + granule < Word.limit) :
    Answers (arena.placement? size) := by
  refine (wellFormed.answers_room? small).bind fun room _ => ?_
  cases room with
  | none => exact answers_pure _
  | some room =>
      exact (wellFormed.answers_frontier addressable).bind fun address _ => answers_pure _

theorem answers_fitsWithin (whole : WholeGranules size) (small : size + granule < Word.limit)
    (fits : arena.used + size < Word.limit) (limit : Float) :
    Answers (arena.fitsWithin size limit) := by
  refine (answers_alignSize small).bind fun aligned aligns => ?_
  rw [whole.eq_of_alignSize aligns]
  exact Answers.bind ⟨_, Word.add_of_lt fits⟩ fun filled _ => answers_pure _

theorem answers_grow {additional : Nat} (fits : arena.capacity + additional < Word.limit) :
    Answers (arena.grow additional) :=
  Answers.bind ⟨_, Word.add_of_lt fits⟩ fun _ _ => answers_pure _

/-! ## Slides -/

private theorem answers_take {base : Nat} {slide : Slide} {resident : Resident}
    (keep : Handle → Bool) (lower : slide.cursor ≤ resident.offset)
    (source : base + resident.offset < Word.limit) (finish : resident.finish < Word.limit) :
    Answers (Slide.take base keep slide resident) := by
  unfold Resident.finish at finish
  have target : base + slide.cursor < Word.limit := by omega
  have cursor : slide.cursor + resident.size < Word.limit := by omega
  have placed : ∀ moved, Answers (do
      let cursor ← Word.add slide.cursor resident.size
      return ({ cursor, kept := slide.kept.push { resident with offset := slide.cursor }, moved } :
        Slide)) :=
    fun moved => Answers.bind ⟨_, Word.add_of_lt cursor⟩ fun _ _ => answers_pure _
  unfold Slide.take
  split
  · dsimp only
    split
    · exact (answers_pure _).bind fun moved _ => placed moved
    · refine Answers.bind ⟨_, Word.add_of_lt source⟩ fun _ _ => ?_
      refine Answers.bind ⟨_, Word.add_of_lt target⟩ fun _ _ => ?_
      exact (answers_pure _).bind fun moved _ => placed moved
  · exact answers_pure _

/-- What stays never takes more room than all that was there, so nothing moves up. A slide
answers as soon as the residents have addresses. -/
theorem WellFormed.answers_slide_of_addresses (wellFormed : arena.WellFormed)
    (fits : arena.capacity < Word.limit)
    (addresses : ∀ resident ∈ arena.residents.toList,
      arena.base + resident.offset < Word.limit) (keep : Handle → Bool) :
    Answers (arena.slide keep) := by
  refine Answers.bind ?_ fun done _ => answers_pure _
  rw [← Array.foldlM_toList]
  refine answers_foldlM (fun seen (slide : Slide) => slide.cursor ≤ extentOf seen)
    (Nat.le_refl 0) ?_ ?_
  · intro seen resident rest slide split below
    have member : resident ∈ arena.residents.toList := by simp [split]
    have packed := wellFormed.packed
    have ends := wellFormed.finish_le_used member
    have inside := wellFormed.used_le
    rw [split] at packed
    have offset := packed.offset_eq
    exact answers_take keep (by omega) (addresses resident member) (by omega)
  · intro seen resident rest slide after _ below taken
    have room := extentOf_filter_le (fun other => keep other.handle) [resident]
    rw [(take_eq_ok taken).1, extentOf_append]
    omega

theorem WellFormed.answers_slide (wellFormed : arena.WellFormed)
    (addressable : arena.Addressable) (keep : Handle → Bool) : Answers (arena.slide keep) := by
  unfold Addressable at addressable
  refine wellFormed.answers_slide_of_addresses (by omega) (fun resident member => ?_) keep
  have inside := wellFormed.offset_lt_capacity member
  omega

end Arena

end Tenure
