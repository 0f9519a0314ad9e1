import Mathlib.Data.List.Infix

/-!
Marks in a queue, bounded by what stands behind them.

Elements join the queue at its end and leave it at its front, so what holds of the elements
behind a mark is kept when the queue gets shorter.
-/

namespace BekenSoc.QueueMarkers

open List

variable {α : Type*} {x mark answer : α} {pays : α → Bool} {line post : List α}
  {held reserve : Nat} {due : Bool}

theorem suffix_of_concat (h : mark :: post <:+ line ++ [x]) :
    (∃ rest, post = rest ++ [x] ∧ mark :: rest <:+ line) ∨ post = [] ∧ mark = x := by
  rcases suffix_concat_iff.mp h with hnil | ⟨front, heq, hsuffix⟩
  · cases hnil
  · cases front with
    | nil =>
      obtain ⟨rfl, rfl⟩ := List.cons.inj heq
      exact .inr ⟨rfl, rfl⟩
    | cons y rest =>
      obtain ⟨rfl, rfl⟩ := List.cons.inj heq
      exact .inl ⟨rest, rfl, hsuffix⟩

def Answered (mark answer : α) (line : List α) (due : Bool) : Prop :=
  ∀ post, mark :: post <:+ line → mark ∉ post ∧ (due = true ∨ answer ∈ post)

theorem Answered.tail (h : Answered mark answer (x :: line) due) : Answered mark answer line due :=
  fun post hpost => h post (hpost.trans (suffix_cons x line))

theorem Answered.concat (h : Answered mark answer line due) (hx : x ≠ mark) :
    Answered mark answer (line ++ [x]) due := by
  intro post hpost
  rcases suffix_of_concat hpost with ⟨rest, rfl, hrest⟩ | ⟨-, heq⟩
  · obtain ⟨hmark, hanswer⟩ := h rest hrest
    constructor
    · rw [mem_append, mem_singleton]
      rintro (hmem | heq)
      · exact hmark hmem
      · exact hx heq.symm
    · exact hanswer.imp_right fun hmem => mem_append_left _ hmem
  · exact absurd heq.symm hx

theorem Answered.concat_answer (h : Answered mark answer line due) (hne : answer ≠ mark) :
    Answered mark answer (line ++ [answer]) false := by
  intro post hpost
  refine ⟨(h.concat hne post hpost).1, .inr ?_⟩
  rcases suffix_of_concat hpost with ⟨rest, rfl, -⟩ | ⟨-, heq⟩
  · exact mem_append_right _ (mem_singleton_self answer)
  · exact absurd heq.symm hne

theorem answered_of_notMem (hmark : mark ∉ line) : Answered mark answer line due := by
  intro post hpost
  exact absurd (hpost.subset mem_cons_self) hmark

theorem answered_concat_mark (hmark : mark ∉ line) :
    Answered mark answer (line ++ [mark]) true := by
  intro post hpost
  refine ⟨?_, .inl rfl⟩
  rcases suffix_of_concat hpost with ⟨rest, -, hrest⟩ | ⟨rfl, -⟩
  · exact absurd (hrest.subset mem_cons_self) hmark
  · exact not_mem_nil

theorem Answered.notMem (h : Answered mark answer line false) (hanswer : answer ∉ line) :
    mark ∉ line := by
  intro hmem
  obtain ⟨front, post, rfl⟩ := append_of_mem hmem
  have hpost := h post (suffix_append front (mark :: post))
  rcases hpost.2 with hdue | hmem
  · cases hdue
  · exact hanswer (mem_append_right _ (mem_cons_of_mem _ hmem))

section Counting

variable [DecidableEq α]

theorem Answered.count_le (h : Answered mark answer line due) : line.count mark ≤ 1 := by
  induction line with
  | nil => exact Nat.zero_le 1
  | cons x line ih =>
    rcases eq_or_ne x mark with rfl | hne
    · rw [count_cons_self, count_eq_zero.mpr (h line suffix_rfl).1]
    · rw [count_cons_of_ne hne]
      exact ih h.tail

def Spaced (mark : α) (pays : α → Bool) (line : List α) (held reserve : Nat) : Prop :=
  ∀ post, mark :: post <:+ line → post.count mark + reserve ≤ post.countP pays + held

theorem spaced_nil (mark : α) (pays : α → Bool) (held reserve : Nat) :
    Spaced mark pays [] held reserve := by
  intro post hpost
  have hnil := suffix_nil.mp hpost
  cases hnil

theorem Spaced.tail (h : Spaced mark pays (x :: line) held reserve) :
    Spaced mark pays line held reserve :=
  fun post hpost => h post (hpost.trans (suffix_cons x line))

theorem Spaced.mono {held' reserve' : Nat} (h : Spaced mark pays line held reserve)
    (hle : reserve' + held ≤ reserve + held') : Spaced mark pays line held' reserve' := by
  intro post hpost
  have hpaid := h post hpost
  omega

theorem Spaced.concat_mark (h : Spaced mark pays line held 1) :
    Spaced mark pays (line ++ [mark]) held 0 := by
  intro post hpost
  rcases suffix_of_concat hpost with ⟨rest, rfl, hrest⟩ | ⟨rfl, -⟩
  · have hpaid := h rest hrest
    rw [count_append, count_singleton_self, countP_append]
    omega
  · rw [count_nil]
    omega

theorem Spaced.concat_pays (h : Spaced mark pays line (held + 1) reserve) (hx : x ≠ mark)
    (hpays : pays x = true) : Spaced mark pays (line ++ [x]) held reserve := by
  intro post hpost
  rcases suffix_of_concat hpost with ⟨rest, rfl, hrest⟩ | ⟨-, heq⟩
  · have hpaid := h rest hrest
    rw [count_append, count_cons_of_ne hx, countP_append, countP_singleton, if_pos hpays, count_nil]
    omega
  · exact absurd heq.symm hx

theorem Spaced.concat (h : Spaced mark pays line held reserve) (hx : x ≠ mark) :
    Spaced mark pays (line ++ [x]) held reserve := by
  intro post hpost
  rcases suffix_of_concat hpost with ⟨rest, rfl, hrest⟩ | ⟨-, heq⟩
  · have hpaid := h rest hrest
    rw [count_append, count_cons_of_ne hx, countP_append, count_nil]
    omega
  · exact absurd heq.symm hx

theorem Spaced.count_le (h : Spaced mark pays line held reserve) (hreserve : reserve ≤ 1) :
    line.count mark + reserve ≤ 1 + line.countP pays + held := by
  induction line with
  | nil =>
    rw [count_nil]
    omega
  | cons x line ih =>
    have hrest := ih h.tail
    have hle : line.countP pays ≤ (x :: line).countP pays := (sublist_cons_self x line).countP_le
    rcases eq_or_ne x mark with rfl | hne
    · have hpaid := h line suffix_rfl
      rw [count_cons_self]
      omega
    · rw [count_cons_of_ne hne]
      omega

end Counting

end BekenSoc.QueueMarkers
