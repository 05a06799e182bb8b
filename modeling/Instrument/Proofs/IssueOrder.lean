import Instrument.Document.Reading

namespace Instrument

def Inserted {α : Type} (a : α) (l l' : List α) : Prop :=
  ∃ front back, l = front ++ a :: back ∧ l' = front ++ back

namespace Inserted

variable {α : Type} {a b : α} {l l' : List α}

theorem cons (h : Inserted a l l') (b : α) : Inserted a (b :: l) (b :: l') := by
  obtain ⟨front, back, rfl, rfl⟩ := h
  exact ⟨b :: front, back, rfl, rfl⟩

theorem append (h : Inserted a l l') (more : List α) : Inserted a (l ++ more) (l' ++ more) := by
  obtain ⟨front, back, rfl, rfl⟩ := h
  exact ⟨front, back ++ more, by simp, by simp⟩

theorem filter {p : α → Bool} (h : Inserted a l l') (ha : p a = true) :
    Inserted a (l.filter p) (l'.filter p) := by
  obtain ⟨front, back, rfl, rfl⟩ := h
  refine ⟨front.filter p, back.filter p, ?_, List.filter_append ..⟩
  rw [List.filter_append, List.filter_cons_of_pos ha]

theorem filter_eq {p : α → Bool} (h : Inserted a l l') (ha : p a = false) :
    l.filter p = l'.filter p := by
  obtain ⟨front, back, rfl, rfl⟩ := h
  rw [List.filter_append, List.filter_append, List.filter_cons_of_neg (ne_true_of_eq_false ha)]

end Inserted

section Sorting

variable {α : Type} {le : α → α → Bool} {a b : α} {l l' : List α}

def putBefore (le : α → α → Bool) (a : α) (l : List α) : List α :=
  l.takeWhile (!le a ·) ++ a :: l.dropWhile (!le a ·)

theorem putBefore_cons_of_le (h : le a b = true) (l : List α) :
    putBefore le a (b :: l) = a :: b :: l := by
  simp [putBefore, h]

theorem putBefore_cons_of_not_le (h : le a b = false) (l : List α) :
    putBefore le a (b :: l) = b :: putBefore le a l := by
  simp [putBefore, h]

theorem putBefore_of_le (h : ∀ x ∈ l, le a x = true) : putBefore le a l = a :: l := by
  cases l with
  | nil => rfl
  | cons x rest => exact putBefore_cons_of_le (h x List.mem_cons_self) rest

variable (trans : ∀ a b c, le a b = true → le b c = true → le a c = true)
  (total : ∀ a b, (le a b || le b a) = true)
include trans total

theorem mergeSort_cons_eq (a : α) (l : List α) :
    (a :: l).mergeSort le = putBefore le a (l.mergeSort le) := by
  obtain ⟨l₁, l₂, hcons, hsorted, hbefore⟩ := List.mergeSort_cons trans total a l
  have hpairs := List.pairwise_mergeSort trans total (a :: l)
  rw [hcons, List.pairwise_append, List.pairwise_cons] at hpairs
  have hafter : ∀ x ∈ l₂, le a x = true := hpairs.2.1.1
  have hput : putBefore le a l₂ = a :: l₂ := putBefore_of_le hafter
  rw [hcons, hsorted]
  clear hcons hsorted hpairs
  induction l₁ with
  | nil => exact hput.symm
  | cons x rest ih =>
      rw [List.forall_mem_cons, Bool.not_eq_true'] at hbefore
      rw [List.cons_append, List.cons_append, putBefore_cons_of_not_le hbefore.1, ih hbefore.2]

omit total in
theorem Inserted.putBefore (h : Inserted b l l') (hsorted : l.Pairwise (le · · = true)) (a : α) :
    Inserted b (putBefore le a l) (putBefore le a l') := by
  obtain ⟨front, back, rfl, rfl⟩ := h
  induction front with
  | nil =>
      rw [List.nil_append, List.pairwise_cons] at hsorted
      cases hle : le a b with
      | false =>
          rw [List.nil_append, putBefore_cons_of_not_le hle]
          exact ⟨[], _, rfl, rfl⟩
      | true =>
          have hback : ∀ x ∈ back, le a x = true := fun x hx => trans a b x hle (hsorted.1 x hx)
          rw [List.nil_append, putBefore_cons_of_le hle, List.nil_append, putBefore_of_le hback]
          exact ⟨[a], back, rfl, rfl⟩
  | cons x rest ih =>
      rw [List.cons_append, List.pairwise_cons] at hsorted
      rw [List.cons_append, List.cons_append]
      cases hle : le a x with
      | false =>
          rw [putBefore_cons_of_not_le hle, putBefore_cons_of_not_le hle]
          exact (ih hsorted.2).cons x
      | true =>
          rw [putBefore_cons_of_le hle, putBefore_cons_of_le hle]
          exact ⟨a :: x :: rest, back, rfl, rfl⟩

theorem Inserted.mergeSort (h : Inserted a l l') :
    Inserted a (l.mergeSort le) (l'.mergeSort le) := by
  obtain ⟨front, back, rfl, rfl⟩ := h
  induction front with
  | nil =>
      obtain ⟨l₁, l₂, hcons, hsorted, -⟩ := List.mergeSort_cons trans total a back
      exact ⟨l₁, l₂, hcons, hsorted⟩
  | cons x rest ih =>
      rw [List.cons_append, List.cons_append, mergeSort_cons_eq trans total,
        mergeSort_cons_eq trans total]
      exact ih.putBefore trans (List.pairwise_mergeSort trans total _) x

end Sorting

namespace Document.Reader

variable {r r' : Reader} {issue : Issue}

theorem inserted_issuesWith {p : Issue → Bool} (h : Inserted issue r.issues r'.issues)
    (hissue : p issue = true) : Inserted issue (r.issuesWith p) (r'.issuesWith p) := by
  apply (h.filter hissue).mergeSort
  · intro a b c hab hbc
    simp only [decide_eq_true_eq] at *
    omega
  · intro a b
    simp only [Bool.or_eq_true, decide_eq_true_eq]
    omega

theorem issuesWith_eq {p : Issue → Bool} (h : Inserted issue r.issues r'.issues)
    (hissue : p issue = false) : r.issuesWith p = r'.issuesWith p := by
  rw [issuesWith, issuesWith, h.filter_eq hissue]

end Document.Reader

end Instrument
