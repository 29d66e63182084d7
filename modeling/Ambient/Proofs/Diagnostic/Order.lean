import Mathlib.Data.String.Basic
import Mathlib.Data.List.Basic
import Ambient.Diagnostic

namespace Ambient.Diagnostic

/-- Whether two diagnostics belong to one offset in one file, or to none. -/
def samePlace (d e : Diagnostic) : Bool := d.file = e.file && d.start = e.start

theorem before_total (d e : Diagnostic) : (d.before e || e.before d) = true := by
  rw [Bool.or_eq_true]
  unfold before
  cases d.file with
  | none =>
    cases e.file with
    | none => simpa using Nat.le_total d.start e.start
    | some g => exact .inl rfl
  | some f =>
    cases e.file with
    | none => exact .inr rfl
    | some g =>
      have starts := Nat.le_total d.start e.start
      rcases lt_trichotomy f g with less | rfl | greater
      · exact .inl (by simp [less])
      · simpa using starts
      · exact .inr (by simp [greater])

theorem before_trans (d e f : Diagnostic) (h : d.before e = true) (g : e.before f = true) :
    d.before f = true := by
  unfold before at *
  cases hd : d.file <;> cases he : e.file <;> cases hf : f.file <;>
    simp only [hd, he, hf, Bool.or_eq_true, Bool.and_eq_true, decide_eq_true_eq,
      Bool.false_eq_true] at *
  · exact Nat.le_trans h g
  · rcases h with h | ⟨rfl, h⟩
    · rcases g with g | ⟨rfl, g⟩
      · exact .inl (lt_trans h g)
      · exact .inl h
    · rcases g with g | ⟨rfl, g⟩
      · exact .inl g
      · exact .inr ⟨rfl, Nat.le_trans h g⟩

theorem before_of_samePlace {d e : Diagnostic} (h : d.samePlace e = true) :
    d.before e = true := by
  simp only [samePlace, Bool.and_eq_true, decide_eq_true_eq] at h
  obtain ⟨file, start⟩ := h
  unfold before
  rw [file, start]
  cases e.file <;> simp

theorem sort_perm (ds : List Diagnostic) : (sort ds).Perm ds := List.mergeSort_perm ds _

theorem sort_ordered (ds : List Diagnostic) : (sort ds).Pairwise fun d e => d.before e = true :=
  List.pairwise_mergeSort before_trans before_total ds

/-- Sorting leaves diagnostics of one place in their order. -/
theorem filter_sort (ds : List Diagnostic) (d : Diagnostic) :
    (sort ds).filter d.samePlace = ds.filter d.samePlace := by
  have ordered : (ds.filter d.samePlace).Pairwise fun e f => e.before f = true := by
    apply List.pairwise_of_forall_mem_list
    intro e he f hf
    have first := (List.mem_filter.mp he).2
    have second := (List.mem_filter.mp hf).2
    apply before_of_samePlace
    simp only [samePlace, Bool.and_eq_true, decide_eq_true_eq] at first second ⊢
    exact ⟨first.1.symm.trans second.1, first.2.symm.trans second.2⟩
  have within : (ds.filter d.samePlace).Sublist (sort ds) :=
    List.sublist_mergeSort before_trans before_total ordered List.filter_sublist
  have kept : (ds.filter d.samePlace).Sublist ((sort ds).filter d.samePlace) := by
    have filtered := within.filter d.samePlace
    simpa only [List.filter_filter, Bool.and_self] using filtered
  have lengths := ((sort_perm ds).filter d.samePlace).length_eq
  exact (kept.eq_of_length lengths.symm).symm

end Ambient.Diagnostic
