import Mathlib.Algebra.Order.Group.Basic
import Mathlib.Algebra.Order.Monoid.OrderDual
import Mathlib.Data.List.Chain

/-!
# A periodic action

A loop reads a clock and acts where a period has passed since it last acted, or since it began. The clock may stand
still and go back, and the action is never early all the same. How late it comes depends on how far the clock goes
ahead between one reading and the next.
-/

namespace Periodic

variable {α : Type*}

theorem isChain_cons_concat {R : α → α → Prop} {a b : α} {l : List α} :
    (a :: (l ++ [b])).IsChain R ↔ (a :: l).IsChain R ∧ R (l.getLastD a) b := by
  rw [← List.cons_append, List.isChain_append]
  simp [List.getLast?_cons, List.getLastD_eq_getLast?]

/-! ### The loop -/

variable [AddCommGroup α] [LinearOrder α]

/-- The readings at which the loop acts; `timer` is when it last did. -/
def fires (period : α) : α → List α → List α
  | _, [] => []
  | timer, now :: readings =>
      if period ≤ now - timer then now :: fires period now readings else fires period timer readings

variable {period timer : α}

theorem fires_concat (readings : List α) (now : α) :
    fires period timer (readings ++ [now]) =
      fires period timer readings ++
        if period ≤ now - (fires period timer readings).getLastD timer then [now] else [] := by
  induction readings generalizing timer with
  | nil => rfl
  | cons reading readings ih =>
      rw [List.cons_append, fires, fires]
      by_cases hdue : period ≤ reading - timer
      · rw [if_pos hdue, if_pos hdue, ih, List.getLastD_cons, List.cons_append]
      · rw [if_neg hdue, if_neg hdue, ih]

theorem fires_sublist (readings : List α) : (fires period timer readings).Sublist readings := by
  induction readings generalizing timer with
  | nil => exact .slnil
  | cons reading readings ih =>
      rw [fires]
      split_ifs
      · exact ih.cons_cons reading
      · exact ih.cons reading

/-- Never early, whatever the clock does. -/
theorem isChain_fires (readings : List α) :
    (timer :: fires period timer readings).IsChain fun earlier later => period ≤ later - earlier := by
  induction readings generalizing timer with
  | nil => exact .singleton timer
  | cons reading readings ih =>
      rw [fires]
      split_ifs with hdue
      · exact List.isChain_cons_cons.mpr ⟨hdue, ih⟩
      · exact ih

/-! ### How late, and how often -/

theorem getLastD_lt (hperiod : 0 < period) (readings : List α) :
    readings.getLastD timer - (fires period timer readings).getLastD timer < period := by
  obtain rfl | ⟨readings, now, rfl⟩ := List.eq_nil_or_concat readings
  · rw [fires, sub_self]
    exact hperiod
  · rw [List.concat_eq_append, fires_concat, List.getLastD_concat]
    split_ifs with hdue
    · rw [List.getLastD_concat, sub_self]
      exact hperiod
    · rw [List.append_nil]
      exact not_le.mp hdue

variable [IsOrderedAddMonoid α]

theorem length_nsmul_le {step a : α} {l : List α} (h : (a :: l).IsChain fun x y => step ≤ y - x) :
    l.length • step ≤ l.getLastD a - a := by
  induction l generalizing a with
  | nil => simp
  | cons b l ih =>
      obtain ⟨hstep, hrest⟩ := List.isChain_cons_cons.mp h
      rw [List.getLastD_cons, List.length_cons, succ_nsmul, ← sub_add_sub_cancel _ b]
      exact add_le_add (ih hrest) hstep

theorem le_length_nsmul {step a : α} {l : List α} (h : (a :: l).IsChain fun x y => y - x ≤ step) :
    l.getLastD a - a ≤ l.length • step :=
  length_nsmul_le (α := αᵒᵈ) h

variable {gap : α}

/-- Late by no more than the clock goes ahead between two readings. -/
theorem isChain_fires_lt (hperiod : 0 < period) {readings : List α}
    (hgap : (timer :: readings).IsChain fun earlier later => later - earlier ≤ gap) :
    (timer :: fires period timer readings).IsChain fun earlier later => later - earlier < period + gap := by
  induction readings using List.reverseRecOn with
  | nil => exact .singleton timer
  | append_singleton readings now ih =>
      obtain ⟨hbefore, hlast⟩ := isChain_cons_concat.mp hgap
      rw [fires_concat]
      split_ifs
      · refine isChain_cons_concat.mpr ⟨ih hbefore, ?_⟩
        rw [← sub_add_sub_cancel now (readings.getLastD timer), add_comm period]
        exact add_lt_add_of_le_of_lt hlast (getLastD_lt hperiod readings)
      · rw [List.append_nil]
        exact ih hbefore

/-- The loop keeps up: each action accounts for a period and one more reading. -/
theorem getLastD_sub_lt (hperiod : 0 < period) {readings : List α}
    (hgap : (timer :: readings).IsChain fun earlier later => later - earlier ≤ gap) :
    readings.getLastD timer - timer < (fires period timer readings).length • (period + gap) + period := by
  have hfires : (timer :: fires period timer readings).IsChain fun earlier later => later - earlier ≤ period + gap :=
    (isChain_fires_lt hperiod hgap).imp fun _ _ h => h.le
  rw [← sub_add_sub_cancel _ ((fires period timer readings).getLastD timer), add_comm]
  exact add_lt_add_of_le_of_lt (le_length_nsmul hfires) (getLastD_lt hperiod readings)

end Periodic
