import Mathlib.Data.List.Chain
import Mathlib.Data.List.Iterate
import Mathlib.Data.List.Perm.Basic
import Mathlib.Data.Nat.ModEq

/-!
# Tickets

A counter gives out tickets, one after the other, and whoever takes one delivers it later or loses it. The
tickets arrive in order when no one delivers while an earlier ticket is still missing. The counter may wrap
around; what is then said of two tickets is said modulo its period.
-/

namespace Ticket

open List

variable {ν : Type*} (next : ν → ν)

/-- The tickets come one after the other. -/
def Consecutive (delivered : List ν) : Prop := delivered.IsChain fun x y => y = next x

instance [DecidableEq ν] (delivered : List ν) : Decidable (Consecutive next delivered) :=
  inferInstanceAs (Decidable (delivered.IsChain _))

/-- They do so from the first one on. -/
structure InOrder (first : ν) (delivered : List ν) : Prop where
  first : ∀ x ∈ delivered.head?, x = first
  consecutive : Consecutive next delivered

variable {next} {first : ν} {delivered : List ν}

theorem inOrder_nil : InOrder next first [] := ⟨by simp, .nil⟩

theorem inOrder_iff_eq_iterate : InOrder next first delivered ↔ delivered = iterate next first delivered.length := by
  induction delivered generalizing first with
  | nil => exact ⟨fun _ => rfl, fun _ => inOrder_nil⟩
  | cons x delivered ih =>
      rw [length_cons, iterate, cons.injEq, ← ih]
      constructor
      · intro h
        have hfirst : x = first := h.first x rfl
        refine ⟨hfirst, fun y hy => ?_, (isChain_cons.mp h.consecutive).2⟩
        rw [← hfirst]
        exact (isChain_cons.mp h.consecutive).1 y hy
      · intro hboth
        obtain ⟨rfl, h⟩ := hboth
        exact ⟨by simp, isChain_cons.mpr ⟨h.first, h.consecutive⟩⟩

theorem inOrder_concat {x : ν} (h : InOrder next first delivered) :
    InOrder next first (delivered ++ [x]) ↔ x = next^[delivered.length] first := by
  have hsplit : iterate next first (delivered.length + 1) = delivered ++ [next^[delivered.length] first] := by
    rw [iterate_add, ← inOrder_iff_eq_iterate.mp h]
    rfl
  rw [inOrder_iff_eq_iterate, length_append, length_singleton, hsplit, append_right_inj, singleton_inj]

theorem consecutive_concat {x : ν} (h : Consecutive next delivered) :
    Consecutive next (delivered ++ [x]) ↔ ∀ first ∈ delivered.head?, x = next^[delivered.length] first := by
  cases delivered with
  | nil => exact iff_of_true (.singleton x) (by simp)
  | cons first rest =>
      have hfirst : InOrder next first (first :: rest) := ⟨by simp, h⟩
      have hconcat : InOrder next first (first :: rest ++ [x]) ↔ Consecutive next (first :: rest ++ [x]) :=
        ⟨fun h => h.consecutive, fun h => ⟨by simp, h⟩⟩
      rw [← hconcat, inOrder_concat hfirst]
      simp

/-! ### Missing tickets

A ticket is given by how many were taken before it. -/

/-- The earlier tickets that are missing, and the later ones that have been delivered. -/
def earlier (missing : List ℕ) (i : ℕ) : ℕ := (missing.filter (· < i)).length
def later (done : List ℕ) (i : ℕ) : ℕ := (done.filter (i < ·)).length

variable {done missing : List ℕ} {i n : ℕ}

/-- Of the tickets before a missing one all are missing or delivered, and so the one count makes up for the other. -/
theorem add_later (hall : (done ++ i :: missing) ~ range n) :
    i + later done i = done.length + earlier missing i := by
  have hnodup : (done ++ i :: missing).Nodup := hall.nodup_iff.mpr nodup_range
  have hi : i < n := mem_range.mp (hall.mem_iff.mp (by simp))
  have hbefore : (range n).filter (· < i) = range i := by
    obtain ⟨k, rfl⟩ : ∃ k, n = i + k := Nat.exists_eq_add_of_le hi.le
    rw [range_add, filter_append, filter_eq_self.mpr (by simp), filter_eq_nil_iff.mpr (by simp), append_nil]
  have hcount := (hall.filter (· < i)).length_eq
  rw [hbefore, length_range, filter_append, filter_cons, length_append, if_neg (by simp)] at hcount
  have hsplit : done.length = (done.filter (· < i)).length + later done i := by
    have hnot : done.filter (fun j => !decide (j < i)) = done.filter (i < ·) := by
      refine filter_congr fun j hj => ?_
      have hne : j ≠ i := by
        rintro rfl
        exact (nodup_append.mp hnodup).2.2 j hj j (by simp) rfl
      simp only [← decide_not, not_lt, decide_eq_decide]
      omega
    rw [later, ← hnot]
    exact length_eq_length_filter_add _
  rw [earlier]
  omega

theorem modEq_length_add_iff {period j : ℕ} (hall : (done ++ i :: missing) ~ range n) :
    i ≡ done.length + j [MOD period] ↔ earlier missing i ≡ j + later done i [MOD period] := by
  have hadd := add_later hall
  constructor
  · intro hi
    have hboth : done.length + earlier missing i ≡ done.length + (j + later done i) [MOD period] := by
      rw [← hadd, ← Nat.add_assoc]
      exact hi.add_right _
    exact Nat.ModEq.add_left_cancel' _ hboth
  · intro hi
    have hboth : i + later done i ≡ done.length + j + later done i [MOD period] := by
      rw [hadd, Nat.add_assoc]
      exact hi.add_left _
    exact Nat.ModEq.add_right_cancel' _ hboth

/-- A ticket comes in its turn exactly when as many earlier ones are missing as later ones have been delivered,
modulo the period of the counter. -/
theorem InOrder.deliver_iff {period : ℕ} (hperiod : ∀ a b, next^[a] first = next^[b] first ↔ a ≡ b [MOD period])
    (h : InOrder next first (done.map (next^[·] first))) (hall : (done ++ i :: missing) ~ range n) :
    InOrder next first (done.map (next^[·] first) ++ [next^[i] first]) ↔
      earlier missing i ≡ later done i [MOD period] := by
  have hturn := @modEq_length_add_iff done missing i n period 0 hall
  rw [Nat.add_zero, Nat.zero_add] at hturn
  rw [inOrder_concat h, length_map, hperiod, hturn]

/-- It comes next after the others exactly when the tickets before the first of them are counted in. -/
theorem Consecutive.deliver_iff {period : ℕ}
    (hperiod : ∀ a b, next^[a] first = next^[b] first ↔ a ≡ b [MOD period])
    (h : Consecutive next (done.map (next^[·] first))) (hall : (done ++ i :: missing) ~ range n) :
    Consecutive next (done.map (next^[·] first) ++ [next^[i] first]) ↔
      ∀ j ∈ done.head?, earlier missing i ≡ j + later done i [MOD period] := by
  rw [consecutive_concat h, length_map, head?_map]
  simp only [Option.mem_map, forall_exists_index, and_imp, forall_apply_eq_imp_iff₂]
  refine forall₂_congr fun j _ => ?_
  rw [← Function.iterate_add_apply, hperiod, modEq_length_add_iff hall]

/-- Where nothing later has been delivered and less than a period is missing, nothing earlier may be missing. -/
theorem earlier_modEq_later_iff {period : ℕ} (hdone : ∀ j ∈ done, j ≤ i) (hfew : missing.length < period) :
    earlier missing i ≡ later done i [MOD period] ↔ ∀ j ∈ missing, i ≤ j := by
  have hlater : later done i = 0 := by
    rw [later, filter_eq_nil_iff.mpr (by simpa using hdone), length_nil]
  have hle : earlier missing i ≤ missing.length := length_filter_le _ _
  rw [hlater, Nat.modEq_zero_iff_dvd, Nat.dvd_iff_mod_eq_zero, Nat.mod_eq_of_lt (hle.trans_lt hfew), earlier,
    length_eq_zero_iff, filter_eq_nil_iff]
  simp

end Ticket
