import Mathlib.Data.Int.Order.Basic
import Mathlib.Data.Nat.Init
import Mathlib.Order.Nat

/-!
# Pushing a buffer through a call that takes it in pieces

The loop of every POSIX writer: call with what is left, stop on a negative result, add a count to the
offset, stop when the offset has reached the size. `push` runs it on a list of call outcomes and a
state the calls act on; when the outcomes run out the loop is still inside a call. The rules below
reduce a fact about the loop to a fact about one call.
-/

namespace PushLoop

/-- How a push stands: still inside a call, stopped by an error, or finished. -/
inductive Status
  | pending
  | failed
  | done
  deriving DecidableEq, Repr

variable {ρ σ : Type*} (call : Nat → ρ → σ → σ × Int) (size : Nat)

/-- The loop from offset `off`. The call at an offset returns the new state and its C result. -/
def push : Nat → List ρ → σ → σ × Status
  | _, [], s => (s, .pending)
  | off, r :: rs, s =>
      let (s', n) := call off r s
      if n < 0 then (s', .failed)
      else if off + n.toNat = size then (s', .done)
      else push (off + n.toNat) rs s'

variable {call size}

theorem push_cons_failed {off : Nat} {r : ρ} {rs : List ρ} {s : σ} (h : (call off r s).2 < 0) :
    push call size off (r :: rs) s = ((call off r s).1, .failed) := by
  simp only [push, h, if_true]

theorem push_cons_done {off : Nat} {r : ρ} {rs : List ρ} {s : σ} (h : 0 ≤ (call off r s).2)
    (hsize : off + (call off r s).2.toNat = size) :
    push call size off (r :: rs) s = ((call off r s).1, .done) := by
  simp only [push, not_lt.mpr h, if_false, hsize, if_true]

theorem push_cons_next {off : Nat} {r : ρ} {rs : List ρ} {s : σ} (h : 0 ≤ (call off r s).2)
    (hsize : off + (call off r s).2.toNat ≠ size) :
    push call size off (r :: rs) s = push call size (off + (call off r s).2.toNat) rs (call off r s).1 := by
  simp only [push, not_lt.mpr h, if_false, hsize]

variable (call size) in
/-- What every call keeps, the loop keeps, however it ends. -/
theorem push_invariant {P : σ → Prop} (hcall : ∀ off r s, P s → P (call off r s).1) (off : Nat) (rs : List ρ) {s : σ}
    (h : P s) : P (push call size off rs s).1 := by
  induction rs generalizing off s with
  | nil => exact h
  | cons r rs ih =>
      have hnext : P (call off r s).1 := hcall off r s h
      simp only [push]
      split_ifs
      · exact hnext
      · exact hnext
      · exact ih _ hnext

variable (call size) in
/-- The loop rule. `P off s` holds on entry to every call; a call that fails leaves `F`; a count moves
`P` along and stays within the size. -/
theorem push_rule {P : Nat → σ → Prop} {F : σ → Prop}
    (hfail : ∀ off r s, P off s → off < size → (call off r s).2 < 0 → F (call off r s).1)
    (hcount : ∀ off r s, P off s → off < size → 0 ≤ (call off r s).2 →
      off + (call off r s).2.toNat ≤ size ∧ P (off + (call off r s).2.toNat) (call off r s).1)
    {off : Nat} (rs : List ρ) {s : σ} (hoff : off < size) (hP : P off s) :
    match push call size off rs s with
    | (s', .pending) => ∃ off', off ≤ off' ∧ off' < size ∧ P off' s'
    | (s', .failed) => F s'
    | (s', .done) => P size s' := by
  induction rs generalizing off s with
  | nil => exact ⟨off, le_rfl, hoff, hP⟩
  | cons r rs ih =>
      by_cases hneg : (call off r s).2 < 0
      · rw [push_cons_failed hneg]
        exact hfail off r s hP hoff hneg
      · have hpos : 0 ≤ (call off r s).2 := not_lt.mp hneg
        obtain ⟨hle, hnext⟩ := hcount off r s hP hoff hpos
        by_cases hsize : off + (call off r s).2.toNat = size
        · rw [push_cons_done hpos hsize]
          rw [hsize] at hnext
          exact hnext
        · rw [push_cons_next hpos hsize]
          have hrest := ih (lt_of_le_of_ne hle hsize) hnext
          revert hrest
          generalize push call size (off + (call off r s).2.toNat) rs (call off r s).1 = result
          obtain ⟨s', status⟩ := result
          cases status with
          | pending =>
              intro hrest
              obtain ⟨off', hge, hlt, hP'⟩ := hrest
              exact ⟨off', by omega, hlt, hP'⟩
          | failed => exact id
          | done => exact id

/-- The loop ends within as many calls as there are bytes, where none of them returns zero. -/
theorem push_terminates {P : Nat → σ → Prop} (rs : List ρ)
    (hcount : ∀ off s, ∀ r ∈ rs, P off s → off < size → 0 ≤ (call off r s).2 →
      0 < (call off r s).2 ∧ off + (call off r s).2.toNat ≤ size ∧
        P (off + (call off r s).2.toNat) (call off r s).1)
    {off : Nat} {s : σ} (hoff : off < size) (hP : P off s) (hlen : size ≤ off + rs.length) :
    (push call size off rs s).2 ≠ .pending := by
  induction rs generalizing off s with
  | nil => simp only [List.length_nil, Nat.add_zero] at hlen; omega
  | cons r rs ih =>
      by_cases hneg : (call off r s).2 < 0
      · rw [push_cons_failed hneg]
        simp
      · have hpos : 0 ≤ (call off r s).2 := not_lt.mp hneg
        obtain ⟨hstrict, hle, hnext⟩ := hcount off s r List.mem_cons_self hP hoff hpos
        by_cases hsize : off + (call off r s).2.toNat = size
        · rw [push_cons_done hpos hsize]
          simp
        · rw [push_cons_next hpos hsize]
          apply ih (fun off s r' hr' => hcount off s r' (List.mem_cons_of_mem r hr')) (lt_of_le_of_ne hle hsize) hnext
          simp only [List.length_cons] at hlen
          omega

theorem push_append {off : Nat} {rs : List ρ} {s : σ} (h : (push call size off rs s).2 ≠ .pending) (rs' : List ρ) :
    push call size off (rs ++ rs') s = push call size off rs s := by
  induction rs generalizing off s with
  | nil => exact absurd rfl h
  | cons r rs ih =>
      rw [List.cons_append]
      by_cases hneg : (call off r s).2 < 0
      · rw [push_cons_failed hneg, push_cons_failed hneg]
      · have hpos : 0 ≤ (call off r s).2 := not_lt.mp hneg
        by_cases hsize : off + (call off r s).2.toNat = size
        · rw [push_cons_done hpos hsize, push_cons_done hpos hsize]
        · rw [push_cons_next hpos hsize] at h
          rw [push_cons_next hpos hsize, push_cons_next hpos hsize]
          exact ih h

/-- A push that is still inside a call goes on from an offset within the size. -/
theorem push_append_pending (hcount : ∀ off r s, off < size → 0 ≤ (call off r s).2 →
      off + (call off r s).2.toNat ≤ size)
    {off : Nat} {rs : List ρ} {s : σ} (hoff : off < size) (h : (push call size off rs s).2 = .pending) :
    ∃ off' < size, ∀ rs', push call size off (rs ++ rs') s = push call size off' rs' (push call size off rs s).1 := by
  induction rs generalizing off s with
  | nil => exact ⟨off, hoff, fun rs' => rfl⟩
  | cons r rs ih =>
      by_cases hneg : (call off r s).2 < 0
      · rw [push_cons_failed hneg] at h
        exact absurd h (by simp)
      · have hpos : 0 ≤ (call off r s).2 := not_lt.mp hneg
        by_cases hsize : off + (call off r s).2.toNat = size
        · rw [push_cons_done hpos hsize] at h
          exact absurd h (by simp)
        · rw [push_cons_next hpos hsize] at h
          obtain ⟨off', hlt, hrest⟩ := ih (lt_of_le_of_ne (hcount off r s hoff hpos) hsize) h
          refine ⟨off', hlt, fun rs' => ?_⟩
          rw [List.cons_append, push_cons_next hpos hsize, push_cons_next hpos hsize, hrest]

/-- Two loops whose calls agree under a view of the state end alike. -/
theorem push_view {τ : Type*} {call' : Nat → ρ → τ → τ × Int} (view : σ → τ)
    (hcall : ∀ off r s, call' off r (view s) = (view (call off r s).1, (call off r s).2)) (off : Nat) (rs : List ρ)
    (s : σ) : push call' size off rs (view s) = (view (push call size off rs s).1, (push call size off rs s).2) := by
  induction rs generalizing off s with
  | nil => rfl
  | cons r rs ih =>
      simp only [push, hcall]
      split_ifs
      · rfl
      · rfl
      · exact ih _ _

end PushLoop
