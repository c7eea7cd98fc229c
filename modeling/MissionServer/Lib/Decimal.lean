import Mathlib.Algebra.Ring.Nat
import Mathlib.Data.List.Basic
import Mathlib.Data.List.TakeWhile

/-!
# Decimal texts

The digits of a number and the number of some digits. Texts of a fixed width, filled up with zeros, are in the
order of their numbers, and so are texts put together from fields of fixed widths.
-/

namespace Decimal

/-! ### Digits -/

theorem isDigit_toDigits {n : Nat} {c : Char} (hc : c ∈ Nat.toDigits 10 n) : c.isDigit :=
  Nat.isDigit_of_mem_toDigits (by decide) (by decide) hc

theorem takeWhile_toDigits (n : Nat) {rest : List Char} (hrest : ∀ c ∈ rest.head?, c.isDigit = false) :
    (Nat.toDigits 10 n ++ rest).takeWhile Char.isDigit = Nat.toDigits 10 n := by
  rw [List.takeWhile_append_of_pos fun c hc => isDigit_toDigits hc]
  cases rest with
  | nil => rw [List.takeWhile_nil, List.append_nil]
  | cons c rest => rw [List.takeWhile_cons_of_neg (by simpa using hrest c rfl), List.append_nil]

theorem toNat_digit {c : Char} (hc : c.isDigit) : '0'.toNat ≤ c.toNat ∧ c.toNat ≤ '0'.toNat + 9 := by
  rw [Char.isDigit] at hc
  simp only [ge_iff_le, Bool.and_eq_true, decide_eq_true_eq, UInt32.le_iff_toNat_le] at hc
  exact hc

theorem utf8ByteSize_of_isDigit {l : List Char} (hl : ∀ c ∈ l, c.isDigit) :
    (String.ofList l).utf8ByteSize = l.length := by
  induction l with
  | nil => rfl
  | cons c l ih =>
      obtain ⟨hc, hl⟩ := List.forall_mem_cons.mp hl
      have hsize : c.utf8Size = 1 := by
        rw [Char.utf8Size_eq_one_iff, UInt32.le_iff_toNat_le]
        exact (toNat_digit hc).2.trans (by decide)
      rw [String.ofList_cons, String.utf8ByteSize_append, String.utf8ByteSize_singleton, hsize, ih hl, List.length_cons,
        Nat.add_comm]

theorem ofDigitChars_cons (c : Char) (l : List Char) :
    Nat.ofDigitChars 10 (c :: l) 0 = 10 ^ l.length * (c.toNat - '0'.toNat) + Nat.ofDigitChars 10 l 0 := by
  rw [Nat.ofDigitChars_cons, Nat.mul_zero, Nat.zero_add, Nat.ofDigitChars_eq_ofDigitChars_zero]

theorem ofDigitChars_lt {l : List Char} (hl : ∀ c ∈ l, c.isDigit) : Nat.ofDigitChars 10 l 0 < 10 ^ l.length := by
  induction l with
  | nil => simp
  | cons c l ih =>
      have hlow := ih fun c' hc' => hl c' (List.mem_cons_of_mem c hc')
      obtain ⟨-, hdigit⟩ := toNat_digit (hl c List.mem_cons_self)
      have hle : c.toNat - '0'.toNat ≤ 9 := by
        omega
      have hhigh := Nat.mul_le_mul_left (10 ^ l.length) hle
      rw [ofDigitChars_cons, List.length_cons, Nat.pow_succ]
      omega

theorem lt_iff_ofDigitChars_lt {l l' : List Char} (hl : ∀ c ∈ l, c.isDigit) (hl' : ∀ c ∈ l', c.isDigit)
    (hlen : l.length = l'.length) : l < l' ↔ Nat.ofDigitChars 10 l 0 < Nat.ofDigitChars 10 l' 0 := by
  induction l generalizing l' with
  | nil =>
      obtain rfl := List.length_eq_zero_iff.mp hlen.symm
      simp
  | cons c l ih =>
      cases l' with
      | nil => exact absurd hlen (by simp)
      | cons c' l' =>
          have hlen' : l.length = l'.length := Nat.succ.inj hlen
          have hdigits : ∀ d ∈ l, d.isDigit := fun d hd => hl d (List.mem_cons_of_mem c hd)
          have hdigits' : ∀ d ∈ l', d.isDigit := fun d hd => hl' d (List.mem_cons_of_mem c' hd)
          have hlow := ofDigitChars_lt hdigits
          have hlow' := ofDigitChars_lt hdigits'
          obtain ⟨hc, -⟩ := toNat_digit (hl c List.mem_cons_self)
          obtain ⟨hc', -⟩ := toNat_digit (hl' c' List.mem_cons_self)
          have hchars : c < c' ↔ c.toNat - '0'.toNat < c'.toNat - '0'.toNat := by
            rw [Char.lt_def, UInt32.lt_iff_toNat_lt]
            show c.toNat < c'.toNat ↔ _
            omega
          have heq : c = c' ↔ c.toNat - '0'.toNat = c'.toNat - '0'.toNat := by
            rw [Char.ext_iff, ← UInt32.toNat_inj]
            show c.toNat = c'.toNat ↔ _
            omega
          rw [List.cons_lt_cons_iff, ih hdigits hdigits' hlen', hchars, heq, ofDigitChars_cons, ofDigitChars_cons,
            ← hlen']
          rw [← hlen'] at hlow'
          generalize c.toNat - '0'.toNat = d
          generalize c'.toNat - '0'.toNat = d'
          generalize Nat.ofDigitChars 10 l 0 = n at hlow ⊢
          generalize Nat.ofDigitChars 10 l' 0 = n' at hlow' ⊢
          generalize 10 ^ l.length = p at hlow hlow' ⊢
          constructor
          · rintro (hlt | ⟨rfl, hlt⟩)
            · have hmul := Nat.mul_le_mul_left p (Nat.succ_le_of_lt hlt)
              rw [Nat.mul_succ] at hmul
              omega
            · omega
          · intro hlt
            obtain hd | hd | hd := Nat.lt_trichotomy d d'
            · exact .inl hd
            · subst hd
              exact .inr ⟨rfl, by omega⟩
            · have hmul := Nat.mul_le_mul_left p (Nat.succ_le_of_lt hd)
              rw [Nat.mul_succ] at hmul
              omega

/-! ### Fixed widths -/

/-- The digits of a number, filled up with zeros. -/
def padded (width n : Nat) : List Char := (Nat.toDigits 10 n).leftpad width '0'

theorem length_padded {width n : Nat} (hwidth : 0 < width) (hn : n < 10 ^ width) : (padded width n).length = width := by
  have hle := (Nat.length_toDigits_le_iff (by decide) hwidth).mpr hn
  rw [padded, List.length_leftpad, Nat.max_eq_left hle]

theorem isDigit_padded {width n : Nat} : ∀ c ∈ padded width n, c.isDigit := by
  intro c hc
  rw [padded, List.leftpad, List.mem_append, List.mem_replicate] at hc
  obtain ⟨-, rfl⟩ | hc := hc
  · rfl
  · exact isDigit_toDigits hc

theorem ofDigitChars_padded (width n : Nat) : Nat.ofDigitChars 10 (padded width n) 0 = n := by
  rw [padded, List.leftpad, Nat.ofDigitChars_append, Nat.ofDigitChars_replicate_zero, Nat.mul_zero,
    Nat.ofDigitChars_ten_toDigits]

theorem padded_injective {width n n' : Nat} (h : padded width n = padded width n') : n = n' := by
  rw [← ofDigitChars_padded width n, h, ofDigitChars_padded]

theorem padded_lt_iff {width n n' : Nat} (hwidth : 0 < width) (hn : n < 10 ^ width) (hn' : n' < 10 ^ width) :
    padded width n < padded width n' ↔ n < n' := by
  rw [lt_iff_ofDigitChars_lt isDigit_padded isDigit_padded (by rw [length_padded hwidth hn, length_padded hwidth hn']),
    ofDigitChars_padded, ofDigitChars_padded]

/-! ### Fields -/

theorem append_lt_append_iff {a a' b b' : List Char} (hlen : a.length = a'.length) :
    a ++ b < a' ++ b' ↔ a < a' ∨ a = a' ∧ b < b' := by
  induction a generalizing a' with
  | nil =>
      obtain rfl := List.length_eq_zero_iff.mp hlen.symm
      simp
  | cons c a ih =>
      cases a' with
      | nil => exact absurd hlen (by simp)
      | cons c' a' =>
          rw [List.cons_append, List.cons_append, List.cons_lt_cons_iff, List.cons_lt_cons_iff,
            ih (Nat.succ.inj hlen), List.cons.injEq]
          tauto

/-- Numbers next to one another, each in its width. -/
def fields : List (Nat × Nat) → List Char
  | [] => []
  | (width, n) :: rest => padded width n ++ fields rest

/-- The numbers have room in their widths. -/
def Fits (fs : List (Nat × Nat)) : Prop := ∀ f ∈ fs, 0 < f.1 ∧ f.2 < 10 ^ f.1

theorem length_fields {fs : List (Nat × Nat)} (hfs : Fits fs) : (fields fs).length = (fs.map (·.1)).sum := by
  induction fs with
  | nil => rfl
  | cons f fs ih =>
      obtain ⟨hpos, hn⟩ := hfs f List.mem_cons_self
      rw [fields, List.length_append, length_padded hpos hn, ih fun f hf => hfs f (List.mem_cons_of_mem _ hf),
        List.map_cons, List.sum_cons]

theorem isDigit_fields {fs : List (Nat × Nat)} : ∀ c ∈ fields fs, c.isDigit := by
  induction fs with
  | nil => simp [fields]
  | cons f fs ih =>
      intro c hc
      rw [fields] at hc
      exact (List.mem_append.mp hc).elim (isDigit_padded c) (ih c)

/-- Fields of the same widths are in the order of their numbers, the first number before the others. -/
theorem fields_lt_iff {fs fs' : List (Nat × Nat)} (hfs : Fits fs) (hfs' : Fits fs')
    (hwidths : fs.map (·.1) = fs'.map (·.1)) : fields fs < fields fs' ↔ fs.map (·.2) < fs'.map (·.2) := by
  induction fs generalizing fs' with
  | nil =>
      obtain rfl := List.map_eq_nil_iff.mp hwidths.symm
      simp [fields]
  | cons f fs ih =>
      cases fs' with
      | nil => exact absurd hwidths (by simp)
      | cons f' fs' =>
          obtain ⟨width, n⟩ := f
          obtain ⟨width', n'⟩ := f'
          rw [List.map_cons, List.map_cons, List.cons.injEq] at hwidths
          obtain ⟨hwidth, hrest⟩ := hwidths
          obtain rfl : width = width' := hwidth
          obtain ⟨hpos, hn⟩ : 0 < width ∧ n < 10 ^ width := hfs _ List.mem_cons_self
          obtain ⟨-, hn'⟩ : 0 < width ∧ n' < 10 ^ width := hfs' _ List.mem_cons_self
          have heq : padded width n = padded width n' ↔ n = n' := ⟨padded_injective, fun h => by rw [h]⟩
          rw [fields, fields, append_lt_append_iff (by rw [length_padded hpos hn, length_padded hpos hn']),
            padded_lt_iff hpos hn hn', heq, List.map_cons, List.map_cons, List.cons_lt_cons_iff,
            ih (fun f hf => hfs f (List.mem_cons_of_mem _ hf)) (fun f hf => hfs' f (List.mem_cons_of_mem _ hf)) hrest]

end Decimal
