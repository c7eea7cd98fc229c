import Mathlib.Data.List.AList
import Mathlib.Data.List.Nodup
import Mathlib.Data.List.Perm.Subperm

/-!
# Singly linked lists

Cells with a pointer to the next one, and a variable that points to the first. Every access goes through memory, and
one to a cell that is not allocated has no result. A null pointer is `none`.
-/

namespace LinkedList

variable {A α : Type*}

structure Cell (A α : Type*) where
  value : α
  next : Option A

/-- Where a pointer into the list stands: in the variable, or in a cell. -/
inductive Link (A : Type*)
  | first
  | next (a : A)
  deriving DecidableEq

/-- The cells that are allocated, and the variable. -/
structure Memory (A α : Type*) where
  cells : AList fun _ : A => Cell A α := ∅
  first : Option A := none

section Access

variable [DecidableEq A]

namespace Memory

def read (m : Memory A α) (a : A) : Option (Cell A α) := m.cells.lookup a

/-- The pointer that stands at a link. -/
def load (m : Memory A α) : Link A → Option (Option A)
  | .first => some m.first
  | .next a => (m.read a).map Cell.next

def store (m : Memory A α) (link : Link A) (p : Option A) : Option (Memory A α) :=
  match link with
  | .first => some { m with first := p }
  | .next a => (m.read a).map fun cell => { m with cells := m.cells.insert a { cell with next := p } }

/-- A new cell, that points to no other. -/
def alloc (m : Memory A α) (a : A) (x : α) : Memory A α :=
  { m with cells := m.cells.insert a { value := x, next := none } }

def free (m : Memory A α) (a : A) : Option (Memory A α) :=
  (m.read a).map fun _ => { m with cells := m.cells.erase a }

/-- The walk from a cell to the last one. It visits each cell once, or it does not end. -/
def last (m : Memory A α) : Nat → A → Option A
  | 0, _ => none
  | steps + 1, a => (m.read a).bind fun cell =>
      match cell.next with
      | none => some a
      | some b => m.last steps b

/-- The number of cells. -/
def size (m : Memory A α) : Nat := m.cells.entries.length

/-- A cell is put behind the last one. -/
def append (m : Memory A α) (a : A) : Option (Memory A α) :=
  match m.first with
  | none => m.store .first (some a)
  | some b => (m.last m.size b).bind fun c => m.store (.next c) (some a)

/-- A cell is taken out of the list at the link that points to it, and is freed. -/
def unlink (m : Memory A α) (link : Link A) (a : A) : Option (Memory A α × Option A) :=
  (m.read a).bind fun cell => (m.store link cell.next).bind fun m => (m.free a).map (·, cell.next)

end Memory

end Access

/-! ### The list in memory -/

/-- The cells from one pointer up to another hold some values. -/
def Segment (read : A → Option (Cell A α)) (p : Option A) : List (A × α) → Option A → Prop
  | [], q => p = q
  | x :: xs, q => p = some x.1 ∧ ∃ next, read x.1 = some { value := x.2, next } ∧ Segment read next xs q

/-- The pointer to the first cell of a list that ends. -/
def start (xs : List (A × α)) : Option A := xs.head?.map Prod.fst

/-- The link that points to what comes after some cells. -/
def linkAfter (xs : List (A × α)) : Link A :=
  match xs.getLast? with
  | none => .first
  | some x => .next x.1

theorem linkAfter_concat (xs : List (A × α)) (x : A × α) : linkAfter (xs ++ [x]) = .next x.1 := by
  simp [linkAfter]

section Segments

variable {read read' : A → Option (Cell A α)} {p q r : Option A} {xs ys : List (A × α)}

theorem segment_append : Segment read p (xs ++ ys) q ↔ ∃ r, Segment read p xs r ∧ Segment read r ys q := by
  induction xs generalizing p with
  | nil => exact ⟨fun h => ⟨p, rfl, h⟩, fun ⟨r, hr, h⟩ => (show p = r from hr) ▸ h⟩
  | cons x xs ih =>
      constructor
      · rintro ⟨hp, next, hread, h⟩
        obtain ⟨r, hxs, hys⟩ := ih.mp h
        exact ⟨r, ⟨hp, next, hread, hxs⟩, hys⟩
      · rintro ⟨r, ⟨hp, next, hread, hxs⟩, hys⟩
        exact ⟨hp, next, hread, ih.mpr ⟨r, hxs, hys⟩⟩

theorem segment_congr (h : ∀ x ∈ xs, read' x.1 = read x.1) : Segment read p xs q → Segment read' p xs q := by
  induction xs generalizing p with
  | nil => exact id
  | cons x xs ih =>
      obtain ⟨hx, hxs⟩ := List.forall_mem_cons.mp h
      rintro ⟨hp, next, hread, hrest⟩
      exact ⟨hp, next, hx.trans hread, ih hxs hrest⟩

theorem Segment.start_eq (h : Segment read p xs none) : p = start xs := by
  cases xs with
  | nil => exact h
  | cons x xs => exact h.1

end Segments

theorem Memory.length_le_size {m : Memory A α} {as : List A} (hnodup : as.Nodup) (has : ∀ a ∈ as, a ∈ m.cells) :
    as.length ≤ m.size := by
  have hle := (hnodup.subperm (show as ⊆ m.cells.keys from has)).length_le
  rwa [AList.keys, List.keys, List.length_map] at hle

variable [DecidableEq A] {m : Memory A α} {xs pre post : List (A × α)} {a b : A} {x : α}

/-- The memory holds a list: the variable points to its first cell, and nothing else is allocated. -/
structure Memory.Holds (m : Memory A α) (xs : List (A × α)) : Prop where
  list : Segment m.read m.first xs none
  nodup : (xs.map Prod.fst).Nodup
  cells : ∀ a, a ∈ m.cells ↔ a ∈ xs.map Prod.fst

theorem holds_empty : ({} : Memory A α).Holds [] := ⟨rfl, List.nodup_nil, fun a => by simp⟩

theorem Memory.Holds.first_eq (h : m.Holds xs) : m.first = start xs := h.list.start_eq

theorem Memory.Holds.read_cell (h : m.Holds (pre ++ (a, x) :: post)) :
    m.read a = some { value := x, next := start post } := by
  obtain ⟨r, -, -, next, hread, hpost⟩ := segment_append.mp h.list
  rw [hread, hpost.start_eq]

theorem Memory.Holds.load_linkAfter (h : m.Holds (pre ++ post)) : m.load (linkAfter pre) = some (start post) := by
  rcases List.eq_nil_or_concat pre with rfl | ⟨front, y, rfl⟩
  · exact congrArg some h.first_eq
  · rw [List.concat_eq_append, List.append_assoc, List.singleton_append] at h
    rw [List.concat_eq_append, linkAfter_concat, Memory.load, h.read_cell]
    rfl

/-! ### Writing to memory -/

/-- The link after some cells is made to point elsewhere: up to there the list stays, and no other cell changes. -/
theorem store_linkAfter {q : Option A} (hlist : Segment m.read m.first pre q) (hnodup : (pre.map Prod.fst).Nodup)
    (p : Option A) :
    ∃ m', m.store (linkAfter pre) p = some m' ∧ Segment m'.read m'.first pre p ∧
      (∀ a ∉ pre.map Prod.fst, m'.read a = m.read a) ∧ ∀ a, a ∈ m'.cells ↔ a ∈ m.cells := by
  rcases List.eq_nil_or_concat pre with rfl | ⟨front, y, rfl⟩
  · exact ⟨{ m with first := p }, rfl, rfl, fun a _ => rfl, fun a => Iff.rfl⟩
  · rw [List.concat_eq_append] at hlist hnodup ⊢
    obtain ⟨r, hfront, rfl, next, hread, -⟩ := segment_append.mp hlist
    rw [List.map_append, List.nodup_append] at hnodup
    obtain ⟨-, -, hdisjoint⟩ := hnodup
    refine ⟨{ m with cells := m.cells.insert y.1 { value := y.2, next := p } }, ?_,
      segment_append.mpr ⟨some y.1, ?_, rfl, p, ?_, rfl⟩, fun a ha => ?_, fun a => ?_⟩
    · rw [linkAfter_concat, Memory.store, hread]
      rfl
    · refine segment_congr (fun z hz => ?_) hfront
      have hne : z.1 ≠ y.1 := hdisjoint z.1 (List.mem_map_of_mem hz) y.1 (by simp)
      exact AList.lookup_insert_ne hne
    · exact AList.lookup_insert _
    · have hne : a ≠ y.1 := by
        rintro rfl
        simp at ha
      exact AList.lookup_insert_ne hne
    · have hmem : y.1 ∈ m.cells := AList.lookup_isSome.mp (by rw [show m.cells.lookup y.1 = _ from hread]; rfl)
      rw [AList.mem_insert]
      exact or_iff_right_of_imp fun heq => heq ▸ hmem

theorem Memory.last_spec {c : A} {steps : Nat} {y : A × α} (h : Segment m.read (some c) (xs ++ [y]) none)
    (hsteps : xs.length < steps) : m.last steps c = some y.1 := by
  induction xs generalizing c steps with
  | nil =>
      obtain ⟨steps, rfl⟩ := Nat.exists_eq_add_of_lt hsteps
      obtain ⟨hc, next, hcell, rfl⟩ := h
      rw [Memory.last, Option.some.inj hc, hcell]
      rfl
  | cons z xs ih =>
      obtain ⟨steps, rfl⟩ := Nat.exists_eq_add_of_lt hsteps
      obtain ⟨hc, next, hcell, hrest⟩ := h
      obtain ⟨b, hb⟩ : ∃ b, start (xs ++ [y]) = some b := by cases xs <;> exact ⟨_, rfl⟩
      obtain rfl : next = some b := hrest.start_eq.trans hb
      rw [Memory.last, Option.some.inj hc, hcell]
      exact ih hrest (by rw [List.length_cons]; omega)

/-! ### Lists that grow and shrink -/

theorem Memory.append_eq (hlist : Segment m.read m.first xs none) (hnodup : (xs.map Prod.fst).Nodup)
    (hcells : ∀ b ∈ xs.map Prod.fst, b ∈ m.cells) : m.append a = m.store (linkAfter xs) (some a) := by
  rcases List.eq_nil_or_concat xs with rfl | ⟨front, y, rfl⟩
  · rw [Memory.append, show m.first = none from hlist]
    rfl
  · rw [List.concat_eq_append] at *
    obtain ⟨b, hb⟩ : ∃ b, start (front ++ [y]) = some b := by cases front <;> exact ⟨_, rfl⟩
    have hfirst : m.first = some b := hlist.start_eq.trans hb
    have hsize : front.length < m.size := by
      have hle := Memory.length_le_size hnodup hcells
      rw [List.length_map, List.length_append, List.length_singleton] at hle
      omega
    rw [hfirst] at hlist
    rw [Memory.append, hfirst, linkAfter_concat]
    dsimp only
    rw [Memory.last_spec hlist hsize, Option.bind_some]

theorem Memory.Holds.alloc_free (h : m.Holds xs) (hfresh : a ∉ m.cells) (x : α) :
    ∃ m', (m.alloc a x).free a = some m' ∧ m'.Holds xs := by
  have hnew : a ∉ xs.map Prod.fst := fun ha => hfresh ((h.cells a).mpr ha)
  have hread : (m.alloc a x).read a = some { value := x, next := none } := AList.lookup_insert _
  have hkeep (b : A) (hb : b ≠ a) :
      ({ m with cells := (m.alloc a x).cells.erase a } : Memory A α).read b = m.read b :=
    (AList.lookup_erase_ne hb).trans (AList.lookup_insert_ne hb)
  refine ⟨{ m with cells := (m.alloc a x).cells.erase a }, ?_, ?_, h.nodup, fun b => ?_⟩
  · rw [Memory.free, hread]
    rfl
  · exact segment_congr (fun y hy => hkeep y.1 fun heq => hnew (heq ▸ List.mem_map_of_mem hy)) h.list
  · rw [AList.mem_erase, Memory.alloc, AList.mem_insert, ← h.cells]
    constructor
    · rintro ⟨hne, heq | hb⟩
      · exact absurd heq hne
      · exact hb
    · intro hb
      exact ⟨fun heq => hfresh (heq ▸ hb), .inr hb⟩

theorem Memory.Holds.append (h : m.Holds xs) (hfresh : a ∉ m.cells) :
    ∃ m', (m.alloc a x).append a = some m' ∧ m'.Holds (xs ++ [(a, x)]) := by
  have hnew : a ∉ xs.map Prod.fst := fun ha => hfresh ((h.cells a).mpr ha)
  have hcells (b : A) : b ∈ (m.alloc a x).cells ↔ b = a ∨ b ∈ xs.map Prod.fst :=
    (AList.mem_insert _).trans (or_congr_right (h.cells b))
  have hlist : Segment (m.alloc a x).read (m.alloc a x).first xs none := by
    refine segment_congr (fun y hy => ?_) h.list
    have hne : y.1 ≠ a := fun heq => hnew (heq ▸ List.mem_map_of_mem hy)
    exact AList.lookup_insert_ne hne
  obtain ⟨m', hstore, hfront, hothers, hcells'⟩ := store_linkAfter hlist h.nodup (some a)
  have hcell : m'.read a = some { value := x, next := none } := (hothers a hnew).trans (AList.lookup_insert _)
  refine ⟨m', ?_, segment_append.mpr ⟨some a, hfront, rfl, none, hcell, rfl⟩, ?_, fun b => ?_⟩
  · rw [Memory.append_eq hlist h.nodup fun b hb => (hcells b).mpr (.inr hb), hstore]
  · rw [List.map_append, List.map_singleton, ← List.concat_eq_append]
    exact h.nodup.concat hnew
  · rw [hcells', hcells, List.map_append, List.mem_append, List.map_singleton, List.mem_singleton, or_comm]

/-- A cell is taken out at the link that points to it, and its memory is given back. -/
theorem Memory.Holds.unlink (h : m.Holds (pre ++ (a, x) :: post)) :
    ∃ m', m.unlink (linkAfter pre) a = some (m', start post) ∧ m'.Holds (pre ++ post) := by
  obtain ⟨r, hpre, -, next, hcell, hpost⟩ := segment_append.mp h.list
  obtain rfl := hpost.start_eq
  have hnodup := h.nodup
  rw [List.map_append, List.map_cons] at hnodup
  obtain ⟨hpreNodup, hrestNodup, hdisjoint⟩ := List.nodup_append.mp hnodup
  obtain ⟨hapost, hpostNodup⟩ := List.nodup_cons.mp hrestNodup
  have hapre : a ∉ pre.map Prod.fst := fun ha => hdisjoint a ha a List.mem_cons_self rfl
  obtain ⟨m₁, hstore, hfront, hothers, hcells⟩ := store_linkAfter hpre hpreNodup (start post)
  have hread : m₁.read a = some { value := x, next := start post } := (hothers a hapre).trans hcell
  -- what is left of the list is not the cell that is freed
  have hkeep (b : A) (hb : b ≠ a) : ({ m₁ with cells := m₁.cells.erase a } : Memory A α).read b = m₁.read b :=
    AList.lookup_erase_ne hb
  refine ⟨{ m₁ with cells := m₁.cells.erase a }, ?_, segment_append.mpr ⟨start post, ?_, ?_⟩, ?_, fun b => ?_⟩
  · rw [Memory.unlink, hcell, Option.bind_some, hstore, Option.bind_some, Memory.free, hread]
    rfl
  · exact segment_congr (fun y hy => hkeep y.1 fun heq => hapre (heq ▸ List.mem_map_of_mem hy)) hfront
  · refine segment_congr (fun y hy => ?_) hpost
    have hmem : y.1 ∈ post.map Prod.fst := List.mem_map_of_mem hy
    have hypre : y.1 ∉ pre.map Prod.fst := fun hy' => hdisjoint y.1 hy' y.1 (List.mem_cons_of_mem a hmem) rfl
    exact (hkeep y.1 fun heq => hapost (heq ▸ hmem)).trans (hothers y.1 hypre)
  · rw [List.map_append]
    exact List.nodup_append.mpr
      ⟨hpreNodup, hpostNodup, fun b hb c hc => hdisjoint b hb c (List.mem_cons_of_mem a hc)⟩
  · rw [AList.mem_erase, hcells, h.cells]
    simp only [List.map_append, List.map_cons, List.mem_append, List.mem_cons]
    constructor
    · rintro ⟨hne, hb | rfl | hb⟩
      · exact .inl hb
      · exact absurd rfl hne
      · exact .inr hb
    · rintro (hb | hb)
      · exact ⟨fun heq => hapre (heq ▸ hb), .inl hb⟩
      · exact ⟨fun heq => hapost (heq ▸ hb), .inr (.inr hb)⟩

end LinkedList
