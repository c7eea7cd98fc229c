import Mathlib.Data.List.Basic
import Mathlib.Data.List.Induction
import Mathlib.Order.Lattice

/-!
# A floor

Whoever comes waits, and the one who has waited longest has the floor: no one else speaks. Anyone may leave at any
time. What has been said is then a sequence of turns, one for each who came and in the order in which they came.
-/

namespace Floor

variable {ι α : Type*}

inductive Event (ι α : Type*)
  | comes (i : ι)
  | speaks (i : ι) (words : List α)
  | goes (i : ι)

/-- Who has come, and who of them has not left, in the order of arrival. -/
structure State (ι : Type*) where
  came : List ι := []
  present : List ι := []

/-- What has been said, with who has said it. -/
def spoken (es : List (Event ι α)) : List (ι × List α) :=
  es.filterMap fun
    | .speaks i words => some (i, words)
    | _ => none

theorem spoken_append (es es' : List (Event ι α)) : spoken (es ++ es') = spoken es ++ spoken es' :=
  List.filterMap_append

variable [LinearOrder ι]

/-- One event, where the rules of the floor allow it. -/
def step (s : State ι) : Event ι α → Option (State ι)
  | .comes i => if ∀ j ∈ s.came, j < i then some { came := s.came ++ [i], present := s.present ++ [i] } else none
  | .speaks i _ => if s.present.head? = some i then some s else none
  | .goes i => if i ∈ s.present then some { s with present := s.present.erase i } else none

def run (es : List (Event ι α)) : Option (State ι) := es.foldlM step {}

theorem run_concat (es : List (Event ι α)) (e : Event ι α) : run (es ++ [e]) = (run es).bind (step · e) := by
  rw [run, List.foldlM_append]
  exact bind_congr fun s => List.foldlM_cons.trans (bind_pure _)

/-! ### Turns -/

/-- All that one participant has said. -/
def said (i : ι) (es : List (Event ι α)) : List α := ((spoken es).filter (·.1 = i)).flatMap Prod.snd

/-- No one who has spoken has come after someone who is still there. -/
structure Orderly (s : State ι) (es : List (Event ι α)) : Prop where
  came : s.came.Pairwise (· < ·)
  present : s.present.Sublist s.came
  speakers : ∀ turn ∈ spoken es, turn.1 ∈ s.came ∧ ∀ i ∈ s.present, turn.1 ≤ i
  spoken : (spoken es).Pairwise fun turn turn' => turn.1 ≤ turn'.1

theorem Orderly.comes {s : State ι} {es : List (Event ι α)} (h : Orderly s es) {i : ι} (hlast : ∀ j ∈ s.came, j < i) :
    Orderly { came := s.came ++ [i], present := s.present ++ [i] } (es ++ [.comes i]) := by
  have hspoken : Floor.spoken (es ++ [.comes i]) = Floor.spoken es := by
    rw [spoken_append]
    exact List.append_nil _
  refine ⟨?_, h.present.append_right [i], ?_, hspoken ▸ h.spoken⟩
  · simpa [List.pairwise_append, h.came] using hlast
  · rw [hspoken]
    intro turn hturn
    obtain ⟨hcame, hle⟩ := h.speakers turn hturn
    refine ⟨List.mem_append_left _ hcame, fun j hj => ?_⟩
    obtain hj | hj := List.mem_append.mp hj
    · exact hle j hj
    · exact List.mem_singleton.mp hj ▸ (hlast turn.1 hcame).le

theorem Orderly.speaks {s : State ι} {es : List (Event ι α)} (h : Orderly s es) {i : ι} {words : List α}
    (hhead : s.present.head? = some i) : Orderly s (es ++ [.speaks i words]) := by
  have hspoken : Floor.spoken (es ++ [.speaks i words]) = Floor.spoken es ++ [(i, words)] := spoken_append _ _
  obtain ⟨rest, hpresent⟩ := List.head?_eq_some_iff.mp hhead
  have hmem : i ∈ s.present := List.mem_of_mem_head? hhead
  -- whoever is still there has come after the head of the list
  have hfirst : ∀ j ∈ s.present, i ≤ j := by
    have hsorted := h.came.sublist h.present
    rw [hpresent, List.pairwise_cons] at hsorted
    rw [hpresent]
    exact List.forall_mem_cons.mpr ⟨le_rfl, fun j hj => (hsorted.1 j hj).le⟩
  refine ⟨h.came, h.present, ?_, ?_⟩
  · rw [hspoken]
    intro turn hturn
    obtain hturn | hturn := List.mem_append.mp hturn
    · exact h.speakers turn hturn
    · rw [List.mem_singleton.mp hturn]
      exact ⟨h.present.subset hmem, hfirst⟩
  · rw [hspoken, List.pairwise_append]
    refine ⟨h.spoken, List.pairwise_singleton _ _, fun turn hturn turn' hturn' => ?_⟩
    rw [List.mem_singleton.mp hturn']
    exact (h.speakers turn hturn).2 i hmem

theorem Orderly.goes {s : State ι} {es : List (Event ι α)} (h : Orderly s es) (i : ι) :
    Orderly { s with present := s.present.erase i } (es ++ [.goes i]) := by
  have hspoken : Floor.spoken (es ++ [.goes i]) = Floor.spoken es := by
    rw [spoken_append]
    exact List.append_nil _
  refine ⟨h.came, List.erase_sublist.trans h.present, ?_, hspoken ▸ h.spoken⟩
  rw [hspoken]
  intro turn hturn
  obtain ⟨hcame, hle⟩ := h.speakers turn hturn
  exact ⟨hcame, fun j hj => hle j (List.mem_of_mem_erase hj)⟩

theorem orderly_run {es : List (Event ι α)} {s : State ι} (h : run es = some s) : Orderly s es := by
  induction es using List.reverseRecOn generalizing s with
  | nil =>
      obtain rfl := Option.some.inj h
      exact ⟨.nil, List.Sublist.refl _, nofun, .nil⟩
  | append_singleton es e ih =>
      rw [run_concat, Option.bind_eq_some_iff] at h
      obtain ⟨s', hrun, hstep⟩ := h
      have horderly := ih hrun
      cases e with
      | comes i =>
          rw [step, Option.ite_none_right_eq_some] at hstep
          obtain ⟨hlast, heq⟩ := hstep
          exact Option.some.inj heq ▸ horderly.comes hlast
      | speaks i words =>
          rw [step, Option.ite_none_right_eq_some] at hstep
          obtain ⟨hhead, heq⟩ := hstep
          exact Option.some.inj heq ▸ horderly.speaks hhead
      | goes i =>
          rw [step, Option.ite_none_right_eq_some] at hstep
          obtain ⟨-, heq⟩ := hstep
          exact Option.some.inj heq ▸ horderly.goes i

/-! ### The turns, one after the other -/

theorem filter_append_of_le {β : Type*} {a : ι} {xs : List (ι × β)} (hsorted : xs.Pairwise fun x y => x.1 ≤ y.1)
    (hle : ∀ x ∈ xs, a ≤ x.1) : xs.filter (·.1 = a) ++ xs.filter (·.1 ≠ a) = xs := by
  induction xs with
  | nil => rfl
  | cons x xs ih =>
      rw [List.pairwise_cons] at hsorted
      obtain ⟨hx, hxs⟩ := List.forall_mem_cons.mp hle
      by_cases hkey : x.1 = a
      · have hrest := ih hsorted.2 hxs
        simpa [hkey] using hrest
      · have hlater : ∀ y ∈ x :: xs, y.1 ≠ a := by
          have hlt : a < x.1 := lt_of_le_of_ne hx (Ne.symm hkey)
          exact List.forall_mem_cons.mpr ⟨hkey, fun y hy => (hlt.trans_le (hsorted.1 y hy)).ne'⟩
        rw [List.filter_eq_nil_iff.mpr fun y hy => by simpa using hlater y hy,
          List.filter_eq_self.mpr fun y hy => by simpa using hlater y hy, List.nil_append]

theorem flatMap_filter_eq {β : Type*} {keys : List ι} (hkeys : keys.Pairwise (· < ·)) {xs : List (ι × β)}
    (hsorted : xs.Pairwise fun x y => x.1 ≤ y.1) (hmem : ∀ x ∈ xs, x.1 ∈ keys) :
    keys.flatMap (fun i => xs.filter (·.1 = i)) = xs := by
  induction keys generalizing xs with
  | nil =>
      have hnone : xs = [] := List.eq_nil_iff_forall_not_mem.mpr fun x hx => nomatch hmem x hx
      rw [hnone, List.flatMap_nil]
  | cons a keys ih =>
      rw [List.pairwise_cons] at hkeys
      have hle : ∀ x ∈ xs, a ≤ x.1 := by
        intro x hx
        obtain heq | hrest := List.mem_cons.mp (hmem x hx)
        · exact heq.ge
        · exact (hkeys.1 x.1 hrest).le
      have hothers : ∀ x ∈ xs.filter (·.1 ≠ a), x.1 ∈ keys := by
        intro x hx
        rw [List.mem_filter, decide_eq_true_eq] at hx
        exact (List.mem_cons.mp (hmem x hx.1)).resolve_left hx.2
      have hrest := ih hkeys.2 (hsorted.sublist List.filter_sublist) hothers
      have hsame : keys.flatMap (fun i => (xs.filter (·.1 ≠ a)).filter (·.1 = i)) =
          keys.flatMap (fun i => xs.filter (·.1 = i)) := by
        refine List.flatMap_congr fun i hi => ?_
        rw [List.filter_filter]
        refine List.filter_congr fun x _ => ?_
        have hne : i ≠ a := (hkeys.1 i hi).ne'
        by_cases hx : x.1 = i <;> simp [hx, hne]
      rw [List.flatMap_cons, ← hsame, hrest, filter_append_of_le hsorted hle]

/-- Everyone has had one turn: what has been said is what the first has said, then what the second has said, and so
on. -/
theorem spoken_eq_turns {es : List (Event ι α)} {s : State ι} (h : run es = some s) :
    (spoken es).flatMap Prod.snd = s.came.flatMap (said · es) := by
  have horderly := orderly_run h
  have hturns := flatMap_filter_eq horderly.came horderly.spoken fun turn hturn => (horderly.speakers turn hturn).1
  calc (spoken es).flatMap Prod.snd
      = (s.came.flatMap fun i => (spoken es).filter (·.1 = i)).flatMap Prod.snd := by rw [hturns]
    _ = s.came.flatMap (said · es) := List.flatMap_assoc

end Floor
