import Mathlib.Data.List.Infix

/-!
# Runs of a state machine

A deterministic machine is a step function. A run feeds it a list of events, and what a development
proves about a machine is almost always one of two things: that a property holds in every state a run
passes through, or that it does so exactly when every step meets a condition. Both are reduced here to
facts about a single step.
-/

namespace Machine

variable {σ ε : Type*} (step : σ → ε → σ)

/-- The state after the events, the first event first. -/
def run (s : σ) (es : List ε) : σ := es.foldl step s

@[simp] theorem run_nil (s : σ) : run step s [] = s := rfl

@[simp] theorem run_cons (s : σ) (e : ε) (es : List ε) : run step s (e :: es) = run step (step s e) es := rfl

theorem run_append (s : σ) (es fs : List ε) : run step s (es ++ fs) = run step (run step s es) fs :=
  List.foldl_append

theorem run_concat (s : σ) (es : List ε) (e : ε) : run step s (es ++ [e]) = step (run step s es) e := by
  rw [run_append, run_cons, run_nil]

/-- `P` holds in every state the run passes through, the first and the last included. -/
def Always (P : σ → Prop) (s : σ) (es : List ε) : Prop := ∀ pre, pre <+: es → P (run step s pre)

/-- Every event of the run meets `C` in the state it is taken in. -/
def EachStep (C : σ → ε → Prop) (s : σ) (es : List ε) : Prop :=
  ∀ pre e, pre ++ [e] <+: es → C (run step s pre) e

variable {step}

theorem always_nil {P : σ → Prop} {s : σ} : Always step P s [] ↔ P s := by
  simp [Always]

theorem always_cons {P : σ → Prop} {s : σ} {e : ε} {es : List ε} :
    Always step P s (e :: es) ↔ P s ∧ Always step P (step s e) es := by
  constructor
  · intro h
    refine ⟨h [] List.nil_prefix, fun pre hpre => ?_⟩
    exact h (e :: pre) ((List.prefix_cons_inj e).mpr hpre)
  · intro hboth pre hpre
    obtain ⟨hs, h⟩ := hboth
    cases pre with
    | nil => exact hs
    | cons e' pre =>
        obtain ⟨rfl, htail⟩ := List.cons_prefix_cons.mp hpre
        exact h pre htail

theorem always_and {P Q : σ → Prop} {s : σ} {es : List ε} :
    Always step (fun s => P s ∧ Q s) s es ↔ Always step P s es ∧ Always step Q s es := by
  simp only [Always, forall_and]

theorem eachStep_nil {C : σ → ε → Prop} {s : σ} : EachStep step C s [] := by
  intro pre e hpre
  simp at hpre

theorem eachStep_cons {C : σ → ε → Prop} {s : σ} {e : ε} {es : List ε} :
    EachStep step C s (e :: es) ↔ C s e ∧ EachStep step C (step s e) es := by
  constructor
  · intro h
    refine ⟨h [] e ((List.prefix_cons_inj e).mpr List.nil_prefix), fun pre e' hpre => ?_⟩
    exact h (e :: pre) e' ((List.prefix_cons_inj e).mpr hpre)
  · intro hboth pre e' hpre
    obtain ⟨hs, h⟩ := hboth
    cases pre with
    | nil =>
        obtain ⟨rfl, -⟩ := List.cons_prefix_cons.mp hpre
        exact hs
    | cons e'' pre =>
        obtain ⟨rfl, htail⟩ := List.cons_prefix_cons.mp hpre
        exact h pre e' htail

theorem eachStep_and {C D : σ → ε → Prop} {s : σ} {es : List ε} :
    EachStep step (fun s e => C s e ∧ D s e) s es ↔ EachStep step C s es ∧ EachStep step D s es := by
  simp only [EachStep, forall_and]

theorem eachStep_concat {C : σ → ε → Prop} {s : σ} {es : List ε} {e : ε} :
    EachStep step C s (es ++ [e]) ↔ EachStep step C s es ∧ C (run step s es) e := by
  constructor
  · intro h
    exact ⟨fun pre e' hpre => h pre e' (hpre.trans (List.prefix_append _ _)), h es e List.prefix_rfl⟩
  · intro hboth pre e' hpre
    obtain ⟨h, hlast⟩ := hboth
    obtain heq | hshort := List.prefix_concat_iff.mp hpre
    · obtain ⟨rfl, hlasts⟩ := List.append_inj' heq rfl
      obtain rfl := List.singleton_inj.mp hlasts
      exact hlast
    · exact h pre e' hshort

/-- The invariant rule: what holds at first and is kept by every step holds after every run. -/
theorem run_invariant {I : σ → Prop} (hstep : ∀ s e, I s → I (step s e)) {s : σ} (h : I s) (es : List ε) :
    I (run step s es) := by
  induction es generalizing s with
  | nil => exact h
  | cons e es ih => exact ih (hstep s e h)

variable (step) in
/-- The exactness rule: where `I` is an invariant and, from a state with `P`, a step keeps `P` exactly
when it meets `C`, a run that starts with `P` keeps it throughout exactly when each step meets `C`. -/
theorem always_iff_eachStep {I P : σ → Prop} {C : σ → ε → Prop} (hI : ∀ s e, I s → I (step s e))
    (hP : ∀ s e, I s → P s → (P (step s e) ↔ C s e)) {s : σ} (hi : I s) (hp : P s) (es : List ε) :
    Always step P s es ↔ EachStep step C s es := by
  induction es generalizing s with
  | nil => exact ⟨fun _ => eachStep_nil, fun _ => always_nil.mpr hp⟩
  | cons e es ih =>
      rw [always_cons, eachStep_cons, ← hP s e hi hp]
      constructor
      · intro hboth
        obtain ⟨-, hrest⟩ := hboth
        have hnext : P (step s e) := hrest [] List.nil_prefix
        exact ⟨hnext, (ih (hI s e hi) hnext).mp hrest⟩
      · intro hboth
        obtain ⟨hnext, hrest⟩ := hboth
        exact ⟨hp, (ih (hI s e hi) hnext).mpr hrest⟩

variable (step) in
/-- Two machines on the same events: where related states make the same demand of an event, and an event that
meets it leads to related states, both make their demands of the same runs. -/
theorem eachStep_iff {τ : Type*} {step' : τ → ε → τ} {R : σ → τ → Prop} {C : σ → ε → Prop} {D : τ → ε → Prop}
    (hdemand : ∀ s t e, R s t → (C s e ↔ D t e)) (hnext : ∀ s t e, R s t → C s e → R (step s e) (step' t e))
    {s : σ} {t : τ} (h : R s t) (es : List ε) : EachStep step C s es ↔ EachStep step' D t es := by
  induction es generalizing s t with
  | nil => exact ⟨fun _ => eachStep_nil, fun _ => eachStep_nil⟩
  | cons e es ih =>
      rw [eachStep_cons, eachStep_cons, ← hdemand s t e h]
      constructor
      · intro hboth
        obtain ⟨hC, hrest⟩ := hboth
        exact ⟨hC, (ih (hnext s t e h hC)).mp hrest⟩
      · intro hboth
        obtain ⟨hC, hrest⟩ := hboth
        exact ⟨hC, (ih (hnext s t e h hC)).mpr hrest⟩

end Machine
