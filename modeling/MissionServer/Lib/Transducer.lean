import MissionServer.Lib.Machine

/-!
# Machines that answer

A transducer answers every input. Two transducers are compared by a relation between their states that
related steps keep; what the relation says about one pair of answers, the runs then say about all of them.
-/

namespace Transducer

variable {σ τ ε δ ο π : Type*}

/-- The answers of a run, the first input first. -/
def outputs (step : σ → ε → σ × ο) : σ → List ε → List ο
  | _, [] => []
  | s, e :: es => (step s e).2 :: outputs step (step s e).1 es

variable {step : σ → ε → σ × ο}

@[simp] theorem outputs_nil (s : σ) : outputs step s [] = [] := rfl

@[simp] theorem outputs_cons (s : σ) (e : ε) (es : List ε) :
    outputs step s (e :: es) = (step s e).2 :: outputs step (step s e).1 es := rfl

theorem outputs_append (s : σ) (es fs : List ε) :
    outputs step s (es ++ fs) =
      outputs step s es ++ outputs step (Machine.run (fun s e => (step s e).1) s es) fs := by
  induction es generalizing s with
  | nil => rfl
  | cons e es ih => rw [List.cons_append, outputs_cons, ih, outputs_cons, List.cons_append, Machine.run_cons]

/-- Simulation: related steps on the same input answer alike, up to `read`. -/
theorem map_outputs_eq {step' : τ → ε → τ × π} {R : σ → τ → Prop} (read : ο → π)
    (hstep : ∀ s t e, R s t → R (step s e).1 (step' t e).1 ∧ read (step s e).2 = (step' t e).2)
    {s : σ} {t : τ} (h : R s t) (es : List ε) : (outputs step s es).map read = outputs step' t es := by
  induction es generalizing s t with
  | nil => rfl
  | cons e es ih =>
      obtain ⟨hnext, hread⟩ := hstep s t e h
      rw [outputs_cons, List.map_cons, outputs_cons, hread, ih hnext]

theorem map_outputs (read : ο → π) (s : σ) (es : List ε) :
    (outputs step s es).map read = outputs (fun s e => ((step s e).1, read (step s e).2)) s es := by
  induction es generalizing s with
  | nil => rfl
  | cons e es ih => rw [outputs_cons, List.map_cons, outputs_cons, ih]

/-- Answers that only some inputs get: the others leave what the answers depend on alone. -/
theorem filterMap_outputs_eq {step' : τ → δ → τ × π} {R : σ → τ → Prop} (input : ε → Option δ) (read : ο → Option π)
    (hstep : ∀ s t e, R s t → match input e with
      | some d => R (step s e).1 (step' t d).1 ∧ read (step s e).2 = some (step' t d).2
      | none => R (step s e).1 t ∧ read (step s e).2 = none)
    {s : σ} {t : τ} (h : R s t) (es : List ε) :
    (outputs step s es).filterMap read = outputs step' t (es.filterMap input) := by
  induction es generalizing s t with
  | nil => rfl
  | cons e es ih =>
      have hone := hstep s t e h
      cases hinput : input e with
      | some d =>
          rw [hinput] at hone
          rw [outputs_cons, List.filterMap_cons_some hone.2, List.filterMap_cons_some hinput, outputs_cons, ih hone.1]
      | none =>
          rw [hinput] at hone
          rw [outputs_cons, List.filterMap_cons_none hone.2, List.filterMap_cons_none hinput, ih hone.1]

/-- Two machines on the same inputs from the same state: where equal answers mean equal next states, they answer alike
throughout exactly if each input finds them in a state where they do. -/
theorem outputs_eq_iff {step' : σ → ε → σ × ο} {I : σ → Prop} {C : σ → ε → Prop}
    (hI : ∀ s e, I s → I (step s e).1) (hC : ∀ s e, I s → ((step' s e).2 = (step s e).2 ↔ C s e))
    (hnext : ∀ s e, I s → (step' s e).2 = (step s e).2 → (step' s e).1 = (step s e).1) {s : σ} (h : I s) (es : List ε) :
    outputs step' s es = outputs step s es ↔ Machine.EachStep (fun s e => (step s e).1) C s es := by
  induction es generalizing s with
  | nil => exact ⟨fun _ => Machine.eachStep_nil, fun _ => rfl⟩
  | cons e es ih =>
      rw [outputs_cons, outputs_cons, List.cons_eq_cons, Machine.eachStep_cons, ← hC s e h]
      refine and_congr_right fun hanswer => ?_
      rw [hnext s e h hanswer]
      exact ih (hI s e h)

end Transducer
