import MissionServer.Lib.Machine
import Mathlib.Logic.Function.Basic

/-!
# Calls that take effect at one step

Threads are inside calls for many steps of a machine. Where each call takes effect at one of its own steps, and the
machine goes the way of a sequential one that makes the calls at these steps, the calls are as good as atomic.
-/

namespace Linearization

variable {σ τ ε ι α β : Type*}

/-- What a run gives, step by step. -/
def trace (step : σ → ε → σ) (out : σ → ε → List β) : σ → List ε → List β
  | _, [] => []
  | s, e :: es => out s e ++ trace step out (step s e) es

theorem trace_append (step : σ → ε → σ) (out : σ → ε → List β) (s : σ) (es fs : List ε) :
    trace step out s (es ++ fs) = trace step out s es ++ trace step out (Machine.run step s es) fs := by
  induction es generalizing s with
  | nil => rfl
  | cons e es ih => rw [List.cons_append, trace, trace, ih, List.append_assoc, Machine.run_cons]

/-- A call begins, takes effect as a call of the sequential machine, and returns. -/
inductive CallMark (ι α : Type*)
  | begins (i : ι)
  | effect (i : ι) (a : α)
  | returns (i : ι)

def CallMark.thread : CallMark ι α → ι
  | .begins i => i
  | .effect i _ => i
  | .returns i => i

/-- The calls in the order in which they take effect. -/
def effects (marks : List (CallMark ι α)) : List α :=
  marks.filterMap fun
    | .effect _ a => some a
    | _ => none

theorem effects_append (marks marks' : List (CallMark ι α)) :
    effects (marks ++ marks') = effects marks ++ effects marks' :=
  List.filterMap_append

/-- How far a thread is with its call. -/
inductive Phase
  | outside
  | called
  | effective
  deriving DecidableEq

section Phases

variable [DecidableEq ι]

/-- Begin, effect and return follow each other. -/
def advance (phases : ι → Phase) : CallMark ι α → Option (ι → Phase)
  | .begins i => if phases i = .outside then some (Function.update phases i .called) else none
  | .effect i _ => if phases i = .called then some (Function.update phases i .effective) else none
  | .returns i => if phases i = .effective then some (Function.update phases i .outside) else none

/-- Each call takes effect once, after its begin and before its return. -/
def phases (start : ι → Phase) (marks : List (CallMark ι α)) : Option (ι → Phase) := marks.foldlM advance start

theorem phases_append (start : ι → Phase) (marks marks' : List (CallMark ι α)) :
    phases start (marks ++ marks') = (phases start marks).bind (phases · marks') :=
  List.foldlM_append

theorem phases_begins {start : ι → Phase} {i : ι} (h : start i = .outside) :
    phases start [(.begins i : CallMark ι α)] = some (Function.update start i .called) := by
  simp [phases, advance, h]

theorem phases_effect {start : ι → Phase} {i : ι} (h : start i = .called) (a : α) :
    phases start [.effect i a] = some (Function.update start i .effective) := by
  simp [phases, advance, h]

theorem phases_returns {start : ι → Phase} {i : ι} (h : start i = .effective) :
    phases start [(.returns i : CallMark ι α)] = some (Function.update start i .outside) := by
  simp [phases, advance, h]

theorem phases_last {start : ι → Phase} {i : ι} (h : start i = .called) (a : α) :
    phases start [.effect i a, .returns i] = some (Function.update start i .outside) := by
  simp [phases, advance, h]

theorem phases_whole {start : ι → Phase} {i : ι} (h : start i = .outside) (a : α) :
    phases start [.begins i, .effect i a, .returns i] = some start := by
  simp [phases, advance, ← h]

/-- Every step goes the way of the calls that take effect in it, and takes each thread further in its call. -/
structure Linearizes (step : σ → ε → σ) (marks : σ → ε → List (CallMark ι α)) (sequential : τ → α → τ)
    (phaseOf : σ → ι → Phase) (R : σ → τ → Prop) : Prop where
  simulates : ∀ s t e, R s t → R (step s e) (Machine.run sequential t (effects (marks s e)))
  phased : ∀ s t e, R s t → phases (phaseOf s) (marks s e) = some (phaseOf (step s e))

variable {step : σ → ε → σ} {marks : σ → ε → List (CallMark ι α)} {sequential : τ → α → τ} {phaseOf : σ → ι → Phase}
  {R : σ → τ → Prop}

theorem Linearizes.run (h : Linearizes step marks sequential phaseOf R) {s : σ} {t : τ} (hstart : R s t)
    (es : List ε) :
    R (Machine.run step s es) (Machine.run sequential t (effects (trace step marks s es))) ∧
      phases (phaseOf s) (trace step marks s es) = some (phaseOf (Machine.run step s es)) := by
  induction es generalizing s t with
  | nil => exact ⟨hstart, rfl⟩
  | cons e es ih =>
      obtain ⟨hrun, hphases⟩ := ih (h.simulates s t e hstart)
      rw [trace, effects_append, Machine.run_append, Machine.run_cons]
      refine ⟨hrun, ?_⟩
      rw [phases_append, h.phased s t e hstart]
      exact hphases

end Phases

end Linearization
