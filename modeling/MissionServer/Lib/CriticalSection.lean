import MissionServer.Lib.Machine
import MissionServer.Lib.PushLoop

/-!
# Critical sections

Threads push buffers into a shared object, a call at a time, under one lock. A run of such threads is compared
with a run of a machine whose threads do a whole section in one step, the step in which the lock is given back:
the object is what the sections make of it one after the other, whatever the threads did in between.
-/

namespace CriticalSection

open PushLoop

variable {σ τ β ρ ω : Type*}

/-- A machine whose threads have sections to do in one step. `want` is what a thread's next step writes, if it
writes. The step is told whether all of it is written, and what the machine has written it keeps in order. -/
structure Program (σ τ β : Type*) where
  next : σ → τ × Bool → σ
  want : σ → τ → Option β
  stopped : σ → Bool
  written : σ → List (β × Bool)
  want_other : ∀ s t e, t ≠ e.1 → want (next s e) t = want s t
  written_next : ∀ s e, stopped s = false → written (next s e) = written s ++ (want s e.1).toList.map (·, e.2)

/-- How far a section has come: to a call at an offset, or to its end, with the whole buffer taken or not. -/
inductive Progress
  | calls (off : Nat)
  | leaves (whole : Bool)

/-- A thread inside its section, and what its calls have answered. -/
structure Inside (τ β ρ : Type*) where
  owner : τ
  job : β
  answers : List ρ := []
  progress : Progress := .calls 0

/-- A section that has been left. -/
structure Section (β ρ : Type*) where
  job : β
  answers : List ρ
  whole : Bool

/-- The threads with their lock. `left` are the sections that have been left, in order. -/
structure State (σ τ β ρ ω : Type*) where
  machine : σ
  object : ω
  inside : Option (Inside τ β ρ) := none
  left : List (Section β ρ) := []

variable (P : Program σ τ β) (call : β → Nat → ρ → ω → ω × Int) (size : β → Nat)

/-- A call of the thread inside. -/
def callInside (c : Inside τ β ρ) (off : Nat) (r : ρ) (s : State σ τ β ρ ω) : State σ τ β ρ ω :=
  let (object, n) := call c.job off r s.object
  let progress : Progress :=
    if n < 0 then .leaves false
    else if off + n.toNat = size c.job then .leaves true
    else .calls (off + n.toNat)
  { s with object, inside := some { c with answers := c.answers ++ [r], progress } }

variable [DecidableEq τ] in
/-- A thread takes the lock, makes a call, or gives the lock back; it waits while another one is inside. -/
def step (s : State σ τ β ρ ω) (e : τ × ρ) : State σ τ β ρ ω :=
  if P.stopped s.machine then s
  else
    match P.want s.machine e.1, s.inside with
    | none, _ => { s with machine := P.next s.machine (e.1, true) }
    | some job, none => { s with inside := some { owner := e.1, job } }
    | some job, some c =>
        if c.owner = e.1 then
          match c.progress with
          | .calls off => callInside call size c off e.2 s
          | .leaves whole =>
              { s with
                machine := P.next s.machine (e.1, whole)
                inside := none
                left := s.left ++ [⟨job, c.answers, whole⟩] }
        else s

def status (whole : Bool) : Status := if whole then .done else .failed

/-- A whole section in one step. -/
def section_ (object : ω) (c : Section β ρ) : ω := (push (call c.job) (size c.job) 0 c.answers object).1

/-- The answers suffice for the section, and it has gone as it says. -/
def Ends (object : ω) (c : Section β ρ) : Prop :=
  (push (call c.job) (size c.job) 0 c.answers object).2 = status c.whole

/-- The section has brought the object from `before` to `now`, and goes on from there. -/
def Continues (c : Inside τ β ρ) (before now : ω) : Prop :=
  match c.progress with
  | .calls off => ∀ rs,
      push (call c.job) (size c.job) 0 (c.answers ++ rs) before = push (call c.job) (size c.job) off rs now
  | .leaves whole => push (call c.job) (size c.job) 0 c.answers before = (now, status whole)

/-- The sections have been done one after the other. -/
structure Serial (object₀ : ω) (s : State σ τ β ρ ω) : Prop where
  ends : Machine.EachStep (section_ call size) (Ends call size) object₀ s.left
  outside : s.inside = none → s.object = Machine.run (section_ call size) object₀ s.left
  inside : ∀ c, s.inside = some c → Continues call size c (Machine.run (section_ call size) object₀ s.left) s.object
  wants : ∀ c, s.inside = some c → P.want s.machine c.owner = some c.job

variable {P call size}

/-! ### Inside a section -/

theorem continues_start (t : τ) (job : β) (object : ω) :
    Continues call size { owner := t, job : Inside τ β ρ } object object := by
  intro rs
  rw [List.nil_append]

theorem Continues.now_eq {c : Inside τ β ρ} {before now : ω} (h : Continues call size c before now) :
    now = (push (call c.job) (size c.job) 0 c.answers before).1 := by
  unfold Continues at h
  split at h
  case h_1 off hoff =>
      have hnone := h []
      rw [List.append_nil] at hnone
      rw [hnone, push]
  case h_2 => rw [h]

theorem Continues.goes_on {s : State σ τ β ρ ω} {c : Inside τ β ρ} {before : ω}
    (h : Continues call size c before s.object) {off : Nat} (hoff : c.progress = .calls off) (r : ρ) :
    ∃ c', (callInside call size c off r s).inside = some c' ∧ c'.owner = c.owner ∧ c'.job = c.job ∧
      Continues call size c' before (callInside call size c off r s).object := by
  simp only [Continues, hoff] at h
  refine ⟨_, rfl, rfl, rfl, ?_⟩
  simp only [callInside, Continues]
  have hcall := h [r]
  by_cases hneg : (call c.job off r s.object).2 < 0
  · rw [if_pos hneg]
    rw [push_cons_failed hneg] at hcall
    exact hcall
  · have hpos : 0 ≤ (call c.job off r s.object).2 := not_lt.mp hneg
    rw [if_neg hneg]
    by_cases hsize : off + (call c.job off r s.object).2.toNat = size c.job
    · rw [if_pos hsize]
      rw [push_cons_done hpos hsize] at hcall
      exact hcall
    · rw [if_neg hsize]
      intro rs
      rw [List.append_assoc, List.singleton_append, h, push_cons_next hpos hsize]

/-! ### A step -/

theorem serial_start (m : σ) (object₀ : ω) :
    Serial P call size object₀ { machine := m, object := object₀ : State σ τ β ρ ω } where
  ends := Machine.eachStep_nil
  outside _ := rfl
  inside := by simp
  wants := by simp

variable [DecidableEq τ]

theorem Serial.step {object₀ : ω} {s : State σ τ β ρ ω} (h : Serial P call size object₀ s) (e : τ × ρ) :
    Serial P call size object₀ (step P call size s e) := by
  unfold CriticalSection.step
  split
  case isTrue => exact h
  case isFalse =>
    split
    case h_1 hwant =>
        refine ⟨h.ends, h.outside, h.inside, fun c hc => ?_⟩
        have hother : c.owner ≠ e.1 := by
          intro heq
          rw [← heq, h.wants c hc] at hwant
          exact absurd hwant (by simp)
        exact (P.want_other s.machine c.owner (e.1, true) hother).trans (h.wants c hc)
    case h_2 job hwant hinside =>
        refine ⟨h.ends, fun hnone => absurd hnone (by simp), fun c hc => ?_, fun c hc => ?_⟩
        · obtain rfl := Option.some.inj hc
          rw [← h.outside hinside]
          exact continues_start e.1 job s.object
        · obtain rfl := Option.some.inj hc
          exact hwant
    case h_3 job c hwant hinside =>
        have hcontinues := h.inside c hinside
        split
        case isFalse => exact h
        case isTrue howner =>
          split
          case h_1 off hoff =>
              obtain ⟨c', hc', howner', hjob', hnext⟩ := hcontinues.goes_on hoff e.2
              refine ⟨h.ends, fun hnone => ?_, fun d hd => ?_, fun d hd => ?_⟩
              · exact absurd (hc'.symm.trans hnone) (by simp)
              · obtain rfl := Option.some.inj (hc'.symm.trans hd)
                exact hnext
              · obtain rfl := Option.some.inj (hc'.symm.trans hd)
                rw [howner', hjob']
                exact h.wants c hinside
          case h_2 whole hoff =>
              have hjob : c.job = job := by
                have hwants := h.wants c hinside
                rw [howner, hwant] at hwants
                exact (Option.some.inj hwants).symm
              simp only [Continues, hoff] at hcontinues
              rw [hjob] at hcontinues
              refine ⟨?_, fun _ => ?_, by simp, by simp⟩
              · rw [Machine.eachStep_concat]
                exact ⟨h.ends, by rw [Ends, hcontinues]⟩
              · rw [Machine.run_concat, section_, hcontinues]

variable (P call size) in
/-- What a step does to the machine below: nothing, or a step of its own, whose writing is a section that is left. -/
theorem step_machine (s : State σ τ β ρ ω) (e : τ × ρ) :
    ((step P call size s e).machine = s.machine ∧ (step P call size s e).left = s.left) ∨
    ∃ whole, P.stopped s.machine = false ∧ (step P call size s e).machine = P.next s.machine (e.1, whole) ∧
      (step P call size s e).left.map (fun c => (c.job, c.whole)) =
        s.left.map (fun c => (c.job, c.whole)) ++ (P.want s.machine e.1).toList.map (·, whole) := by
  unfold CriticalSection.step
  split
  case isTrue => exact .inl ⟨rfl, rfl⟩
  case isFalse hlive =>
    have hstopped : P.stopped s.machine = false := by simpa using hlive
    split
    case h_1 hwant => exact .inr ⟨true, hstopped, rfl, by rw [hwant]; simp⟩
    case h_2 => exact .inl ⟨rfl, rfl⟩
    case h_3 job c hwant hinside =>
        split
        case isFalse => exact .inl ⟨rfl, rfl⟩
        case isTrue =>
          split
          case h_1 => exact .inl ⟨rfl, rfl⟩
          case h_2 whole hoff => exact .inr ⟨whole, hstopped, rfl, by rw [hwant]; simp⟩

/-! ### Runs -/

theorem run_serial (m : σ) (object₀ : ω) (es : List (τ × ρ)) :
    Serial P call size object₀ (Machine.run (step P call size) { machine := m, object := object₀ } es) :=
  Machine.run_invariant (I := (Serial P call size object₀ ·)) (fun _ e h => h.step e) (serial_start m object₀) es

/-- The answers that the sections of a state have had. -/
def Answered (R : ρ → Prop) (s : State σ τ β ρ ω) : Prop :=
  (∀ c ∈ s.left, ∀ r ∈ c.answers, R r) ∧ ∀ c, s.inside = some c → ∀ r ∈ c.answers, R r

theorem Answered.step {R : ρ → Prop} {s : State σ τ β ρ ω} (h : Answered R s) {e : τ × ρ} (he : R e.2) :
    Answered R (step P call size s e) := by
  obtain ⟨hleft, hin⟩ := h
  unfold CriticalSection.step
  split
  case isTrue => exact ⟨hleft, hin⟩
  case isFalse =>
    split
    case h_1 => exact ⟨hleft, hin⟩
    case h_2 =>
        refine ⟨hleft, fun c hc => ?_⟩
        obtain rfl := Option.some.inj hc
        simp
    case h_3 job c hwant hinside =>
        split
        case isFalse => exact ⟨hleft, hin⟩
        case isTrue =>
          split
          case h_1 off hoff =>
              refine ⟨hleft, fun d hd r hr => ?_⟩
              obtain rfl := Option.some.inj hd
              obtain hold | hnew := List.mem_append.mp hr
              · exact hin c hinside r hold
              · rw [List.mem_singleton.mp hnew]
                exact he
          case h_2 =>
              refine ⟨fun d hd => ?_, by simp⟩
              obtain hold | hnew := List.mem_append.mp hd
              · exact hleft d hold
              · rw [List.mem_singleton.mp hnew]
                exact hin c hinside

variable (P call size) in
theorem run_answered {R : ρ → Prop} (m : σ) (object₀ : ω) (es : List (τ × ρ)) (hes : ∀ e ∈ es, R e.2) :
    Answered R (Machine.run (step P call size) { machine := m, object := object₀ } es) := by
  induction es using List.reverseRecOn with
  | nil => exact ⟨by simp, by simp⟩
  | append_singleton es e ih =>
      rw [Machine.run_concat]
      exact (ih fun e' he' => hes e' (List.mem_append_left _ he')).step (hes e (by simp))

variable (P call size) in
/-- A run with the lock is a run of the machine below, in which each section is the one step it is left in. -/
theorem run_machine (s : State σ τ β ρ ω) (es : List (τ × ρ)) :
    ∃ ts : List (τ × Bool), (ts.map (·.1)).Sublist (es.map (·.1)) ∧
      (Machine.run (step P call size) s es).machine = Machine.run P.next s.machine ts ∧
      ∃ more, P.written (Machine.run (step P call size) s es).machine = P.written s.machine ++ more ∧
        (Machine.run (step P call size) s es).left.map (fun c => (c.job, c.whole)) =
          s.left.map (fun c => (c.job, c.whole)) ++ more := by
  induction es generalizing s with
  | nil => exact ⟨[], List.Sublist.slnil, rfl, [], by simp, by simp⟩
  | cons e es ih =>
      obtain ⟨ts, hsub, hmachine, more, hwritten, hleft⟩ := ih (step P call size s e)
      rw [Machine.run_cons, List.map_cons]
      obtain ⟨hsame, hsections⟩ | ⟨whole, hstopped, hnext, hsections⟩ := step_machine P call size s e
      · rw [hsame] at hmachine hwritten
        rw [hsections] at hleft
        exact ⟨ts, hsub.cons _, hmachine, more, hwritten, hleft⟩
      · rw [hnext] at hmachine
        rw [hnext, P.written_next _ _ hstopped, List.append_assoc] at hwritten
        rw [hsections, List.append_assoc] at hleft
        exact ⟨(e.1, whole) :: ts, hsub.cons_cons _, hmachine, _, hwritten, hleft⟩

/-- The thread inside is not held up: where the answers to its calls suffice, it leaves after them. -/
theorem leaves {s : State σ τ β ρ ω} {c : Inside τ β ρ} (hinside : s.inside = some c)
    (hwants : P.want s.machine c.owner = some c.job) (hstopped : P.stopped s.machine = false) {rs : List ρ}
    (hends : ∀ off, c.progress = .calls off → (push (call c.job) (size c.job) off rs s.object).2 ≠ .pending) :
    ∃ n ≤ rs.length, ∀ r,
      (Machine.run (step P call size) s ((rs.take n ++ [r]).map (fun a => (c.owner, a)))).inside = none := by
  induction rs generalizing s c with
  | nil =>
      refine ⟨0, le_rfl, fun r => ?_⟩
      cases hoff : c.progress with
      | calls off => exact absurd rfl (hends off hoff)
      | leaves whole =>
          rw [List.take_zero, List.nil_append, List.map_singleton, Machine.run_cons, Machine.run_nil]
          simp only [CriticalSection.step, hstopped, hwants, hinside, hoff, Bool.false_eq_true, if_false, if_true]
  | cons r' rs ih =>
      cases hoff : c.progress with
      | leaves whole =>
          refine ⟨0, Nat.zero_le _, fun r => ?_⟩
          rw [List.take_zero, List.nil_append, List.map_singleton, Machine.run_cons, Machine.run_nil]
          simp only [CriticalSection.step, hstopped, hwants, hinside, hoff, Bool.false_eq_true, if_false, if_true]
      | calls off =>
          have hstep : step P call size s (c.owner, r') = callInside call size c off r' s := by
            simp only [CriticalSection.step, hstopped, hwants, hinside, hoff, Bool.false_eq_true, if_false, if_true]
          have hrest : ∀ off', (if (call c.job off r' s.object).2 < 0 then Progress.leaves false
              else if off + (call c.job off r' s.object).2.toNat = size c.job then .leaves true
              else .calls (off + (call c.job off r' s.object).2.toNat)) = .calls off' →
              (push (call c.job) (size c.job) off' rs (call c.job off r' s.object).1).2 ≠ .pending := by
            intro off' hoff'
            split_ifs at hoff' with hneg hsize
            have hpush := hends off hoff
            rw [push_cons_next (not_lt.mp hneg) hsize] at hpush
            rw [← Progress.calls.inj hoff']
            exact hpush
          obtain ⟨n, hn, hnone⟩ := ih (s := callInside call size c off r' s)
            (c := { c with answers := c.answers ++ [r'], progress := _ }) rfl hwants hstopped hrest
          refine ⟨n + 1, by simpa using hn, fun r => ?_⟩
          rw [List.take_succ_cons, List.cons_append, List.map_cons, Machine.run_cons, hstep]
          exact hnone r

end CriticalSection
