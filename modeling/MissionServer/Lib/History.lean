import Mathlib.Data.List.Infix

/-!
# Histories

A history is the list of the events so far, oldest first. A safety property of a history says that
every event in it was permitted by the events before it; such a property is kept by appending a
permitted event, which is the only fact a step of a system has to supply.
-/

namespace History

variable {ε : Type*} (ok : List ε → ε → Prop)

/-- Every event of the history is permitted by the part before it. -/
def Permitted (h : List ε) : Prop := ∀ pre e post, h = pre ++ e :: post → ok pre e

variable {ok}

@[simp] theorem permitted_nil : Permitted ok [] := by
  intro pre e post h
  simp at h

theorem permitted_cons {e : ε} {h : List ε} :
    Permitted ok (e :: h) ↔ ok [] e ∧ Permitted (fun pre e' => ok (e :: pre) e') h := by
  constructor
  · intro hall
    exact ⟨hall [] e h rfl, fun pre e' post heq => hall (e :: pre) e' post (by rw [heq, List.cons_append])⟩
  · intro hboth pre e' post heq
    obtain ⟨he, hall⟩ := hboth
    cases pre with
    | nil =>
        obtain ⟨rfl, -⟩ := List.cons.inj heq
        exact he
    | cons first pre =>
        obtain ⟨rfl, hrest⟩ := List.cons.inj heq
        exact hall pre e' post hrest

theorem permitted_concat {h : List ε} {e : ε} : Permitted ok (h ++ [e]) ↔ Permitted ok h ∧ ok h e := by
  constructor
  · intro hall
    refine ⟨fun pre e' post heq => ?_, hall h e [] rfl⟩
    exact hall pre e' (post ++ [e]) (by rw [heq, List.append_assoc, List.cons_append])
  · intro hboth pre e' post heq
    obtain ⟨hall, he⟩ := hboth
    rcases List.eq_nil_or_concat post with rfl | ⟨post', last, rfl⟩
    · obtain ⟨rfl, hlast⟩ := List.append_inj' heq rfl
      rw [List.cons.injEq] at hlast
      exact hlast.1 ▸ he
    · rw [List.concat_eq_append, ← List.cons_append, ← List.append_assoc] at heq
      obtain ⟨hpre, -⟩ := List.append_inj' heq rfl
      exact hall pre e' post' hpre

theorem Permitted.append {h h' : List ε} (hall : Permitted ok h)
    (hnext : ∀ pre e post, h' = pre ++ e :: post → ok (h ++ pre) e) : Permitted ok (h ++ h') := by
  induction h' generalizing h with
  | nil => rwa [List.append_nil]
  | cons e h' ih =>
      rw [List.append_cons]
      have he := hnext [] e h' rfl
      rw [List.append_nil] at he
      refine ih (permitted_concat.mpr ⟨hall, he⟩) fun pre e' post heq => ?_
      rw [List.append_assoc]
      exact hnext (e :: pre) e' post (by rw [heq, List.cons_append])

theorem Permitted.append_always {h h' : List ε} (hall : Permitted ok h) (halways : ∀ e ∈ h', ∀ pre, ok pre e) :
    Permitted ok (h ++ h') :=
  hall.append fun pre e post heq => halways e (by simp [heq]) (h ++ pre)

theorem Permitted.of_prefix {h h' : List ε} (hall : Permitted ok h') (hpre : h <+: h') : Permitted ok h := by
  obtain ⟨tail, rfl⟩ := hpre
  intro pre e post heq
  exact hall pre e (post ++ tail) (by rw [heq, List.append_assoc, List.cons_append])

/-! ### The latest event -/

/-- `e` is in the history, and no event after it is one of `T`. -/
def Latest (T : ε → Prop) (h : List ε) (e : ε) : Prop := ∃ before after, h = before ++ e :: after ∧ ∀ e' ∈ after, ¬ T e'

theorem not_latest_nil {T : ε → Prop} {e : ε} : ¬ Latest T [] e := by
  rintro ⟨before, after, heq, -⟩
  simp at heq

theorem latest_concat {T : ε → Prop} {h : List ε} {e last : ε} (he : T e) :
    Latest T (h ++ [last]) e ↔ T last ∧ last = e ∨ ¬ T last ∧ Latest T h e := by
  constructor
  · rintro ⟨before, after, heq, hafter⟩
    rcases List.eq_nil_or_concat after with rfl | ⟨after', last', rfl⟩
    · have hsame : last = e := List.singleton_inj.mp (List.append_inj' heq rfl).2
      exact .inl ⟨hsame ▸ he, hsame⟩
    · rw [List.concat_eq_append] at heq hafter
      rw [← List.cons_append, ← List.append_assoc] at heq
      obtain ⟨hfront, hback⟩ := List.append_inj' heq rfl
      have hnot : ¬ T last := List.singleton_inj.mp hback ▸ hafter last' (by simp)
      exact .inr ⟨hnot, before, after', hfront, fun e' he' => hafter e' (List.mem_append_left _ he')⟩
  · rintro (⟨-, rfl⟩ | ⟨hnot, before, after, rfl, hafter⟩)
    · exact ⟨h, [], rfl, nofun⟩
    · refine ⟨before, after ++ [last], by simp, fun e' he' => ?_⟩
      obtain he' | he' := List.mem_append.mp he'
      · exact hafter e' he'
      · exact List.mem_singleton.mp he' ▸ hnot

end History
