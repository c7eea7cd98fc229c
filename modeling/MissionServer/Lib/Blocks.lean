import Mathlib.Data.List.Infix

/-!
# Frames on a shared line

Several writers put pieces of their streams on one line, a piece at a time. A frame of a stream that is
written in pieces stays in one block exactly when no one else writes while it is begun and not finished.
-/

namespace Blocks

variable {τ α : Type*}

/-- The line after some writes: each symbol with its writer. -/
def line (writes : List (τ × List α)) : List (τ × α) := writes.flatMap fun w => w.2.map (Prod.mk w.1)

theorem line_cons (w : τ × List α) (writes : List (τ × List α)) :
    line (w :: writes) = w.2.map (Prod.mk w.1) ++ line writes := rfl

theorem line_append (writes writes' : List (τ × List α)) : line (writes ++ writes') = line writes ++ line writes' :=
  List.flatMap_append

variable [DecidableEq τ]

/-- What one writer has put on the line. -/
def streamOf (t : τ) (symbols : List (τ × α)) : List α :=
  symbols.filterMap fun x => if x.1 = t then some x.2 else none

/-- The part of a writer's stream that follows `before` stands on the line in one block. -/
def Contiguous (t : τ) (symbols : List (τ × α)) (before block : List α) : Prop :=
  ∃ pre post, symbols = pre ++ block.map (Prod.mk t) ++ post ∧ streamOf t pre = before

/-- Everyone else writes only where `P` holds of what the writer has put on the line so far, and of what
it puts there afterwards. -/
def OthersWrite (t : τ) (P : List α → List α → Prop) (writes : List (τ × List α)) : Prop :=
  ∀ pre w post, writes = pre ++ w :: post → w.1 ≠ t → w.2 ≠ [] → P (streamOf t (line pre)) (streamOf t (line post))

/-! ### Streams -/

theorem streamOf_append (t : τ) (symbols symbols' : List (τ × α)) :
    streamOf t (symbols ++ symbols') = streamOf t symbols ++ streamOf t symbols' :=
  List.filterMap_append

theorem streamOf_map_self (t : τ) (block : List α) : streamOf t (block.map (Prod.mk t)) = block := by
  simp [streamOf, List.filterMap_map]

theorem streamOf_map_of_ne {t u : τ} (h : u ≠ t) (block : List α) : streamOf t (block.map (Prod.mk u)) = [] := by
  simp [streamOf, List.filterMap_map, h]

theorem streamOf_line_cons_self {t : τ} {w : τ × List α} (h : w.1 = t) (writes : List (τ × List α)) :
    streamOf t (line (w :: writes)) = w.2 ++ streamOf t (line writes) := by
  rw [line_cons, streamOf_append, h, streamOf_map_self]

theorem streamOf_line_cons_of_ne {t : τ} {w : τ × List α} (h : w.1 ≠ t) (writes : List (τ × List α)) :
    streamOf t (line (w :: writes)) = streamOf t (line writes) := by
  rw [line_cons, streamOf_append, streamOf_map_of_ne h, List.nil_append]

theorem OthersWrite.mono {t : τ} {P Q : List α → List α → Prop} {writes : List (τ × List α)}
    (h : OthersWrite t P writes) (hle : ∀ before after, before ++ after = streamOf t (line writes) →
      P before after → Q before after) : OthersWrite t Q writes := by
  intro pre w post heq hne hwrites
  refine hle _ _ ?_ (h pre w post heq hne hwrites)
  rw [heq, line_append, streamOf_append, streamOf_line_cons_of_ne hne]

theorem OthersWrite.tail {t : τ} {P : List α → List α → Prop} {w : τ × List α} {writes : List (τ × List α)}
    (h : OthersWrite t P (w :: writes)) :
    OthersWrite t (fun before after => P (streamOf t (line [w]) ++ before) after) writes := by
  intro pre w' post heq hne hwrites
  have hP := h (w :: pre) w' post (by rw [heq, List.cons_append]) hne hwrites
  rwa [← List.singleton_append, line_append, streamOf_append] at hP

/-! ### One block -/

variable {t : τ} {writes : List (τ × List α)}

theorem block_of_free {block rest : List α} (hstream : streamOf t (line writes) = block ++ rest)
    (hfree : OthersWrite t (fun before _ => block.length ≤ before.length) writes) :
    ∃ post, line writes = block.map (Prod.mk t) ++ post := by
  induction writes generalizing block with
  | nil =>
      obtain ⟨rfl, -⟩ := List.append_eq_nil_iff.mp hstream.symm
      exact ⟨[], rfl⟩
  | cons w writes ih =>
      by_cases hw : w.1 = t
      · rw [streamOf_line_cons_self hw] at hstream
        have htail := hfree.tail
        rw [streamOf_line_cons_self hw, show streamOf t (line []) = ([] : List α) from rfl, List.append_nil] at htail
        obtain ⟨c, rfl, hrest⟩ | ⟨c, hpiece, -⟩ := List.append_eq_append_iff.mp hstream
        · obtain ⟨post, hpost⟩ := ih hrest (htail.mono fun before after _ hle => by simpa using hle)
          exact ⟨post, by rw [line_cons, hw, hpost, List.map_append, List.append_assoc]⟩
        · exact ⟨c.map (Prod.mk t) ++ line writes, by rw [line_cons, hw, hpiece, List.map_append, List.append_assoc]⟩
      · rw [streamOf_line_cons_of_ne hw] at hstream
        by_cases hempty : w.2 = []
        · have htail := hfree.tail
          rw [streamOf_line_cons_of_ne hw] at htail
          obtain ⟨post, hpost⟩ := ih hstream htail
          exact ⟨post, by rw [line_cons, hempty, hpost, List.map_nil, List.nil_append]⟩
        · have hnil : block = [] := by
            have hle := hfree [] w writes rfl hw hempty
            exact List.length_eq_zero_iff.mp (Nat.le_zero.mp hle)
          exact ⟨line (w :: writes), by rw [hnil, List.map_nil, List.nil_append]⟩

theorem contiguous_of_free {before block rest : List α} (hstream : streamOf t (line writes) = before ++ (block ++ rest))
    (hfree : OthersWrite t
      (fun sofar _ => sofar.length ≤ before.length ∨ before.length + block.length ≤ sofar.length) writes) :
    Contiguous t (line writes) before block := by
  induction writes generalizing before with
  | nil =>
      obtain ⟨rfl, hnil⟩ := List.append_eq_nil_iff.mp hstream.symm
      obtain ⟨rfl, -⟩ := List.append_eq_nil_iff.mp hnil
      exact ⟨[], [], rfl, rfl⟩
  | cons w writes ih =>
      have htail := hfree.tail
      by_cases hw : w.1 = t
      · rw [streamOf_line_cons_self hw] at hstream
        rw [streamOf_line_cons_self hw, show streamOf t (line []) = ([] : List α) from rfl, List.append_nil] at htail
        -- a block that begins behind this piece
        have hbehind {c : List α} (hbefore : before = w.2 ++ c)
            (hrest : streamOf t (line writes) = c ++ (block ++ rest)) :
            Contiguous t (line (w :: writes)) before block := by
          obtain ⟨pre, post, hline, hpre⟩ := ih hrest <| htail.mono fun sofar after _ hle => by
            simp only [hbefore, List.length_append] at hle
            omega
          refine ⟨w.2.map (Prod.mk t) ++ pre, post, by rw [line_cons, hw, hline]; simp, ?_⟩
          rw [streamOf_append, streamOf_map_self, hpre, hbefore]
        obtain ⟨c, hbefore, hrest⟩ | ⟨c, hpiece, hrest⟩ := List.append_eq_append_iff.mp hstream
        · exact hbehind hbefore hrest
        · by_cases hc : c = []
          · exact hbehind (c := []) (by rw [hpiece, hc, List.append_nil]; simp) (by rw [hrest, hc]; simp)
          have hcpos : 0 < c.length := List.length_pos_iff.mpr hc
          obtain ⟨d, hd, -⟩ | ⟨d, hd, hrest'⟩ := List.append_eq_append_iff.mp hrest
          · refine ⟨before.map (Prod.mk t), d.map (Prod.mk t) ++ line writes, ?_, streamOf_map_self t before⟩
            rw [line_cons, hw, hpiece, hd]
            simp
          · obtain ⟨post, hpost⟩ := block_of_free hrest' <| htail.mono fun sofar after _ hle => by
              simp only [hpiece, hd, List.length_append] at hle
              omega
            refine ⟨before.map (Prod.mk t), post, ?_, streamOf_map_self t before⟩
            rw [line_cons, hw, hpiece, hpost, hd]
            simp
      · rw [streamOf_line_cons_of_ne hw] at hstream htail
        obtain ⟨pre, post, hline, hpre⟩ := ih hstream htail
        refine ⟨w.2.map (Prod.mk w.1) ++ pre, post, by rw [line_cons, hline]; simp, ?_⟩
        rw [streamOf_append, streamOf_map_of_ne hw, hpre, List.nil_append]

theorem others_of_contiguous {before block : List α} (h : Contiguous t (line writes) before block) :
    OthersWrite t
      (fun sofar _ => sofar.length ≤ before.length ∨ before.length + block.length ≤ sofar.length) writes := by
  obtain ⟨pre, post, hline, hpre⟩ := h
  intro front w back heq hne hwrites
  by_contra hinside
  rw [not_or, Nat.not_le, Nat.not_le] at hinside
  obtain ⟨hlo, hhi⟩ := hinside
  rw [heq, line_append, line_cons, List.append_assoc] at hline
  have hstream : streamOf t (pre ++ block.map (Prod.mk t)) = before ++ block := by
    rw [streamOf_append, hpre, streamOf_map_self]
  -- the foreign symbol stands behind `pre`, and before the end of the block
  obtain ⟨x, hx, -⟩ | ⟨x, hfront, hx⟩ := List.append_eq_append_iff.mp hline
  · have hle : (streamOf t (line front)).length ≤ before.length := by
      rw [← hpre, hx, streamOf_append, List.length_append]
      omega
    omega
  obtain ⟨y, rfl, -⟩ | ⟨y, hblock, hback⟩ := List.append_eq_append_iff.mp hx
  · rw [hfront, ← List.append_assoc, streamOf_append, hstream, List.length_append, List.length_append] at hhi
    omega
  · cases y with
    | nil =>
        rw [List.append_nil] at hblock
        rw [hfront, ← hblock, hstream, List.length_append] at hhi
        omega
    | cons b y =>
        have hmem : b ∈ block.map (Prod.mk t) := hblock ▸ List.mem_append_right x List.mem_cons_self
        obtain ⟨c, -, hc⟩ := List.mem_map.mp hmem
        obtain ⟨d, rest, hd⟩ := List.exists_cons_of_ne_nil hwrites
        rw [hd, List.map_cons, List.cons_append, List.cons_append, List.cons.injEq, ← hc, Prod.mk.injEq] at hback
        exact hne hback.1.1

/-! ### A stream of frames -/

/-- What has been written ends with a whole frame. -/
def AtBoundary (frames : List (List α)) (sofar : List α) : Prop :=
  ∃ done rest, frames = done ++ rest ∧ sofar = done.flatten

/-- Each frame of the stream, as far as it has been written, stands in one block. -/
def FramesContiguous (t : τ) (frames : List (List α)) (symbols : List (τ × α)) : Prop :=
  ∀ done frame rest, frames = done ++ frame :: rest → done.flatten.length ≤ (streamOf t symbols).length →
    Contiguous t symbols done.flatten (frame.take ((streamOf t symbols).length - done.flatten.length))

theorem exists_frame {frames : List (List α)} {n : Nat} (h : n < frames.flatten.length) :
    ∃ done frame rest, frames = done ++ frame :: rest ∧ done.flatten.length ≤ n ∧
      n < done.flatten.length + frame.length := by
  induction frames generalizing n with
  | nil => simp at h
  | cons first frames ih =>
      by_cases hn : n < first.length
      · exact ⟨[], first, frames, rfl, Nat.zero_le n, by simpa using hn⟩
      · rw [List.flatten_cons, List.length_append] at h
        obtain ⟨done, frame, rest, rfl, hlo, hhi⟩ := @ih (n - first.length) (by omega)
        refine ⟨first :: done, frame, rest, rfl, ?_, ?_⟩
        all_goals
          rw [List.flatten_cons, List.length_append]
          omega

/-- The frames stay whole exactly when everyone else writes between frames, or once the stream is at
its end. -/
theorem framesContiguous_iff {frames : List (List α)} (hstream : streamOf t (line writes) <+: frames.flatten) :
    FramesContiguous t frames (line writes) ↔
      OthersWrite t (fun sofar after => AtBoundary frames sofar ∨ after = []) writes := by
  constructor
  · intro h pre w post heq hne hwrites
    by_contra hinside
    rw [not_or] at hinside
    obtain ⟨hboundary, hafter⟩ := hinside
    have hsplit : streamOf t (line writes) = streamOf t (line pre) ++ streamOf t (line post) := by
      rw [heq, line_append, streamOf_append, streamOf_line_cons_of_ne hne]
    have hlength := congrArg List.length hsplit
    rw [List.length_append] at hlength
    have hpos : 0 < (streamOf t (line post)).length := List.length_pos_iff.mpr hafter
    have hle := hstream.length_le
    obtain ⟨done, frame, rest, hframes, hlo, hhi⟩ := @exists_frame _ frames (streamOf t (line pre)).length (by omega)
    have hblock := others_of_contiguous (h done frame rest hframes (by omega)) pre w post heq hne hwrites
    rw [List.length_take] at hblock
    have hpre : streamOf t (line pre) <+: frames.flatten :=
      (hsplit ▸ List.prefix_append _ _ : streamOf t (line pre) <+: streamOf t (line writes)).trans hstream
    have hdone : done.flatten <+: frames.flatten := by
      rw [hframes, List.flatten_append]
      exact List.prefix_append _ _
    have heq : streamOf t (line pre) = done.flatten :=
      (List.prefix_of_prefix_length_le hpre hdone (by omega)).eq_of_length (by omega)
    exact hboundary ⟨done, frame :: rest, hframes, heq⟩
  · intro h done frame rest hframes hbegun
    have hsplit : streamOf t (line writes) = done.flatten ++
        (frame.take ((streamOf t (line writes)).length - done.flatten.length) ++
          rest.flatten.take ((streamOf t (line writes)).length - done.flatten.length - frame.length)) := by
      obtain ⟨n, hn⟩ := Nat.exists_eq_add_of_le hbegun
      have htake := List.prefix_iff_eq_take.mp hstream
      rw [hn, hframes, List.flatten_append, List.flatten_cons, List.take_length_add_append, List.take_append] at htake
      rw [hn, Nat.add_sub_cancel_left]
      exact htake
    refine contiguous_of_free hsplit (h.mono fun sofar after hwhole hP => ?_)
    rw [List.length_take]
    obtain ⟨done', rest', hframes', rfl⟩ | rfl := hP
    · obtain ⟨x, rfl, hx⟩ | ⟨y, rfl, -⟩ := List.append_eq_append_iff.mp (hframes.symm.trans hframes')
      · cases x with
        | nil => simp
        | cons first x =>
            obtain ⟨rfl, -⟩ := List.cons.inj hx
            simp only [List.flatten_append, List.flatten_cons, List.length_append]
            omega
      · simp
    · rw [List.append_nil] at hwhole
      rw [hwhole]
      omega

end Blocks
