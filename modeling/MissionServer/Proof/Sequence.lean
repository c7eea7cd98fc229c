import MissionServer.Lib.Machine
import MissionServer.Lib.Ticket
import MissionServer.Proof.ClientList
import MissionServer.UartServer.Threads

/-!
# Sequence numbers on the wire

A message takes its number outside the lock that orders the writes, and keeps it when its write fails. The numbers
on the wire are in order as long as no message gets there while an earlier one is missing.
-/

namespace MissionServer

namespace Threads

/-- The numbers on the wire are consecutive. -/
def Consecutive (s : Threads) : Prop := Ticket.Consecutive (· + 1) (s.wire.map (·.seq))

/-- The numbers on the wire are consecutive, from the counter's first one on. -/
def InOrder (txSeq : UInt8) (s : Threads) : Prop := Ticket.InOrder (· + 1) txSeq (s.wire.map (·.seq))

/-- What is missing on the wire but for what the thread itself holds: what has been lost, and what the other thread
holds. -/
def missing (s : Threads) (thread : Thread) : List Packed := s.lost ++ (s.packed thread.other).toList

/-- A message gets to the wire when none that was packed before it is missing. -/
def Yields (s : Threads) (step : ThreadStep) : Prop :=
  s.ended = false → step.written = true → ∀ p, s.packed step.thread = some p →
    ∀ q ∈ s.missing step.thread, p.index ≤ q.index

/-- A message gets to the wire when, modulo 256, as many packed before it are missing as packed after it are there. -/
def InTurn (s : Threads) (step : ThreadStep) : Prop :=
  s.ended = false → step.written = true → ∀ p, s.packed step.thread = some p →
    Ticket.earlier ((s.missing step.thread).map (·.index)) p.index ≡
      Ticket.later (s.wire.map (·.index)) p.index [MOD 256]

/-- The same, once a message is on the wire, where those packed before the first one there do not count as missing. -/
def InTurnAfterFirst (s : Threads) (step : ThreadStep) : Prop :=
  s.ended = false → step.written = true → ∀ p, s.packed step.thread = some p → ∀ first ∈ s.wire.head?,
    Ticket.earlier ((s.missing step.thread).map (·.index)) p.index ≡
      first.index + Ticket.later (s.wire.map (·.index)) p.index [MOD 256]

/-! ### What a step does to the messages -/

theorem other_ne (thread : Thread) : thread.other ≠ thread := by cases thread <;> decide

/-- What a thread that writes no message does: it packs one, or keeps them all where they are. -/
def PacksOrKeeps (thread : Thread) (s s' : Threads) : Prop :=
  (∃ frame, ∃ s₀ : Threads, s' = s₀.pack thread frame ∧ s₀.txSeq = s.txSeq ∧ s₀.packedCount = s.packedCount ∧
    s₀.packed = s.packed ∧ s₀.port = s.port) ∨
  (s'.txSeq = s.txSeq ∧ s'.packedCount = s.packedCount ∧ s'.packed = s.packed ∧ s'.wire = s.wire ∧ s'.lost = s.lost)

theorem act_packsOrKeeps (s : Threads) (written : Bool) : PacksOrKeeps .server s (s.act written) := by
  rw [act]
  split
  · exact .inr ⟨rfl, rfl, rfl, rfl, rfl⟩
  · exact .inr ⟨rfl, rfl, rfl, rfl, rfl⟩
  · exact .inr ⟨rfl, rfl, rfl, rfl, rfl⟩
  · exact .inl ⟨_, _, rfl, rfl, rfl, rfl, rfl⟩
  · exact .inr ⟨rfl, rfl, rfl, by simp [wire], by simp [lost]⟩
  · exact .inr ⟨rfl, rfl, rfl, rfl, rfl⟩

theorem txThread_packsOrKeeps (s : Threads) : PacksOrKeeps .txThread s s.txThread := by
  rw [txThread]
  split
  · split
    · exact .inr ⟨rfl, rfl, rfl, rfl, rfl⟩
    · exact .inl ⟨_, _, rfl, rfl, rfl, rfl, rfl⟩
  · exact .inr ⟨rfl, rfl, rfl, rfl, rfl⟩

/-- A thread writes what it has packed; where it has nothing packed it packs a message or keeps them all. -/
theorem next_cases (s : Threads) (step : ThreadStep) :
    (∃ p, s.ended = false ∧ s.packed step.thread = some p ∧ s.next step = s.write step.thread p step.written) ∨
    (s.packed step.thread = none ∧ PacksOrKeeps step.thread s (s.next step)) ∨ (s.ended = true ∧ s.next step = s) := by
  obtain ⟨thread, written⟩ := step
  unfold next
  cases hended : s.ended with
  | true => exact .inr (.inr ⟨rfl, rfl⟩)
  | false =>
      cases hpacked : s.packed thread with
      | some p => exact .inl ⟨p, rfl, rfl, rfl⟩
      | none =>
          cases thread with
          | server => exact .inr (.inl ⟨rfl, act_packsOrKeeps s written⟩)
          | txThread => exact .inr (.inl ⟨rfl, txThread_packsOrKeeps s⟩)

theorem packed_next_other (s : Threads) {thread : Thread} {step : ThreadStep} (hne : thread ≠ step.thread) :
    (s.next step).packed thread = s.packed thread := by
  obtain ⟨p, -, -, heq⟩ | ⟨-, hsame⟩ | ⟨-, heq⟩ := s.next_cases step
  · rw [heq, write]
    exact Function.update_of_ne hne _ _
  · obtain ⟨frame, s₀, heq, -, -, hpacked, -⟩ | ⟨-, -, hpacked, -⟩ := hsame
    · rw [heq, ← hpacked, pack]
      exact Function.update_of_ne hne _ _
    · rw [hpacked]
  · rw [heq]

theorem todo_next_txThread (s : Threads) (written : Bool) : (s.next ⟨.txThread, written⟩).todo = s.todo := by
  rw [next]
  split
  · rfl
  · split
    · rfl
    · dsimp only [txThread]
      split
      · split <;> rfl
      · rfl

theorem wire_write (s : Threads) (thread : Thread) (p : Packed) (written : Bool) :
    (s.write thread p written).wire = s.wire ++ if written then [p] else [] := by
  cases written <;> simp [wire, write]

theorem lost_write (s : Threads) (thread : Thread) (p : Packed) (written : Bool) :
    (s.write thread p written).lost = s.lost ++ if written then [] else [p] := by
  cases written <;> simp [lost, write]

/-- All messages packed so far: on the wire, lost, or held by a thread. -/
def messages (s : Threads) : List Packed :=
  s.wire ++ (s.lost ++ ((s.packed .server).toList ++ (s.packed .txThread).toList))

theorem messages_perm (s : Threads) (thread : Thread) :
    s.messages.Perm (s.wire ++ ((s.packed thread).toList ++ s.missing thread)) := by
  refine List.Perm.append_left _ ?_
  cases thread with
  | server => exact (List.perm_append_comm_assoc _ _ _)
  | txThread =>
      refine (List.Perm.append_left _ List.perm_append_comm).trans ?_
      exact List.perm_append_comm_assoc _ _ _

theorem messages_write {s : Threads} {thread : Thread} {p : Packed} (hpacked : s.packed thread = some p)
    (written : Bool) : (s.write thread p written).messages.Perm s.messages := by
  have hothers : (s.write thread p written).packed thread.other = s.packed thread.other :=
    Function.update_of_ne (other_ne thread) _ _
  have hnone : (s.write thread p written).packed thread = none := Function.update_self ..
  refine (messages_perm _ thread).trans (.trans ?_ (messages_perm s thread).symm)
  rw [missing, missing, hothers, hnone, hpacked, wire_write, lost_write]
  cases written with
  | true => simp
  | false => simpa using List.Perm.append_left _ List.perm_middle

theorem messages_pack {s : Threads} {thread : Thread} (hpacked : s.packed thread = none) (frame : MavlinkFrame) :
    (s.pack thread frame).messages.Perm (⟨s.txSeq, s.packedCount, frame⟩ :: s.messages) := by
  have hothers : (s.pack thread frame).packed thread.other = s.packed thread.other :=
    Function.update_of_ne (other_ne thread) _ _
  have hsome : (s.pack thread frame).packed thread = some ⟨s.txSeq, s.packedCount, frame⟩ := Function.update_self ..
  have hwire : (s.pack thread frame).wire = s.wire := rfl
  have hlost : (s.pack thread frame).lost = s.lost := rfl
  refine (messages_perm _ thread).trans (.trans ?_ (.cons _ (messages_perm s thread).symm))
  rw [missing, missing, hothers, hsome, hpacked, hwire, hlost]
  exact List.perm_middle

/-! ### The numbers -/

/-- Each message carries the number of its turn. -/
structure Accounted (txSeq : UInt8) (s : Threads) : Prop where
  counter : s.txSeq = (· + 1)^[s.packedCount] txSeq
  seq : ∀ p ∈ s.messages, p.seq = (· + 1)^[p.index] txSeq
  all : (s.messages.map (·.index)).Perm (List.range s.packedCount)

theorem accounted_start (txSeq : UInt8) (todo : List ServerAction) : (start txSeq todo).Accounted txSeq where
  counter := rfl
  seq _ hp := absurd hp List.not_mem_nil
  all := .refl _

theorem Accounted.next {txSeq : UInt8} {s : Threads} (h : s.Accounted txSeq) (step : ThreadStep) :
    (s.next step).Accounted txSeq := by
  obtain ⟨p, -, hpacked, heq⟩ | ⟨hpacked, hsame⟩ | ⟨-, heq⟩ := next_cases s step
  · rw [heq]
    have hmessages := messages_write hpacked step.written
    exact ⟨h.counter, fun q hq => h.seq q (hmessages.mem_iff.mp hq), (hmessages.map _).trans h.all⟩
  · obtain ⟨frame, s₀, heq, hseq, hcount, hpacked', hport⟩ | ⟨hseq, hcount, hpacked', hwire, hlost⟩ := hsame
    · have hsame : s₀.messages = s.messages := by simp only [messages, wire, lost, hpacked', hport]
      have hmessages : (s₀.pack step.thread frame).messages.Perm (⟨s.txSeq, s.packedCount, frame⟩ :: s.messages) := by
        rw [← hseq, ← hcount, ← hsame]
        exact messages_pack (hpacked' ▸ hpacked) frame
      rw [heq]
      refine ⟨?_, fun q hq => ?_, ?_⟩
      · show s₀.txSeq + 1 = (· + 1)^[s₀.packedCount + 1] txSeq
        rw [Function.iterate_succ_apply', hseq, hcount, h.counter]
      · obtain rfl | hold := List.mem_cons.mp (hmessages.mem_iff.mp hq)
        · exact h.counter
        · exact h.seq q hold
      · show (List.map _ _).Perm (List.range (s₀.packedCount + 1))
        rw [hcount, List.range_succ]
        refine (hmessages.map _).trans ?_
        exact (h.all.cons s.packedCount).trans (List.perm_append_singleton _ _).symm
    · have hmessages : (s.next step).messages = s.messages := by simp only [messages, hwire, hlost, hpacked']
      exact ⟨by rw [hseq, hcount, h.counter], hmessages ▸ h.seq, by rw [hmessages, hcount]; exact h.all⟩
  · rw [heq]
    exact h

theorem iterate_add_one_eq_iff (txSeq : UInt8) (a b : ℕ) :
    (· + 1)^[a] txSeq = (· + 1)^[b] txSeq ↔ a ≡ b [MOD 256] := by
  have hiterate (k : ℕ) : (· + 1)^[k] txSeq = txSeq + UInt8.ofNat k := by
    induction k with
    | zero => simp
    | succ k ih => rw [Function.iterate_succ_apply', ih, UInt8.ofNat_add, UInt8.add_assoc]; rfl
  rw [hiterate, hiterate, UInt8.add_right_inj, ← UInt8.toNat_inj, UInt8.toNat_ofNat', UInt8.toNat_ofNat']
  rfl

theorem Accounted.wire_seq {txSeq : UInt8} {s : Threads} (h : s.Accounted txSeq) :
    s.wire.map (·.seq) = (s.wire.map (·.index)).map fun i => (· + 1)^[i] txSeq := by
  rw [List.map_map]
  exact List.map_congr_left fun p hp => h.seq p (List.mem_append_left _ hp)

/-- The messages but for the one that a thread is about to write. -/
theorem Accounted.about_to_write {txSeq : UInt8} {s : Threads} (h : s.Accounted txSeq) {thread : Thread} {p : Packed}
    (hpacked : s.packed thread = some p) :
    p.seq = (· + 1)^[p.index] txSeq ∧
      (s.wire.map (·.index) ++ p.index :: (s.missing thread).map (·.index)).Perm (List.range s.packedCount) := by
  have hmessages := messages_perm s thread
  rw [hpacked] at hmessages
  refine ⟨h.seq p (hmessages.mem_iff.mpr (by simp)), ?_⟩
  have hall := (hmessages.map (·.index)).symm.trans h.all
  rwa [List.map_append] at hall

theorem wire_next_of_keeps {s : Threads} {step : ThreadStep} (h : PacksOrKeeps step.thread s (s.next step)) :
    (s.next step).wire = s.wire := by
  obtain ⟨frame, s₀, heq, -, -, -, hport⟩ | ⟨-, -, -, hwire, -⟩ := h
  · rw [heq]
    show List.filterMap _ s₀.port = _
    rw [hport]
    rfl
  · exact hwire

theorem atWrite_congr {s : Threads} {step : ThreadStep} {P Q : Packed → Prop}
    (h : ∀ p, s.packed step.thread = some p → (P p ↔ Q p)) :
    (s.ended = false → step.written = true → ∀ p, s.packed step.thread = some p → P p) ↔
      (s.ended = false → step.written = true → ∀ p, s.packed step.thread = some p → Q p) :=
  forall₂_congr fun _ _ => forall₂_congr h

/-- What holds of the numbers on the wire holds after a step where it holds with the number that the step adds. -/
theorem wire_next_iff {ok : List UInt8 → Prop} {s : Threads} (h : ok (s.wire.map (·.seq))) (step : ThreadStep) :
    ok ((s.next step).wire.map (·.seq)) ↔
      (s.ended = false → step.written = true → ∀ p, s.packed step.thread = some p →
        ok (s.wire.map (·.seq) ++ [p.seq])) := by
  obtain ⟨p, hended, hpacked, heq⟩ | ⟨hpacked, hsame⟩ | ⟨hended, heq⟩ := next_cases s step
  · rw [heq, wire_write]
    cases hwritten : step.written with
    | false =>
        rw [if_neg Bool.false_ne_true, List.append_nil]
        exact iff_of_true h fun _ htrue => absurd htrue Bool.false_ne_true
    | true =>
        rw [if_pos rfl, List.map_append, List.map_singleton]
        constructor
        · intro hok _ _ q hq
          obtain rfl := Option.some.inj (hpacked.symm.trans hq)
          exact hok
        · exact fun hok => hok hended rfl p hpacked
  · rw [wire_next_of_keeps hsame]
    exact iff_of_true h fun _ _ p hp => (Option.some_ne_none p (hp.symm.trans hpacked)).elim
  · rw [heq]
    exact iff_of_true h fun hlive => absurd (hlive.symm.trans hended) Bool.false_ne_true

theorem inOrder_next_iff {txSeq : UInt8} {s : Threads} (haccounted : s.Accounted txSeq) (h : s.InOrder txSeq)
    (step : ThreadStep) : (s.next step).InOrder txSeq ↔ s.InTurn step := by
  refine (wire_next_iff h step).trans (atWrite_congr fun p hpacked => ?_)
  obtain ⟨hseq, hall⟩ := haccounted.about_to_write hpacked
  rw [InOrder, haccounted.wire_seq] at h
  rw [hseq, haccounted.wire_seq, h.deliver_iff (iterate_add_one_eq_iff txSeq) hall]

theorem consecutive_next_iff {txSeq : UInt8} {s : Threads} (haccounted : s.Accounted txSeq) (h : s.Consecutive)
    (step : ThreadStep) : (s.next step).Consecutive ↔ s.InTurnAfterFirst step := by
  refine (wire_next_iff h step).trans (atWrite_congr fun p hpacked => ?_)
  obtain ⟨hseq, hall⟩ := haccounted.about_to_write hpacked
  rw [Consecutive, haccounted.wire_seq] at h
  rw [hseq, haccounted.wire_seq, h.deliver_iff (iterate_add_one_eq_iff txSeq) hall, List.head?_map]
  simp only [Option.mem_map, forall_exists_index, and_imp, forall_apply_eq_imp_iff₂]

/-! ### While less than 256 numbers are out -/

/-- What is on the wire was packed before all that is missing there. -/
def Ahead (s : Threads) : Prop :=
  ∀ p ∈ s.wire, ∀ q ∈ s.lost ++ ((s.packed .server).toList ++ (s.packed .txThread).toList), p.index ≤ q.index

theorem ahead_iff (s : Threads) (thread : Thread) :
    s.Ahead ↔ ∀ p ∈ s.wire, ∀ q ∈ (s.packed thread).toList ++ s.missing thread, p.index ≤ q.index := by
  have hsame (q : Packed) : q ∈ s.lost ++ ((s.packed .server).toList ++ (s.packed .txThread).toList) ↔
      q ∈ (s.packed thread).toList ++ s.missing thread := by
    cases thread <;> simp only [missing, Thread.other, List.mem_append] <;> tauto
  simp only [Ahead, hsame]

theorem inTurn_iff_yields {s : Threads} (h : s.Ahead) (hfew : s.lost.length < 255) (step : ThreadStep) :
    s.InTurn step ↔ s.Yields step := by
  refine atWrite_congr fun p hpacked => ?_
  have hahead := (ahead_iff s step.thread).mp h
  rw [hpacked] at hahead
  have hdone : ∀ j ∈ s.wire.map (·.index), j ≤ p.index :=
    List.forall_mem_map.mpr fun q hq => hahead q hq p (by simp)
  have hlength : ((s.missing step.thread).map (·.index)).length < 256 := by
    have hone : (s.packed step.thread.other).toList.length ≤ 1 := by
      cases s.packed step.thread.other <;> simp
    rw [List.length_map, missing, List.length_append]
    omega
  rw [Ticket.earlier_modEq_later_iff hdone hlength, List.forall_mem_map]

theorem Ahead.next {txSeq : UInt8} {s : Threads} (haccounted : s.Accounted txSeq) (h : s.Ahead) {step : ThreadStep}
    (hyields : s.Yields step) : (s.next step).Ahead := by
  obtain ⟨p, hended, hpacked, heq⟩ | ⟨hpacked, hsame⟩ | ⟨-, heq⟩ := next_cases s step
  · have hahead := (ahead_iff s step.thread).mp h
    have hothers : (s.write step.thread p step.written).packed step.thread.other = s.packed step.thread.other :=
      Function.update_of_ne (other_ne step.thread) _ _
    have hnone : (s.write step.thread p step.written).packed step.thread = none := Function.update_self ..
    rw [heq, ahead_iff _ step.thread, missing, hothers, hnone, wire_write, lost_write]
    rw [hpacked] at hahead
    cases hwritten : step.written with
    | true =>
        intro q hq r hr
        have hr' : r ∈ s.missing step.thread := by simpa [missing] using hr
        obtain hq | rfl : q ∈ s.wire ∨ q = p := by simpa using hq
        · exact hahead q hq r (List.mem_append_right _ hr')
        · exact hyields hended hwritten q hpacked r hr'
    | false =>
        intro q hq r hr
        refine hahead q (by simpa using hq) r ?_
        simp only [missing, Bool.false_eq_true, if_false, Option.toList_none, Option.toList_some, List.mem_append,
          List.nil_append, List.mem_singleton] at hr ⊢
        tauto
  · obtain ⟨frame, s₀, heq, -, hcount, hpacked', hport⟩ | ⟨-, -, hpacked', hwire, hlost⟩ := hsame
    · have hothers : (s₀.pack step.thread frame).packed step.thread.other = s.packed step.thread.other := by
        rw [← hpacked']
        exact Function.update_of_ne (other_ne step.thread) _ _
      have hnew : (s₀.pack step.thread frame).packed step.thread = some ⟨s₀.txSeq, s₀.packedCount, frame⟩ :=
        Function.update_self ..
      have hwire : (s₀.pack step.thread frame).wire = s.wire := by simp only [wire, pack, hport]
      have hlost : (s₀.pack step.thread frame).lost = s.lost := by simp only [lost, pack, hport]
      have hahead := (ahead_iff s step.thread).mp h
      rw [hpacked] at hahead
      rw [heq, ahead_iff _ step.thread, missing, hothers, hnew, hwire, hlost]
      intro q hq r hr
      obtain rfl | hr := List.mem_cons.mp hr
      · have hindex : q.index ∈ List.range s.packedCount :=
          haccounted.all.mem_iff.mp (List.mem_map_of_mem (List.mem_append_left _ hq))
        exact hcount ▸ (List.mem_range.mp hindex).le
      · exact hahead q hq r hr
    · simp only [Ahead, hwire, hlost, hpacked']
      exact h
  · rw [heq]
    exact h

theorem lost_next_le (s : Threads) (step : ThreadStep) :
    (s.next step).lost.length ≤ s.lost.length + if step.written then 0 else 1 := by
  obtain ⟨p, -, -, heq⟩ | ⟨-, hsame⟩ | ⟨-, heq⟩ := next_cases s step
  · rw [heq, lost_write]
    cases step.written <;> simp
  · have hlost : (s.next step).lost = s.lost := by
      obtain ⟨frame, s₀, heq, -, -, -, hport⟩ | ⟨-, -, -, -, hlost⟩ := hsame
      · rw [heq]
        simp only [lost, pack, hport]
      · exact hlost
    rw [hlost]
    exact Nat.le_add_right _ _
  · rw [heq]
    exact Nat.le_add_right _ _

theorem lost_run_of_written {s : Threads} (schedule : List ThreadStep)
    (hwritten : ∀ step ∈ schedule, step.written = true) (h : s.lost = []) :
    (Machine.run Threads.next s schedule).lost = [] := by
  induction schedule generalizing s with
  | nil => exact h
  | cons step schedule ih =>
      obtain ⟨hstep, hrest⟩ := List.forall_mem_cons.mp hwritten
      have hlost := lost_next_le s step
      rw [hstep, h] at hlost
      exact ih hrest (List.length_eq_zero_iff.mp (Nat.le_zero.mp hlost))

theorem eachStep_inTurn_iff_yields {txSeq : UInt8} {s : Threads} (haccounted : s.Accounted txSeq) (h : s.Ahead)
    (schedule : List ThreadStep) (hfew : s.lost.length + (schedule.filter (!·.written)).length < 255) :
    Machine.EachStep Threads.next InTurn s schedule ↔ Machine.EachStep Threads.next Yields s schedule := by
  induction schedule generalizing s with
  | nil => exact iff_of_true Machine.eachStep_nil Machine.eachStep_nil
  | cons step schedule ih =>
      have hlost := lost_next_le s step
      rw [List.filter_cons] at hfew
      rw [Machine.eachStep_cons, Machine.eachStep_cons, inTurn_iff_yields h (by omega)]
      refine and_congr_right fun hyields => ih (haccounted.next step) (h.next haccounted hyields) ?_
      cases hwritten : step.written <;> simp [hwritten] at hlost hfew <;> omega

end Threads

/-- Whatever the server has to do, however the threads are scheduled and whichever writes fail: the numbers on the wire
are consecutive exactly when every message gets there in its turn after the first one, and they begin with the counter's
first one as well exactly when every message gets there in its turn. While fewer than 255 writes fail this is to say
that none gets there while one that was packed earlier is missing. -/
theorem wire_inOrder_iff_yields (txSeq : UInt8) (todo : List ServerAction) (schedule : List ThreadStep) :
    (Machine.Always Threads.next Threads.Consecutive (Threads.start txSeq todo) schedule ↔
      Machine.EachStep Threads.next Threads.InTurnAfterFirst (Threads.start txSeq todo) schedule) ∧
    (Machine.Always Threads.next (·.InOrder txSeq) (Threads.start txSeq todo) schedule ↔
      Machine.EachStep Threads.next Threads.InTurn (Threads.start txSeq todo) schedule) ∧
    ((schedule.filter (!·.written)).length < 255 →
      (Machine.Always Threads.next (·.InOrder txSeq) (Threads.start txSeq todo) schedule ↔
        Machine.EachStep Threads.next Threads.Yields (Threads.start txSeq todo) schedule)) := by
  have haccounted := Threads.accounted_start txSeq todo
  have hconsecutive : Machine.Always Threads.next Threads.Consecutive (Threads.start txSeq todo) schedule ↔
      Machine.EachStep Threads.next Threads.InTurnAfterFirst (Threads.start txSeq todo) schedule :=
    Machine.always_iff_eachStep Threads.next (I := (Threads.Accounted txSeq ·)) (P := Threads.Consecutive)
      (fun _ step h => h.next step) (fun _ step haccounted h => Threads.consecutive_next_iff haccounted h step)
      haccounted .nil schedule
  have hexact : Machine.Always Threads.next (·.InOrder txSeq) (Threads.start txSeq todo) schedule ↔
      Machine.EachStep Threads.next Threads.InTurn (Threads.start txSeq todo) schedule :=
    Machine.always_iff_eachStep Threads.next (I := (Threads.Accounted txSeq ·)) (P := (Threads.InOrder txSeq ·))
      (fun _ step h => h.next step) (fun _ step haccounted h => Threads.inOrder_next_iff haccounted h step)
      haccounted Ticket.inOrder_nil schedule
  refine ⟨hconsecutive, hexact, fun hfew => hexact.trans ?_⟩
  refine Threads.eachStep_inTurn_iff_yields haccounted (fun _ hp => absurd hp List.not_mem_nil) schedule ?_
  exact (Nat.zero_add _).trans_lt hfew

/-- A library whose parser takes every byte for a whole message with that number, from system 1. -/
def byteLib : MavlinkLib Unit where
  parseChar _ byte := ((), some { msgid := byte.toNat, sysid := 1, compid := 1, payload := [] })
  rcChannelsDecode _ := ⟨0, 0, 0, 0, 0, 0⟩
  commandLongDecode _ := { targetSystem := 1, targetComponent := mavCompIdCamera, command := mavCmdImageStopCapture,
                           confirmation := 0, params := [] }
  toSendBuffer _ := []

/-- The version arrives with a command behind it. The server packs its answer, `mavlink_tx_thread` packs a
heartbeat, and the heartbeat is written first. Without any such race, the second of three requests is lost. -/
theorem heartbeat_overtakes_answer :
    let todo := serverActions false byteLib [⟨some [148, 76], idleTick.envs⟩] [] ⟨(), {}⟩
    let asks := serverActions false byteLib (List.replicate 3 ⟨none, idleTick.envs⟩) [] ⟨(), {}⟩
    let server : ThreadStep := ⟨.server, true⟩
    let txThread : ThreadStep := ⟨.txThread, true⟩
    let racing := [server, server, server, server, server, txThread, txThread, txThread, txThread, server]
    let failing := [server, server, server, ⟨.server, false⟩, server, server]
    (Machine.run Threads.next (Threads.start 0 todo) racing).wire.map (·.seq) = [0, 2, 1] ∧
      ¬ Machine.Always Threads.next Threads.Consecutive (Threads.start 0 todo) racing ∧
      (Machine.run Threads.next (Threads.start 0 asks) failing).wire.map (·.seq) = [0, 2] ∧
      ¬ Machine.Always Threads.next Threads.Consecutive (Threads.start 0 asks) failing := by
  intro todo asks server txThread racing failing
  have hraced : (Machine.run Threads.next (Threads.start 0 todo) racing).wire.map (·.seq) = [0, 2, 1] := by
    decide +kernel
  have hfailed : (Machine.run Threads.next (Threads.start 0 asks) failing).wire.map (·.seq) = [0, 2] := by
    decide +kernel
  refine ⟨hraced, fun h => ?_, hfailed, fun h => ?_⟩
  · have horder := h racing (List.prefix_refl _)
    rw [Threads.Consecutive, hraced] at horder
    exact absurd horder (by decide)
  · have horder := h failing (List.prefix_refl _)
    rw [Threads.Consecutive, hfailed] at horder
    exact absurd horder (by decide)

end MissionServer
