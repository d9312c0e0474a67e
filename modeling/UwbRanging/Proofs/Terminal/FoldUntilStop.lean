import Mathlib.Algebra.Order.Group.Nat
import Mathlib.Data.List.Induction
import Mathlib.Logic.Function.Iterate
import UwbRanging.Terminal.FoldUntilStop

/-!
What a fold returns, and what it shows on the way. The value is in one place at a time: with the worker, in the channel,
or with the foreground. So the value that is returned is that of the steps taken, whatever moves the worker and the
foreground make in between, and none is taken after it has been handed over.
-/

namespace UwbRanging.Terminal

variable {α : Type}

/-- The value that the worker holds. -/
def Worker.value? : Worker α → Option α
  | .working value | .reporting value | .looking value | .handingOver value => some value
  | .leaving | .ended => none

/-- The worker has noticed that it has been told to stop. -/
def Worker.HasNoticed : Worker α → Prop
  | .working _ | .reporting _ | .looking _ => False
  | .handingOver _ | .leaving | .ended => True

/-- The moves by which the worker has given its value away and ended. -/
def Worker.trail : Worker α → List FoldMove
  | .working _ | .reporting _ | .looking _ | .handingOver _ => []
  | .leaving => [.handOver]
  | .ended => [.handOver, .finish]

theorem Worker.trail_of_not_hasNoticed {w : Worker α} (h : ¬ w.HasNoticed) : w.trail = [] := by
  cases w <;> first | rfl | exact absurd trivial h

/-- How many steps there are that the worker has taken and not reported. -/
def Worker.unreported : Worker α → Nat
  | .reporting _ => 1
  | _ => 0

/-- The worker has taken a step since it looked last. -/
def Worker.HasWorked : Worker α → Prop
  | .working _ => False
  | _ => True

/-- How many moves there are at most before the worker has ended, once it has been told to stop. -/
def Worker.remaining : Worker α → Nat
  | .working _ => 5
  | .reporting _ => 4
  | .looking _ => 3
  | .handingOver _ => 2
  | .leaving => 1
  | .ended => 0

theorem Worker.remaining_le (w : Worker α) : w.remaining ≤ 5 := by
  cases w <;> simp [remaining]

/-- The value that the foreground holds. -/
def Foreground.value? : Foreground α → Option α
  | .joining _ value | .returned _ value => some value
  | _ => none

/-- How drawing ended, once it has. -/
def Foreground.drawn? : Foreground α → Option (Except TerminalError Unit)
  | .taking | .drawing | .polling => none
  | .stopping drawn | .receiving drawn | .joining drawn _ | .returned drawn _ => some drawn

/-- The foreground has told the worker to stop. -/
def Foreground.HasTold : Foreground α → Prop
  | .taking | .drawing | .polling | .stopping _ => False
  | .receiving _ | .joining _ _ | .returned _ _ => True

/-- How many moves there are before the foreground has returned, once it has told the worker to stop. -/
def Foreground.remaining : Foreground α → Nat
  | .receiving _ => 2
  | .joining _ _ => 1
  | _ => 0

theorem Foreground.remaining_le (f : Foreground α) : f.remaining ≤ 2 := by
  cases f <;> simp [remaining]

theorem Foreground.value?_of_not_hasTold {f : Foreground α} (h : ¬ f.HasTold) : f.value? = none := by
  cases f <;> first | rfl | exact absurd trivial h

/-- What ends drawing. -/
def FoldMove.cause : Except TerminalError Unit → FoldMove
  | .ok () => .key
  | .error error => .drawingFails error

namespace FoldState

variable {step : α → α} {describe : α → List String}

/-- The state after some moves one after the other, if all of them can be made. -/
def after? (step : α → α) (describe : α → List String) (s : FoldState α) (moves : List FoldMove) :
    Option (FoldState α) :=
  moves.foldlM (fun s move => s.next? step describe move) s

/-- Wherever the value of the fold is. -/
def values (s : FoldState α) : List α :=
  s.worker.value?.toList ++ s.handedOver ++ s.foreground.value?.toList

/-- All that the moves do. -/
inductive Makes (step : α → α) (describe : α → List String) (s : FoldState α) : FoldMove → FoldState α → Prop where
  | work {value : α} (h : s.worker = .working value) :
      Makes step describe s .work { s with worker := .reporting (step value) }
  | report {value : α} (h : s.worker = .reporting value) :
      Makes step describe s .report
        { s with worker := .looking value, statuses := s.statuses ++ [describe value] }
  | notice {value : α} (h : s.worker = .looking value) (hstop : s.stop = true) :
      Makes step describe s .look { s with worker := .handingOver value, stop := false }
  | goOn {value : α} (h : s.worker = .looking value) (hstop : s.stop = false) :
      Makes step describe s .look { s with worker := .working value }
  | handOver {value : α} (h : s.worker = .handingOver value) :
      Makes step describe s .handOver { s with worker := .leaving, handedOver := s.handedOver ++ [value] }
  | finish (h : s.worker = .leaving) : Makes step describe s .finish { s with worker := .ended }
  | takeNone (h : s.foreground = .taking) (hstatuses : s.statuses = []) :
      Makes step describe s .take { s with foreground := .drawing }
  | take {status : List String} {statuses : List (List String)} (h : s.foreground = .taking)
      (hstatuses : s.statuses = status :: statuses) :
      Makes step describe s .take { s with statuses, shown := status }
  | draw (h : s.foreground = .drawing) :
      Makes step describe s .draw { s with foreground := .polling, frames := s.shown :: s.frames }
  | idle (h : s.foreground = .polling) : Makes step describe s .idle { s with foreground := .taking }
  | key (h : s.foreground = .polling) : Makes step describe s .key { s with foreground := .stopping (.ok ()) }
  | drawingFails {error : TerminalError} (h : ¬ s.foreground.HasTold) :
      Makes step describe s (.drawingFails error) { s with foreground := .stopping (.error error) }
  | tell {drawn : Except TerminalError Unit} (h : s.foreground = .stopping drawn) :
      Makes step describe s .tell { s with foreground := .receiving drawn, stop := true }
  | receive {drawn : Except TerminalError Unit} {value : α} {handedOver : List α}
      (h : s.foreground = .receiving drawn) (hvalue : s.handedOver = value :: handedOver) :
      Makes step describe s .receive { s with foreground := .joining drawn value, handedOver }
  | join {drawn : Except TerminalError Unit} {value : α} (h : s.foreground = .joining drawn value)
      (hworker : s.worker = .ended) :
      Makes step describe s .join { s with foreground := .returned drawn value }

theorem makes_of_next? {s s' : FoldState α} {move : FoldMove} (h : s.next? step describe move = some s') :
    Makes step describe s move s' := by
  cases move <;> simp only [next?] at h
  case work =>
    split at h <;> cases h
    exact .work ‹_›
  case report =>
    split at h <;> cases h
    exact .report ‹_›
  case look =>
    split at h
    · split at h <;> cases h
      · exact .notice ‹_› ‹_›
      · exact .goOn ‹_› (Bool.eq_false_iff.2 ‹_›)
    · cases h
  case handOver =>
    split at h <;> cases h
    exact .handOver ‹_›
  case finish =>
    split at h <;> cases h
    exact .finish ‹_›
  case take =>
    split at h <;> cases h
    · exact .takeNone ‹_› ‹_›
    · exact .take ‹_› ‹_›
  case draw =>
    split at h <;> cases h
    exact .draw ‹_›
  case idle =>
    split at h <;> cases h
    exact .idle ‹_›
  case key =>
    split at h <;> cases h
    exact .key ‹_›
  case drawingFails error =>
    split at h <;> cases h
    all_goals
      rename_i hforeground
      exact .drawingFails (by rw [hforeground]; exact id)
  case tell =>
    split at h <;> cases h
    exact .tell ‹_›
  case receive =>
    split at h <;> cases h
    exact .receive ‹_› ‹_›
  case join =>
    split at h <;> cases h
    exact .join ‹_› ‹_›

/-- What holds at first and is kept by each move holds after any moves. -/
theorem after?_induction {P : List FoldMove → FoldState α → Prop} {first : FoldState α} (hfirst : P [] first)
    (hmove : ∀ {moves s move s'}, first.after? step describe moves = some s → P moves s →
      Makes step describe s move s' → P (moves ++ [move]) s')
    {moves : List FoldMove} {s : FoldState α} (h : first.after? step describe moves = some s) : P moves s := by
  induction moves using List.reverseRecOn generalizing s with
  | nil =>
      cases h
      exact hfirst
  | append_singleton moves move ih =>
      rw [after?, List.foldlM_append] at h
      obtain ⟨before, hbefore, hlast⟩ := Option.bind_eq_some_iff.1 h
      rw [List.foldlM_cons] at hlast
      obtain ⟨after, hafter, hsame⟩ := Option.bind_eq_some_iff.1 hlast
      cases hsame
      exact hmove hbefore (ih hbefore) (makes_of_next? hafter)

theorem after?_append (s : FoldState α) (moves more : List FoldMove) :
    s.after? step describe (moves ++ more) = (s.after? step describe moves).bind (after? step describe · more) :=
  List.foldlM_append

/-- What a run comes to is what some moves come to, whoever chooses them. -/
theorem exists_after?_run (choose : FoldState α → FoldMove) (fuel : Nat) (s : FoldState α) :
    ∃ moves, s.after? step describe moves = some (run step describe choose fuel s) := by
  induction fuel generalizing s with
  | zero => exact ⟨[], rfl⟩
  | succ fuel ih =>
      rw [run]
      cases hnext : s.next? step describe (choose s) with
      | none => exact ⟨[], rfl⟩
      | some next =>
          obtain ⟨moves, hmoves⟩ := ih next
          refine ⟨choose s :: moves, ?_⟩
          rw [after?, List.foldlM_cons, hnext]
          exact hmoves

section Values

variable {s s' : FoldState α} {move : FoldMove} {moves : List FoldMove} {waiting : List String} {init : α}

/-- A move takes the value from one place to another, and only a step changes it. -/
theorem Makes.values_eq (h : Makes step describe s move s') {x : α} (hone : s.values = [x]) :
    s'.values = [if move = .work then step x else x] := by
  cases h with
  | drawingFails htold =>
      rw [values, Foreground.value?_of_not_hasTold htold] at hone
      exact hone
  | @receive drawn value handedOver hforeground hvalue =>
      -- the one value is in the channel, so the worker has none
      have hplaces : s.worker.value?.toList ++ value :: handedOver = [x] := by
        simpa [values, hforeground, hvalue, Foreground.value?] using hone
      cases hworker : s.worker.value? <;> simp_all [values, Foreground.value?]
  | _ => simp_all [values, Worker.value?, Foreground.value?]

/-- The value of all steps taken so far, and no other, is somewhere. -/
theorem values_after (h : (start waiting init).after? step describe moves = some s) :
    s.values = [step^[moves.count .work] init] := by
  refine after?_induction (P := fun moves s => s.values = [step^[moves.count .work] init]) rfl ?_ h
  intro moves s move s' _ hvalues hmove
  rw [hmove.values_eq hvalues, List.count_append, List.count_singleton]
  split
  · rename_i hwork
    rw [hwork, beq_self_eq_true, if_pos rfl, Function.iterate_succ_apply']
  · rename_i hother
    rw [beq_false_of_ne hother, if_neg (by decide), Nat.add_zero]

end Values

section Order

variable {s s' : FoldState α} {move : FoldMove} {moves : List FoldMove} {waiting : List String} {init : α}

/-- What was told is still in its channel or has been noticed, and nothing is there or noticed that was not told; and
the foreground returns only after the worker has ended. -/
structure Coherent (s : FoldState α) : Prop where
  told : s.foreground.HasTold ↔ s.stop = true ∨ s.worker.HasNoticed
  ended {drawn : Except TerminalError Unit} {value : α} (h : s.foreground = .returned drawn value) : s.worker = .ended

theorem Makes.coherent (h : Makes step describe s move s') (hs : s.Coherent) : s'.Coherent := by
  obtain ⟨htold, hended⟩ := hs
  cases h with
  | drawingFails hnot => exact ⟨⟨False.elim, fun h => hnot (htold.2 h)⟩, fun h => by cases h⟩
  | _ => constructor <;> simp_all [Worker.HasNoticed, Foreground.HasTold]

theorem coherent_after (h : (start waiting init).after? step describe moves = some s) : s.Coherent := by
  refine after?_induction (P := fun _ s => s.Coherent) ⟨⟨False.elim, ?_⟩, fun h => by cases h⟩
    (fun _ hs hmove => hmove.coherent hs) h
  rintro (h | h) <;> cases h

/-- What must have happened since drawing ended, in this order. -/
def trail (s : FoldState α) : List FoldMove :=
  match s.foreground with
  | .taking | .drawing | .polling | .stopping _ => []
  | .receiving _ | .joining _ _ => .tell :: s.worker.trail
  | .returned _ _ => .tell :: s.worker.trail ++ [.join]

/-- Each move leaves the trail as it is or is the next on it. -/
theorem Makes.trail_eq (h : Makes step describe s move s') (hs : s.Coherent) :
    (s'.foreground.drawn? = s.foreground.drawn? ∧ (s'.trail = s.trail ∨ s'.trail = s.trail ++ [move])) ∨
      (s'.trail = [] ∧ s'.foreground.drawn?.map FoldMove.cause = some move) := by
  obtain ⟨htold, hended⟩ := hs
  cases h with
  | tell hforeground =>
      -- the worker cannot have noticed yet, so its part of the trail is empty
      rw [hforeground] at htold
      have hworker := Worker.trail_of_not_hasNoticed fun h => htold.2 (.inr h)
      simp [trail, hforeground, hworker, Foreground.drawn?]
  | _ =>
      cases hforeground : s.foreground <;>
        simp_all [trail, Worker.trail, Foreground.drawn?, FoldMove.cause, Worker.HasNoticed, Foreground.HasTold]

/-- Once drawing has ended, the trail lies behind, and in front of it what ended drawing. -/
theorem trail_after (h : (start waiting init).after? step describe moves = some s)
    {drawn : Except TerminalError Unit} (hdrawn : s.foreground.drawn? = some drawn) :
    (FoldMove.cause drawn :: s.trail).Sublist moves := by
  refine after?_induction (P := fun moves s => ∀ drawn, s.foreground.drawn? = some drawn →
    (FoldMove.cause drawn :: s.trail).Sublist moves) (fun _ h => by cases h) ?_ h drawn hdrawn
  intro moves s move s' hs htrail hmove drawn hdrawn
  rcases hmove.trail_eq (coherent_after hs) with ⟨hsame, heq | heq⟩ | ⟨heq, hcause⟩
  · rw [heq]
    exact (htrail drawn (hsame ▸ hdrawn)).trans (List.sublist_append_left moves [move])
  · rw [heq]
    exact (htrail drawn (hsame ▸ hdrawn)).append (List.Sublist.refl [move])
  · rw [hdrawn] at hcause
    cases hcause
    rw [heq]
    exact List.sublist_append_right moves _

/-- A worker without a value goes on to its end, and takes no step and hands nothing over on the way. -/
theorem not_mem_of_value?_none (h : s.worker.value? = none) {s' : FoldState α}
    (hafter : s.after? step describe moves = some s') : .work ∉ moves ∧ .handOver ∉ moves := by
  refine (after?_induction (P := fun moves s => s.worker.value? = none ∧ .work ∉ moves ∧ .handOver ∉ moves)
    ⟨h, List.not_mem_nil, List.not_mem_nil⟩ ?_ hafter).2
  intro moves s move s' _ ⟨hnone, hwork, hhand⟩ hmove
  cases hmove <;> simp_all [Worker.value?]

/-- What is handed over is handed over once, and no step is taken after it. -/
theorem handOver_once {first : FoldState α} {before later : List FoldMove}
    (h : first.after? step describe (before ++ .handOver :: later) = some s) :
    .handOver ∉ before ∧ .handOver ∉ later ∧ .work ∉ later := by
  have hlater : ∀ {before later}, first.after? step describe (before ++ .handOver :: later) = some s →
      .work ∉ later ∧ .handOver ∉ later := by
    intro before later h
    rw [after?_append] at h
    obtain ⟨s₁, -, h⟩ := Option.bind_eq_some_iff.1 h
    obtain ⟨s₂, hhand, h⟩ := Option.bind_eq_some_iff.1 h
    have hmakes : Makes step describe s₁ .handOver s₂ := makes_of_next? hhand
    cases hmakes
    exact not_mem_of_value?_none rfl h
  refine ⟨fun hmem => ?_, (hlater h).2, (hlater h).1⟩
  obtain ⟨earlier, between, rfl⟩ := List.append_of_mem hmem
  rw [List.append_assoc, List.cons_append] at h
  exact (hlater h).2 (List.mem_append_right _ List.mem_cons_self)

end Order

section Screens

variable {s s' : FoldState α} {move : FoldMove} {moves : List FoldMove} {waiting : List String} {init : α}

theorem hasWorked_after (h : (start waiting init).after? step describe moves = some s) (hworked : s.worker.HasWorked) :
    1 ≤ moves.count .work := by
  refine after?_induction (P := fun moves s => s.worker.HasWorked → 1 ≤ moves.count .work) (by rintro ⟨⟩) ?_ h hworked
  intro moves s move s' _ hs hmove
  rw [List.count_append]
  cases hmove <;> simp_all [Worker.HasWorked]

/-- All steps are reported, but for the one that the worker is about to report. -/
theorem reports_after (h : (start waiting init).after? step describe moves = some s) :
    moves.count .work = moves.count .report + s.worker.unreported := by
  refine after?_induction (P := fun moves s => moves.count .work = moves.count .report + s.worker.unreported) rfl ?_ h
  intro moves s move s' _ hs hmove
  rw [List.count_append, List.count_append]
  cases hmove <;> simp_all [Worker.unreported]

/-- What is to be shown of the value after `i` steps, and `waiting` before the first. -/
def statusAt (step : α → α) (describe : α → List String) (waiting : List String) (init : α) (i : Nat) : List String :=
  if i = 0 then waiting else describe (step^[i] init)

/-- What was drawn, is shown and is still to be shown are, in this order, of ever later steps, none beyond
`reported`. -/
structure ShowsInOrder (step : α → α) (describe : α → List String) (waiting : List String) (init : α)
    (reported : Nat) (drawn : List Nat) (current : Nat) (sent : List Nat) (s : FoldState α) : Prop where
  frames : s.frames.reverse = drawn.map (statusAt step describe waiting init)
  shown : s.shown = statusAt step describe waiting init current
  statuses : s.statuses = sent.map (statusAt step describe waiting init)
  sorted : (drawn ++ current :: sent).Pairwise (· ≤ ·)
  le : ∀ i ∈ drawn ++ current :: sent, i ≤ reported

theorem ShowsInOrder.report {reported current : Nat} {drawn sent : List Nat} {status : List String} {worker : Worker α}
    (h : ShowsInOrder step describe waiting init reported drawn current sent s)
    (hstatus : status = statusAt step describe waiting init (reported + 1)) :
    ShowsInOrder step describe waiting init (reported + 1) drawn current (sent ++ [reported + 1])
      { s with worker, statuses := s.statuses ++ [status] } where
  frames := h.frames
  shown := h.shown
  statuses := by rw [h.statuses, hstatus, List.map_append]; rfl
  sorted := by
    rw [← List.cons_append, ← List.append_assoc]
    refine List.pairwise_append.2 ⟨h.sorted, List.pairwise_singleton _ _, fun i hi j hj => ?_⟩
    rw [List.mem_singleton.1 hj]
    exact (h.le i hi).trans (Nat.le_succ reported)
  le := by
    rw [← List.cons_append, ← List.append_assoc]
    intro i hi
    rcases List.mem_append.1 hi with hi | hi
    · exact (h.le i hi).trans (Nat.le_succ reported)
    · exact (List.mem_singleton.1 hi).le

theorem ShowsInOrder.take {reported current : Nat} {drawn sent : List Nat} {status : List String}
    {statuses : List (List String)} (h : ShowsInOrder step describe waiting init reported drawn current sent s)
    (hstatuses : s.statuses = status :: statuses) :
    ∃ current sent, ShowsInOrder step describe waiting init reported drawn current sent
      { s with statuses, shown := status } := by
  obtain ⟨next, sent, rfl, rfl, rfl⟩ := List.map_eq_cons_iff.1 (h.statuses.symm.trans hstatuses)
  have hsub : (drawn ++ next :: sent).Sublist (drawn ++ current :: next :: sent) :=
    (List.Sublist.refl drawn).append (List.sublist_cons_self current (next :: sent))
  exact ⟨next, sent, h.frames, rfl, rfl, h.sorted.sublist hsub, fun i hi => h.le i (hsub.subset hi)⟩

theorem ShowsInOrder.draw {reported current : Nat} {drawn sent : List Nat} {foreground : Foreground α}
    (h : ShowsInOrder step describe waiting init reported drawn current sent s) :
    ShowsInOrder step describe waiting init reported (drawn ++ [current]) current sent
      { s with foreground, frames := s.shown :: s.frames } where
  frames := by rw [List.reverse_cons, h.frames, h.shown, List.map_append]; rfl
  shown := h.shown
  statuses := h.statuses
  sorted := by
    obtain ⟨hdrawn, hrest, hle⟩ := List.pairwise_append.1 h.sorted
    rw [List.append_assoc]
    refine List.pairwise_append.2 ⟨hdrawn, List.pairwise_cons.2 ⟨?_, hrest⟩, ?_⟩
    · exact List.forall_mem_cons.2 ⟨le_rfl, (List.pairwise_cons.1 hrest).1⟩
    · exact fun i hi => List.forall_mem_cons.2 ⟨hle i hi current List.mem_cons_self, hle i hi⟩
  le := by
    intro i hi
    refine h.le i ?_
    simp only [List.mem_append, List.mem_cons, List.not_mem_nil, or_false] at hi ⊢
    tauto

theorem showsInOrder_after (h : (start waiting init).after? step describe moves = some s) :
    ∃ (drawn : List Nat) (current : Nat) (sent : List Nat),
      ShowsInOrder step describe waiting init (moves.count .report) drawn current sent s := by
  refine after?_induction (P := fun moves s =>
    ∃ drawn current sent, ShowsInOrder step describe waiting init (moves.count .report) drawn current sent s) ?_ ?_ h
  · exact ⟨[], 0, [], rfl, rfl, rfl, List.pairwise_singleton _ _, fun i hi => (List.mem_singleton.1 hi).le⟩
  · rintro moves s move s' hs ⟨drawn, current, sent, hshows⟩ hmove
    rw [List.count_append]
    cases hmove with
    | @report value hworker =>
        -- the one step that is not reported yet is the one that is reported now
        refine ⟨drawn, current, sent ++ [moves.count .report + 1], hshows.report ?_⟩
        have hvalue : value = step^[moves.count .work] init := by
          have hvalues := values_after hs
          rw [values, hworker] at hvalues
          exact (List.cons.inj hvalues).1
        rw [hvalue, reports_after hs, hworker]
        rfl
    | take _ hstatuses =>
        obtain ⟨current, sent, hshows⟩ := hshows.take hstatuses
        exact ⟨drawn, current, sent, hshows⟩
    | draw => exact ⟨drawn ++ [current], current, sent, hshows.draw⟩
    | _ => exact ⟨drawn, current, sent, hshows.frames, hshows.shown, hshows.statuses, hshows.sorted, hshows.le⟩

/-- Numbers in order are some zeros and then no zero any more. -/
theorem exists_replicate_zero_append {numbers : List Nat} (h : numbers.Pairwise (· ≤ ·)) :
    ∃ k later, numbers = List.replicate k 0 ++ later ∧ ∀ i ∈ later, 1 ≤ i := by
  induction numbers with
  | nil => exact ⟨0, [], rfl, fun i hi => absurd hi List.not_mem_nil⟩
  | cons first rest ih =>
      obtain ⟨hfirst, hrest⟩ := List.pairwise_cons.1 h
      rcases Nat.eq_zero_or_pos first with rfl | hpos
      · obtain ⟨k, later, rfl, hlater⟩ := ih hrest
        exact ⟨k + 1, later, rfl, hlater⟩
      · exact ⟨0, first :: rest, rfl, List.forall_mem_cons.2 ⟨hpos, fun i hi => hpos.trans_le (hfirst i hi)⟩⟩

/-- The frames are some times the waiting text and then of ever later steps. -/
theorem frames_after (h : (start waiting init).after? step describe moves = some s) :
    ∃ (k : Nat) (shown : List Nat),
      s.frames.reverse = List.replicate k waiting ++ shown.map (fun i => describe (step^[i] init)) ∧
      shown.Pairwise (· ≤ ·) ∧ ∀ i ∈ shown, 1 ≤ i ∧ i ≤ moves.count .work := by
  obtain ⟨drawn, current, sent, hshows⟩ := showsInOrder_after h
  have hsorted := (List.pairwise_append.1 hshows.sorted).1
  obtain ⟨k, later, rfl, hlater⟩ := exists_replicate_zero_append hsorted
  refine ⟨k, later, ?_, (List.pairwise_append.1 hsorted).2.1, fun i hi => ⟨hlater i hi, ?_⟩⟩
  · rw [hshows.frames, List.map_append, List.map_replicate]
    congr 1
    exact List.map_congr_left fun i hi => if_neg (Nat.ne_of_gt (hlater i hi))
  · have hle := hshows.le i (List.mem_append_left _ (List.mem_append_right _ hi))
    have hreports := reports_after h
    omega

end Screens

section Returning

variable {s s' : FoldState α} {move : FoldMove} {moves : List FoldMove} {waiting : List String} {init : α}

theorem returned_of_result? {result : Except TerminalError α} (h : s.result? = some result) :
    ∃ drawn value, s.foreground = .returned drawn value ∧ result = drawn.map fun _ => value := by
  unfold result? outcome? at h
  split at h
  · rename_i drawn value hreturned
    exact ⟨drawn, value, hreturned, (Option.some.inj h).symm⟩
  · cases h

/-- A fold that has returned has the value of all steps taken, and took at least one. -/
theorem returned_value (h : (start waiting init).after? step describe moves = some s)
    {drawn : Except TerminalError Unit} {value : α} (hreturned : s.foreground = .returned drawn value) :
    1 ≤ moves.count .work ∧ value = step^[moves.count .work] init := by
  have hended := (coherent_after h).ended hreturned
  have hvalues : s.handedOver ++ [value] = [] ++ [step^[moves.count .work] init] := by
    rw [← List.nil_append s.handedOver, List.nil_append [_], ← values_after h, values, hended, hreturned]
    rfl
  refine ⟨hasWorked_after h ?_, (List.cons.inj (List.append_inj_right' hvalues rfl)).1⟩
  rw [hended]
  trivial

theorem returned_trail (h : (start waiting init).after? step describe moves = some s)
    {drawn : Except TerminalError Unit} {value : α} (hreturned : s.foreground = .returned drawn value) :
    [FoldMove.cause drawn, .tell, .handOver, .finish, .join].Sublist moves := by
  have hdrawn : s.foreground.drawn? = some drawn := by rw [hreturned]; rfl
  have htrail := trail_after h hdrawn
  rwa [trail, hreturned, (coherent_after h).ended hreturned] at htrail

theorem returned_handOver (h : (start waiting init).after? step describe moves = some s)
    {drawn : Except TerminalError Unit} {value : α} (hreturned : s.foreground = .returned drawn value) :
    moves.count .handOver = 1 := by
  have hmem : .handOver ∈ moves := (returned_trail h hreturned).subset (by simp)
  obtain ⟨before, later, rfl⟩ := List.append_of_mem hmem
  obtain ⟨hbefore, hlater, -⟩ := handOver_once h
  rw [List.count_append, List.count_cons_self, List.count_eq_zero_of_not_mem hbefore,
    List.count_eq_zero_of_not_mem hlater]

/-- What is left to be done once the worker has been told to stop. -/
def remaining (s : FoldState α) : Nat :=
  s.worker.remaining + s.foreground.remaining

theorem Makes.remaining_lt (h : Makes step describe s move s') (hs : s.Coherent) (htold : s.foreground.HasTold) :
    s'.foreground.HasTold ∧ s'.remaining < s.remaining := by
  cases h with
  | drawingFails hnot => exact absurd htold hnot
  | goOn hworker hstop =>
      rcases hs.told.1 htold with h | h
      · cases hstop.symm.trans h
      · rw [hworker] at h
        cases h
  | takeNone h | take h | draw h | idle h | key h | tell h =>
      rw [h] at htold
      cases htold
  | receive h | join h =>
      refine ⟨trivial, Nat.add_lt_add_left ?_ _⟩
      rw [h]
      exact Nat.lt_succ_self _
  | work h | report h | notice h | handOver h | finish h =>
      refine ⟨htold, Nat.add_lt_add_right ?_ _⟩
      rw [h]
      exact Nat.lt_succ_self _

theorem told_after (hs : s.Coherent) (htold : s.foreground.HasTold) (h : s.after? step describe moves = some s') :
    s'.foreground.HasTold ∧ moves.length + s'.remaining ≤ s.remaining := by
  refine (after?_induction (P := fun moves s' =>
    s'.Coherent ∧ s'.foreground.HasTold ∧ moves.length + s'.remaining ≤ s.remaining) ⟨hs, htold, ?_⟩ ?_ h).2
  · rw [List.length_nil, Nat.zero_add]
  · intro moves next move s' _ ⟨hnext, htold, hle⟩ hmove
    obtain ⟨htold, hlt⟩ := hmove.remaining_lt hnext htold
    refine ⟨hmove.coherent hnext, htold, ?_⟩
    rw [List.length_append, List.length_singleton]
    omega

theorem exists_next?_of_told (h : (start waiting init).after? step describe moves = some s)
    (htold : s.foreground.HasTold) (hresult : s.result? = none) : ∃ move s', s.next? step describe move = some s' := by
  cases hworker : s.worker with
  | working value => exact ⟨.work, _, by rw [next?, hworker]⟩
  | reporting value => exact ⟨.report, _, by rw [next?, hworker]⟩
  | looking value => exact ⟨.look, _, by rw [next?, hworker]; exact (apply_ite some _ _ _).symm⟩
  | handingOver value => exact ⟨.handOver, _, by rw [next?, hworker]⟩
  | leaving => exact ⟨.finish, _, by rw [next?, hworker]⟩
  | ended =>
      cases hforeground : s.foreground with
      | joining drawn value => exact ⟨.join, _, by rw [next?, hforeground, hworker]⟩
      | receiving drawn =>
          obtain ⟨value, hvalue⟩ : ∃ value, s.handedOver = [value] := by
            have hvalues := values_after h
            rw [values, hworker, hforeground] at hvalues
            exact ⟨_, by simpa [Worker.value?, Foreground.value?] using hvalues⟩
          exact ⟨.receive, _, by rw [next?, hforeground, hvalue]⟩
      | returned drawn value => simp [result?, outcome?, hforeground] at hresult
      | _ => simp [hforeground, Foreground.HasTold] at htold

/-- Once the worker has been told to stop, no more than seven moves are made, and one can be made until the fold
has returned. -/
theorem returns_once_told (h : (start waiting init).after? step describe moves = some s)
    (htold : s.foreground.HasTold) {later : List FoldMove} (hlater : s.after? step describe later = some s') :
    later.length ≤ 7 ∧ (s'.result? = none → ∃ move s'', s'.next? step describe move = some s'') := by
  obtain ⟨htold', hlength⟩ := told_after (coherent_after h) htold hlater
  have hreached : (start waiting init).after? step describe (moves ++ later) = some s' := by
    rw [after?_append, h]
    exact hlater
  refine ⟨?_, exists_next?_of_told hreached htold'⟩
  have hremaining : s.remaining ≤ 5 + 2 := Nat.add_le_add s.worker.remaining_le s.foreground.remaining_le
  omega

/-- Whatever moves worker and foreground make in between: the value that is returned is that of the steps taken, of
which there is at least one; the frames show the waiting text and then ever later steps; the value is handed over
once and no step is taken after it; and what is returned, an error of the screen too, is returned after the worker
has been told to stop, has handed over its value and has ended. -/
theorem fold_neither_loses_nor_repeats (h : (start waiting init).after? step describe moves = some s) :
    (∀ value, s.result? = some (.ok value) → 1 ≤ moves.count .work ∧ value = step^[moves.count .work] init) ∧
      (∃ (k : Nat) (shown : List Nat),
        s.frames.reverse = List.replicate k waiting ++ shown.map (fun i => describe (step^[i] init)) ∧
          shown.Pairwise (· ≤ ·) ∧ ∀ i ∈ shown, 1 ≤ i ∧ i ≤ moves.count .work) ∧
      (∀ before later, moves = before ++ .handOver :: later →
        .handOver ∉ before ∧ .handOver ∉ later ∧ .work ∉ later) ∧
      (∀ result, s.result? = some result → moves.count .handOver = 1) ∧
      (∀ value, s.result? = some (.ok value) → [.key, .tell, .handOver, .finish, .join].Sublist moves) ∧
      ∀ error, s.result? = some (.error error) →
        [.drawingFails error, .tell, .handOver, .finish, .join].Sublist moves := by
  refine ⟨fun value hresult => ?_, frames_after h, fun before later hmoves => ?_, fun result hresult => ?_,
    fun value hresult => ?_, fun error hresult => ?_⟩
  · obtain ⟨_ | _, value', hreturned, hvalue⟩ := returned_of_result? hresult <;> cases hvalue
    exact returned_value h hreturned
  · subst hmoves
    exact handOver_once h
  · obtain ⟨drawn, value, hreturned, -⟩ := returned_of_result? hresult
    exact returned_handOver h hreturned
  · obtain ⟨_ | _, value', hreturned, hvalue⟩ := returned_of_result? hresult <;> cases hvalue
    exact returned_trail h hreturned
  · obtain ⟨_ | _, value', hreturned, hvalue⟩ := returned_of_result? hresult <;> cases hvalue
    exact returned_trail h hreturned

/-- A key is pressed before the second step, and its status is no longer drawn. -/
theorem fold_neither_loses_nor_repeats_stopped_while_working :
    ∃ s : FoldState Nat,
      (start ["waiting"] 0).after? Nat.succ (List.replicate · "step")
          [.take, .work, .draw, .report, .idle, .take, .take, .look, .draw, .key, .tell, .work, .report, .look,
            .handOver, .receive, .finish, .join] = some s ∧
        s.result? = some (.ok 2) ∧ s.frames.reverse = [["waiting"], ["step"]] ∧ 1 ≤ 2 ∧ 2 = Nat.succ^[2] 0 := by
  let moves : List FoldMove :=
    [.take, .work, .draw, .report, .idle, .take, .take, .look, .draw, .key, .tell, .work, .report, .look, .handOver,
      .receive, .finish, .join]
  obtain ⟨s, hs, hresult, hframes⟩ : ∃ s, (start ["waiting"] 0).after? Nat.succ (List.replicate · "step") moves =
      some s ∧ s.result? = some (.ok 2) ∧ s.frames.reverse = [["waiting"], ["step"]] := ⟨_, rfl, rfl, rfl⟩
  have hvalue := (fold_neither_loses_nor_repeats hs).1 2 hresult
  exact ⟨s, hs, hresult, hframes, hvalue⟩

end Returning

end FoldState

end UwbRanging.Terminal
