import DpApiClients.Zebedee.Invariant
import Mathlib.Order.RelClasses

/-!
# `GetDatasetLandingPage` always returns

Every step lowers a lexicographic rank: the loop's rank first, then the moves the goroutines
have still to make. The loop's rank is the number of lists it has still to start, then its
place in the current list; starting a goroutine adds moves, but only while the loop moves
on. So no run is infinite, whatever the interleaving and whatever each `GetPageTitle`
returns.

No reachable state is stuck before `wg.Wait()` returns either. A loop blocked on `sem <- 1`
has ten goroutines holding slots, and a goroutine that has not finished can always move:
its deferred `<-sem` finds the value it put in `sem`.
-/

namespace DpApiClients.Zebedee

variable {π : Type}

/-- The moves a goroutine has still to make. -/
def FetchPhase.rank : FetchPhase → Nat
  | .calling => 4
  | .fetched _ => 3
  | .written _ => 2
  | .released _ => 1
  | .finished _ => 0

/-- The moves the goroutines have still to make. -/
def pendingMoves : List Fetch → Nat
  | [] => 0
  | f :: fetches => f.phase.rank + pendingMoves fetches

/-- A goroutine's move lowers the moves the goroutines have still to make. -/
theorem pendingMoves_set_lt {fetches : List Fetch} {j : Nat} {f : Fetch}
    (found : fetches[j]? = some f) {phase : FetchPhase} (lower : phase.rank < f.phase.rank) :
    pendingMoves (fetches.set j { f with phase := phase }) < pendingMoves fetches := by
  induction fetches generalizing j with
  | nil => simp at found
  | cons head tail ih =>
    cases j with
    | zero =>
      obtain rfl : head = f := by simpa using found
      simp only [List.set_cons_zero, pendingMoves]
      omega
    | succ j =>
      have := ih (by simpa using found)
      simp only [List.set_cons_succ, pendingMoves]
      omega

/-- The loop's rank: the lists it has still to start, then its place in the current one. -/
def Main.rank (page : DatasetLandingPage π) : Main → Nat × Nat
  | .loop k i => (4 - k, 2 * (page.lengthOf k - i) + 2)
  | .spawn k i _ => (4 - k, 2 * (page.lengthOf k - (i + 1)) + 3)
  | .wait => (0, 1)
  | .returned => (0, 0)

theorem Main.rank_setTitle (page : DatasetLandingPage π) (k i : Nat) (title : String) (main : Main) :
    main.rank (page.setTitle k i title) = main.rank page := by
  cases main <;> simp [Main.rank, DatasetLandingPage.lengthOf_setTitle]

/-- The rank of a state: the loop's, then the goroutines' outstanding moves. -/
def State.rank (s : State π) : (Nat × Nat) × Nat :=
  (s.main.rank s.page, pendingMoves s.fetches)

/-- `s'` is ranked below `s`. -/
def Later (s' s : State π) : Prop :=
  Prod.Lex (Prod.Lex (· < ·) (· < ·)) (· < ·) s'.rank s.rank

theorem later_wellFounded : WellFounded (@Later π) :=
  InvImage.wf _ (WellFounded.prod_lex (WellFounded.prod_lex wellFounded_lt wellFounded_lt)
    wellFounded_lt)

/-- A goroutine's move keeps the loop's rank and lowers the goroutines' moves. -/
theorem later_of_move {s s' : State π} (main : s'.main.rank s'.page = s.main.rank s.page)
    (moves : pendingMoves s'.fetches < pendingMoves s.fetches) :
    Later s' s :=
  Prod.lex_def.mpr (.inr ⟨main, moves⟩)

/-- A move of the loop lowers its rank. -/
theorem later_of_main {s s' : State π}
    (main : Prod.Lex (· < ·) (· < ·) (s'.main.rank s'.page) (s.main.rank s.page)) : Later s' s :=
  .left _ _ main

/-- Every step lowers the rank. -/
theorem Step.later {s s' : State π} (step : Step s s') : Later s' s := by
  obtain ⟨page, main, sem, wg, fetches⟩ := s
  cases step <;> dsimp only at * <;> subst_vars
  case nextList k i more past => exact later_of_main (.left _ _ (by omega))
  case endLoop k i past =>
    exact later_of_main (Prod.lex_def.mpr (by simp only [Main.rank]; omega))
  case acquire k i e entry room =>
    have ⟨_, inList⟩ := DatasetLandingPage.lt_of_entry_eq_some entry
    exact later_of_main (.right _ (by dsimp only; omega))
  case spawn k i e => exact later_of_main (.right _ (by dsimp only; omega))
  case fetch j f title found calling =>
    exact later_of_move rfl (pendingMoves_set_lt found (by simp [calling, FetchPhase.rank]))
  case write j f title found fetched =>
    exact later_of_move (Main.rank_setTitle ..)
      (pendingMoves_set_lt found (by simp [fetched, FetchPhase.rank]))
  case release j f title found written held =>
    exact later_of_move rfl (pendingMoves_set_lt found (by simp [written, FetchPhase.rank]))
  case finish j f title found released =>
    exact later_of_move rfl (pendingMoves_set_lt found (by simp [released, FetchPhase.rank]))
  case wgWait => exact later_of_main (.right _ (by decide))

/-- No run of `GetDatasetLandingPage` is infinite. -/
theorem step_wellFounded : WellFounded fun s' s : State π => Step s s' :=
  Subrelation.wf (fun step => Step.later step) later_wellFounded

/-! ## No reachable state is stuck before `wg.Wait()` returns -/

section Progress

variable {original : DatasetLandingPage π} {s : State π}

/-- A goroutine that has not run `wg.Done()` can move. -/
theorem Invariant.goroutine_moves (inv : Invariant original s) {f : Fetch} (mem : f ∈ s.fetches)
    (unfinished : f.phase.isFinished = false) : ∃ s', Step s s' := by
  obtain ⟨j, found⟩ := List.mem_iff_getElem?.mp mem
  cases phase : f.phase with
  | calling => exact ⟨_, .fetch "" found phase⟩
  | fetched title => exact ⟨_, .write found phase⟩
  | written title =>
    have holds : 0 < s.fetches.countP (fun f => f.phase.holdsSlot) :=
      List.countP_pos_iff.mpr ⟨f, mem, by simp [phase]⟩
    exact ⟨_, .release found phase (by rw [inv.slots]; omega)⟩
  | released title => exact ⟨_, .finish found phase⟩
  | finished title => simp [phase] at unfinished

theorem FetchPhase.unfinished_of_holdsSlot {phase : FetchPhase} (holds : phase.holdsSlot = true) :
    phase.isFinished = false := by
  cases phase <;> simp_all

/-- Every reachable state before `wg.Wait()` returns has a step. -/
theorem Invariant.progress (inv : Invariant original s) (running : s.main.hasReturned = false) :
    ∃ s', Step s s' := by
  have slots := inv.slots
  cases main : s.main with
  | loop k i =>
    by_cases more : k < 4
    · by_cases past : s.page.lengthOf k ≤ i
      · exact ⟨_, .nextList main more past⟩
      have inList : i < s.page.lengthOf k := by omega
      obtain ⟨e, entry⟩ := DatasetLandingPage.exists_entry_of_lt more inList
      by_cases room : s.sem < workerCap
      · exact ⟨_, .acquire main entry room⟩
      rw [main] at slots
      obtain ⟨f, mem, holds⟩ := List.countP_pos_iff.mp
        (show 0 < s.fetches.countP (fun f => f.phase.holdsSlot) by
          simp only [workerCap, Main.slot] at room slots; omega)
      exact inv.goroutine_moves mem (FetchPhase.unfinished_of_holdsSlot holds)
    · exact ⟨_, .endLoop main (by omega)⟩
  | spawn k i e => exact ⟨_, .spawn main⟩
  | wait =>
    by_cases zero : s.wg = 0
    · exact ⟨_, .wgWait main zero⟩
    obtain ⟨f, mem, unfinished⟩ := List.countP_pos_iff.mp (inv.waitGroup ▸ Nat.pos_of_ne_zero zero)
    exact inv.goroutine_moves mem (by simpa using unfinished)
  | returned => simp [main] at running

end Progress

/-- `GetDatasetLandingPage` returns in every interleaving and whatever each `GetPageTitle`
returns: no run is infinite, and a run that cannot go on has returned from `wg.Wait()`
with every goroutine finished. -/
theorem getDatasetLandingPage_returns (page : DatasetLandingPage π) :
    WellFounded (fun s' s : State π => Step s s') ∧
      ∀ s, Reachable page s → (¬∃ s', Step s s') →
        s.main = .returned ∧ ∀ f ∈ s.fetches, f.phase.isFinished = true := by
  refine ⟨step_wellFounded, fun s reachable stuck => ?_⟩
  have inv := Invariant.of_reachable reachable
  have returned : s.main = .returned := by
    cases main : s.main
    case returned => rfl
    all_goals exact absurd (inv.progress (by rw [main]; rfl)) stuck
  exact ⟨returned, inv.finished_of_returned returned⟩

end DpApiClients.Zebedee
