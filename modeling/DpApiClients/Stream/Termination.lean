import DpApiClients.Stream.Delivery
import Mathlib.Order.RelClasses

/-!
# `Stream` always returns

Every step of `Stream` lowers a lexicographic rank: the consuming goroutine's rank first,
then the transforming goroutine's, then whether `Stream` has returned. A goroutine's rank is
the program it still has to run, ordered by "continues as", followed by its stage inside the
current pipe operation; once its program has returned, only the stage of the deferred calls
counts. The consumer comes first because a rendezvous on `rdCh` may send the writer back to
offering the rest of its chunk, while it always ends the reader's `Read`.

So no run of `Stream` is infinite, whatever the interleaving and whatever `transform` and
`consume` do, and with `Invariant.progress` every run ends where `Stream` has returned.
-/

namespace DpApiClients.Stream

/-- `next n err` is what `transform` continues with after a `Write` that returned
`n` and `err`. -/
inductive Transformer.Continues : Transformer → Transformer → Prop
  | write (chunk : List UInt8) (next : Nat → Option PipeError → Transformer) (n : Nat)
      (err : Option PipeError) : Continues (next n err) (.write chunk next)

/-- `next data err` is what `consume` continues with after a `Read` that returned
`data` and `err`. -/
inductive Consumer.Continues : Consumer → Consumer → Prop
  | read (size : Nat) (next : List UInt8 → Option PipeError → Consumer) (data : List UInt8)
      (err : Option PipeError) : Continues (next data err) (.read size next)

theorem Transformer.continues_wellFounded : WellFounded Transformer.Continues := by
  refine ⟨fun transform => ?_⟩
  induction transform with
  | done err => exact ⟨_, fun _ continues => nomatch continues⟩
  | write chunk next ih => exact ⟨_, fun _ continues => by cases continues; exact ih _ _⟩

theorem Consumer.continues_wellFounded : WellFounded Consumer.Continues := by
  refine ⟨fun consume => ?_⟩
  induction consume with
  | done err => exact ⟨_, fun _ continues => nomatch continues⟩
  | read size next ih => exact ⟨_, fun _ continues => by cases continues; exact ih _ _⟩

/-- `none` below every `some`, and `some` ordered by `r`: a goroutine whose program has
returned is below every goroutine that still has a program to run. -/
inductive OptionBelow {α : Type} (r : α → α → Prop) : Option α → Option α → Prop
  | none_some (a : α) : OptionBelow r none (some a)
  | some_some {a b : α} (below : r a b) : OptionBelow r (some a) (some b)

theorem OptionBelow.wellFounded {α : Type} {r : α → α → Prop} (wf : WellFounded r) :
    WellFounded (OptionBelow r) := by
  have accNone : Acc (OptionBelow r) none := ⟨_, fun _ below => nomatch below⟩
  refine ⟨fun program => ?_⟩
  cases program with
  | none => exact accNone
  | some a =>
    induction a using wf.induction with
    | _ a ih =>
      refine ⟨_, fun _ below => ?_⟩
      cases below with
      | none_some => exact accNone
      | some_some below => exact ih _ below

/-- A goroutine's program and its stage, compared lexicographically. -/
def RankBelow {α : Type} (r : α → α → Prop) : Option α × Nat → Option α × Nat → Prop :=
  Prod.Lex (OptionBelow r) (· < ·)

theorem rankBelow_wellFounded {α : Type} {r : α → α → Prop} (wf : WellFounded r) :
    WellFounded (RankBelow r) :=
  WellFounded.prod_lex (OptionBelow.wellFounded wf) wellFounded_lt

/-- The transforming goroutine's program and stage. -/
def Writer.rank : Writer → Option Transformer × Nat
  | .run transform => (some transform, 3)
  | .enter chunk next => (some (.write chunk next), 2)
  | .offer chunk _ next => (some (.write chunk next), 1)
  | .await chunk _ next => (some (.write chunk next), 0)
  | .closeBody => (none, 3)
  | .closeWriter => (none, 2)
  | .signal => (none, 1)
  | .exited => (none, 0)

/-- The consuming goroutine's program and stage. -/
def Reader.rank : Reader → Option Consumer × Nat
  | .run consume => (some consume, 3)
  | .enter size next => (some (.read size next), 2)
  | .wait size next => (some (.read size next), 1)
  | .reply size _ next => (some (.read size next), 0)
  | .closeReader => (none, 2)
  | .signal => (none, 1)
  | .exited => (none, 0)

/-- The rank of a state: the reader's, then the writer's, then `Stream`'s own. -/
def State.rank (s : State) : (Option Consumer × Nat) × (Option Transformer × Nat) × Nat :=
  (s.reader.rank, s.writer.rank, if s.returned.isSome then 0 else 1)

/-- `s'` is ranked below `s`. -/
def Later (s' s : State) : Prop :=
  Prod.Lex (RankBelow Consumer.Continues)
    (Prod.Lex (RankBelow Transformer.Continues) (· < ·)) s'.rank s.rank

theorem later_wellFounded : WellFounded Later :=
  InvImage.wf _ (WellFounded.prod_lex (rankBelow_wellFounded Consumer.continues_wellFounded)
    (WellFounded.prod_lex (rankBelow_wellFounded Transformer.continues_wellFounded)
      wellFounded_lt))

/-- Every step lowers the rank. -/
theorem Step.later {s s' : State} (step : Step s s') : Later s' s := by
  obtain ⟨writer, reader, errT, errC, isDone, wErr, rErr, counter, hasBody, closes, result,
    written, reads⟩ := s
  cases step <;> dsimp only at * <;> subst_vars
  case transfer | readCall | readBlock | closeReader | readerDone =>
    exact .left _ _ (.right _ (by decide))
  case consumeReturn => exact .left _ _ (.left _ _ (.none_some _))
  case readClosed | waitClosed | deliverMore | deliverLast =>
    exact .left _ _ (.left _ _ (.some_some (.read ..)))
  case writeClosed | offerClosed =>
    exact .right _ (.left _ _ (.left _ _ (.some_some (.write ..))))
  case transformReturn => exact .right _ (.left _ _ (.left _ _ (.none_some _)))
  case wgWait => exact .right _ (.right _ (by simp))
  all_goals exact .right _ (.left _ _ (.right _ (by decide)))

/-- No run of `Stream` is infinite. -/
theorem step_wellFounded : WellFounded fun s' s => Step s s' :=
  Subrelation.wf (fun step => Step.later step) later_wellFounded

theorem Step.hasBody {s s' : State} (step : Step s s') : s'.hasBody = s.hasBody := by
  cases step <;> rfl

theorem hasBody_of_reachable {start s : State} (reachable : Reachable start s) :
    s.hasBody = start.hasBody := by
  induction reachable with
  | refl => rfl
  | tail _ step ih => rw [step.hasBody, ih]

/-- `Stream` returns in every interleaving and for every `transform` and `consume`: no run
is infinite, and a run that cannot go on has returned from `wg.Wait()` with both goroutines
exited, `body` closed once (if it is not nil) and both ends of the pipe closed. -/
theorem stream_always_returns (hasBody : Bool) (transform : Transformer) (consume : Consumer) :
    WellFounded (fun s' s => Step s s') ∧
      ∀ s, Reachable (State.start hasBody transform consume) s → (¬∃ s', Step s s') →
        s.returned = some (combineErrors s.errTransform s.errConsume) ∧
          s.writer = .exited ∧ s.reader = .exited ∧
          s.bodyCloses = (if hasBody then 1 else 0) ∧
          s.werr = some .eof ∧ s.rerr = some .closedPipe := by
  refine ⟨step_wellFounded, fun s reachable stuck => ?_⟩
  have final := (invariant_of_reachable reachable).final_of_stuck stuck
  rwa [hasBody_of_reachable reachable] at final

/-- `stream_always_returns` at the end of the run of `failingTransform` and `readPairs 1`. -/
theorem failingTransform_returns :
    ∃ s, Reachable (State.start true failingTransform (readPairs 1)) s ∧ (¬∃ s', Step s s') ∧
      s.returned = some (combineErrors s.errTransform s.errConsume) ∧
      s.writer = .exited ∧ s.reader = .exited ∧ s.bodyCloses = 1 ∧
      s.werr = some .eof ∧ s.rerr = some .closedPipe := by
  obtain ⟨s, reachable, -, -, -, stuck⟩ := failingTransform_run
  exact ⟨s, reachable, stuck,
    by simpa using (stream_always_returns true failingTransform (readPairs 1)).2 s reachable stuck⟩

end DpApiClients.Stream
