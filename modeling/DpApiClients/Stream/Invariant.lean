import DpApiClients.Stream.Pipe
import Mathlib.Data.List.Basic

/-!
# What every reachable state of `Stream` satisfies

`Invariant` ties the wait group, the pipe's `done`, `werr` and `rerr`, the body's closes and
the ghost logs to the two goroutines' phases. Every field is a function of the phases, since
each of these variables is written by exactly one step of one goroutine: `werr` only by
`w.Close()`, `rerr` only by `r.Close()`, `done` by both closes, the counter only by the two
`wg.Done()` calls.

The `paired` field is the rendezvous discipline of `io.Pipe`: a writer waiting on `rdCh` has
a reader sending on it, and what that reader copied is what fitted of the offer. The
`delivered` field is the byte accounting: what the reads returned is what the writes
returned as written, followed by the part of the write in progress that readers took.
-/

namespace DpApiClients.Stream

namespace Writer

/-- One until the goroutine has called `wg.Done()`. -/
@[simp] def pending : Writer → Nat
  | .exited => 0
  | _ => 1

/-- `w.Close()` has run. -/
@[simp] def closed : Writer → Bool
  | .signal | .exited => true
  | _ => false

/-- `closeResponseBody` has run. -/
@[simp] def bodyClosed : Writer → Bool
  | .closeWriter | .signal | .exited => true
  | _ => false

/-- `transform` has returned. -/
@[simp] def returned : Writer → Bool
  | .closeBody | .closeWriter | .signal | .exited => true
  | _ => false

/-- The chunk and count of a writer waiting on `rdCh`. -/
@[simp] def offered : Writer → Option (List UInt8 × Nat)
  | .await chunk n _ => some (chunk, n)
  | _ => none

/-- The bytes that readers have taken from the `Write` in progress. -/
@[simp] def taken : Writer → List UInt8
  | .offer chunk n _ | .await chunk n _ => chunk.take n
  | _ => []

theorem pending_eq_zero {writer : Writer} : writer.pending = 0 ↔ writer = .exited := by
  cases writer <;> simp

end Writer

namespace Reader

/-- One until the goroutine has called `wg.Done()`. -/
@[simp] def pending : Reader → Nat
  | .exited => 0
  | _ => 1

/-- `r.Close()` has run. -/
@[simp] def closed : Reader → Bool
  | .signal | .exited => true
  | _ => false

/-- The buffer size and copy of a reader sending on `rdCh`. -/
@[simp] def copied : Reader → Option (Nat × List UInt8)
  | .reply size data _ => some (size, data)
  | _ => none

theorem pending_eq_zero {reader : Reader} : reader.pending = 0 ↔ reader = .exited := by
  cases reader <;> simp

end Reader

/-- The rendezvous discipline of `io.Pipe`: a writer waits on `rdCh` exactly while the reader
sends on it, and the reader's copy is what fitted of the offer. -/
def Paired (writer : Writer) (reader : Reader) : Prop :=
  match writer.offered, reader.copied with
  | some (chunk, n), some (size, data) => data = (chunk.drop n).take size
  | none, none => True
  | _, _ => False

/-- The bytes the `Read` calls returned, concatenated in order. -/
def State.consumed (s : State) : List UInt8 :=
  (s.reads.map Prod.fst).flatten

/-- What every reachable state of `Stream` satisfies. -/
structure Invariant (s : State) : Prop where
  waitGroup : s.wg = s.writer.pending + s.reader.pending
  paired : Paired s.writer s.reader
  werr : s.werr = if s.writer.closed then some .eof else none
  rerr : s.rerr = if s.reader.closed then some .closedPipe else none
  done : s.done = (s.writer.closed || s.reader.closed)
  bodyCloses : s.bodyCloses = if s.hasBody && s.writer.bodyClosed then 1 else 0
  returned : s.returned.isSome → s.wg = 0
  result : ∀ result, s.returned = some result → result = combineErrors s.errTransform s.errConsume
  delivered : s.consumed = s.written ++ s.writer.taken

theorem invariant_start (hasBody : Bool) (transform : Transformer) (consume : Consumer) :
    Invariant (State.start hasBody transform consume) := by
  constructor <;> simp [State.start, Paired, State.consumed]

/-- What a reader copies of an offer extends the bytes taken by the copy's length. -/
theorem take_append_copy (chunk : List UInt8) (n size : Nat) :
    chunk.take n ++ (chunk.drop n).take size =
      chunk.take (n + ((chunk.drop n).take size).length) := by
  rw [List.take_add, List.length_take, ← List.take_take, List.take_length]

theorem Invariant.step {s s' : State} (inv : Invariant s) (step : Step s s') :
    Invariant s' := by
  obtain ⟨writer, reader, errT, errC, isDone, wErr, rErr, counter, hasBody, closes, result,
    written, reads⟩ := s
  cases step <;> dsimp only at * <;> subst_vars
  case offerClosed =>
    exact { inv with delivered := by simpa using inv.delivered }
  case transfer => exact { inv with paired := rfl }
  case deliverMore chunk n next size data rnext left =>
    have copy : data = (chunk.drop n).take size := inv.paired
    subst copy
    have delivered : (reads.map Prod.fst).flatten = written ++ chunk.take n := inv.delivered
    exact { inv with
      paired := trivial
      delivered := by simp only [State.consumed, List.map_append, List.map_cons, List.map_nil,
        List.flatten_append, List.flatten_cons, List.flatten_nil, List.append_nil, delivered,
        List.append_assoc, take_append_copy, Writer.taken] }
  case deliverLast chunk n next size data rnext last =>
    have copy : data = (chunk.drop n).take size := inv.paired
    subst copy
    have delivered : (reads.map Prod.fst).flatten = written ++ chunk.take n := inv.delivered
    exact { inv with
      paired := trivial
      delivered := by simp only [State.consumed, List.map_append, List.map_cons, List.map_nil,
        List.flatten_append, List.flatten_cons, List.flatten_nil, List.append_nil, delivered,
        List.append_assoc, take_append_copy, Writer.taken] }
  case closeBody =>
    have unclosed : closes = 0 := by simpa using inv.bodyCloses
    exact { inv with bodyCloses := by simp [unclosed] }
  case closeWriter =>
    have unset : wErr = none := by simpa using inv.werr
    exact { inv with werr := by simp [unset], done := rfl }
  case closeReader =>
    have unset : rErr = none := by simpa using inv.rerr
    exact { inv with rerr := by simp [unset], done := by simp }
  case transformReturn =>
    have counted : counter = 1 + reader.pending := by simpa using inv.waitGroup
    have running : result = none := by
      cases result with
      | none => rfl
      | some _ => exact absurd (inv.returned rfl) (by simp; omega)
    subst running
    exact { inv with result := fun _ returned => nomatch returned }
  case consumeReturn =>
    have counted : counter = writer.pending + 1 := by simpa using inv.waitGroup
    have running : result = none := by
      cases result with
      | none => rfl
      | some _ => exact absurd (inv.returned rfl) (by simp; omega)
    subst running
    exact { inv with result := fun _ returned => nomatch returned }
  case writerDone =>
    have counted : counter = 1 + reader.pending := by simpa using inv.waitGroup
    exact { inv with waitGroup := by simp only [Writer.pending]; omega,
                     returned := fun returned => absurd (inv.returned returned) (by simp; omega) }
  case readerDone =>
    have counted : counter = writer.pending + 1 := by simpa using inv.waitGroup
    exact { inv with waitGroup := by simp only [Reader.pending]; omega,
                     returned := fun returned => absurd (inv.returned returned) (by simp; omega) }
  case readClosed | waitClosed =>
    exact { inv with delivered := by simpa [State.consumed] using inv.delivered }
  case wgWait =>
    exact { inv with returned := fun _ => rfl, result := fun _ returned => (Option.some.inj returned).symm }
  all_goals exact { inv with }

theorem Invariant.of_reachable {start s : State} (inv : Invariant start)
    (reachable : Reachable start s) : Invariant s := by
  induction reachable with
  | refl => exact inv
  | tail _ step ih => exact ih.step step

theorem invariant_of_reachable {hasBody : Bool} {transform : Transformer} {consume : Consumer}
    {s : State} (reachable : Reachable (State.start hasBody transform consume) s) :
    Invariant s :=
  (invariant_start hasBody transform consume).of_reachable reachable

/-! ## No reachable state is stuck before `Stream` returns -/

/-- A reader outside the two channels can always move. -/
theorem reader_moves {s : State} (free : s.reader ≠ .exited) (notWaiting : ∀ size next, s.reader ≠ .wait size next)
    (notReplying : ∀ size data next, s.reader ≠ .reply size data next) : ∃ s', Step s s' := by
  obtain ⟨writer, reader, errT, errC, isDone, wErr, rErr, counter, hasBody, closes, result,
    written, reads⟩ := s
  cases reader with
  | run consume =>
    cases consume with
    | done err => exact ⟨_, .consumeReturn rfl⟩
    | read size next => exact ⟨_, .readCall rfl⟩
  | enter size next =>
    cases isDone with
    | true => exact ⟨_, .readClosed rfl rfl⟩
    | false => exact ⟨_, .readBlock rfl rfl⟩
  | wait size next => exact absurd rfl (notWaiting size next)
  | reply size data next => exact absurd rfl (notReplying size data next)
  | closeReader => exact ⟨_, .closeReader rfl⟩
  | signal => exact ⟨_, .readerDone rfl⟩
  | exited => exact absurd rfl free

/-- Every reachable state before `Stream` returns has a step: no goroutine is blocked for
good on the pipe or on `wg.Wait()`. -/
theorem Invariant.progress {s : State} (inv : Invariant s) (running : s.returned = none) :
    ∃ s', Step s s' := by
  obtain ⟨writer, reader, errT, errC, isDone, wErr, rErr, counter, hasBody, closes, result,
    written, reads⟩ := s
  have paired : Paired writer reader := inv.paired
  have done : isDone = (writer.closed || reader.closed) := inv.done
  have counted : counter = writer.pending + reader.pending := inv.waitGroup
  cases writer with
  | run transform =>
    cases transform with
    | done err => exact ⟨_, .transformReturn rfl⟩
    | write chunk next => exact ⟨_, .writeCall rfl⟩
  | enter chunk next =>
    cases isDone with
    | true => exact ⟨_, .writeClosed rfl rfl⟩
    | false => exact ⟨_, .writeLock rfl rfl⟩
  | closeBody => exact ⟨_, .closeBody rfl⟩
  | closeWriter => exact ⟨_, .closeWriter rfl⟩
  | signal => exact ⟨_, .writerDone rfl⟩
  | offer chunk n next =>
    cases reader with
    | wait size rnext => exact ⟨_, .transfer rfl rfl⟩
    | exited => exact ⟨_, .offerClosed rfl (by simpa using done)⟩
    | reply => exact paired.elim
    | _ => exact reader_moves (by simp) (by simp) (by simp)
  | await chunk n next =>
    cases reader with
    | reply size data rnext =>
      by_cases left : n + data.length < chunk.length
      · exact ⟨_, .deliverMore rfl rfl left⟩
      · exact ⟨_, .deliverLast rfl rfl (by omega)⟩
    | _ => exact paired.elim
  | exited =>
    cases reader with
    | wait size rnext => exact ⟨_, .waitClosed rfl (by simpa using done)⟩
    | exited => exact ⟨_, .wgWait running (by simpa using counted)⟩
    | reply => exact paired.elim
    | _ => exact reader_moves (by simp) (by simp) (by simp)

/-- A reachable state with no step is one where `Stream` has returned the combined errors,
both goroutines have exited, the body was closed once if there is one, and both pipe ends
were closed. -/
theorem Invariant.final_of_stuck {s : State} (inv : Invariant s) (stuck : ¬∃ s', Step s s') :
    s.returned = some (combineErrors s.errTransform s.errConsume) ∧
      s.writer = .exited ∧ s.reader = .exited ∧
      s.bodyCloses = (if s.hasBody then 1 else 0) ∧
      s.werr = some .eof ∧ s.rerr = some .closedPipe := by
  obtain ⟨result, returned⟩ : ∃ result, s.returned = some result := by
    cases returned : s.returned with
    | none => exact absurd (inv.progress returned) stuck
    | some result => exact ⟨result, rfl⟩
  have zero := inv.returned (by simp [returned])
  rw [inv.waitGroup, Nat.add_eq_zero, Writer.pending_eq_zero, Reader.pending_eq_zero] at zero
  obtain ⟨writerExited, readerExited⟩ := zero
  refine ⟨by rw [returned, inv.result result returned], writerExited, readerExited, ?_, ?_, ?_⟩
  · simp [inv.bodyCloses, writerExited]
  · simp [inv.werr, writerExited]
  · simp [inv.rerr, readerExited]

end DpApiClients.Stream
