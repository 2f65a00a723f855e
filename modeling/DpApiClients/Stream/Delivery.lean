import DpApiClients.Stream.Invariant

/-!
# What `consume` reads

The `delivered` field of `Invariant` gives the byte accounting of the pipe: once `transform`
has returned, no `Write` is in progress, and the bytes of every `Read`, in order, are the
bytes every `Write` returned as written, in order. A `Read` returns `io.EOF` only through
`readCloseError` with `werr` set, and only `w.Close()` sets `werr`, after `transform` has
returned.

The transforming goroutine closes the writer with `w.Close()` whatever `transform` returned,
never with `w.CloseWithError(errTransform)`. So a `consume` that reads after a failed
`transform` sees a clean `io.EOF`: the failure reaches the caller only through the error that
`Stream` returns.
-/

namespace DpApiClients.Stream

theorem Writer.returned_of_closed {writer : Writer} (closed : writer.closed = true) :
    writer.returned = true := by
  cases writer <;> simp_all

theorem Writer.taken_of_returned {writer : Writer} (returned : writer.returned = true) :
    writer.taken = [] := by
  cases writer <;> simp_all

theorem readCloseError_eq_eof {s : State} :
    readCloseError s = .eof ↔ s.rerr = none ∧ s.werr = some .eof := by
  unfold readCloseError
  split <;> simp_all

/-- Once `transform` has returned, the reads have returned exactly what the writes returned
as written. -/
theorem Invariant.consumed_eq_written {s : State} (inv : Invariant s)
    (returned : s.writer.returned = true) : s.consumed = s.written := by
  rw [inv.delivered, Writer.taken_of_returned returned, List.append_nil]

/-- A step in which a `Read` returns `io.EOF` starts from a state where `transform` has
returned. -/
theorem Invariant.transform_returned_of_eof {s s' : State} {data : List UInt8}
    (inv : Invariant s) (step : Step s s') (eof : s'.reads = s.reads ++ [(data, some .eof)]) :
    s.writer.returned = true := by
  have closed : readCloseError s = .eof → s.writer.closed = true := fun eof => by
    have werr := inv.werr
    rw [(readCloseError_eq_eof.mp eof).2] at werr
    by_contra notClosed
    rw [if_neg notClosed] at werr
    cases werr
  cases step <;> simp at eof <;> exact Writer.returned_of_closed (closed eof.2)

/-- The bytes `consume` obtains are the bytes `transform`'s writes returned as written, in
order, with nothing lost, duplicated or reordered; and `consume`'s reader returns `io.EOF`
only after `transform` has returned. -/
theorem stream_delivers_written_bytes (hasBody : Bool) (transform : Transformer)
    (consume : Consumer) :
    (∀ s, Reachable (State.start hasBody transform consume) s →
        s.writer.returned = true → s.consumed = s.written) ∧
      ∀ s s' data, Reachable (State.start hasBody transform consume) s → Step s s' →
        s'.reads = s.reads ++ [(data, some .eof)] → s.writer.returned = true :=
  ⟨fun _ reachable returned => (invariant_of_reachable reachable).consumed_eq_written returned,
    fun _ _ _ reachable step eof =>
      (invariant_of_reachable reachable).transform_returned_of_eof step eof⟩

/-- A `transform` that writes three bytes in one `Write` and returns. -/
def writeThree : Transformer :=
  .write [1, 2, 3] fun _ _ => .done none

/-- A `consume` that reads `count` times into a two-byte buffer and returns. -/
def readPairs : Nat → Consumer
  | 0 => .done none
  | count + 1 => .read 2 fun _ _ => readPairs count

/-- `stream_delivers_written_bytes` on a run of `writeThree` and `readPairs 3`: the three
bytes cross the pipe in two reads, `transform` returns and closes the writer, and the third
read returns `io.EOF`. -/
theorem writeThree_delivers :
    ∃ s s', Reachable (State.start true writeThree (readPairs 3)) s ∧
      s.consumed = [1, 2, 3] ∧ s.consumed = s.written ∧
      Reachable (State.start true writeThree (readPairs 3)) s' ∧
      ∃ s'', Step s' s'' ∧ s''.reads = s'.reads ++ [([], some .eof)] ∧
        s'.writer.returned = true := by
  have reachable : Reachable (State.start true writeThree (readPairs 3)) _ :=
    .head (Step.writeCall rfl) <| .head (Step.writeLock rfl rfl) <| .head (Step.readCall rfl) <|
      .head (Step.readBlock rfl rfl) <| .head (Step.transfer rfl rfl) <|
      .head (Step.deliverMore rfl rfl (by decide)) <| .head (Step.readCall rfl) <|
      .head (Step.readBlock rfl rfl) <| .head (Step.transfer rfl rfl) <|
      .head (Step.deliverLast rfl rfl (by decide)) <| .head (Step.transformReturn rfl) .refl
  have later : Reachable (State.start true writeThree (readPairs 3)) _ :=
    reachable.tail (Step.closeBody rfl) |>.tail (Step.closeWriter rfl) |>.tail (Step.readCall rfl)
  have delivers := stream_delivers_written_bytes true writeThree (readPairs 3)
  exact ⟨_, _, reachable, rfl, delivers.1 _ reachable rfl, later, _, Step.readClosed rfl rfl,
    rfl, delivers.2 _ _ [] later (Step.readClosed rfl rfl) rfl⟩

/-- A `transform` that fails before writing anything. -/
def failingTransform : Transformer :=
  .done (some "transform failed")

/-- The run of `failingTransform` and `readPairs 1` to its end: the single read returns a
clean `io.EOF`, and `Stream` returns the transform error. -/
theorem failingTransform_run :
    ∃ s, Reachable (State.start true failingTransform (readPairs 1)) s ∧
      s.errTransform = some "transform failed" ∧ ([], some PipeError.eof) ∈ s.reads ∧
      s.returned = some (some (.transform "transform failed")) ∧ ¬∃ s', Step s s' := by
  have reachable : Reachable (State.start true failingTransform (readPairs 1)) _ :=
    .head (Step.transformReturn rfl) <| .head (Step.closeBody rfl) <|
      .head (Step.closeWriter rfl) <| .head (Step.writerDone rfl) <| .head (Step.readCall rfl) <|
      .head (Step.readClosed rfl rfl) <| .head (Step.consumeReturn rfl) <|
      .head (Step.closeReader rfl) <| .head (Step.readerDone rfl) <| .head (Step.wgWait rfl rfl) .refl
  refine ⟨_, reachable, rfl, by simp [readCloseError, State.start], rfl, ?_⟩
  rintro ⟨_, step⟩
  cases step <;> simp_all

/-- After `transform` failed, `consume`'s reader returns a clean `io.EOF`. -/
theorem clean_eof_after_transform_error :
    ∃ s, Reachable (State.start true failingTransform (readPairs 1)) s ∧
      s.errTransform = some "transform failed" ∧ ([], some PipeError.eof) ∈ s.reads := by
  obtain ⟨s, reachable, failed, eof, -⟩ := failingTransform_run
  exact ⟨s, reachable, failed, eof⟩

/-- The error of a failed `transform` reaches the caller through `Stream`: once `Stream` has
returned, `transform` has returned, and what `Stream` returned wraps the error `transform`
returned, alone or with `consume`'s. -/
theorem stream_reports_transform_error (hasBody : Bool) (transform : Transformer)
    (consume : Consumer) (s : State) (reachable : Reachable (State.start hasBody transform consume) s)
    (result : Option StreamError) (returned : s.returned = some result) :
    s.writer.returned = true ∧
      ∀ err, s.errTransform = some err →
        result = some (.transform err) ∨ ∃ consumeErr, result = some (.both err consumeErr) := by
  have inv := invariant_of_reachable reachable
  have exited := inv.returned (by simp [returned])
  rw [inv.waitGroup, Nat.add_eq_zero, Writer.pending_eq_zero] at exited
  refine ⟨by simp [exited.1], fun err failed => ?_⟩
  rw [inv.result result returned, failed]
  cases s.errConsume <;> simp [combineErrors]

/-- `stream_reports_transform_error` at the end of the run of `failingTransform`. -/
theorem failingTransform_reported :
    ∃ s, Reachable (State.start true failingTransform (readPairs 1)) s ∧
      s.returned = some (some (.transform "transform failed")) ∧ s.writer.returned = true ∧
      ∀ err, s.errTransform = some err →
        some (StreamError.transform "transform failed") = some (.transform err) ∨
          ∃ consumeErr, some (StreamError.transform "transform failed") = some (.both err consumeErr) := by
  obtain ⟨s, reachable, -, -, returned, -⟩ := failingTransform_run
  exact ⟨s, reachable, returned,
    stream_reports_transform_error true failingTransform (readPairs 1) s reachable _ returned⟩

end DpApiClients.Stream
