import Mathlib.Logic.Relation

/-!
# `Stream` over an `io.Pipe`

`Stream` (package `stream`) starts two goroutines joined by an `io.Pipe`. The first runs
`transform` on the response body and writes the result to the pipe writer `w`; when
`transform` returns it closes the body with `closeResponseBody`, calls `w.Close()` and
`wg.Done()`. The second runs `consume` on the pipe reader `r`, then calls `r.Close()` and
`wg.Done()`. `Stream` itself waits in `wg.Wait()` and combines the two errors.

This file is the interleaving semantics of that code. Each goroutine is a phase, the pipe is
the part of `io.Pipe` that `Stream` relies on (`p.done`, `p.werr`, `p.rerr` and the two
unbuffered channels `wrCh` and `rdCh`), and `Step` is one atomic move of one goroutine, or a
rendezvous of both on one of the two channels. The two `select`s of `pipe.write` and
`pipe.read` are kept apart, so a closed `done` wins the first one and may lose the second.

`transform` and `consume` are arbitrary programs whose only blocking operations are pipe
writes and reads. They are trees: a `Write` or `Read`, then a continuation that may depend on
everything the operation returned. Being inductive types, every path through them is finite.
Reading the body is not a pipe operation, so it is folded into the tree that `transform` is.

The state starts once `Stream` has started both goroutines and reached `wg.Wait()`; the two
`wg.Add(1)` and `go` statements before it never block. Two ghost fields record what the
`Write` calls returned as written and what each `Read` returned.
-/

namespace DpApiClients.Stream

/-- The error a pipe end reports after a close: `io.EOF` or `io.ErrClosedPipe`. -/
inductive PipeError where
  | eof
  | closedPipe
  deriving DecidableEq, Repr

/-- A `Transformer` as the pipe sees it: finitely many `w.Write` calls, each continuation
depending on the count and error the call returned, then the returned error. -/
inductive Transformer where
  | done (err : Option String)
  | write (chunk : List UInt8) (next : Nat → Option PipeError → Transformer)

/-- A `Consumer` as the pipe sees it: finitely many `r.Read` calls into a buffer of `size`
bytes, each continuation depending on the bytes and error the call returned. -/
inductive Consumer where
  | done (err : Option String)
  | read (size : Nat) (next : List UInt8 → Option PipeError → Consumer)

/-- Where the transforming goroutine is. -/
inductive Writer where
  | run (transform : Transformer)
  /-- Inside `pipe.write`, before its first `select` on `p.done`. -/
  | enter (chunk : List UInt8) (next : Nat → Option PipeError → Transformer)
  /-- In the write loop with `n` bytes taken, offering `chunk.drop n` on `wrCh`. -/
  | offer (chunk : List UInt8) (n : Nat) (next : Nat → Option PipeError → Transformer)
  /-- A reader took the offer; waiting for its count on `rdCh`. -/
  | await (chunk : List UInt8) (n : Nat) (next : Nat → Option PipeError → Transformer)
  /-- `transform` returned; the deferred `closeResponseBody(ctx, body)` is next. -/
  | closeBody
  /-- The deferred `w.Close()` is next. -/
  | closeWriter
  /-- The deferred `wg.Done()` is next. -/
  | signal
  | exited

/-- Where the consuming goroutine is. -/
inductive Reader where
  | run (consume : Consumer)
  /-- Inside `pipe.read`, before its first `select` on `p.done`. -/
  | enter (size : Nat) (next : List UInt8 → Option PipeError → Consumer)
  /-- Blocked in the second `select`, on `wrCh` or `p.done`. -/
  | wait (size : Nat) (next : List UInt8 → Option PipeError → Consumer)
  /-- Copied `data` from the writer; sending its length on `rdCh`. -/
  | reply (size : Nat) (data : List UInt8) (next : List UInt8 → Option PipeError → Consumer)
  /-- `consume` returned; the deferred `r.Close()` is next. -/
  | closeReader
  /-- The deferred `wg.Done()` is next. -/
  | signal
  | exited

/-- The error `Stream` returns: `transform error: %v, consumer error: %v`,
`transform error: %w` or `consumer error: %w`. -/
inductive StreamError where
  | both (transform consume : String)
  | transform (err : String)
  | consumer (err : String)
  deriving DecidableEq, Repr

/-- The tail of `Stream`, after `wg.Wait()`. -/
def combineErrors : Option String → Option String → Option StreamError
  | some transform, some consume => some (.both transform consume)
  | some transform, none => some (.transform transform)
  | none, some consume => some (.consumer consume)
  | none, none => none

/-- The goroutines, the pipe and the wait group of one run of `Stream`. -/
structure State where
  writer : Writer
  reader : Reader
  errTransform : Option String
  errConsume : Option String
  /-- `p.done` has been closed. -/
  done : Bool
  werr : Option PipeError
  rerr : Option PipeError
  wg : Nat
  /-- `body` is not nil, so `closeResponseBody` calls `body.Close()`. -/
  hasBody : Bool
  bodyCloses : Nat
  /-- What `Stream` returned, once it has. -/
  returned : Option (Option StreamError)
  /-- The first `n` bytes of every `Write` that returned `n`, in order. -/
  written : List UInt8
  /-- What every `Read` returned, in order. -/
  reads : List (List UInt8 × Option PipeError)

/-- `pipe.readCloseError`: the writer's error if only the writer closed the pipe. -/
def readCloseError (s : State) : PipeError :=
  match s.rerr, s.werr with
  | none, some werr => werr
  | _, _ => .closedPipe

/-- `pipe.writeCloseError`: the reader's error if only the reader closed the pipe. -/
def writeCloseError (s : State) : PipeError :=
  match s.werr, s.rerr with
  | none, some rerr => rerr
  | _, _ => .closedPipe

/-- `Stream` after its two `go` statements, in `wg.Wait()`. -/
def State.start (hasBody : Bool) (transform : Transformer) (consume : Consumer) : State where
  writer := .run transform
  reader := .run consume
  errTransform := none
  errConsume := none
  done := false
  werr := none
  rerr := none
  wg := 2
  hasBody := hasBody
  bodyCloses := 0
  returned := none
  written := []
  reads := []

/-- One move of one goroutine, or a rendezvous of both on `wrCh` or `rdCh`. -/
inductive Step : State → State → Prop
  | writeCall {s : State} {chunk next} (calling : s.writer = .run (.write chunk next)) :
      Step s { s with writer := .enter chunk next }
  | transformReturn {s : State} {err} (returning : s.writer = .run (.done err)) :
      Step s { s with writer := .closeBody, errTransform := err }
  /-- The first `select` of `pipe.write` finds `p.done` closed. -/
  | writeClosed {s : State} {chunk next} (entering : s.writer = .enter chunk next)
      (closed : s.done = true) :
      Step s { s with writer := .run (next 0 (some (writeCloseError s))) }
  /-- The `default` branch: take `wrMu` and start the loop. -/
  | writeLock {s : State} {chunk next} (entering : s.writer = .enter chunk next)
      (notClosed : s.done = false) :
      Step s { s with writer := .offer chunk 0 next }
  /-- The loop's `select` takes `<-p.done`; `Write` returns the bytes taken so far. -/
  | offerClosed {s : State} {chunk n next} (offering : s.writer = .offer chunk n next)
      (closed : s.done = true) :
      Step s { s with writer := .run (next n (some (writeCloseError s))),
                      written := s.written ++ chunk.take n }
  /-- Rendezvous on `wrCh`: the reader copies what fits in its buffer. -/
  | transfer {s : State} {chunk n next size rnext} (offering : s.writer = .offer chunk n next)
      (waiting : s.reader = .wait size rnext) :
      Step s { s with writer := .await chunk n next,
                      reader := .reply size ((chunk.drop n).take size) rnext }
  /-- Rendezvous on `rdCh`: `Read` returns the copy, and bytes of the chunk are left, so the
  write loop offers them again. -/
  | deliverMore {s : State} {chunk n next size data rnext}
      (awaiting : s.writer = .await chunk n next) (replying : s.reader = .reply size data rnext)
      (left : n + data.length < chunk.length) :
      Step s { s with writer := .offer chunk (n + data.length) next,
                      reader := .run (rnext data none),
                      reads := s.reads ++ [(data, none)] }
  /-- Rendezvous on `rdCh` that takes the last bytes of the chunk: `Read` returns the copy and
  `Write` returns the whole count. -/
  | deliverLast {s : State} {chunk n next size data rnext}
      (awaiting : s.writer = .await chunk n next) (replying : s.reader = .reply size data rnext)
      (last : chunk.length ≤ n + data.length) :
      Step s { s with writer := .run (next (n + data.length) none),
                      written := s.written ++ chunk.take (n + data.length),
                      reader := .run (rnext data none),
                      reads := s.reads ++ [(data, none)] }
  | closeBody {s : State} (closing : s.writer = .closeBody) :
      Step s { s with writer := .closeWriter,
                      bodyCloses := s.bodyCloses + if s.hasBody then 1 else 0 }
  /-- `w.Close()`: `closeWrite(nil)` stores `io.EOF` unless an error is stored, closes `done`. -/
  | closeWriter {s : State} (closing : s.writer = .closeWriter) :
      Step s { s with writer := .signal, werr := s.werr <|> some .eof, done := true }
  | writerDone {s : State} (signalling : s.writer = .signal) :
      Step s { s with writer := .exited, wg := s.wg - 1 }
  | readCall {s : State} {size next} (calling : s.reader = .run (.read size next)) :
      Step s { s with reader := .enter size next }
  | consumeReturn {s : State} {err} (returning : s.reader = .run (.done err)) :
      Step s { s with reader := .closeReader, errConsume := err }
  /-- The first `select` of `pipe.read` finds `p.done` closed. -/
  | readClosed {s : State} {size next} (entering : s.reader = .enter size next)
      (closed : s.done = true) :
      Step s { s with reader := .run (next [] (some (readCloseError s))),
                      reads := s.reads ++ [([], some (readCloseError s))] }
  | readBlock {s : State} {size next} (entering : s.reader = .enter size next)
      (notClosed : s.done = false) :
      Step s { s with reader := .wait size next }
  /-- The second `select` of `pipe.read` takes `<-p.done`. -/
  | waitClosed {s : State} {size next} (waiting : s.reader = .wait size next)
      (closed : s.done = true) :
      Step s { s with reader := .run (next [] (some (readCloseError s))),
                      reads := s.reads ++ [([], some (readCloseError s))] }
  /-- `r.Close()`: `closeRead(nil)` stores `io.ErrClosedPipe` unless an error is stored. -/
  | closeReader {s : State} (closing : s.reader = .closeReader) :
      Step s { s with reader := .signal, rerr := s.rerr <|> some .closedPipe, done := true }
  | readerDone {s : State} (signalling : s.reader = .signal) :
      Step s { s with reader := .exited, wg := s.wg - 1 }
  /-- `wg.Wait()` returns and `Stream` combines the two errors. -/
  | wgWait {s : State} (waiting : s.returned = none) (zero : s.wg = 0) :
      Step s { s with returned := some (combineErrors s.errTransform s.errConsume) }

/-- The states a run of `Stream` can reach from `start`. -/
def Reachable (start s : State) : Prop :=
  Relation.ReflTransGen Step start s

end DpApiClients.Stream
