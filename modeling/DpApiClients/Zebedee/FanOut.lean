import DpApiClients.Zebedee.Page

/-!
# The bounded fan-out of `GetDatasetLandingPage`

After decoding the page, `GetDatasetLandingPage` walks the four related-page lists and, for
every entry, takes a slot of the buffered channel `sem` (`sem <- 1`, blocking while all ten
are taken), adds one to the wait group, and starts `go func(i, e, element)`. The goroutine
calls `GetPageTitle` on `e.URI`, writes the title into `element[i]`, and on its way out
releases its slot (`<-sem`) and calls `wg.Done()`. The function returns the page after
`wg.Wait()`.

This file is the interleaving semantics of that code: `Main` is the spawning loop, each
`Fetch` is one goroutine with the arguments it was started with, and `Step` is one move of
one of them. `GetPageTitle` may return any title (an empty one on an error), so its step is
nondeterministic. `Invariant` is what every reachable state satisfies: each slot of `sem`
is held by the loop or by a goroutine that has not released it, the wait group counts the
goroutines that have not finished, the goroutines are the entries visited so far, in order,
and the page is the decoded page with every written title in place.
-/

namespace DpApiClients.Zebedee

/-- The capacity of `sem`, `make(chan int, 10)`. -/
def workerCap : Nat := 10

/-- Where a goroutine `go func(i, e, element)` is. -/
inductive FetchPhase where
  /-- Inside `c.GetPageTitle(ctx, userAccessToken, e.URI)`. -/
  | calling
  /-- `GetPageTitle` returned a `PageTitle` whose `Title` is `title` (empty on an error). -/
  | fetched (title : String)
  /-- `element[i].Title = t.Title` is done. -/
  | written (title : String)
  /-- The deferred `<-sem` is done. -/
  | released (title : String)
  /-- The deferred `wg.Done()` is done. -/
  | finished (title : String)
  deriving DecidableEq, Repr

namespace FetchPhase

/-- The title the goroutine has written into the page, once it has. -/
@[simp] def written? : FetchPhase → Option String
  | .written title | .released title | .finished title => some title
  | _ => none

/-- Between the goroutine's start and its `<-sem`. -/
@[simp] def holdsSlot : FetchPhase → Bool
  | .calling | .fetched _ | .written _ => true
  | _ => false

/-- Inside `GetPageTitle`. -/
@[simp] def inCall : FetchPhase → Bool
  | .calling => true
  | _ => false

/-- Past `wg.Done()`. -/
@[simp] def isFinished : FetchPhase → Bool
  | .finished _ => true
  | _ => false

theorem holdsSlot_of_inCall {phase : FetchPhase} (inCall : phase.inCall = true) :
    phase.holdsSlot = true := by
  cases phase <;> simp_all

end FetchPhase

/-- One goroutine: its arguments `i`, `e.URI` and the index of `element` in `related`. -/
structure Fetch where
  list : Nat
  index : Nat
  uri : String
  phase : FetchPhase
  deriving DecidableEq, Repr

/-- The entry a goroutine was started for. -/
def Fetch.entry (fetch : Fetch) : Nat × Nat :=
  (fetch.list, fetch.index)

/-- Where `GetDatasetLandingPage` itself is. -/
inductive Main where
  /-- At iteration `index` of the range over `related[list]`, or past its end. -/
  | loop (list index : Nat)
  /-- Holding a slot of `sem` for `e = related[list][index]`; `wg.Add(1)` and `go` are next. -/
  | spawn (list index : Nat) (e : Related)
  /-- In `wg.Wait()`. -/
  | wait
  | returned

/-- One run of `GetDatasetLandingPage` after the page was decoded. -/
structure State (π : Type) where
  page : DatasetLandingPage π
  main : Main
  /-- The number of values buffered in `sem`. -/
  sem : Nat
  wg : Nat
  /-- Every goroutine started so far, in the order they were started. -/
  fetches : List Fetch

variable {π : Type}

/-- The state after `json.Unmarshal`, before the loops. -/
def State.start (page : DatasetLandingPage π) : State π where
  page := page
  main := .loop 0 0
  sem := 0
  wg := 0
  fetches := []

/-- One move of the loop or of one goroutine. -/
inductive Step : State π → State π → Prop
  /-- The range over `related[k]` is done; on to the next list. -/
  | nextList {s : State π} {k i : Nat} (looping : s.main = .loop k i) (more : k < 4)
      (past : s.page.lengthOf k ≤ i) :
      Step s { s with main := .loop (k + 1) 0 }
  /-- The range over `related` is done; on to `wg.Wait()`. -/
  | endLoop {s : State π} {k i : Nat} (looping : s.main = .loop k i) (past : 4 ≤ k) :
      Step s { s with main := .wait }
  /-- `i, e := range element` reads the entry, and `sem <- 1` finds room in the buffer. -/
  | acquire {s : State π} {k i : Nat} {e : Related} (looping : s.main = .loop k i)
      (entry : s.page.entry k i = some e) (room : s.sem < workerCap) :
      Step s { s with main := .spawn k i e, sem := s.sem + 1 }
  /-- `wg.Add(1)` and `go func(i, e, element)`. -/
  | spawn {s : State π} {k i : Nat} {e : Related} (spawning : s.main = .spawn k i e) :
      Step s { s with main := .loop k (i + 1), wg := s.wg + 1,
                      fetches := s.fetches ++ [⟨k, i, e.uri, .calling⟩] }
  /-- `GetPageTitle` returns, with any title. -/
  | fetch {s : State π} {j : Nat} {f : Fetch} (title : String) (found : s.fetches[j]? = some f)
      (calling : f.phase = .calling) :
      Step s { s with fetches := s.fetches.set j { f with phase := .fetched title } }
  /-- `element[i].Title = t.Title`. -/
  | write {s : State π} {j : Nat} {f : Fetch} {title : String} (found : s.fetches[j]? = some f)
      (fetched : f.phase = .fetched title) :
      Step s { s with page := s.page.setTitle f.list f.index title,
                      fetches := s.fetches.set j { f with phase := .written title } }
  /-- The deferred `<-sem`, which waits for a buffered value. -/
  | release {s : State π} {j : Nat} {f : Fetch} {title : String} (found : s.fetches[j]? = some f)
      (written : f.phase = .written title) (held : 0 < s.sem) :
      Step s { s with sem := s.sem - 1,
                      fetches := s.fetches.set j { f with phase := .released title } }
  /-- The deferred `wg.Done()`. -/
  | finish {s : State π} {j : Nat} {f : Fetch} {title : String} (found : s.fetches[j]? = some f)
      (released : f.phase = .released title) :
      Step s { s with wg := s.wg - 1,
                      fetches := s.fetches.set j { f with phase := .finished title } }
  /-- `wg.Wait()` returns, and so does `GetDatasetLandingPage`. -/
  | wgWait {s : State π} (waiting : s.main = .wait) (zero : s.wg = 0) :
      Step s { s with main := .returned }

/-- The states a run from the decoded page can reach. -/
def Reachable (page : DatasetLandingPage π) (s : State π) : Prop :=
  Relation.ReflTransGen Step (State.start page) s

end DpApiClients.Zebedee
