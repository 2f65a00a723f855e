import DpApiClients.Zebedee.FanOut

/-!
# What every reachable state of the fan-out satisfies

`Invariant original` ties the semaphore, the wait group and the page to the goroutines'
phases, for the run that started from the decoded page `original`. Every value of `sem` is
a slot held by the loop between `sem <- 1` and `go`, or by a goroutine that has not yet run
its deferred `<-sem`; the wait group counts the goroutines that have not run `wg.Done()`.

The goroutines are the entries the loop has visited, in order, so no two of them were
started for the same entry. That is what makes the page part of the invariant go through:
each goroutine writes only its own entry, through the backing array that the `element` it
was passed shares with the page, and no other write touches that entry.
-/

namespace DpApiClients.Zebedee

variable {π : Type}

/-- The entry as its goroutine leaves it: with the title the goroutine wrote, once it has. -/
def FetchPhase.retitle (phase : FetchPhase) (e : Related) : Related :=
  phase.written?.elim e fun title => { e with title := title }

namespace Main

/-- One while the loop holds a slot of `sem` that it has not yet handed to a goroutine. -/
@[simp] def slot : Main → Nat
  | .spawn .. => 1
  | _ => 0

@[simp] def hasReturned : Main → Bool
  | .returned => true
  | _ => false

/-- The entries whose goroutines the loop has started. -/
def visited (page : DatasetLandingPage π) : Main → List (Nat × Nat)
  | .loop k i | .spawn k i _ => page.visitedBefore k i
  | .wait | .returned => page.entries

/-- Where the loop can be: inside the two ranges, or holding a slot for the entry it read. -/
def Valid (page : DatasetLandingPage π) : Main → Prop
  | .loop k i => k ≤ 4 ∧ i ≤ page.lengthOf k
  | .spawn k i e => page.entry k i = some e
  | .wait | .returned => True

theorem nodup_visited (page : DatasetLandingPage π) (main : Main) : (main.visited page).Nodup := by
  cases main <;> exact page.nodup_visitedBefore _ _

end Main

/-! ## One goroutine moves -/

namespace Fetch

variable {fetches : List Fetch} {j : Nat} {f : Fetch}

/-- How a count over the goroutines changes when goroutine `j` moves to `phase`. -/
theorem countP_set_phase (p : FetchPhase → Bool) (found : fetches[j]? = some f)
    (phase : FetchPhase) :
    (fetches.set j { f with phase := phase }).countP (fun f => p f.phase) +
        (if p f.phase then 1 else 0) =
      fetches.countP (fun f => p f.phase) + (if p phase then 1 else 0) := by
  obtain ⟨lt, rfl⟩ := List.getElem?_eq_some_iff.mp found
  have := List.boole_getElem_le_countP (fun f : Fetch => p f.phase) fetches j lt
  rw [List.countP_set _ _ _ _ lt]
  dsimp only
  omega

theorem countP_set_phase_of_eq (p : FetchPhase → Bool) (found : fetches[j]? = some f)
    (phase : FetchPhase) (same : p phase = p f.phase) :
    (fetches.set j { f with phase := phase }).countP (fun f => p f.phase) =
      fetches.countP (fun f => p f.phase) := by
  have := countP_set_phase p found phase
  rw [same] at this
  omega

theorem countP_set_phase_of_drop (p : FetchPhase → Bool) (found : fetches[j]? = some f)
    (phase : FetchPhase) (was : p f.phase = true) (now : p phase = false) :
    (fetches.set j { f with phase := phase }).countP (fun f => p f.phase) + 1 =
      fetches.countP (fun f => p f.phase) := by
  simpa [was, now] using countP_set_phase p found phase

/-- A goroutine's move leaves the entries of all goroutines as they were. -/
theorem map_entry_set_phase (found : fetches[j]? = some f) (phase : FetchPhase) :
    (fetches.set j { f with phase := phase }).map Fetch.entry = fetches.map Fetch.entry := by
  refine List.ext_getElem? fun j' => ?_
  rw [List.getElem?_map, List.getElem?_map, List.getElem?_set]
  split
  · subst_vars
    simp [found, (List.getElem?_eq_some_iff.mp found).1, Fetch.entry]
  · rfl

/-- After goroutine `j` moved, a goroutine is the moved one or another one, started for
another entry. -/
theorem mem_set_phase {f' : Fetch} {phase : FetchPhase}
    (nodup : (fetches.map Fetch.entry).Nodup) (found : fetches[j]? = some f)
    (mem : f' ∈ fetches.set j { f with phase := phase }) :
    f' = { f with phase := phase } ∨ (f' ∈ fetches ∧ f'.entry ≠ f.entry) := by
  obtain ⟨j', found'⟩ := List.mem_iff_getElem?.mp mem
  rw [List.getElem?_set] at found'
  split at found'
  · left
    split at found' <;> simp_all
  · refine .inr ⟨List.getElem?_mem found', fun same => ?_⟩
    have lt : j < (fetches.map Fetch.entry).length := by
      simpa using (List.getElem?_eq_some_iff.mp found).1
    have : j = j' := List.getElem?_inj lt nodup (by simp [found, found', same])
    contradiction

end Fetch

/-! ## The invariant -/

/-- What every state reachable from the decoded page `original` satisfies. -/
structure Invariant (original : DatasetLandingPage π) (s : State π) : Prop where
  valid : s.main.Valid original
  spawned : s.fetches.map Fetch.entry = s.main.visited original
  slots : s.sem = s.fetches.countP (fun f => f.phase.holdsSlot) + s.main.slot
  capped : s.sem ≤ workerCap
  waitGroup : s.wg = s.fetches.countP (fun f => !f.phase.isFinished)
  returned : s.main.hasReturned → s.wg = 0
  lengths : ∀ k, s.page.lengthOf k = original.lengthOf k
  rest : s.page.rest = original.rest
  /-- Each goroutine was passed the URI of the entry it was started for. -/
  uris : ∀ f ∈ s.fetches, (original.entry f.list f.index).map Related.uri = some f.uri
  /-- Each goroutine's entry carries the title the goroutine wrote, and nothing else changed. -/
  titles : ∀ f ∈ s.fetches,
    s.page.entry f.list f.index = (original.entry f.list f.index).map f.phase.retitle
  /-- An entry with no goroutine is as it was decoded. -/
  untouched : ∀ k i, (k, i) ∉ s.fetches.map Fetch.entry → s.page.entry k i = original.entry k i

theorem invariant_start (page : DatasetLandingPage π) : Invariant page (State.start page) where
  valid := ⟨by decide, Nat.zero_le _⟩
  spawned := by simp [State.start, Main.visited, DatasetLandingPage.visitedBefore]
  slots := rfl
  capped := Nat.zero_le _
  waitGroup := rfl
  returned := nofun
  lengths _ := rfl
  rest := rfl
  uris _ := nofun
  titles _ := nofun
  untouched _ _ _ := rfl

theorem Invariant.nodup {original : DatasetLandingPage π} {s : State π}
    (inv : Invariant original s) : (s.fetches.map Fetch.entry).Nodup :=
  inv.spawned ▸ Main.nodup_visited original s.main

section Move

variable {original : DatasetLandingPage π} {s : State π} {j : Nat} {f : Fetch} {phase : FetchPhase}

theorem FetchPhase.retitle_congr {phase phase' : FetchPhase}
    (same : phase.written? = phase'.written?) : phase.retitle = phase'.retitle := by
  funext e
  simp only [FetchPhase.retitle, same]

/-- A goroutine's move changes no goroutine's URI. -/
theorem Invariant.uris_set (inv : Invariant original s) (nodup : (s.fetches.map Fetch.entry).Nodup)
    (found : s.fetches[j]? = some f) :
    ∀ f' ∈ s.fetches.set j { f with phase := phase },
      (original.entry f'.list f'.index).map Related.uri = some f'.uri := fun f' mem => by
  rcases Fetch.mem_set_phase nodup found mem with rfl | ⟨mem, -⟩
  · exact inv.uris f (List.getElem?_mem found)
  · exact inv.uris f' mem

/-- A move that writes no title keeps every entry as its goroutine left it. -/
theorem Invariant.titles_set (inv : Invariant original s) (nodup : (s.fetches.map Fetch.entry).Nodup)
    (found : s.fetches[j]? = some f) (unwritten : phase.written? = f.phase.written?) :
    ∀ f' ∈ s.fetches.set j { f with phase := phase },
      s.page.entry f'.list f'.index = (original.entry f'.list f'.index).map f'.phase.retitle :=
  fun f' mem => by
  rcases Fetch.mem_set_phase nodup found mem with rfl | ⟨mem, -⟩
  · rw [inv.titles f (List.getElem?_mem found), FetchPhase.retitle_congr unwritten]
  · exact inv.titles f' mem

theorem Invariant.untouched_set (inv : Invariant original s) (found : s.fetches[j]? = some f) :
    ∀ k i, (k, i) ∉ (s.fetches.set j { f with phase := phase }).map Fetch.entry →
      s.page.entry k i = original.entry k i := by
  rw [Fetch.map_entry_set_phase found]
  exact inv.untouched

end Move

theorem Invariant.step {original : DatasetLandingPage π} {s s' : State π}
    (inv : Invariant original s) (step : Step s s') : Invariant original s' := by
  have nodup := inv.nodup
  obtain ⟨page, main, sem, wg, fetches⟩ := s
  cases step <;> dsimp only at * <;> subst_vars
  case nextList k i more past =>
    have ⟨_, inRange⟩ : k ≤ 4 ∧ i ≤ original.lengthOf k := inv.valid
    have lengths : page.lengthOf k = original.lengthOf k := inv.lengths k
    have spawned : fetches.map Fetch.entry = original.visitedBefore k i := inv.spawned
    have atEnd : i = original.lengthOf k := by omega
    exact { inv with
      valid := ⟨more, Nat.zero_le _⟩
      spawned := spawned.trans (by rw [atEnd, ← original.visitedBefore_next]; rfl) }
  case endLoop k i past =>
    have ⟨_, inRange⟩ : k ≤ 4 ∧ i ≤ original.lengthOf k := inv.valid
    obtain rfl : k = 4 := by omega
    obtain rfl : i = 0 := by simpa using inRange
    exact { inv with valid := trivial }
  case acquire k i e entry room =>
    have spawned : fetches.map Fetch.entry = original.visitedBefore k i := inv.spawned
    have fresh := original.not_mem_visitedBefore_self k i
    rw [← spawned] at fresh
    exact { inv with
      valid := (inv.untouched k i fresh).symm.trans entry
      slots := congrArg (· + 1) inv.slots
      capped := room }
  case spawn k i e =>
    have valid : original.entry k i = some e := inv.valid
    have spawned : fetches.map Fetch.entry = original.visitedBefore k i := inv.spawned
    have fresh := original.not_mem_visitedBefore_self k i
    rw [← spawned] at fresh
    have ⟨_, _⟩ := DatasetLandingPage.lt_of_entry_eq_some valid
    have slots : sem = fetches.countP (fun f => f.phase.holdsSlot) + 1 := inv.slots
    have waitGroup : wg = fetches.countP (fun f => !f.phase.isFinished) := inv.waitGroup
    exact { inv with
      valid := ⟨by omega, by omega⟩
      spawned := by
        rw [List.map_append, spawned]
        exact (original.visitedBefore_succ k i).symm
      slots := by simp [slots]
      waitGroup := by simp [waitGroup]
      returned := nofun
      uris := by
        simp only [List.mem_append, List.mem_singleton]
        rintro f (mem | rfl)
        · exact inv.uris f mem
        · simp [valid]
      titles := by
        simp only [List.mem_append, List.mem_singleton]
        rintro f (mem | rfl)
        · exact inv.titles f mem
        · rw [inv.untouched k i fresh]
          cases original.entry k i <;> rfl
      untouched := fun k' i' unvisited =>
        inv.untouched k' i' fun mem => unvisited (by simp [List.map_append, mem]) }
  case fetch j f title found calling =>
    have slots := Fetch.countP_set_phase_of_eq (·.holdsSlot) found (.fetched title) (by simp [calling])
    have counted :=
      Fetch.countP_set_phase_of_eq (!·.isFinished) found (.fetched title) (by simp [calling])
    exact { inv with
      spawned := (Fetch.map_entry_set_phase found _).trans inv.spawned
      slots := slots ▸ inv.slots
      waitGroup := counted ▸ inv.waitGroup
      uris := inv.uris_set nodup found
      titles := inv.titles_set nodup found (by simp [calling])
      untouched := inv.untouched_set found }
  case write j f title found fetched =>
    have slots := Fetch.countP_set_phase_of_eq (·.holdsSlot) found (.written title) (by simp [fetched])
    have counted :=
      Fetch.countP_set_phase_of_eq (!·.isFinished) found (.written title) (by simp [fetched])
    have mem := List.getElem?_mem found
    exact { inv with
      spawned := (Fetch.map_entry_set_phase found _).trans inv.spawned
      slots := slots ▸ inv.slots
      waitGroup := counted ▸ inv.waitGroup
      lengths := fun k => (page.lengthOf_setTitle _ _ _ k).trans (inv.lengths k)
      rest := (page.rest_setTitle _ _ _).trans inv.rest
      uris := inv.uris_set nodup found
      titles := fun f' mem' => by
        rcases Fetch.mem_set_phase nodup found mem' with rfl | ⟨mem', other⟩
        · rw [page.entry_setTitle, if_pos rfl, inv.titles f mem, fetched]
          cases original.entry f.list f.index <;> rfl
        · rw [page.entry_setTitle, if_neg fun same => other same.symm, inv.titles f' mem']
      untouched := fun k i unvisited => by
        rw [Fetch.map_entry_set_phase found] at unvisited
        have other : (f.list, f.index) ≠ (k, i) := fun same =>
          unvisited (same ▸ List.mem_map_of_mem Fetch.entry mem)
        rw [page.entry_setTitle, if_neg other, inv.untouched k i unvisited] }
  case release j f title found written held =>
    have slots := Fetch.countP_set_phase_of_drop (·.holdsSlot) found (.released title)
      (by simp [written]) rfl
    have counted :=
      Fetch.countP_set_phase_of_eq (!·.isFinished) found (.released title) (by simp [written])
    have held : sem = fetches.countP (fun f => f.phase.holdsSlot) + main.slot := inv.slots
    have capped : sem ≤ workerCap := inv.capped
    dsimp only at slots
    exact { inv with
      spawned := (Fetch.map_entry_set_phase found _).trans inv.spawned
      slots := by dsimp only; omega
      capped := by dsimp only; omega
      waitGroup := counted ▸ inv.waitGroup
      uris := inv.uris_set nodup found
      titles := inv.titles_set nodup found (by simp [written])
      untouched := inv.untouched_set found }
  case finish j f title found released =>
    have slots := Fetch.countP_set_phase_of_eq (·.holdsSlot) found (.finished title)
      (by simp [released])
    have counted := Fetch.countP_set_phase_of_drop (!·.isFinished) found (.finished title)
      (by simp [released]) rfl
    have waitGroup : wg = fetches.countP (fun f => !f.phase.isFinished) := inv.waitGroup
    dsimp only at counted
    exact { inv with
      spawned := (Fetch.map_entry_set_phase found _).trans inv.spawned
      slots := slots ▸ inv.slots
      waitGroup := by dsimp only; omega
      returned := fun returned => by have : wg = 0 := inv.returned returned; dsimp only; omega
      uris := inv.uris_set nodup found
      titles := inv.titles_set nodup found (by simp [released])
      untouched := inv.untouched_set found }
  case wgWait => exact { inv with returned := fun _ => rfl }

theorem Invariant.of_reachable {original : DatasetLandingPage π} {s : State π}
    (reachable : Reachable original s) : Invariant original s := by
  induction reachable with
  | refl => exact invariant_start original
  | tail _ step ih => exact ih.step step

/-- Once `wg.Wait()` has returned, every goroutine has run `wg.Done()`. -/
theorem Invariant.finished_of_returned {original : DatasetLandingPage π} {s : State π}
    (inv : Invariant original s) (returned : s.main = .returned) :
    ∀ f ∈ s.fetches, f.phase.isFinished = true := by
  have zero := inv.returned (by rw [returned]; rfl)
  rw [inv.waitGroup, List.countP_eq_zero] at zero
  simpa using zero

/-! ## The bound on the goroutines in flight -/

/-- At every reachable point of `GetDatasetLandingPage`, at most `workerCap` goroutines are
between their start and their deferred `<-sem`, so at most `workerCap` calls of
`GetPageTitle` are in flight: every such goroutine holds one of the values buffered in `sem`. -/
theorem fetches_in_flight_le_workerCap (page : DatasetLandingPage π) (s : State π)
    (reachable : Reachable page s) :
    s.fetches.countP (fun f => f.phase.inCall) ≤ s.fetches.countP (fun f => f.phase.holdsSlot) ∧
      s.fetches.countP (fun f => f.phase.holdsSlot) ≤ workerCap := by
  have inv := Invariant.of_reachable reachable
  refine ⟨List.countP_mono_left fun f _ => FetchPhase.holdsSlot_of_inCall, ?_⟩
  have slots := inv.slots
  have capped := inv.capped
  omega

/-- A page with eleven related datasets, one more than `sem` has room for. -/
def elevenDatasets : DatasetLandingPage Unit where
  relatedDatasets := List.replicate 11 ⟨"", "/datasets/d"⟩
  relatedDocuments := []
  relatedMethodology := []
  relatedMethodologyArticle := []
  rest := ()

/-- `fetches_in_flight_le_workerCap` after the loop has started ten goroutines for
`elevenDatasets`: ten calls are in flight, and `sem` is full, so the eleventh `sem <- 1`
waits. -/
theorem elevenDatasets_ten_in_flight :
    ∃ s, Reachable elevenDatasets s ∧ s.sem = workerCap ∧
      s.fetches.countP (fun f => f.phase.inCall) = workerCap ∧
      s.fetches.countP (fun f => f.phase.inCall) ≤ s.fetches.countP (fun f => f.phase.holdsSlot) ∧
      s.fetches.countP (fun f => f.phase.holdsSlot) ≤ workerCap := by
  have reachable : Reachable elevenDatasets _ :=
    .head (Step.acquire rfl rfl (by decide)) <| .head (Step.spawn rfl) <|
    .head (Step.acquire rfl rfl (by decide)) <| .head (Step.spawn rfl) <|
    .head (Step.acquire rfl rfl (by decide)) <| .head (Step.spawn rfl) <|
    .head (Step.acquire rfl rfl (by decide)) <| .head (Step.spawn rfl) <|
    .head (Step.acquire rfl rfl (by decide)) <| .head (Step.spawn rfl) <|
    .head (Step.acquire rfl rfl (by decide)) <| .head (Step.spawn rfl) <|
    .head (Step.acquire rfl rfl (by decide)) <| .head (Step.spawn rfl) <|
    .head (Step.acquire rfl rfl (by decide)) <| .head (Step.spawn rfl) <|
    .head (Step.acquire rfl rfl (by decide)) <| .head (Step.spawn rfl) <|
    .head (Step.acquire rfl rfl (by decide)) <| .head (Step.spawn rfl) .refl
  exact ⟨_, reachable, rfl, rfl, fetches_in_flight_le_workerCap elevenDatasets _ reachable⟩

end DpApiClients.Zebedee
