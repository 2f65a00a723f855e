import DpApiClients.Zebedee.Invariant

/-!
# The page `GetDatasetLandingPage` returns

Once `wg.Wait()` has returned, the wait group is zero, so every goroutine has run
`wg.Done()`, and the loop has visited every entry, so there is one goroutine per entry. The
`titles` field of `Invariant` then says what the returned page is: the decoded page with the
title of each entry replaced by the title that its own goroutine's `GetPageTitle` returned.
-/

namespace DpApiClients.Zebedee

variable {π : Type}

/-- The title the goroutine started for entry `i` of `related[k]` wrote, if one did. -/
def State.fetchedTitle (s : State π) (k i : Nat) : String :=
  ((s.fetches.find? (·.entry == (k, i))).bind (·.phase.written?)).getD ""

/-- With one goroutine per entry, an entry's fetched title is its goroutine's. -/
theorem State.fetchedTitle_of_mem {s : State π} {f : Fetch} {title : String}
    (nodup : (s.fetches.map Fetch.entry).Nodup) (mem : f ∈ s.fetches)
    (written : f.phase.written? = some title) : s.fetchedTitle f.list f.index = title := by
  obtain ⟨f', found⟩ : ∃ f', s.fetches.find? (·.entry == (f.list, f.index)) = some f' :=
    Option.isSome_iff_exists.mp (List.find?_isSome.mpr ⟨f, mem, by simp [Fetch.entry]⟩)
  have same : f' = f := List.inj_on_of_nodup_map nodup (List.mem_of_find?_eq_some found) mem
    (by simpa using List.find?_some found)
  simp only [fetchedTitle, found, same, Option.some_bind, written, Option.getD_some]

/-- `GetDatasetLandingPage` returns only after every goroutine has finished. It started
exactly one goroutine per entry of the four lists, in the order of the two loops, and passed
it the entry's own URI. The page it returns is the decoded page with the title of each entry
replaced by the title that entry's goroutine got from `GetPageTitle`, and nothing else
changed. -/
theorem getDatasetLandingPage_retitles_entries (page : DatasetLandingPage π) (s : State π)
    (reachable : Reachable page s) (returned : s.main = .returned) :
    s.fetches.map Fetch.entry = page.entries ∧
      (∀ f ∈ s.fetches, (page.entry f.list f.index).map Related.uri = some f.uri) ∧
      ∃ titles : Nat → Nat → String,
        (∀ f ∈ s.fetches, f.phase = .finished (titles f.list f.index)) ∧
          s.page = page.retitle titles := by
  have inv := Invariant.of_reachable reachable
  have spawned : s.fetches.map Fetch.entry = page.entries := inv.spawned.trans (by rw [returned]; rfl)
  have finished : ∀ f ∈ s.fetches, f.phase = .finished (s.fetchedTitle f.list f.index) :=
    fun f mem => by
    have isFinished := inv.finished_of_returned returned f mem
    cases phase : f.phase <;> simp only [phase, FetchPhase.isFinished, Bool.false_eq_true] at isFinished
    case finished title =>
      have fetched : s.fetchedTitle f.list f.index = title :=
        State.fetchedTitle_of_mem inv.nodup mem (by simp [phase])
      rw [fetched]
  refine ⟨spawned, inv.uris, s.fetchedTitle, finished, DatasetLandingPage.ext_entry (fun k i => ?_) inv.rest⟩
  rw [DatasetLandingPage.entry_retitle]
  by_cases visited : (k, i) ∈ s.fetches.map Fetch.entry
  · obtain ⟨f, mem, same⟩ := List.mem_map.mp visited
    obtain ⟨rfl, rfl⟩ := Prod.mk.inj same
    rw [inv.titles f mem, finished f mem]
    rfl
  · have unvisited : page.entry k i = none := by
      cases entry : page.entry k i with
      | none => rfl
      | some found => exact absurd (spawned ▸ DatasetLandingPage.mem_entries entry) visited
    rw [inv.untouched k i visited, unvisited]
    rfl

/-- A page with one related dataset and one related document. -/
def twoRelated : DatasetLandingPage Unit where
  relatedDatasets := [⟨"", "/datasets/a"⟩]
  relatedDocuments := [⟨"", "/documents/b"⟩]
  relatedMethodology := []
  relatedMethodologyArticle := []
  rest := ()

/-- `getDatasetLandingPage_retitles_entries` at the end of a run on `twoRelated`, in which
the two `GetPageTitle` calls return `A` and `B`. -/
theorem twoRelated_retitled :
    ∃ s, Reachable twoRelated s ∧ s.main = .returned ∧
      s.page.relatedDatasets = [⟨"A", "/datasets/a"⟩] ∧
      s.page.relatedDocuments = [⟨"B", "/documents/b"⟩] ∧
      s.fetches.map Fetch.entry = twoRelated.entries ∧
      (∀ f ∈ s.fetches, (twoRelated.entry f.list f.index).map Related.uri = some f.uri) ∧
      ∃ titles : Nat → Nat → String,
        (∀ f ∈ s.fetches, f.phase = .finished (titles f.list f.index)) ∧
          s.page = twoRelated.retitle titles := by
  have reachable : Reachable twoRelated _ :=
    .head (Step.acquire rfl rfl (by decide)) <| .head (Step.spawn rfl) <|
    .head (@Step.fetch _ _ 0 _ "A" rfl rfl) <| .head (@Step.write _ _ 0 _ _ rfl rfl) <|
    .head (@Step.release _ _ 0 _ _ rfl rfl (by decide)) <| .head (@Step.finish _ _ 0 _ _ rfl rfl) <|
    .head (Step.nextList rfl (by decide) (by decide)) <|
    .head (Step.acquire rfl rfl (by decide)) <| .head (Step.spawn rfl) <|
    .head (@Step.fetch _ _ 1 _ "B" rfl rfl) <| .head (@Step.write _ _ 1 _ _ rfl rfl) <|
    .head (@Step.release _ _ 1 _ _ rfl rfl (by decide)) <| .head (@Step.finish _ _ 1 _ _ rfl rfl) <|
    .head (Step.nextList rfl (by decide) (by decide)) <|
    .head (Step.nextList rfl (by decide) (by decide)) <|
    .head (Step.nextList rfl (by decide) (by decide)) <|
    .head (Step.endLoop rfl (by decide)) <| .head (Step.wgWait rfl rfl) .refl
  exact ⟨_, reachable, rfl, rfl, rfl,
    getDatasetLandingPage_retitles_entries twoRelated _ reachable rfl⟩

end DpApiClients.Zebedee
