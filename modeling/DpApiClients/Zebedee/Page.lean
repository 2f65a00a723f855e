import Mathlib.Data.List.Nodup

/-!
# The related-page lists of a `DatasetLandingPage`

`GetDatasetLandingPage` builds `related`, a slice of the four related-page slices of the
decoded page. Copying a slice copies its header, not its backing array, so a goroutine's
`element[i].Title = t.Title` writes into the page that `GetDatasetLandingPage` returns.
`setTitle` is that write, seen from the page.

The two `range` loops visit the entries list by list and index by index; `visitedBefore k i`
is the list of the entries visited before entry `i` of `related[k]`, and `entries` is all of
them. Everything else in the page is `rest`, which the fan-out never touches.
-/

namespace DpApiClients.Zebedee

/-- A related-page entry (`Related`). -/
structure Related where
  title : String
  uri : String
  deriving DecidableEq, Repr

/-- A decoded `DatasetLandingPage`: its four related-page lists and the rest of the page. -/
structure DatasetLandingPage (π : Type) where
  relatedDatasets : List Related
  relatedDocuments : List Related
  relatedMethodology : List Related
  relatedMethodologyArticle : List Related
  rest : π

namespace DatasetLandingPage

variable {π : Type}

/-- `related` in `GetDatasetLandingPage`: the four slices, sharing their backing arrays with
the page's fields. -/
def related (page : DatasetLandingPage π) : List (List Related) :=
  [page.relatedDatasets, page.relatedDocuments, page.relatedMethodology,
    page.relatedMethodologyArticle]

/-- `len(related[k])`, and zero past the four lists. -/
def lengthOf (page : DatasetLandingPage π) (k : Nat) : Nat :=
  ((page.related[k]?).getD []).length

/-- `related[k][i]`, if there is one. -/
def entry (page : DatasetLandingPage π) (k i : Nat) : Option Related :=
  page.related[k]?.bind (·[i]?)

/-- `element[i].Title = title` for `element = related[k]`, written through the backing array
that `related[k]` shares with the page. -/
def setTitle (page : DatasetLandingPage π) (k i : Nat) (title : String) :
    DatasetLandingPage π :=
  let retitle := List.modify (fun entry => { entry with title := title }) i
  match k with
  | 0 => { page with relatedDatasets := retitle page.relatedDatasets }
  | 1 => { page with relatedDocuments := retitle page.relatedDocuments }
  | 2 => { page with relatedMethodology := retitle page.relatedMethodology }
  | 3 => { page with relatedMethodologyArticle := retitle page.relatedMethodologyArticle }
  | _ => page

/-- The page with the title of entry `i` of `related[k]` replaced by `titles k i`. -/
def retitle (page : DatasetLandingPage π) (titles : Nat → Nat → String) :
    DatasetLandingPage π where
  relatedDatasets := page.relatedDatasets.mapIdx fun i entry => { entry with title := titles 0 i }
  relatedDocuments := page.relatedDocuments.mapIdx fun i entry => { entry with title := titles 1 i }
  relatedMethodology :=
    page.relatedMethodology.mapIdx fun i entry => { entry with title := titles 2 i }
  relatedMethodologyArticle :=
    page.relatedMethodologyArticle.mapIdx fun i entry => { entry with title := titles 3 i }
  rest := page.rest

/-- The entries the two `range` loops visit before entry `i` of `related[k]`, in order. -/
def visitedBefore (page : DatasetLandingPage π) (k i : Nat) : List (Nat × Nat) :=
  (List.range k).flatMap (fun list => (List.range (page.lengthOf list)).map (list, ·)) ++
    (List.range i).map (k, ·)

/-- Every entry of the four lists, in the order the loops visit them. -/
def entries (page : DatasetLandingPage π) : List (Nat × Nat) :=
  page.visitedBefore 4 0

@[simp] theorem lengthOf_four (page : DatasetLandingPage π) : page.lengthOf 4 = 0 := rfl

theorem lengthOf_setTitle (page : DatasetLandingPage π) (k i : Nat) (title : String) (list : Nat) :
    (page.setTitle k i title).lengthOf list = page.lengthOf list := by
  rcases k with _ | _ | _ | _ | k <;> rcases list with _ | _ | _ | _ | list <;>
    simp [setTitle, lengthOf, related]

@[simp] theorem rest_setTitle (page : DatasetLandingPage π) (k i : Nat) (title : String) :
    (page.setTitle k i title).rest = page.rest := by
  rcases k with _ | _ | _ | _ | k <;> rfl

/-- The write changes the title of its own entry and nothing else. -/
theorem entry_setTitle (page : DatasetLandingPage π) (k i : Nat) (title : String) (k' i' : Nat) :
    (page.setTitle k i title).entry k' i' =
      if (k, i) = (k', i') then (page.entry k i).map fun entry => { entry with title := title }
      else page.entry k' i' := by
  by_cases same : (k, i) = (k', i')
  · obtain ⟨rfl, rfl⟩ := Prod.mk.inj same
    rcases k with _ | _ | _ | _ | k <;> simp [setTitle, entry, related, List.getElem?_modify]
  · rw [if_neg same]
    rcases k with _ | _ | _ | _ | k <;> rcases k' with _ | _ | _ | _ | k' <;>
      simp_all [setTitle, entry, related, List.getElem?_modify]

theorem entry_retitle (page : DatasetLandingPage π) (titles : Nat → Nat → String) (k i : Nat) :
    (page.retitle titles).entry k i =
      (page.entry k i).map fun entry => { entry with title := titles k i } := by
  rcases k with _ | _ | _ | _ | k <;> simp [retitle, entry, related, List.getElem?_mapIdx]

/-- Two pages with the same entries and the same rest are equal. -/
theorem ext_entry {page page' : DatasetLandingPage π} (entries : ∀ k i, page.entry k i = page'.entry k i)
    (rest : page.rest = page'.rest) : page = page' := by
  obtain ⟨datasets, documents, methodology, articles, _⟩ := page
  obtain ⟨datasets', documents', methodology', articles', _⟩ := page'
  exact mk.injEq .. ▸ ⟨List.ext_getElem? (entries 0), List.ext_getElem? (entries 1),
    List.ext_getElem? (entries 2), List.ext_getElem? (entries 3), rest⟩

theorem lt_of_entry_eq_some {page : DatasetLandingPage π} {k i : Nat} {found : Related}
    (entry : page.entry k i = some found) : k < 4 ∧ i < page.lengthOf k := by
  rcases k with _ | _ | _ | _ | k <;> simp [DatasetLandingPage.entry, related, lengthOf] at entry ⊢ <;>
    exact (List.getElem?_eq_some_iff.mp entry).1

theorem exists_entry_of_lt {page : DatasetLandingPage π} {k i : Nat} (more : k < 4)
    (inList : i < page.lengthOf k) : ∃ found, page.entry k i = some found := by
  rcases k with _ | _ | _ | _ | k
  all_goals simp only [DatasetLandingPage.entry, lengthOf, related] at inList ⊢
  all_goals first | omega | exact ⟨_, List.getElem?_eq_getElem (by simpa using inList)⟩

@[simp] theorem visitedBefore_zero (page : DatasetLandingPage π) (k : Nat) :
    page.visitedBefore k 0 =
      (List.range k).flatMap fun list => (List.range (page.lengthOf list)).map (list, ·) := by
  simp [visitedBefore]

theorem visitedBefore_succ (page : DatasetLandingPage π) (k i : Nat) :
    page.visitedBefore k (i + 1) = page.visitedBefore k i ++ [(k, i)] := by
  simp [visitedBefore, List.range_succ]

theorem visitedBefore_next (page : DatasetLandingPage π) (k : Nat) :
    page.visitedBefore (k + 1) 0 = page.visitedBefore k (page.lengthOf k) := by
  simp [visitedBefore, List.range_succ]

theorem mem_visitedBefore {page : DatasetLandingPage π} {k i list index : Nat} :
    (list, index) ∈ page.visitedBefore k i ↔
      (list < k ∧ index < page.lengthOf list) ∨ (list = k ∧ index < i) := by
  simp only [visitedBefore, List.mem_append, List.mem_flatMap, List.mem_range, List.mem_map,
    Prod.mk.injEq]
  constructor
  · rintro (⟨list, below, index, inList, rfl, rfl⟩ | ⟨index, inList, rfl, rfl⟩)
    · exact .inl ⟨below, inList⟩
    · exact .inr ⟨rfl, inList⟩
  · rintro (⟨below, inList⟩ | ⟨rfl, inList⟩)
    · exact .inl ⟨list, below, index, inList, rfl, rfl⟩
    · exact .inr ⟨index, inList, rfl, rfl⟩

/-- The loops have not visited the entry they are at. -/
theorem not_mem_visitedBefore_self (page : DatasetLandingPage π) (k i : Nat) :
    (k, i) ∉ page.visitedBefore k i := by
  simp [mem_visitedBefore]

/-- The loops visit every entry of the page. -/
theorem mem_entries {page : DatasetLandingPage π} {k i : Nat} {found : Related}
    (entry : page.entry k i = some found) : (k, i) ∈ page.entries :=
  mem_visitedBefore.mpr (.inl (lt_of_entry_eq_some entry))

/-- The loops visit no entry twice. -/
theorem nodup_visitedBefore (page : DatasetLandingPage π) (k i : Nat) :
    (page.visitedBefore k i).Nodup := by
  have pairs : ∀ list n, ((List.range n).map ((list, ·) : Nat → Nat × Nat)).Nodup :=
    fun list n => (List.nodup_range n).map fun _ _ same => (Prod.mk.inj same).2
  refine List.Nodup.append ?_ (pairs k i) ?_
  · refine List.nodup_flatMap.mpr ⟨fun list _ => pairs list _, ?_⟩
    refine (List.pairwise_lt_range k).imp fun {a b} lt => ?_
    intro entry memA memB
    simp only [List.mem_map] at memA memB
    obtain ⟨_, -, rfl⟩ := memA
    obtain ⟨_, -, same⟩ := memB
    exact absurd (Prod.mk.inj same).1 (Nat.ne_of_gt lt)
  · intro entry memBefore memCurrent
    simp only [List.mem_flatMap, List.mem_range, List.mem_map] at memBefore memCurrent
    obtain ⟨list, below, _, -, rfl⟩ := memBefore
    obtain ⟨_, -, same⟩ := memCurrent
    exact absurd (Prod.mk.inj same).1 (Nat.ne_of_gt below)

end DatasetLandingPage

end DpApiClients.Zebedee
