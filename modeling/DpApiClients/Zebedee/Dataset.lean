import DpApiClients.Zebedee.Request

/-!
# The file sizes of a dataset

After it has decoded a dataset page, `GetDataset` asks zebedee, through `GetFileSize`, for the
size of each of the page's downloads at `uri/<file>`, then for the size of each of its
supplementary files. Each of the two loops appends a sized copy of each entry, its size written
by `strconv.Itoa`, to a slice made with `make`, and the slice replaces the page's list only when
the loop has finished. The first `GetFileSize` that fails ends `GetDataset`, which returns the page
as it is at that point with the error.

`sizeFiles` is that loop, for either list: what it appends is the one thing the two loops do
differently. `sizeFiles_ok` and `sizeFiles_error` say what a run of it gives: every entry sized in
order, or the error of the first entry whose size could not be fetched. From them,
`getDataset_sized` says that a `GetDataset` with no error returns both lists non-nil and fully
sized, and `getDataset_error` that on an error each list is either exactly as decoded or fully
sized, never partly: the downloads are sized exactly when the error comes from a supplementary
file.

The outcome of each `GetFileSize` is a parameter, any function of the URI asked for, as the
title fetch is in the fan-out of `GetDatasetLandingPage`. The decoding of the page and the other
fields of `Dataset`, which `GetDataset` does not touch, are outside the model.
-/

namespace DpApiClients.Zebedee

/-- `Download`, with the fields `GetDataset` writes. -/
structure Download where
  file : List UInt8
  size : List UInt8
  deriving DecidableEq, Repr

/-- `SupplementaryFile`, with the fields `GetDataset` writes. -/
structure SupplementaryFile where
  file : List UInt8
  title : List UInt8
  size : List UInt8
  deriving DecidableEq, Repr

/-- The lists of a decoded `Dataset` that `GetDataset` rewrites; a nil slice is `none`. -/
structure Dataset where
  downloads : Option (List Download)
  supplementaryFiles : Option (List SupplementaryFile)
  deriving DecidableEq, Repr

section Loop

variable {ε α : Type} (getFileSize : List UInt8 → Except ε Int) (uri : List UInt8)
  (file : α → List UInt8) (sized : α → List UInt8 → α)

/-- One loop of `GetDataset`: for each entry `v`, `GetFileSize(uri+"/"+file v)`, then append
`sized v (strconv.Itoa(fs.Size))` to `acc`; the first error is returned. -/
def sizeFiles : List α → List α → Except ε (List α)
  | acc, [] => .ok acc
  | acc, v :: rest =>
    match getFileSize (uri ++ '/'.toUInt8 :: file v) with
    | .error err => .error err
    | .ok size => sizeFiles (acc ++ [sized v (ascii (toString size))]) rest

/-- `w` is `v` sized with what zebedee gave for `v`'s file. -/
def SizedAs (v w : α) : Prop :=
  ∃ n, getFileSize (uri ++ '/'.toUInt8 :: file v) = .ok n ∧ w = sized v (ascii (toString n))

/-- `err` is the error of the first entry of `vs` whose size could not be fetched. -/
def FirstFailure (vs : List α) (err : ε) : Prop :=
  ∃ pre v post, vs = pre ++ v :: post ∧
    (∀ w ∈ pre, ∃ n, getFileSize (uri ++ '/'.toUInt8 :: file w) = .ok n) ∧
    getFileSize (uri ++ '/'.toUInt8 :: file v) = .error err

/-- A run of the loop that returns a slice returns what it started with followed by every entry
sized, in order. -/
theorem sizeFiles_ok {acc out : List α} :
    ∀ {vs : List α}, sizeFiles getFileSize uri file sized acc vs = .ok out →
      ∃ ws, out = acc ++ ws ∧ List.Forall₂ (SizedAs getFileSize uri file sized) vs ws
  | [], done => ⟨[], by cases done; simp, .nil⟩
  | v :: rest, done => by
    unfold sizeFiles at done
    split at done
    · cases done
    · rename_i size fetched
      obtain ⟨ws, rfl, all⟩ := sizeFiles_ok done
      exact ⟨_ :: ws, by simp, .cons ⟨size, fetched, rfl⟩ all⟩

/-- A run of the loop that fails returns the error of the first entry whose size could not be
fetched. -/
theorem sizeFiles_error {acc : List α} {err : ε} :
    ∀ {vs : List α}, sizeFiles getFileSize uri file sized acc vs = .error err →
      FirstFailure getFileSize uri file vs err
  | [], failed => by cases failed
  | v :: rest, failed => by
    unfold sizeFiles at failed
    split at failed
    · rename_i e fetched
      cases failed
      exact ⟨[], v, rest, rfl, by simp, fetched⟩
    · rename_i size fetched
      obtain ⟨pre, w, post, rfl, before, failure⟩ := sizeFiles_error failed
      refine ⟨v :: pre, w, post, rfl, fun u mem => ?_, failure⟩
      rcases List.mem_cons.mp mem with rfl | mem
      exacts [⟨size, fetched⟩, before u mem]

/-- The loop returns a slice exactly when the size of every entry's file is fetched. -/
theorem sizeFiles_isOk (acc : List α) :
    ∀ vs : List α, (sizeFiles getFileSize uri file sized acc vs).isOk ↔
      ∀ v ∈ vs, ∃ n, getFileSize (uri ++ '/'.toUInt8 :: file v) = .ok n
  | [] => by simp [sizeFiles, Except.isOk, Except.toBool]
  | v :: rest => by
    unfold sizeFiles
    cases fetched : getFileSize (uri ++ '/'.toUInt8 :: file v) with
    | error e => simp [fetched, Except.isOk, Except.toBool]
    | ok size => simp [sizeFiles_isOk _ rest, fetched]

end Loop

section GetDataset

variable {ε : Type} (getFileSize : List UInt8 → Except ε Int) (uri : List UInt8)

/-- `GetDataset` once the page is decoded into `d`. -/
def getDataset (d : Dataset) : Dataset × Option ε :=
  match sizeFiles getFileSize uri Download.file (fun v size => ⟨v.file, size⟩) []
      (d.downloads.getD []) with
  | .error err => (d, some err)
  | .ok downloads =>
    let d := { d with downloads := some downloads }
    match sizeFiles getFileSize uri SupplementaryFile.file
        (fun v size => ⟨v.file, v.title, size⟩) [] (d.supplementaryFiles.getD []) with
    | .error err => (d, some err)
    | .ok supplementaryFiles => ({ d with supplementaryFiles := some supplementaryFiles }, none)

variable {d d' : Dataset}

/-- A `GetDataset` with no error returns both lists non-nil, with the same entries in the same
order, each sized with what zebedee gave for its file. -/
theorem getDataset_sized (done : getDataset getFileSize uri d = (d', none)) :
    ∃ downloads supplementaryFiles, d' = ⟨some downloads, some supplementaryFiles⟩ ∧
      List.Forall₂ (SizedAs getFileSize uri Download.file fun v size => ⟨v.file, size⟩)
        (d.downloads.getD []) downloads ∧
      List.Forall₂
        (SizedAs getFileSize uri SupplementaryFile.file fun v size => ⟨v.file, v.title, size⟩)
        (d.supplementaryFiles.getD []) supplementaryFiles := by
  unfold getDataset at done
  split at done
  · cases done
  · rename_i downloads sizedDownloads
    dsimp only at done
    split at done
    · cases done
    · rename_i supplementaryFiles sizedFiles
      cases done
      obtain ⟨_, rfl, allDownloads⟩ := sizeFiles_ok _ _ _ _ sizedDownloads
      obtain ⟨_, rfl, allFiles⟩ := sizeFiles_ok _ _ _ _ sizedFiles
      exact ⟨_, _, rfl, allDownloads, allFiles⟩

/-- A page at `/ds` with the download `data.csv` and the supplementary file `notes.pdf`. -/
def samplePage : Dataset :=
  ⟨some [⟨ascii "data.csv", []⟩], some [⟨ascii "notes.pdf", ascii "Notes", []⟩]⟩

/-- A zebedee that knows the size of `/ds/data.csv` only, or of every file when `all` is set. -/
def knownSizes (all : Bool) (uri : List UInt8) : Except String Int :=
  if all || uri = ascii "/ds/data.csv" then .ok 1024 else .error "not found"

theorem sample_page_sized :
    getDataset (knownSizes true) (ascii "/ds") samplePage =
        (⟨some [⟨ascii "data.csv", ascii "1024"⟩],
          some [⟨ascii "notes.pdf", ascii "Notes", ascii "1024"⟩]⟩, none) ∧
      ∃ downloads supplementaryFiles,
        (⟨some [⟨ascii "data.csv", ascii "1024"⟩],
          some [⟨ascii "notes.pdf", ascii "Notes", ascii "1024"⟩]⟩ : Dataset) =
          ⟨some downloads, some supplementaryFiles⟩ ∧
        List.Forall₂ (SizedAs (knownSizes true) (ascii "/ds") Download.file
          fun v size => ⟨v.file, size⟩) (samplePage.downloads.getD []) downloads ∧
        List.Forall₂ (SizedAs (knownSizes true) (ascii "/ds") SupplementaryFile.file
          fun v size => ⟨v.file, v.title, size⟩) (samplePage.supplementaryFiles.getD [])
          supplementaryFiles :=
  ⟨rfl, getDataset_sized _ _ rfl⟩

/-- On an error, each list of the dataset `GetDataset` returns is either exactly as decoded or
fully sized: the downloads are left as decoded when the error is the first failure among them,
and are fully sized, with the supplementary files left as decoded, when it is the first failure
among the supplementary files. -/
theorem getDataset_error {err : ε} (failed : getDataset getFileSize uri d = (d', some err)) :
    (d' = d ∧ FirstFailure getFileSize uri Download.file (d.downloads.getD []) err) ∨
      ∃ downloads, d' = ⟨some downloads, d.supplementaryFiles⟩ ∧
        List.Forall₂ (SizedAs getFileSize uri Download.file fun v size => ⟨v.file, size⟩)
          (d.downloads.getD []) downloads ∧
        FirstFailure getFileSize uri SupplementaryFile.file (d.supplementaryFiles.getD []) err := by
  unfold getDataset at failed
  split at failed
  · rename_i e failedDownloads
    cases failed
    exact .inl ⟨rfl, sizeFiles_error _ _ _ _ failedDownloads⟩
  · rename_i downloads sizedDownloads
    dsimp only at failed
    split at failed
    · rename_i e failedFiles
      cases failed
      obtain ⟨_, rfl, allDownloads⟩ := sizeFiles_ok _ _ _ _ sizedDownloads
      exact .inr ⟨_, rfl, allDownloads, sizeFiles_error _ _ _ _ failedFiles⟩
    · cases failed

theorem sample_notes_missing :
    getDataset (knownSizes false) (ascii "/ds") samplePage =
        (⟨some [⟨ascii "data.csv", ascii "1024"⟩], samplePage.supplementaryFiles⟩,
          some "not found") ∧
      ((⟨some [⟨ascii "data.csv", ascii "1024"⟩], samplePage.supplementaryFiles⟩ : Dataset) =
          samplePage ∧
        FirstFailure (knownSizes false) (ascii "/ds") Download.file (samplePage.downloads.getD [])
          "not found" ∨
      ∃ downloads,
        (⟨some [⟨ascii "data.csv", ascii "1024"⟩], samplePage.supplementaryFiles⟩ : Dataset) =
          ⟨some downloads, samplePage.supplementaryFiles⟩ ∧
        List.Forall₂ (SizedAs (knownSizes false) (ascii "/ds") Download.file
          fun v size => ⟨v.file, size⟩) (samplePage.downloads.getD []) downloads ∧
        FirstFailure (knownSizes false) (ascii "/ds") SupplementaryFile.file
          (samplePage.supplementaryFiles.getD []) "not found") :=
  ⟨rfl, getDataset_error _ _ rfl⟩

/-- `GetDataset` returns no error exactly when the size of every download's and every
supplementary file's file is fetched. -/
theorem getDataset_complete (d : Dataset) :
    (getDataset getFileSize uri d).2 = none ↔
      (∀ v ∈ d.downloads.getD [], ∃ n, getFileSize (uri ++ '/'.toUInt8 :: v.file) = .ok n) ∧
        ∀ v ∈ d.supplementaryFiles.getD [],
          ∃ n, getFileSize (uri ++ '/'.toUInt8 :: v.file) = .ok n := by
  rw [← sizeFiles_isOk getFileSize uri Download.file (fun v size => ⟨v.file, size⟩) [],
    ← sizeFiles_isOk getFileSize uri SupplementaryFile.file
      (fun v size => ⟨v.file, v.title, size⟩) []]
  unfold getDataset
  split <;> rename_i fetched <;> rw [fetched]
  · simp [Except.isOk, Except.toBool]
  · dsimp only
    split <;> rename_i fetchedFiles <;> simp [fetchedFiles, Except.isOk, Except.toBool]

end GetDataset

end DpApiClients.Zebedee
