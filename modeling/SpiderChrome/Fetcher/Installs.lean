import SpiderChrome.Fetcher.Versions
import Mathlib.Logic.Function.Basic

/-!
# Fetching side by side

`fetch` downloads the archive of a build to a file beside the folder of the build, unpacks the file into the folder and removes it. Several fetches may do so at a time. `unpacked_of_acts` says what may get into the folder of a version: archives of the same platform, whose versions differ from it in the last number at most.
-/

namespace SpiderChrome.Fetcher

/-- A version that is fetched for a platform. -/
structure Fetch where
  platform : Platform
  version : Version
deriving DecidableEq

def Fetch.archive (f : Fetch) : List Char := archiveName f.platform (.ofVersion f.version.display)

/-- The files by their names, and those whose downloads have been written to a file since it was last emptied. A file that is removed is still there for those who have it open. -/
structure Folders where
  names : List Char → Option Nat
  contents : Nat → List Fetch
  files : Nat
  handles : List (Fetch × Nat)
  unpacked : List (Fetch × List Fetch)

/-- What a fetch does, one after the other: it creates the file, or empties it, writes to it, unpacks what has its name, and removes that. -/
inductive Act where
  | create (f : Fetch)
  | write (f : Fetch) (file : Nat)
  | unzip (f : Fetch)
  | remove (f : Fetch)
deriving DecidableEq

namespace Folders

def start : Folders := ⟨fun _ => none, fun _ => [], 0, [], []⟩

def step (w : Folders) : Act → Folders
  | .create f =>
    match w.names f.archive with
    | some file => { w with contents := Function.update w.contents file [], handles := (f, file) :: w.handles }
    | none =>
      { w with
        names := Function.update w.names f.archive (some w.files)
        contents := Function.update w.contents w.files []
        files := w.files + 1
        handles := (f, w.files) :: w.handles }
  | .write f file =>
    if (f, file) ∈ w.handles then { w with contents := Function.update w.contents file (f :: w.contents file) } else w
  | .unzip f =>
    match w.names f.archive with
    | some file => { w with unpacked := (f, w.contents file) :: w.unpacked }
    | none => w
  | .remove f => { w with names := Function.update w.names f.archive none }

def run (acts : List Act) : Folders := acts.foldl step start

/-- Every file has one name for good, and only those write to it who download to that name. -/
structure Sorted (w : Folders) (owner : Nat → List Char) : Prop where
  named : ∀ {name file}, w.names name = some file → file < w.files ∧ owner file = name
  handled : ∀ {f file}, (f, file) ∈ w.handles → file < w.files ∧ owner file = f.archive
  written : ∀ {file f}, f ∈ w.contents file → owner file = f.archive
  unpacked : ∀ {f sources g}, (f, sources) ∈ w.unpacked → g ∈ sources → g.archive = f.archive

variable {w : Folders} {owner : Nat → List Char}

theorem Sorted.create (h : Sorted w owner) (f : Fetch) : ∃ owner, Sorted (w.step (.create f)) owner := by
  rw [step]
  split
  · rename_i file hfile
    refine ⟨owner, h.named, ?_, ?_, h.unpacked⟩
    · intro g other hother
      rcases List.mem_cons.1 hother with hnew | hold
      · cases hnew
        exact h.named hfile
      · exact h.handled hold
    · intro other g (hg : g ∈ Function.update w.contents file [] other)
      by_cases heq : other = file
      · subst heq
        rw [Function.update_self] at hg
        cases hg
      · rw [Function.update_of_ne heq] at hg
        exact h.written hg
  · have hother {file : Nat} {name : List Char} (hold : file < w.files ∧ owner file = name) :
        file < w.files + 1 ∧ Function.update owner w.files f.archive file = name :=
      ⟨Nat.lt_succ_of_lt hold.1, by rw [Function.update_of_ne (Nat.ne_of_lt hold.1), hold.2]⟩
    have hfresh : w.files < w.files + 1 ∧ Function.update owner w.files f.archive w.files = f.archive :=
      ⟨Nat.lt_succ_self _, Function.update_self ..⟩
    refine ⟨Function.update owner w.files f.archive, ?_, ?_, ?_, h.unpacked⟩
    · intro name file (hfile : Function.update w.names f.archive (some w.files) name = some file)
      by_cases heq : name = f.archive
      · subst heq
        rw [Function.update_self] at hfile
        cases hfile
        exact hfresh
      · rw [Function.update_of_ne heq] at hfile
        exact hother (h.named hfile)
    · intro g file hg
      rcases List.mem_cons.1 hg with hnew | hold
      · cases hnew
        exact hfresh
      · exact hother (h.handled hold)
    · intro file g (hg : g ∈ Function.update w.contents w.files [] file)
      by_cases heq : file = w.files
      · subst heq
        rw [Function.update_self] at hg
        cases hg
      · rw [Function.update_of_ne heq] at hg ⊢
        exact h.written hg

theorem Sorted.write (h : Sorted w owner) (f : Fetch) (file : Nat) : Sorted (w.step (.write f file)) owner := by
  rw [step]
  split
  · rename_i hopen
    refine ⟨h.named, h.handled, ?_, h.unpacked⟩
    intro other g (hg : g ∈ Function.update w.contents file (f :: w.contents file) other)
    by_cases heq : other = file
    · subst heq
      rw [Function.update_self] at hg
      rcases List.mem_cons.1 hg with rfl | hold
      · exact (h.handled hopen).2
      · exact h.written hold
    · rw [Function.update_of_ne heq] at hg
      exact h.written hg
  · exact h

theorem Sorted.unzip (h : Sorted w owner) (f : Fetch) : Sorted (w.step (.unzip f)) owner := by
  rw [step]
  split
  · rename_i file hfile
    refine ⟨h.named, h.handled, h.written, ?_⟩
    intro g sources source hmem hsource
    rcases List.mem_cons.1 hmem with hnew | hold
    · cases hnew
      exact (h.written hsource).symm.trans (h.named hfile).2
    · exact h.unpacked hold hsource
  · exact h

theorem Sorted.remove (h : Sorted w owner) (f : Fetch) : Sorted (w.step (.remove f)) owner := by
  refine ⟨?_, h.handled, h.written, h.unpacked⟩
  intro name file (hfile : Function.update w.names f.archive none name = some file)
  by_cases heq : name = f.archive
  · subst heq
    rw [Function.update_self] at hfile
    cases hfile
  · rw [Function.update_of_ne heq] at hfile
    exact h.named hfile

theorem Sorted.step (h : Sorted w owner) (act : Act) : ∃ owner, Sorted (w.step act) owner := by
  cases act with
  | create f => exact h.create f
  | write f file => exact ⟨owner, h.write f file⟩
  | unzip f => exact ⟨owner, h.unzip f⟩
  | remove f => exact ⟨owner, h.remove f⟩

theorem sorted_foldl (acts : List Act) (h : Sorted w owner) : ∃ owner, Sorted (acts.foldl Folders.step w) owner := by
  induction acts generalizing w owner with
  | nil => exact ⟨owner, h⟩
  | cons act acts ih =>
    obtain ⟨owner', hstep⟩ := h.step act
    exact ih hstep

theorem sorted_run (acts : List Act) : ∃ owner, Sorted (run acts) owner :=
  @sorted_foldl start (fun _ => []) acts ⟨nofun, nofun, nofun, nofun⟩

end Folders

/-- However fetches interleave, what is unpacked into the folder of a version was downloaded for the same platform and for a version that differs in its last number at most. -/
theorem unpacked_of_acts (acts : List Act) :
    ∀ entry ∈ (Folders.run acts).unpacked, ∀ source ∈ entry.2, source.platform = entry.1.platform ∧
      source.version.major = entry.1.version.major ∧ source.version.minor = entry.1.version.minor ∧
      source.version.build = entry.1.version.build := by
  rintro ⟨f, sources⟩ hentry source hsource
  obtain ⟨owner, h⟩ := Folders.sorted_run acts
  exact (paths_of_versions source.platform f.platform source.version f.version).2.1 (h.unpacked hentry hsource)

def earlier : Fetch := ⟨.linux, ⟨133, 0, 6943, 126⟩⟩

def later : Fetch := ⟨.linux, ⟨133, 0, 6943, 127⟩⟩

/-- Two fetches, the second of which begins when the first has written its archive. -/
def overlap : List Act := [.create earlier, .write earlier 0, .create later, .write later 0, .unzip earlier]

/-- The last number may differ indeed. -/
theorem unpacked_of_acts_overlap :
    (earlier, [later]) ∈ (Folders.run overlap).unpacked ∧ later.platform = earlier.platform ∧
      later.version.major = earlier.version.major ∧ later.version.minor = earlier.version.minor ∧
      later.version.build = earlier.version.build :=
  have hunpacked : (earlier, [later]) ∈ (Folders.run overlap).unpacked := by decide +kernel
  ⟨hunpacked, unpacked_of_acts overlap (earlier, [later]) hunpacked later (List.mem_singleton_self later)⟩

end SpiderChrome.Fetcher
