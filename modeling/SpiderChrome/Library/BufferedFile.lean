import Mathlib.Data.List.Basic

/-!
# Files behind a buffer

A file that is written through a buffer holds the front of what it was given, and the buffer has the rest, as long as nothing fails. A write may fail after any number of the pending bytes have reached the file, those given earlier first, and a flush may do so as well. What the file then holds is still the front of what it was given, but its end need not be the end of anything.
-/

namespace BufferedFile

/-- What has reached the file, and what waits in the buffer. -/
structure File (A : Type) where
  written : List A
  buffered : List A

/-- How a write of all its data goes: so many of the pending bytes reach the file. When it fails, some of those that come next may stay in the buffer. -/
inductive WriteResult where
  | ok (reached : Nat)
  | failed (reached kept : Nat)
deriving DecidableEq

/-- How a flush goes. -/
inductive FlushResult where
  | ok
  | failed (reached : Nat)
deriving DecidableEq

namespace WriteResult

def isOk : WriteResult → Bool
  | ok _ => true
  | failed _ _ => false

theorem exists_of_isOk {result : WriteResult} (h : result.isOk = true) : ∃ reached, result = ok reached := by
  cases result with
  | ok reached => exact ⟨reached, rfl⟩
  | failed reached kept => cases h

end WriteResult

namespace File

variable {A : Type}

def new : File A := ⟨[], []⟩

/-- Everything that the file was given, as long as nothing has failed. -/
def accepted (file : File A) : List A := file.written ++ file.buffered

def writeAll (file : File A) (data : List A) : WriteResult → File A
  | .ok reached =>
    ⟨file.written ++ (file.buffered ++ data).take reached, (file.buffered ++ data).drop reached⟩
  | .failed reached kept =>
    ⟨file.written ++ (file.buffered ++ data).take reached, ((file.buffered ++ data).drop reached).take kept⟩

def flush (file : File A) : FlushResult → File A
  | .ok => ⟨file.written ++ file.buffered, []⟩
  | .failed reached => ⟨file.written ++ file.buffered.take reached, file.buffered.drop reached⟩

/-- The whole file, if it can be read. -/
def read (file : File A) (readable : Bool) : Option (List A) := if readable then some file.written else none

@[simp] theorem accepted_new : (new : File A).accepted = [] := rfl

@[simp] theorem accepted_writeAll_ok (file : File A) (data : List A) (reached : Nat) :
    (file.writeAll data (.ok reached)).accepted = file.accepted ++ data := by
  simp [accepted, writeAll]

/-- Whether it goes well or not, the file and the buffer have the front of what was given. -/
theorem accepted_writeAll_front (file : File A) (data : List A) (result : WriteResult) :
    (file.writeAll data result).accepted <+: file.accepted ++ data := by
  cases result with
  | ok reached =>
    simp only [accepted_writeAll_ok, List.prefix_refl]
  | failed reached kept =>
    have hkept := List.take_prefix kept ((file.buffered ++ data).drop reached)
    have hpending := (List.prefix_append_right_inj ((file.buffered ++ data).take reached)).mpr hkept
    rw [List.take_append_drop] at hpending
    simpa only [accepted, writeAll, List.append_assoc] using (List.prefix_append_right_inj file.written).mpr hpending

theorem written_flush_front (file : File A) (result : FlushResult) : (file.flush result).written <+: file.accepted := by
  cases result with
  | ok => exact List.prefix_refl _
  | failed reached =>
    have hreached := List.take_prefix reached file.buffered
    exact (List.prefix_append_right_inj file.written).mpr hreached

theorem eq_iff_length_of_front {front given : List A} (h : front <+: given) {whole : List A} (h' : whole <+: given) :
    front = whole ↔ front.length = whole.length := by
  constructor
  · intro heq
    rw [heq]
  · intro hlength
    exact (List.prefix_of_prefix_length_le h h' (Nat.le_of_eq hlength)).eq_of_length hlength

/-- A flushed file has all that it was given exactly when it is as long. -/
theorem flush_eq_iff (file : File A) (flushed : FlushResult) :
    (file.flush flushed).written = file.accepted ↔ (file.flush flushed).written.length = file.accepted.length :=
  eq_iff_length_of_front (written_flush_front file flushed) (List.prefix_refl _)

/-- After a write, however it went, a flushed file has what it was given before, and no more, exactly when it is as long. -/
theorem writeAll_flush_eq_iff (file : File A) (data : List A) (result : WriteResult) (flushed : FlushResult) :
    ((file.writeAll data result).flush flushed).written = file.accepted ↔
      ((file.writeAll data result).flush flushed).written.length = file.accepted.length :=
  eq_iff_length_of_front ((written_flush_front (file.writeAll data result) flushed).trans
    (accepted_writeAll_front file data result)) (List.prefix_append file.accepted data)

end File

end BufferedFile
