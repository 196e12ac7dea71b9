import Mathlib.Data.List.Basic

/-!
# Reading lines

An input stream from which lines are read into memory of a given size. The delimiter ends a
line and is not stored. A line that does not fit leaves the stream failed, and so does the
end of the input; from a failed stream only empty lines are read.
-/

namespace RRPG.Base

variable {α : Type}

/-- What has not been read yet, and whether the stream is good. -/
structure InputStream (α : Type) where
  unread : List α
  good : Bool

/-- The characters of some lines, each with its delimiter. -/
def typed (delimiter : α) (lines : List (List α)) : List α :=
  lines.flatMap (· ++ [delimiter])

@[simp] theorem typed_nil (delimiter : α) : typed delimiter [] = [] := rfl

@[simp] theorem typed_cons (delimiter : α) (line : List α) (lines : List (List α)) :
    typed delimiter (line :: lines) = line ++ delimiter :: typed delimiter lines := by
  simp [typed]

namespace InputStream

variable [DecidableEq α]

/-- Store the characters up to the delimiter, at most `room` of them. The delimiter is looked
for before the room is. -/
def scan (delimiter : α) : Nat → List α → List α × InputStream α
  | _, [] => ([], ⟨[], false⟩)
  | 0, c :: rest => if c = delimiter then ([], ⟨rest, true⟩) else ([], ⟨c :: rest, false⟩)
  | room + 1, c :: rest =>
    if c = delimiter then ([], ⟨rest, true⟩)
    else (c :: (scan delimiter room rest).1, (scan delimiter room rest).2)

/-- Read a line into `size` cells, the last of which is for the terminator. -/
def getline (delimiter : α) (size : Nat) (stream : InputStream α) : List α × InputStream α :=
  if stream.good then scan delimiter (size - 1) stream.unread else ([], stream)

/-- No more is stored than there is room for. -/
theorem length_scan_le (delimiter : α) (room : Nat) (unread : List α) :
    (scan delimiter room unread).1.length ≤ room := by
  fun_induction scan delimiter room unread with
  | case5 room c rest hc ih => simpa using ih
  | _ => simp

theorem length_getline_le (delimiter : α) (size : Nat) (stream : InputStream α) :
    (stream.getline delimiter size).1.length ≤ size - 1 := by
  unfold getline
  split
  · exact length_scan_le _ _ _
  · simp

/-- A line for which there is room is read with its delimiter. -/
theorem scan_line (delimiter : α) (line rest : List α) (room : Nat) (hline : delimiter ∉ line)
    (hroom : line.length ≤ room) :
    scan delimiter room (line ++ delimiter :: rest) = (line, ⟨rest, true⟩) := by
  induction line generalizing room with
  | nil => cases room <;> simp [scan]
  | cons c line ih =>
    rw [List.mem_cons, not_or] at hline
    rw [List.length_cons] at hroom
    cases room with
    | zero => omega
    | succ room =>
      rw [List.cons_append, scan, if_neg (Ne.symm hline.1), ih room hline.2 (by omega)]

/-- Of a longer line only that many characters are read. -/
theorem scan_long (delimiter : α) (line rest : List α) (room : Nat) (hline : delimiter ∉ line)
    (hroom : room < line.length) :
    scan delimiter room (line ++ rest) = (line.take room, ⟨line.drop room ++ rest, false⟩) := by
  induction room generalizing line with
  | zero =>
    cases line with
    | nil => simp at hroom
    | cons c line =>
      rw [List.mem_cons, not_or] at hline
      rw [List.cons_append, scan, if_neg (Ne.symm hline.1)]
      rfl
  | succ room ih =>
    cases line with
    | nil => simp at hroom
    | cons c line =>
      rw [List.mem_cons, not_or] at hline
      rw [List.length_cons] at hroom
      rw [List.cons_append, scan, if_neg (Ne.symm hline.1), ih line hline.2 (by omega)]
      rfl

theorem getline_line (delimiter : α) (line rest : List α) (size : Nat) (hline : delimiter ∉ line)
    (hsize : line.length ≤ size - 1) :
    getline delimiter size ⟨line ++ delimiter :: rest, true⟩ = (line, ⟨rest, true⟩) := by
  rw [getline, if_pos rfl, scan_line delimiter line rest _ hline hsize]

theorem getline_long (delimiter : α) (line rest : List α) (size : Nat) (hline : delimiter ∉ line)
    (hsize : size - 1 < line.length) :
    getline delimiter size ⟨line ++ rest, true⟩ =
      (line.take (size - 1), ⟨line.drop (size - 1) ++ rest, false⟩) := by
  rw [getline, if_pos rfl, scan_long delimiter line rest _ hline hsize]

/-- From a failed stream an empty line is read, and it stays as it is. -/
theorem getline_failed (delimiter : α) (size : Nat) (unread : List α) :
    getline delimiter size ⟨unread, false⟩ = ([], ⟨unread, false⟩) := by
  rw [getline, if_neg (by simp)]

/-- At the end of the input an empty line is read. -/
theorem getline_end (delimiter : α) (size : Nat) (good : Bool) :
    getline delimiter size ⟨[], good⟩ = ([], ⟨[], false⟩) := by
  cases good with
  | false => exact getline_failed delimiter size []
  | true =>
    rw [getline, if_pos rfl, scan]

end InputStream

end RRPG.Base
