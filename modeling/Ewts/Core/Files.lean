import Ewts.Core.Text
import Mathlib.Logic.Function.Basic

/-!
# Files and output streams

A stream opened for writing keeps a position of its own. Two streams on one path
overwrite each other; a stream that is alone on its path always stands at the end.
-/

namespace Ewts

/-- The files by path, and the paths that were opened with truncation, in order. -/
structure Disk where
  files : Text → Option Text
  opened : List Text

/-- An open output stream. -/
structure OutStream where
  path : Text
  pos : Nat

/-- Overwrite a content from a position on; a gap before it is filled with zeros. -/
def writeAt (content : Text) (pos : Nat) (t : Text) : Text :=
  content.take pos ++ List.replicate (pos - content.length) 0 ++ t ++ content.drop (pos + t.length)

/-- `open(path, std::ios::out | std::ios::trunc)`. -/
def Disk.openTrunc (d : Disk) (path : Text) : Disk :=
  ⟨Function.update d.files path (some []), d.opened ++ [path]⟩

/-- Write a text through a stream. -/
def Disk.write (d : Disk) (s : OutStream) (t : Text) : Disk × OutStream :=
  (⟨Function.update d.files s.path (some (writeAt ((d.files s.path).getD []) s.pos t)), d.opened⟩,
    ⟨s.path, s.pos + t.length⟩)

/-- Write several texts one after the other. -/
def Disk.writeAll (d : Disk) (s : OutStream) : List Text → Disk × OutStream
  | [] => (d, s)
  | t :: ts => Disk.writeAll (d.write s t).1 (d.write s t).2 ts

/-- What a text leaves on the disk that is written through a stream, as one write or as many;
an empty text is not written. -/
def Disk.put (d : Disk) (s : OutStream) (t : Text) : Disk := if t = [] then d else (d.write s t).1

/-- The stream stands at the end of its file, which holds `content`. -/
structure OutStream.AtEnd (s : OutStream) (d : Disk) (content : Text) : Prop where
  file : d.files s.path = some content
  pos : s.pos = content.length

/-- At the end of a file a write appends. -/
@[simp] theorem writeAt_end (content t : Text) :
    writeAt content content.length t = content ++ t := by
  simp [writeAt]

/-- Behind what stands in front of the position a text overwrites its own length. -/
theorem writeAt_append (front rest t : Text) :
    writeAt (front ++ rest) front.length t = front ++ t ++ rest.drop t.length := by
  have hgap : front.length - (front ++ rest).length = 0 := by
    rw [List.length_append]
    omega
  rw [writeAt, List.take_left, hgap, List.replicate_zero, List.append_nil, ← List.drop_drop,
    List.drop_left]

/-- What is written where a write ended continues it. -/
theorem writeAt_writeAt (content : Text) (pos : Nat) (a b : Text) :
    writeAt (writeAt content pos a) (pos + a.length) b = writeAt content pos (a ++ b) := by
  obtain ⟨front, hfront⟩ :
      ∃ front, front = content.take pos ++ List.replicate (pos - content.length) 0 := ⟨_, rfl⟩
  have hwritten : ∀ t, writeAt content pos t = front ++ t ++ content.drop (pos + t.length) := by
    intro t
    rw [hfront]
    rfl
  have hpos : pos + a.length = (front ++ a).length := by
    rw [hfront, List.length_append, List.length_append, List.length_take, List.length_replicate]
    omega
  have hlen : (a ++ b).length = a.length + b.length := List.length_append
  rw [hwritten, hwritten, hpos, writeAt_append, List.drop_drop, ← hpos, hlen, Nat.add_assoc,
    List.append_assoc front]

/-- A fresh stream stands at the end of an empty file. -/
theorem Disk.atEnd_openTrunc (d : Disk) (path : Text) :
    OutStream.AtEnd ⟨path, 0⟩ (d.openTrunc path) [] :=
  ⟨Function.update_self .., rfl⟩

/-- Opening one file leaves the others. -/
theorem Disk.openTrunc_other (d : Disk) {path other : Text} (h : other ≠ path) :
    (d.openTrunc path).files other = d.files other :=
  Function.update_of_ne h ..

/-- A write changes the file of its stream only. -/
theorem Disk.write_other (d : Disk) {s : OutStream} {other : Text} (h : other ≠ s.path)
    (t : Text) : (d.write s t).1.files other = d.files other :=
  Function.update_of_ne h ..

/-- Writing at the end appends. -/
theorem OutStream.AtEnd.write {s : OutStream} {d : Disk} {content : Text} (h : s.AtEnd d content)
    (t : Text) : (d.write s t).2.AtEnd (d.write s t).1 (content ++ t) := by
  constructor
  · simp only [Disk.write, Function.update_self, h.file, Option.getD_some, h.pos, writeAt_end]
  · simp only [Disk.write, h.pos, List.length_append]

/-- A stream stays with its file. -/
@[simp] theorem Disk.writeAll_path (d : Disk) (s : OutStream) (ts : List Text) :
    (d.writeAll s ts).2.path = s.path := by
  induction ts generalizing d s with
  | nil => rfl
  | cons t ts ih => exact ih (d.write s t).1 (d.write s t).2

/-- Writing opens nothing. -/
@[simp] theorem Disk.writeAll_opened (d : Disk) (s : OutStream) (ts : List Text) :
    (d.writeAll s ts).1.opened = d.opened := by
  induction ts generalizing d s with
  | nil => rfl
  | cons t ts ih => exact ih (d.write s t).1 (d.write s t).2

/-- So do the writes of a whole list. -/
theorem Disk.writeAll_other (d : Disk) {s : OutStream} {other : Text} (h : other ≠ s.path)
    (ts : List Text) : (d.writeAll s ts).1.files other = d.files other := by
  induction ts generalizing d s with
  | nil => rfl
  | cons t ts ih =>
    have hs : other ≠ (d.write s t).2.path := h
    exact (ih (d.write s t).1 hs).trans (d.write_other h t)

/-- Texts written at the end are appended in order. -/
theorem OutStream.AtEnd.writeAll {s : OutStream} {d : Disk} {content : Text}
    (h : s.AtEnd d content) (ts : List Text) :
    (d.writeAll s ts).2.AtEnd (d.writeAll s ts).1 (content ++ ts.flatten) := by
  induction ts generalizing d s content with
  | nil => simpa only [Disk.writeAll, List.flatten_nil, List.append_nil] using h
  | cons t ts ih =>
    rw [List.flatten_cons, ← List.append_assoc]
    exact ih (h.write t)

/-- Texts written one after the other are one text. -/
theorem Disk.writeAll_eq_put (d : Disk) (s : OutStream) {ts : List Text}
    (h : ∀ t ∈ ts, t ≠ []) : (d.writeAll s ts).1 = d.put s ts.flatten := by
  induction ts generalizing d s with
  | nil => rfl
  | cons t ts ih =>
    obtain ⟨ht, hts⟩ := List.forall_mem_cons.mp h
    rw [writeAll, ih _ _ hts, List.flatten_cons, put, put,
      if_neg fun hnil => ht (List.append_eq_nil_iff.mp hnil).1]
    split
    · rename_i hnil
      rw [hnil, List.append_nil]
    · simp only [write, Function.update_self, Option.getD_some, writeAt_writeAt,
        Function.update_idem]

/-- A text that is put at the end of a file is appended. -/
theorem OutStream.AtEnd.put {s : OutStream} {d : Disk} {content : Text} (h : s.AtEnd d content)
    (t : Text) : (d.put s t).files s.path = some (content ++ t) := by
  unfold Disk.put
  split
  · rename_i hnil
    rw [hnil, List.append_nil]
    exact h.file
  · exact (h.write t).file

/-- A stream keeps its place while other paths are written. -/
theorem OutStream.AtEnd.frame {s : OutStream} {d d' : Disk} {content : Text}
    (h : s.AtEnd d content) (hd : d'.files s.path = d.files s.path) : s.AtEnd d' content :=
  ⟨hd.trans h.file, h.pos⟩

end Ewts
