import GraphStore.Proofs.Disk.Matching
import GraphStore.Proofs.Record.Kinds
import GraphStore.Proofs.Store.Site

/-!
# Store files in two byte orders

Files at one place of two file systems that hold the same: records in two byte orders, or catalogs
that differ in their times. Main statements: such files are of one length, may be moved together,
and keep their headings where they are changed behind them.
-/

set_option autoImplicit false

namespace GraphStore

open StoredRecord

/-!
## Contents
-/

theorem take_fileBytes (endian : Endian) (kind : StoreKind) (records : List kind.Record) :
    (fileBytes endian kind records).take headerSize = (StoreHeader.fresh kind endian).encode := by
  rw [fileBytes, List.take_left' (StoreHeader.length_encode _)]

/-- Whether two files at a place hold the same: the same bytes, or the same records in two byte
orders, or catalogs that differ in their times at most. -/
inductive Twins (place : Path) : List UInt8 → List UInt8 → Prop where
  | same (bytes : List UInt8) : Twins place bytes bytes
  | store {kind : StoreKind} {records : List kind.Record}
      (isStore : place.getLast? = some kind.fileName) (first second : Endian)
      (faithful : ∀ record ∈ records, Faithful record) :
      Twins place (fileBytes first kind records) (fileBytes second kind records)
  | dated {left right : List UInt8}
      (noStore : ∀ kind : StoreKind, place.getLast? ≠ some kind.fileName)
      (length : left.length = right.length) (front : left.take 10 = right.take 10)
      (back : left.drop 26 = right.drop 26) : Twins place left right

namespace Twins

variable {place : Path} {left right : List UInt8}

theorem length_eq (twins : Twins place left right) : left.length = right.length := by
  cases twins with
  | same => rfl
  | store _ first second faithful => rw [length_fileBytes faithful, length_fileBytes faithful]
  | dated _ length _ _ => exact length

theorem dated_append {front : List UInt8}
    (noStore : ∀ kind : StoreKind, place.getLast? ≠ some kind.fileName) (width : front.length = 10)
    (leftWidth : left.length = 16) (rightWidth : right.length = 16) (back : List UInt8) :
    Twins place (front ++ left ++ back) (front ++ right ++ back) := by
  refine .dated noStore ?_ ?_ ?_
  · simp only [List.length_append, leftWidth, rightWidth]
  · simp only [List.append_assoc, List.take_left' width]
  · rw [List.drop_left' (by rw [List.length_append, width, leftWidth]),
      List.drop_left' (by rw [List.length_append, width, rightWidth])]

theorem isEven : Fitting.IsEven Twins where
  length _ _ _ twins := twins.length_eq
  empty _ := .same []

/-- No file is moved between the name of a store file and another one. -/
theorem move {origin goal : Path} (noOrigin : ∀ kind : StoreKind, origin.getLast? ≠ some kind.fileName)
    (noGoal : ∀ kind : StoreKind, goal.getLast? ≠ some kind.fileName) (rest : Path)
    (twins : Twins (origin ++ rest) left right) : Twins (goal ++ rest) left right := by
  cases rest with
  | nil =>
      rw [List.append_nil] at twins ⊢
      cases twins with
      | same => exact .same _
      | store isStore => exact absurd isStore (noOrigin _)
      | dated _ length front back => exact .dated noGoal length front back
  | cons name rest =>
      have last (above : Path) : (above ++ name :: rest).getLast? = (name :: rest).getLast? :=
        List.getLast?_append_of_ne_nil _ (List.cons_ne_nil _ _)
      cases twins with
      | same => exact .same _
      | store isStore first second faithful =>
          rw [last, ← last goal] at isStore
          exact .store isStore first second faithful
      | dated noStore length front back =>
          rw [last, ← last goal] at noStore
          exact .dated noStore length front back

end Twins

/-!
## Headings
-/

/-- Where each path leads and how the file there begins. -/
abbrev Heading := Path → Except OsError (Path × List UInt8)

namespace FileSystem

variable {system other : FileSystem} {path place : Path} {content changed : Content}

def heading (system : FileSystem) : Heading := fun path =>
  (system.openFile path).map fun found => (found.1, found.2.toList.take headerSize)

theorem HasFile.heading_eq (file : system.HasFile path place content) :
    system.heading path = .ok (place, content.toList.take headerSize) := by
  rw [heading, file.openFile_eq]
  rfl

theorem HasFile.heading_put (file : system.HasFile path place content)
    (begins : changed.toList.take headerSize = content.toList.take headerSize) :
    (system.put place (.file changed)).heading = system.heading := by
  have self := entry?_put_self system (.file changed) (ne_nil_of_entry?_eq_file file.stands)
  have shapes (other : Path) :
      shape? (system.put place (.file changed)) other = system.shape? other := by
    by_cases same : other = place
    · rw [same, shape?, shape?, self, file.stands]
      rfl
    · rw [shape?, shape?, entry?_put_of_ne _ _ same]
  funext path
  rw [heading, heading, openFile, openFile, resolve, resolve, locate_congr shapes]
  cases located : system.locate path with
  | error reason => rfl
  | ok other =>
      by_cases same : other = place
      · subst same
        simp only [bind, Except.bind, self, file.stands]
        exact congrArg (fun bytes => Except.ok (other, bytes)) begins
      · simp only [bind, Except.bind, entry?_put_of_ne _ _ same]

/-- Two file systems that match and have known headings. -/
structure Aligned (first second : Heading) (system other : FileSystem) : Prop where
  matching : system.Matches Twins other
  first : system.heading = first
  second : other.heading = second

theorem Aligned.put {first second : Heading} {left right : Content}
    (aligned : Aligned first second system other) (here : system.HasFile path place content)
    (there : other.HasFile path place changed) (twins : Twins place left.toList right.toList)
    (begins : left.toList.take headerSize = content.toList.take headerSize)
    (beginsThere : right.toList.take headerSize = changed.toList.take headerSize) :
    Aligned first second (system.put place (.file left)) (other.put place (.file right)) where
  matching := aligned.matching.put (.file twins)
  first := (here.heading_put begins).trans aligned.first
  second := (there.heading_put beginsThere).trans aligned.second

end FileSystem

end GraphStore
