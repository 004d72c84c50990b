import Mathlib.Algebra.BigOperators.Group.List.Basic
import Mathlib.Algebra.Ring.Nat
import Mathlib.Logic.Function.Basic
import Tundra.Library.Slice

set_option autoImplicit false

/- Files by name: opening with truncation, writing at an offset, cutting to a size, and
stores through a shared mapping, which reach the file as far as it reaches itself. -/
namespace Library

/-- The contents of the files that exist. -/
abbrev FileSystem (ν : Type*) := ν → Option (List UInt8)

namespace FileSystem

variable {ν : Type*}

/-- What the files contain, one behind the other. -/
def contents (fs : FileSystem ν) (names : List ν) : List UInt8 :=
  names.flatMap fun name => (fs name).getD []

def size (fs : FileSystem ν) (name : ν) : Nat := ((fs name).getD []).length

@[simp] theorem contents_append (fs : FileSystem ν) (names more : List ν) :
    fs.contents (names ++ more) = fs.contents names ++ fs.contents more :=
  List.flatMap_append

theorem contents_single (fs : FileSystem ν) (name : ν) :
    fs.contents [name] = (fs name).getD [] := by
  simp only [contents, List.flatMap_cons, List.flatMap_nil, List.append_nil]

theorem contents_length (fs : FileSystem ν) (names : List ν) :
    (fs.contents names).length = (names.map fs.size).sum :=
  List.length_flatMap

theorem contents_congr (fs gs : FileSystem ν) (names : List ν)
    (same : ∀ name ∈ names, gs name = fs name) : gs.contents names = fs.contents names := by
  apply List.flatMap_congr
  intro name member
  rw [same name member]

variable [DecidableEq ν]

theorem contents_update (fs : FileSystem ν) (names : List ν) (name : ν)
    (data : Option (List UInt8)) (absent : name ∉ names) :
    contents (Function.update fs name data) names = fs.contents names := by
  apply contents_congr
  intro other member
  exact Function.update_of_ne (ne_of_mem_of_not_mem member absent) _ _

/-- open with O_CREAT and O_TRUNC. -/
def openTrunc (fs : FileSystem ν) (name : ν) : FileSystem ν := Function.update fs name (some [])

/-- lseek and write. A gap behind the old end reads as zeros. -/
def writeAt (fs : FileSystem ν) (name : ν) (offset : Nat) (data : List UInt8) : FileSystem ν :=
  Function.update fs name ((fs name).map fun old =>
    overwrite (old ++ List.replicate (offset - old.length) 0) offset data)

def truncate (fs : FileSystem ν) (name : ν) (length : Nat) : FileSystem ν :=
  Function.update fs name ((fs name).map fun old => resize old length 0)

/-- The whole pages that hold so many bytes. -/
def pages (pageSize length : Nat) : Nat := (length + pageSize - 1) / pageSize * pageSize

/-- A store through a shared mapping of the file. Behind the last page of the file it
raises SIGBUS, and between the file's end and the end of that page it is lost. -/
def store (fs : FileSystem ν) (pageSize : Nat) (name : ν) (offset : Nat) (data : List UInt8) :
    Option (FileSystem ν) :=
  (fs name).bind fun old =>
    if data = [] ∨ offset + data.length ≤ pages pageSize old.length then
      some (Function.update fs name (some ((overwrite old offset data).take old.length)))
    else none

/-- One value changed in a list without repetitions. -/
theorem sum_update (names : List ν) (g : ν → Nat) (name : ν) (value : Nat)
    (distinct : names.Nodup) (member : name ∈ names) :
    (names.map (Function.update g name value)).sum + g name = (names.map g).sum + value := by
  induction names with
  | nil => cases member
  | cons first rest ih =>
      obtain ⟨absent, others⟩ := List.nodup_cons.mp distinct
      simp only [List.map_cons, List.sum_cons]
      rcases List.mem_cons.mp member with same | later
      · subst same
        have kept : rest.map (Function.update g name value) = rest.map g := by
          apply List.map_congr_left
          intro other present
          exact Function.update_of_ne (ne_of_mem_of_not_mem present absent) value g
        rw [Function.update_self, kept]
        omega
      · have elsewhere : first ≠ name := (ne_of_mem_of_not_mem later absent).symm
        have changed := ih others later
        rw [Function.update_of_ne elsewhere]
        omega

theorem size_update (fs : FileSystem ν) (name : ν) (data : Option (List UInt8)) :
    size (Function.update fs name data) =
      Function.update fs.size name (data.getD []).length := by
  funext other
  by_cases same : other = name
  · subst same
    simp only [size, Function.update_self]
  · simp only [size, Function.update_of_ne same]

theorem truncate_size (fs : FileSystem ν) (name : ν) (length : Nat) (there : fs name ≠ none) :
    (fs.truncate name length).size = Function.update fs.size name length := by
  obtain ⟨old, found⟩ := Option.ne_none_iff_exists'.mp there
  rw [truncate, size_update, found, Option.map_some, Option.getD_some, resize_length]

/-- Cutting a file removes none. -/
theorem truncate_there (fs : FileSystem ν) (name other : ν) (length : Nat)
    (there : fs other ≠ none) : fs.truncate name length other ≠ none := by
  unfold truncate
  by_cases same : other = name
  · rw [← same, Function.update_self]
    simpa only [ne_eq, Option.map_eq_none_iff] using there
  · rw [Function.update_of_ne same]
    exact there

/-- A store changes no length. -/
theorem store_size (fs gs : FileSystem ν) (pageSize : Nat) (name : ν) (offset : Nat)
    (data : List UInt8) (stored : fs.store pageSize name offset data = some gs) :
    gs.size = fs.size := by
  obtain ⟨old, found, rest⟩ := Option.bind_eq_some_iff.mp stored
  split at rest
  · cases rest
    have long : old.length ≤ (overwrite old offset data).length := by
      simp only [overwrite, List.length_append, List.length_take, List.length_drop]
      omega
    rw [size_update, Option.getD_some, List.length_take, Nat.min_eq_left long]
    have here : fs.size name = old.length := by rw [size, found, Option.getD_some]
    rw [← here, Function.update_eq_self]
  · cases rest

theorem store_there (fs gs : FileSystem ν) (pageSize : Nat) (name : ν) (offset : Nat)
    (data : List UInt8) (stored : fs.store pageSize name offset data = some gs) :
    gs name ≠ none := by
  obtain ⟨old, _, rest⟩ := Option.bind_eq_some_iff.mp stored
  split at rest
  · cases rest
    rw [Function.update_self]
    simp
  · cases rest

/-- A store behind the data in a file that is filled up with zeros. -/
theorem store_filled (fs : FileSystem ν) (pageSize : Nat) (name : ν) (data more : List UInt8)
    (room : Nat) (positive : 0 < pageSize)
    (found : fs name = some (data ++ List.replicate room 0)) (fits : more.length ≤ room) :
    fs.store pageSize name data.length more =
      some (Function.update fs name
        (some (data ++ more ++ List.replicate (room - more.length) 0))) := by
  have size : (data ++ List.replicate room (0 : UInt8)).length = data.length + room := by
    rw [List.length_append, List.length_replicate]
  have inside : data.length + more.length ≤ pages pageSize (data.length + room) := by
    have whole := Nat.lt_div_mul_add positive (a := data.length + room + pageSize - 1)
    unfold pages
    omega
  have written : (overwrite (data ++ List.replicate room (0 : UInt8)) data.length more) =
      data ++ more ++ List.replicate (room - more.length) 0 := by
    unfold overwrite
    rw [List.take_left, ← List.drop_drop, List.drop_left, List.drop_replicate]
  rw [store, found, Option.bind_some, size, if_pos (Or.inr inside), written]
  congr 3
  apply List.take_of_length_le
  simp only [List.length_append, List.length_replicate]
  omega

end FileSystem
end Library
