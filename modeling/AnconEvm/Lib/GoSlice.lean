import Mathlib.Data.List.Basic
/-
  Go slices, as far as their nil-ness shows.

  A Go slice is `nil` or a (possibly empty) run of elements; the two empty ones are different
  values (JSON writes `null` for the first and `[]` for the second).  `append` to any slice
  gives a non-nil slice, so the conversion loop Go code writes for slices,

      var out []T
      for _, x := range in { out = append(out, f(x)) }

  gives `nil` for every input without elements, the empty non-nil ones included, and a non-nil
  slice otherwise (`appendAll_eq`).
-/

/-- A Go slice: the nil slice, or a non-nil slice with its elements. -/
inductive GoSlice (α : Type)
  | nil
  | mk (elems : List α)
  deriving DecidableEq, Repr

namespace GoSlice

variable {α β : Type}

/-- The elements a `range` loop visits: none for the nil slice. -/
def elems : GoSlice α → List α
  | nil => []
  | mk xs => xs

/-- `append(s, x)`: always a non-nil slice. -/
def append (s : GoSlice α) (x : α) : GoSlice α := mk (s.elems ++ [x])

/-- The conversion loop `var out []β; for _, x := range xs { out = append(out, f(x)) }`. -/
def appendAll (f : α → β) (xs : List α) : GoSlice β :=
  xs.foldl (fun out x => out.append (f x)) nil

@[simp] theorem elems_nil : (nil : GoSlice α).elems = [] := rfl

@[simp] theorem elems_mk (xs : List α) : (mk xs).elems = xs := rfl

/-- Once the loop has a non-nil slice, it appends the images in order. -/
theorem foldl_append_mk (f : α → β) (xs : List α) (ys : List β) :
    xs.foldl (fun out x => out.append (f x)) (mk ys) = mk (ys ++ xs.map f) := by
  induction xs generalizing ys with
  | nil => simp
  | cons x xs ih =>
    rw [List.foldl_cons, append, elems_mk, ih]
    simp

/-- **What the conversion loop builds**: nil for no elements, else the images in order. -/
theorem appendAll_eq (f : α → β) (xs : List α) :
    appendAll f xs = if xs = [] then nil else mk (xs.map f) := by
  cases xs with
  | nil => rfl
  | cons x xs =>
    rw [appendAll, List.foldl_cons, append, elems_nil, List.nil_append, foldl_append_mk]
    simp

@[simp] theorem elems_appendAll (f : α → β) (xs : List α) : (appendAll f xs).elems = xs.map f := by
  rw [appendAll_eq]
  split
  · rename_i h
    simp [h]
  · rfl

end GoSlice
