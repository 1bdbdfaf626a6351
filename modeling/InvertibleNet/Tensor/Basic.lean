/-
# Tensors

A tensor is a shape and as many values as the shape has places. Entries are
read by four indices; outside the shape an entry is zero, which is also what
the border of a convolution holds. A tensor is known by its shape and its
entries, and the operations of the library are described entry by entry.
-/

import InvertibleNet.Tensor.Shape

namespace InvertibleNet

universe u v

/-- Four-axis tensors over any type of values. -/
structure Tensor (α : Type u) where
  shape : Shape
  /-- Row-major values. -/
  values : Array α
  size_eq : values.size = shape.size

namespace Tensor

variable {α : Type u} {β : Type v}

/-- The tensor whose entries a function gives. -/
@[specialize] def ofFn (shape : Shape) (entry : Nat → Nat → Nat → Nat → α) : Tensor α where
  shape := shape
  values := Array.ofFn (n := shape.size) fun place =>
    entry (place / (shape.channels * shape.height * shape.width))
      (place / (shape.height * shape.width) % shape.channels)
      (place / shape.width % shape.height) (place % shape.width)
  size_eq := by simp

/-- A tensor of the given values in row-major order, if their number is right. -/
def ofValues? (shape : Shape) (values : Array α) : Option (Tensor α) :=
  if size_eq : values.size = shape.size then some ⟨shape, values, size_eq⟩ else none

/-- The tensor without values that has the given extents. -/
def empty? (extents : List Nat) : Option (Tensor α) :=
  match extents with
  | [batch, channels, height, width] =>
      let shape : Shape := ⟨batch, channels, height, width⟩
      if shape.isAddressable then ofValues? shape #[] else none
  | _ => none

/-- The entry at four indices, zero outside the shape. -/
@[inline] def entry [Zero α] (x : Tensor α) (sample channel row column : Nat) : α :=
  if x.shape.Contains sample channel row column then
    x.values.getD (x.shape.offset sample channel row column) 0
  else 0

/-- Apply a function to every entry. -/
@[specialize] def map (f : α → β) (x : Tensor α) : Tensor β :=
  ⟨x.shape, x.values.map f, by simp [x.size_eq]⟩

/-- Combine two tensors entry by entry. The result has the shape of the first;
the operations of the library only use it on equal shapes. -/
@[specialize] def combine [Zero α] (f : α → α → α) (x y : Tensor α) : Tensor α where
  shape := x.shape
  values := Array.ofFn (n := x.shape.size) fun place =>
    f (x.values.getD place 0) (y.values.getD place 0)
  size_eq := by simp

instance [Zero α] [Add α] : Add (Tensor α) := ⟨combine (· + ·)⟩

instance [Neg α] : Neg (Tensor α) := ⟨map (- ·)⟩

/-- One entry replaced. Outside the shape nothing changes. -/
def set (x : Tensor α) (sample channel row column : Nat) (value : α) : Tensor α :=
  if x.shape.Contains sample channel row column then
    ⟨x.shape, x.values.setIfInBounds (x.shape.offset sample channel row column) value,
      by simp [x.size_eq]⟩
  else x

/-! ## Entries -/

@[simp] theorem shape_ofFn (shape : Shape) (f : Nat → Nat → Nat → Nat → α) :
    (ofFn shape f).shape = shape := rfl

@[simp] theorem shape_map (f : α → β) (x : Tensor α) : (x.map f).shape = x.shape := rfl

@[simp] theorem shape_add [Zero α] [Add α] (x y : Tensor α) : (x + y).shape = x.shape := rfl

@[simp] theorem shape_neg [Neg α] (x : Tensor α) : (-x).shape = x.shape := rfl

/-- What a function gave is found again inside the shape. -/
theorem entry_ofFn [Zero α] (shape : Shape) (f : Nat → Nat → Nat → Nat → α)
    (sample channel row column : Nat) :
    (ofFn shape f).entry sample channel row column =
      if shape.Contains sample channel row column then f sample channel row column else 0 := by
  unfold entry
  by_cases inside : shape.Contains sample channel row column
  · have bound := Shape.offset_lt_size inside
    obtain ⟨sample_lt, channel_lt, row_lt, column_lt⟩ := inside
    simp only [ofFn, Shape.Contains, sample_lt, channel_lt, row_lt, column_lt, and_self, if_true]
    rw [Array.getD_eq_getD_getElem?, Array.getElem?_ofFn]
    simp only [bound, dite_true, Option.getD_some]
    have lines : shape.offset sample channel row column / shape.width =
        (sample * shape.channels + channel) * shape.height + row :=
      RowMajor.mul_add_div_of_lt column_lt
    have planes : shape.offset sample channel row column / (shape.height * shape.width) =
        sample * shape.channels + channel := by
      rw [Nat.mul_comm shape.height, ← Nat.div_div_eq_div_mul, lines,
        RowMajor.mul_add_div_of_lt row_lt]
    have samples : shape.offset sample channel row column /
        (shape.channels * shape.height * shape.width) = sample := by
      rw [Nat.mul_assoc, Nat.mul_comm shape.channels, ← Nat.div_div_eq_div_mul, planes,
        RowMajor.mul_add_div_of_lt channel_lt]
    have columns : shape.offset sample channel row column % shape.width = column :=
      RowMajor.mul_add_mod_of_lt column_lt
    rw [planes, samples, RowMajor.mul_add_mod_of_lt channel_lt, lines,
      RowMajor.mul_add_mod_of_lt row_lt, columns]
  · simp only [ofFn, inside, if_false]

/-- A tensor is known by its shape and its entries. -/
theorem eq_of_entries [Zero α] {x y : Tensor α} (shapes : x.shape = y.shape)
    (entries : ∀ sample channel row column, x.shape.Contains sample channel row column →
      x.entry sample channel row column = y.entry sample channel row column) : x = y := by
  obtain ⟨shape, values, size_eq⟩ := x
  obtain ⟨otherShape, otherValues, other_size_eq⟩ := y
  simp only at shapes
  subst shapes
  have same : values = otherValues := by
    apply Array.ext (size_eq.trans other_size_eq.symm)
    intro place bound otherBound
    obtain ⟨sample, channel, row, column, inside, rfl⟩ :=
      Shape.exists_offset (size_eq ▸ bound)
    have here := entries sample channel row column inside
    simpa [entry, inside, Array.getD_eq_getD_getElem?, bound, otherBound] using here
  subst same
  rfl

end Tensor

end InvertibleNet
