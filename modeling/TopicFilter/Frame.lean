import TopicFilter.Number.Double

/-!
# Frame — typed columns of one height

A frame is a list of named columns with as many values each as the frame is high. The columns have different
names, and every value fits the type of its column; both are kept by construction. A column that is put into a
frame takes the place of the one with its name (`names_put_of_mem`) or goes last (`names_put_of_notMem`).
-/

namespace TopicFilter

/-- The type of a column. These are the ones that a column of plain values, byte strings or lists has; there are others,
such as dates, categories and integers of other widths, which are left out. -/
inductive DType where
  /-- Nothing but nulls. -/
  | null
  /-- Truth values. -/
  | boolean
  /-- Integers of 64 bits. -/
  | int64
  /-- Floating-point numbers. -/
  | float64
  /-- Texts. -/
  | string
  /-- Byte strings. -/
  | binary
  /-- Lists of values of one type. -/
  | list (item : DType)
deriving DecidableEq

/-- A value in a column. -/
inductive Datum where
  /-- No value. -/
  | null
  /-- A truth value. -/
  | bool (b : Bool)
  /-- An integer. -/
  | int (n : Int)
  /-- A floating-point number. -/
  | float (x : Double)
  /-- A text. -/
  | text (t : Text)
  /-- A byte string. -/
  | binary (b : Bytes)
  /-- A list. -/
  | list (items : List Datum)

/-- The value is null. -/
def Datum.isNull : Datum → Bool
  | .null => true
  | _ => false

/-- The texts in a value, in order. -/
def Datum.texts : Datum → List Text
  | .text t => [t]
  | .list items => items.flatMap texts
  | _ => []

/-- The type has the value among its own; null belongs to every type. -/
def DType.holds : DType → Datum → Bool
  | _, .null => true
  | .boolean, .bool _ => true
  | .int64, .int n => -9223372036854775808 ≤ n && n < 9223372036854775808
  | .float64, .float _ => true
  | .string, .text _ => true
  | .binary, .binary _ => true
  | .list item, .list items => items.all item.holds
  | _, _ => false

/-- A named column of some height. -/
structure Column (height : Nat) where
  /-- The name. -/
  name : Text
  /-- The type of the values. -/
  dtype : DType
  /-- The values, first row first. -/
  values : List Datum
  /-- There is one value in each row. -/
  length_values : values.length = height
  /-- The values fit the type. -/
  holds_values : ∀ v ∈ values, dtype.holds v = true

/-- Columns of one height under different names. -/
structure Frame where
  /-- How many rows there are. -/
  height : Nat
  /-- The columns, in order. -/
  columns : List (Column height)
  /-- No two columns share a name. -/
  nodup : (columns.map Column.name).Nodup

namespace Column

@[ext] theorem ext {n : Nat} {c d : Column n} (hname : c.name = d.name) (hdtype : c.dtype = d.dtype)
    (hvalues : c.values = d.values) : c = d := by
  cases c; cases d; simp_all

/-- The values of the rows that a mask marks. -/
def marked {α : Type} : List Bool → List α → List α
  | true :: mask, v :: vs => v :: marked mask vs
  | false :: mask, _ :: vs => marked mask vs
  | _, _ => []

theorem length_marked {α : Type} {mask : List Bool} {vs : List α} (h : mask.length = vs.length) :
    (marked mask vs).length = mask.count true := by
  induction mask generalizing vs with
  | nil => simp [marked]
  | cons b mask ih =>
    cases vs with
    | nil => simp at h
    | cons v vs =>
      have h' : mask.length = vs.length := by simpa using h
      cases b <;> simp [marked, ih h']

theorem mem_of_mem_marked {α : Type} {mask : List Bool} {vs : List α} {v : α}
    (h : v ∈ marked mask vs) : v ∈ vs := by
  induction mask generalizing vs with
  | nil => simp [marked] at h
  | cons b mask ih =>
    cases vs with
    | nil => cases b <;> simp [marked] at h
    | cons x vs =>
      cases b with
      | true =>
        rcases List.mem_cons.mp h with rfl | h
        · exact List.mem_cons_self
        · exact List.mem_cons_of_mem _ (ih h)
      | false => exact List.mem_cons_of_mem _ (ih h)

/-- The column without the rows that a mask leaves out. -/
def select {n : Nat} (c : Column n) (mask : List Bool) (h : mask.length = n) :
    Column (mask.count true) :=
  { name := c.name
    dtype := c.dtype
    values := marked mask c.values
    length_values := length_marked (h.trans c.length_values.symm)
    holds_values := fun v hv => c.holds_values v (mem_of_mem_marked hv) }

end Column

namespace Frame

/-- The names of the columns, in order. -/
def names (f : Frame) : List Text := f.columns.map Column.name

/-- The column with a name. -/
def column? (f : Frame) (name : Text) : Option (Column f.height) := f.columns.find? (·.name = name)

/-- Some value in the column of a name has a property. -/
def anyValue (f : Frame) (name : Text) (p : Datum → Bool) : Bool :=
  (f.column? name).any (·.values.any p)

/-- Columns with one of them replaced by a column of its name. -/
def replace {n : Nat} (c : Column n) (cs : List (Column n)) : List (Column n) :=
  cs.map fun d => if d.name = c.name then c else d

theorem map_name_replace {n : Nat} (c : Column n) (cs : List (Column n)) :
    (replace c cs).map Column.name = cs.map Column.name := by
  rw [replace, List.map_map]
  refine List.map_congr_left fun d _ => ?_
  simp only [Function.comp_apply]
  split
  · next h => exact h.symm
  · rfl

/-- The frame with a column put in place of the one with its name, or last. -/
def put (f : Frame) (c : Column f.height) : Frame :=
  if h : c.name ∈ f.names then
    { height := f.height
      columns := replace c f.columns
      nodup := by rw [map_name_replace]; exact f.nodup }
  else
    { height := f.height
      columns := f.columns ++ [c]
      nodup := by
        rw [List.map_append, List.nodup_append]
        refine ⟨f.nodup, by simp, ?_⟩
        intro a ha b hb
        simp only [List.map_cons, List.map_nil, List.mem_singleton] at hb
        subst hb
        rintro rfl
        exact h ha }

/-- The frame without the column of a name. -/
def drop (f : Frame) (name : Text) : Frame :=
  { height := f.height
    columns := f.columns.filter (·.name ≠ name)
    nodup := f.nodup.sublist (List.Sublist.map _ List.filter_sublist) }

/-- The frame without the rows that a mask leaves out. -/
def select (f : Frame) (mask : List Bool) (h : mask.length = f.height) : Frame :=
  { height := mask.count true
    columns := f.columns.map (·.select mask h)
    nodup := by rw [List.map_map]; exact f.nodup }

@[simp] theorem height_put (f : Frame) (c : Column f.height) : (f.put c).height = f.height := by
  unfold put
  split <;> rfl

theorem names_put_of_mem {f : Frame} {c : Column f.height} (h : c.name ∈ f.names) :
    (f.put c).names = f.names := by
  rw [put, dif_pos h]
  exact map_name_replace c f.columns

theorem names_put_of_notMem {f : Frame} {c : Column f.height} (h : c.name ∉ f.names) :
    (f.put c).names = f.names ++ [c.name] := by
  rw [put, dif_neg h]
  simp [names]

@[simp] theorem names_drop (f : Frame) (name : Text) :
    (f.drop name).names = f.names.filter (· ≠ name) := by
  simp [names, drop, List.filter_map, Function.comp_def]

@[simp] theorem names_select (f : Frame) (mask : List Bool) (h : mask.length = f.height) :
    (f.select mask h).names = f.names := by
  simp only [names, select, List.map_map]
  rfl

/-! ## Building -/

/-- A column before it is known to fit. -/
structure Draft where
  /-- The name; an empty one is filled in. -/
  name : Text
  /-- The type of the values. -/
  dtype : DType
  /-- The values. -/
  values : List Datum

/-- The name and the texts in the values. -/
def Draft.texts (d : Draft) : List Text := d.name :: d.values.flatMap Datum.texts

/-- The name of the column at a position that was given none. -/
def unnamed (index : Nat) : Text := text "column_" ++ Text.ofNat index

/-- The draft as a column of some height, if it has that height and its values fit. -/
def Draft.column? (d : Draft) (height : Nat) : Option (Column height) :=
  if hlength : d.values.length = height then
    if hholds : ∀ v ∈ d.values, d.dtype.holds v = true then
      some ⟨d.name, d.dtype, d.values, hlength, hholds⟩
    else none
  else none

/-- The drafts with names filled in, the first of them at some position. -/
def fillNames : Nat → List Draft → List Draft
  | _, [] => []
  | index, d :: ds =>
    { d with name := if d.name.isEmpty then unnamed index else d.name } :: fillNames (index + 1) ds

/-- The frame of some drafts, if they are of one height, fit their types and have different names. -/
def ofDrafts (drafts : List Draft) : Option Frame :=
  let height := (drafts.head?.map (·.values.length)).getD 0
  match (fillNames 0 drafts).mapM (·.column? height) with
  | none => none
  | some columns =>
    if nodup : (columns.map Column.name).Nodup then some { height, columns, nodup } else none

end Frame

end TopicFilter
