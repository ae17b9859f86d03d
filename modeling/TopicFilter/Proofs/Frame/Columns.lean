import Mathlib.Data.List.Forall2
import TopicFilter.Frame

/-!
# Proofs/Frame/Columns — what the columns of a frame hold

Frames of different heights have columns of different types. `Frame.drafts` forgets the height, and so compares the
columns before and after a change: a column that is put takes its place (`drafts_put`) and leaves all others as they are
(`filter_drafts_put`), selecting rows selects the same ones in each column (`drafts_select`), and dropping a column
drops just that (`drafts_drop`). Frames that are as high as one another and hold the same are equal (`ext_drafts`).
-/

namespace TopicFilter

namespace Column

variable {n : Nat} {α β : Type}

/-- What the column holds, whatever its height. -/
def draft (c : Column n) : Frame.Draft := ⟨c.name, c.dtype, c.values⟩

theorem draft_injective {c d : Column n} (h : c.draft = d.draft) : c = d := by
  obtain ⟨hname, hdtype, hvalues⟩ := Frame.Draft.mk.inj h
  exact Column.ext hname hdtype hvalues

/-- The values of the marked rows are those that stand beside a mark. -/
theorem marked_eq_filter {mask : List Bool} {vs : List α} :
    marked mask vs = ((vs.zip mask).filter (·.2)).map (·.1) := by
  induction mask generalizing vs with
  | nil => simp [marked]
  | cons b mask ih =>
    cases vs with
    | nil => cases b <;> rfl
    | cons v vs => cases b <;> simp [marked, ih]

/-- The marks of a property leave what has the property. -/
theorem marked_map (p : α → Bool) (g : α → β) (as : List α) :
    marked (as.map p) (as.map g) = (as.filter p).map g := by
  induction as with
  | nil => rfl
  | cons a as ih => cases h : p a <;> simp [marked, h, ih]

/-- What is made of marked values is what is marked of what is made of all. -/
theorem map_marked (g : α → β) (mask : List Bool) (vs : List α) :
    marked mask (vs.map g) = (marked mask vs).map g := by
  rw [marked_eq_filter, marked_eq_filter, List.zip_map_left, List.filter_map, List.map_map, List.map_map]
  rfl

/-- Values that belong to each other still do so where they are marked. -/
theorem forall₂_marked {R : α → β → Prop} {vs : List α} {ws : List β} (h : List.Forall₂ R vs ws) (mask : List Bool) :
    List.Forall₂ R (marked mask vs) (marked mask ws) := by
  induction h generalizing mask with
  | nil => cases mask with
    | nil => exact .nil
    | cons b mask => cases b <;> exact .nil
  | cons hvw _ ih =>
    cases mask with
    | nil => exact .nil
    | cons b mask =>
      cases b with
      | true => exact .cons hvw (ih mask)
      | false => exact ih mask

end Column

namespace Frame

variable {f : Frame} {name : Text}

/-- What the columns hold, in order. -/
def drafts (f : Frame) : List Draft := f.columns.map Column.draft

theorem names_eq (f : Frame) : f.names = f.drafts.map Draft.name := by
  rw [drafts, List.map_map]
  rfl

/-- **A frame is what it holds**, and how high it is. -/
theorem ext_drafts {f g : Frame} (hheight : f.height = g.height) (h : f.drafts = g.drafts) : f = g := by
  obtain ⟨n, cs, hcs⟩ := f
  obtain ⟨m, ds, hds⟩ := g
  obtain rfl : n = m := hheight
  obtain rfl : cs = ds := (List.map_inj_right fun _ _ => Column.draft_injective).mp h
  rfl

theorem find?_drafts (f : Frame) (name : Text) :
    f.drafts.find? (·.name = name) = (f.column? name).map Column.draft := by
  rw [drafts, List.find?_map]
  rfl

/-- What is held under a name is held by a column. -/
theorem exists_column?_of_drafts {d : Draft} (h : f.drafts.find? (·.name = name) = some d) :
    ∃ c, f.column? name = some c ∧ c.draft = d := by
  rw [find?_drafts] at h
  exact Option.map_eq_some_iff.mp h

/-- The names of the columns with the types of their values, in order. -/
def schema (f : Frame) : List (Text × DType) := f.columns.map fun c => (c.name, c.dtype)

theorem schema_eq (f : Frame) : f.schema = f.drafts.map fun d => (d.name, d.dtype) := by
  rw [schema, drafts, List.map_map]
  rfl

theorem names_eq_map_schema (f : Frame) : f.names = f.schema.map Prod.fst := by
  rw [schema, List.map_map]
  rfl

/-! ## Columns put -/

/-- Drafts with one of them put in place of the one with its name, or last. -/
def place (d : Draft) (ds : List Draft) : List Draft :=
  if ds.any (·.name = d.name) then ds.map fun e => if e.name = d.name then d else e else ds ++ [d]

/-- The names tell where it goes. -/
theorem place_eq (d : Draft) (ds : List Draft) :
    place d ds =
      if d.name ∈ ds.map Draft.name then ds.map fun e => if e.name = d.name then d else e else ds ++ [d] :=
  if_congr (by simp) rfl rfl

/-- **A column that is put takes its place** among what the frame holds. -/
theorem drafts_put (f : Frame) (c : Column f.height) : (f.put c).drafts = place c.draft f.drafts := by
  rw [place_eq, ← names_eq]
  by_cases h : c.name ∈ f.names
  · have hput : (f.put c).drafts = (replace c f.columns).map Column.draft := by
      rw [put, dif_pos h]
      rfl
    rw [hput, if_pos (show c.draft.name ∈ f.names from h), replace, drafts, List.map_map, List.map_map]
    exact List.map_congr_left fun e _ => apply_ite Column.draft (e.name = c.name) c e
  · rw [put, dif_neg h, if_neg (show c.draft.name ∉ f.names from h), drafts, List.map_append]
    rfl

/-- What takes the place of a draft has its name. -/
theorem name_ite (d e : Draft) : (if e.name = d.name then d else e).name = e.name := by
  split
  · next h => exact h.symm
  · rfl

/-- The names are as they were, or the new one comes last. -/
theorem map_name_place (d : Draft) (ds : List Draft) :
    (place d ds).map Draft.name =
      if d.name ∈ ds.map Draft.name then ds.map Draft.name else ds.map Draft.name ++ [d.name] := by
  rw [place_eq]
  split
  · rw [List.map_map]
    exact List.map_congr_left fun e _ => name_ite d e
  · rw [List.map_append, List.map_singleton]

/-- What changes each draft but for its name can be done before one is put, or afterwards. -/
theorem map_place {g : Draft → Draft} (hg : ∀ d, (g d).name = d.name) (d : Draft) (ds : List Draft) :
    (place d ds).map g = place (g d) (ds.map g) := by
  have hnames : (ds.map g).map Draft.name = ds.map Draft.name := by
    rw [List.map_map]
    exact List.map_congr_left fun e _ => hg e
  rw [place_eq, place_eq, hnames, hg]
  split
  · rw [List.map_map, List.map_map]
    refine List.map_congr_left fun e _ => ?_
    rw [Function.comp_apply, Function.comp_apply, hg]
    exact apply_ite g (e.name = d.name) d e
  · rw [List.map_append, List.map_singleton]

/-- What is placed leaves the others as they are… -/
theorem filter_place (d : Draft) (ds : List Draft) :
    (place d ds).filter (·.name ≠ d.name) = ds.filter (·.name ≠ d.name) := by
  rw [place_eq]
  split
  · rw [List.filter_map]
    simp only [Function.comp_def, name_ite]
    have hothers : ∀ e ∈ ds.filter (·.name ≠ d.name), (if e.name = d.name then d else e) = id e := fun e he =>
      if_neg (by simpa using (List.mem_filter.mp he).2)
    rw [List.map_congr_left hothers, List.map_id]
  · have hlast : [d].filter (·.name ≠ d.name) = [] := by simp
    rw [List.filter_append, hlast, List.append_nil]

/-- …and is found. -/
theorem find?_place (d : Draft) (ds : List Draft) : (place d ds).find? (·.name = d.name) = some d := by
  rw [place_eq]
  split
  · next h =>
    obtain ⟨e, he, hname⟩ := List.mem_map.mp h
    have hfound : (ds.find? (·.name = d.name)).isSome = true :=
      List.find?_isSome.mpr ⟨e, he, decide_eq_true hname⟩
    obtain ⟨e, he⟩ := Option.isSome_iff_exists.mp hfound
    have hename : e.name = d.name := by simpa using List.find?_some he
    rw [List.find?_map]
    simp only [Function.comp_def, name_ite]
    rw [he, Option.map_some, if_pos hename]
  · next h =>
    have hnone : ds.find? (·.name = d.name) = none :=
      List.find?_eq_none.mpr fun e he hname => h (List.mem_map.mpr ⟨e, he, of_decide_eq_true hname⟩)
    rw [List.find?_append, hnone, Option.none_or]
    simp

/-- **A column that is put leaves the others as they are.** -/
theorem filter_drafts_put (f : Frame) (c : Column f.height) :
    (f.put c).drafts.filter (·.name ≠ c.name) = f.drafts.filter (·.name ≠ c.name) := by
  rw [drafts_put]
  exact filter_place c.draft f.drafts

/-- …and is there afterwards. -/
theorem find?_drafts_put (f : Frame) (c : Column f.height) :
    (f.put c).drafts.find? (·.name = c.name) = some c.draft := by
  rw [drafts_put]
  exact find?_place c.draft f.drafts

/-- What one name is given to is not looked for under another. -/
theorem find?_filter_ne {other : Text} (h : name ≠ other) (ds : List Draft) :
    (ds.filter (·.name ≠ other)).find? (·.name = name) = ds.find? (·.name = name) := by
  rw [List.find?_filter]
  congr 1
  funext d
  by_cases hd : d.name = name <;> simp [hd, h]

/-- What has another name is found as before. -/
theorem find?_place_of_ne {d : Draft} {ds : List Draft} (h : name ≠ d.name) :
    (place d ds).find? (·.name = name) = ds.find? (·.name = name) := by
  rw [← find?_filter_ne h, filter_place, find?_filter_ne h]

theorem drafts_select (mask : List Bool) (h : mask.length = f.height) :
    (f.select mask h).drafts = f.drafts.map fun d => { d with values := Column.marked mask d.values } := by
  simp only [drafts, select, List.map_map]
  rfl

theorem drafts_drop (f : Frame) (name : Text) : (f.drop name).drafts = f.drafts.filter (·.name ≠ name) := by
  rw [drafts, drafts, drop, List.filter_map]
  rfl

/-- What is not there is not left out. -/
theorem filter_drafts_of_notMem (h : name ∉ f.names) : f.drafts.filter (·.name ≠ name) = f.drafts := by
  refine List.filter_eq_self.mpr fun d hd => decide_eq_true fun hname => h ?_
  rw [names_eq, ← hname]
  exact List.mem_map_of_mem hd

/-- **A column that stands by while rows are selected leaves no trace**, but that one of its name is lost. -/
theorem drafts_drop_select_put (f : Frame) (c : Column f.height) (mask : List Bool)
    (h : mask.length = (f.put c).height) :
    (((f.put c).select mask h).drop c.name).drafts =
      (f.drafts.filter (·.name ≠ c.name)).map fun d => { d with values := Column.marked mask d.values } := by
  rw [drafts_drop, drafts_select, List.filter_map, ← filter_drafts_put]
  rfl

end Frame

end TopicFilter
