import TopicFilter.Proofs.Frame.Columns
import TopicFilter.Proofs.Frame.Rows

/-!
# Proofs/Frame/Plain — frames by themselves

Where deriving and accepting topics are plain functions, frames need no store. Rows have a result each, or one of them
is the first that fails (`rows_cases`) and ends it. So a column of topics comes of payloads that all have one
(`exists_deriveColumnBy`), and the rows stay whose topics pass (`exists_keepMatchingBy`).
-/

namespace TopicFilter.Frame

variable {α β : Type} {f g : Frame} {name source target : Text} {row : α → Except Fault β} {front back vs : List α}
  {rs : List β} {w : α} {fault : Fault} {derive : Payload → Except Fault Topic}
  {accepts : List Topic → Except Fault Bool}

/-! ## Rows -/

/-- Each row has its result, if none fails. -/
theorem forRows_eq_ok (h : List.Forall₂ (fun v r => row v = .ok r) vs rs) :
    ∃ hlen, forRows row vs = .ok ⟨rs, hlen⟩ := by
  induction h with
  | nil => exact ⟨rfl, rfl⟩
  | cons hv _ ih =>
    obtain ⟨hlen, hvs⟩ := ih
    refine ⟨by rw [List.length_cons, List.length_cons, hlen], ?_⟩
    rw [forRows, hv, hvs]
    rfl

/-- …and the first that fails ends it. -/
theorem forRows_eq_error (hfront : List.Forall₂ (fun v r => row v = .ok r) front rs) (hw : row w = .error fault)
    (back : List α) : forRows row (front ++ w :: back) = .error fault := by
  induction hfront with
  | nil =>
    rw [List.nil_append, forRows, hw]
    rfl
  | cons hv _ ih =>
    rw [List.cons_append, forRows, hv, ih]
    rfl

theorem map_val_forRows (row : α → Except Fault β) (vs : List α) :
    (forRows row vs).map Subtype.val = vs.mapM row := by
  induction vs with
  | nil => rfl
  | cons v vs ih =>
    rw [forRows, List.mapM_cons, ← ih]
    cases row v with
    | error fault => rfl
    | ok r => cases forRows row vs <;> rfl

/-- Some rows all have a result, or one of them is the first that fails. -/
theorem rows_cases (row : α → Except Fault β) (vs : List α) :
    (∃ rs, List.Forall₂ (fun v r => row v = .ok r) vs rs) ∨
      ∃ front w back rs fault, vs = front ++ w :: back ∧ List.Forall₂ (fun v r => row v = .ok r) front rs ∧
        row w = .error fault := by
  induction vs with
  | nil => exact .inl ⟨[], .nil⟩
  | cons v vs ih =>
    cases hv : row v with
    | error fault => exact .inr ⟨[], v, vs, [], fault, rfl, .nil, hv⟩
    | ok r =>
      rcases ih with ⟨rs, hrs⟩ | ⟨front, w, back, rs, fault, rfl, hfront, hw⟩
      · exact .inl ⟨r :: rs, .cons hv hrs⟩
      · exact .inr ⟨v :: front, w, back, r :: rs, fault, rfl, .cons hv hfront, hw⟩

/-! ## Columns derived -/

theorem getColumn_eq_ok {c : Column f.height} (hc : f.column? name = some c) :
    (f.getColumn name : Except Fault _) = .ok c := by
  rw [getColumn, hc]
  rfl

theorem getColumn_eq_error (hc : f.column? name = none) :
    (f.getColumn name : Except Fault _) = .error .missingColumn := by
  rw [getColumn, hc]
  rfl

/-- **The topics stand in a column of their own**, and the others are as they were. -/
theorem exists_deriveColumnBy {c : Column f.height} {ts : List (Option Topic)} (hc : f.column? source = some c)
    (hrows : List.Forall₂ (fun v t => deriveRow derive v = .ok t) c.values ts) (target : Text) :
    ∃ after, f.deriveColumnBy derive source target = .ok after ∧ after.height = f.height ∧
      after.drafts = place ⟨target, .binary, ts.map topicDatum⟩ f.drafts := by
  obtain ⟨hlen, hforRows⟩ := forRows_eq_ok hrows
  let topics := topicColumn target ts (hlen.trans c.length_values)
  refine ⟨f.put topics, ?_, height_put f topics, drafts_put f topics⟩
  rw [deriveColumnBy, getColumn_eq_ok hc]
  simp only [bind, Except.bind, hforRows]
  rfl

/-- …unless a row fails. -/
theorem deriveColumnBy_eq_error {c : Column f.height} {v : Datum} {front back : List Datum} {ts : List (Option Topic)}
    (hc : f.column? source = some c) (hvalues : c.values = front ++ v :: back)
    (hfront : List.Forall₂ (fun v t => deriveRow derive v = .ok t) front ts) (hv : deriveRow derive v = .error fault) :
    f.deriveColumnBy derive source target = .error fault := by
  have hforRows : forRows (deriveRow derive) c.values = .error fault := by
    rw [hvalues]
    exact forRows_eq_error hfront hv back
  rw [deriveColumnBy, getColumn_eq_ok hc]
  simp only [bind, Except.bind, hforRows]

/-- Where a column of topics came out, it was found and none of its rows failed. -/
theorem exists_of_deriveColumnBy (h : f.deriveColumnBy derive source target = .ok g) :
    ∃ (c : Column f.height) (ts : List (Option Topic)), f.column? source = some c ∧
      List.Forall₂ (fun v t => deriveRow derive v = .ok t) c.values ts ∧ g.height = f.height ∧
      g.drafts = place ⟨target, .binary, ts.map topicDatum⟩ f.drafts := by
  cases hc : f.column? source with
  | none =>
    rw [deriveColumnBy, getColumn_eq_error hc] at h
    cases h
  | some c =>
    rcases rows_cases (deriveRow derive) c.values with ⟨ts, hts⟩ | ⟨front, v, back, ts, fault, hvalues, hfront, hv⟩
    · obtain ⟨after, hafter, hheight, hdrafts⟩ := exists_deriveColumnBy hc hts target
      obtain rfl : g = after := Except.ok.inj (h.symm.trans hafter)
      exact ⟨c, ts, rfl, hts, hheight, hdrafts⟩
    · cases h.symm.trans (deriveColumnBy_eq_error hc hvalues hfront hv)

/-! ## Rows kept -/

/-- **The rows stay whose topics pass**, in each column but that of the marks. -/
theorem exists_keepMatchingBy {c : Column f.height} {bs : List Bool} (hc : f.column? name = some c)
    (hrows : List.Forall₂ (fun v b => matchRow accepts v = .ok b) c.values bs) :
    ∃ after, f.keepMatchingBy accepts name = .ok after ∧ after.height = bs.count true ∧
      after.drafts = (f.drafts.filter (·.name ≠ maskName)).map fun d =>
        { d with values := Column.marked bs d.values } := by
  obtain ⟨hlen, hforRows⟩ := forRows_eq_ok hrows
  have hbs : bs.length = f.height := hlen.trans c.length_values
  have hmarks : f.marks accepts name = .ok ⟨bs, hbs⟩ := by
    rw [marks, getColumn_eq_ok hc]
    simp only [bind, Except.bind, hforRows]
    rfl
  have hmarked : bs.length = (f.put (markColumn maskName bs hbs)).height := hbs.trans (height_put f _).symm
  refine ⟨((f.put (markColumn maskName bs hbs)).select bs hmarked).drop maskName, ?_, rfl,
    drafts_drop_select_put f (markColumn maskName bs hbs) bs hmarked⟩
  rw [keepMatchingBy]
  simp only [bind, Except.bind, hmarks]
  rfl

/-- …unless a row fails. -/
theorem keepMatchingBy_eq_error {c : Column f.height} {v : Datum} {front back : List Datum} {bs : List Bool}
    (hc : f.column? name = some c) (hvalues : c.values = front ++ v :: back)
    (hfront : List.Forall₂ (fun v b => matchRow accepts v = .ok b) front bs) (hv : matchRow accepts v = .error fault) :
    f.keepMatchingBy accepts name = .error fault := by
  have hforRows : forRows (matchRow accepts) c.values = .error fault := by
    rw [hvalues]
    exact forRows_eq_error hfront hv back
  have hmarks : f.marks accepts name = .error fault := by
    rw [marks, getColumn_eq_ok hc]
    simp only [bind, Except.bind, hforRows]
  rw [keepMatchingBy, hmarks]
  rfl

/-! ## Derivers and matchers -/

/-- The topics of a deriver stand in a column of their own. -/
theorem exists_deriveColumn {d : Deriver} {c : Column f.height} {ts : List (Option Topic)}
    (hc : f.column? source = some c) (hrows : List.Forall₂ (fun v t => deriveRow d.derive v = .ok t) c.values ts) :
    ∃ after, f.deriveColumn d source target = .ok after ∧ after.height = f.height ∧
      after.drafts.find? (·.name = target) = some ⟨target, .binary, ts.map topicDatum⟩ ∧
      ∀ other, other ≠ target → after.drafts.find? (·.name = other) = f.drafts.find? (·.name = other) := by
  obtain ⟨after, hafter, hheight, hdrafts⟩ := exists_deriveColumnBy hc hrows target
  refine ⟨after, hafter, hheight, ?_, fun other hne => ?_⟩
  · rw [hdrafts]
    exact find?_place ⟨target, .binary, ts.map topicDatum⟩ f.drafts
  · rw [hdrafts]
    exact find?_place_of_ne hne

/-- The rows stay whose topics a matcher accepts. -/
theorem exists_keepMatching {m : Matcher} {c : Column f.height} {tss : List (List Topic)}
    (hc : f.column? name = some c) (hrows : List.Forall₂ Datum.Lists c.values tss) :
    ∃ after, f.keepMatching m name = .ok after ∧ after.height = (tss.map m.accepts).count true ∧
      ∀ other, other ≠ maskName → after.drafts.find? (·.name = other) =
        (f.drafts.find? (·.name = other)).map fun d =>
          { d with values := Column.marked (tss.map m.accepts) d.values } := by
  let accepts (ts : List Topic) : Except Fault Bool := .ok (m.accepts ts)
  have hmatch : List.Forall₂ (fun v b => matchRow accepts v = .ok b) c.values (tss.map m.accepts) :=
    List.forall₂_map_right_iff.mpr <| hrows.imp fun v ts hv => by
      rw [matchRow, hv.topics]
      rfl
  obtain ⟨after, hafter, hheight, hdrafts⟩ := exists_keepMatchingBy hc hmatch
  refine ⟨after, hafter, hheight, fun other hne => ?_⟩
  rw [hdrafts, List.find?_map]
  exact congrArg _ (find?_filter_ne hne f.drafts)

end TopicFilter.Frame
