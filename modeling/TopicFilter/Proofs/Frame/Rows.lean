import Mathlib.Data.List.Forall2
import TopicFilter.Proofs.Store.Keeping

/-!
# Proofs/Frame/Rows — rows one after another

A computation on the rows of a column gives a result for each row (`on_forRows_ok`), or ends at the first row that
fails (`exists_on_forRows_error`); where the outcome for each row is known, so is theirs (`yields_forRows`). A row of a
column of lists of byte strings lists topics if each item is a byte string of four bytes, and null lists none:
`Datum.Lists` is what is read there, and an item that is no topic is refused as a value
(`Datum.exists_topics_eq_error`).
-/

namespace TopicFilter

/-! ## Results for each item -/

section MapM

variable {α β : Type} {f : α → Except Fault β} {as : List α} {bs : List β}

theorem mapM_eq_ok_iff : as.mapM f = .ok bs ↔ List.Forall₂ (fun a b => f a = .ok b) as bs := by
  induction as generalizing bs with
  | nil =>
    rw [List.mapM_nil, List.forall₂_nil_left_iff]
    exact ⟨fun h => (Except.ok.inj h).symm, fun h => h ▸ rfl⟩
  | cons a as ih =>
    rw [List.mapM_cons, List.forall₂_cons_left_iff]
    constructor
    · intro h
      rcases ha : f a with fault | b
      · rw [ha] at h
        cases h
      · rcases has : as.mapM f with fault | bs'
        · rw [ha, has] at h
          cases h
        · rw [ha, has] at h
          exact ⟨b, bs', rfl, ih.mp has, (Except.ok.inj h).symm⟩
    · rintro ⟨b, bs', hb, hbs', rfl⟩
      rw [hb, ih.mpr hbs']
      rfl

/-- Items with the same results one by one have them together. -/
theorem mapM_congr {γ : Type} {g : γ → Except Fault β} {cs : List γ} (h : List.Forall₂ (fun a c => f a = g c) as cs) :
    as.mapM f = cs.mapM g := by
  induction h with
  | nil => rfl
  | cons hac _ ih => rw [List.mapM_cons, List.mapM_cons, hac, ih]

/-- A failure is that of one of the items. -/
theorem exists_of_mapM_eq_error {fault : Fault} (h : as.mapM f = .error fault) : ∃ a ∈ as, f a = .error fault := by
  induction as with
  | nil => cases h
  | cons a as ih =>
    rw [List.mapM_cons] at h
    rcases ha : f a with fault' | b
    · rw [ha] at h
      obtain rfl : fault' = fault := Except.error.inj h
      exact ⟨a, List.mem_cons_self, ha⟩
    · rcases has : as.mapM f with fault' | bs
      · rw [ha, has] at h
        obtain rfl : fault' = fault := Except.error.inj h
        obtain ⟨a', ha', hfault⟩ := ih has
        exact ⟨a', List.mem_cons_of_mem _ ha', hfault⟩
      · rw [ha, has] at h
        cases h

end MapM

theorem exists_forall₂ {α β : Type} {R : α → β → Prop} {as : List α} (h : ∀ a ∈ as, ∃ b, R a b) :
    ∃ bs, List.Forall₂ R as bs := by
  induction as with
  | nil => exact ⟨[], .nil⟩
  | cons a as ih =>
    obtain ⟨⟨b, hb⟩, has⟩ := List.forall_mem_cons.mp h
    obtain ⟨bs, hbs⟩ := ih has
    exact ⟨b :: bs, .cons hb hbs⟩

theorem exists_of_forall₂ {α β : Type} {R : α → β → Prop} {as : List α} {bs : List β} (h : List.Forall₂ R as bs)
    {a : α} (ha : a ∈ as) : ∃ b, R a b := by
  induction h with
  | nil => cases ha
  | cons hab _ ih =>
    rcases List.mem_cons.mp ha with rfl | ha
    · exact ⟨_, hab⟩
    · exact ih ha

/-! ## Rows of topics -/

namespace Datum

variable {v : Datum} {ts : List Topic} {items : List Datum} {fault : Fault}

/-- The topics that a row lists; null lists none. -/
inductive Lists : Datum → List Topic → Prop where
  /-- Null. -/
  | null : Lists .null []
  /-- A list of byte strings that are topics. -/
  | list (ts : List Topic) : Lists (.list (ts.map fun t => .binary t.bytes)) ts

/-- Every item of the row, if it has any, is a byte string of four bytes. -/
def HoldsTopics (v : Datum) : Prop := ∀ items, v = .list items → ∀ item ∈ items, ∃ b, item = .binary b ∧ b.length = 4

theorem topic_eq_ok_iff {item : Datum} {t : Topic} : item.topic = .ok t ↔ item = .binary t.bytes := by
  cases item <;> simp [topic, Topic.ofBytes_eq_ok_iff]

theorem sort_of_topic_eq_error {item : Datum} (h : item.topic = .error fault) : fault.sort = .value := by
  unfold topic at h
  split at h
  · unfold Topic.ofBytes at h
    split at h
    · cases h
    · cases h
      rfl
  · cases h
    rfl

theorem mapM_topic_eq_ok_iff : items.mapM topic = .ok ts ↔ items = ts.map fun t => .binary t.bytes := by
  simp only [mapM_eq_ok_iff, topic_eq_ok_iff]
  rw [← List.forall₂_map_right_iff, List.forall₂_eq_eq_eq]

theorem exists_topic {b : Bytes} (h : b.length = 4) : ∃ t, (binary b).topic = .ok t := by
  rcases b with _ | ⟨b0, _ | ⟨b1, _ | ⟨b2, _ | ⟨b3, _ | ⟨b4, rest⟩⟩⟩⟩⟩ <;> simp at h
  exact ⟨⟨b0, b1, b2, b3⟩, rfl⟩

/-- In a column of lists of byte strings a row is null or a list. -/
theorem eq_null_or_list (h : (DType.list .binary).holds v = true) : v = .null ∨ ∃ items, v = .list items := by
  cases v with
  | null => exact .inl rfl
  | list items => exact .inr ⟨items, rfl⟩
  | _ => cases h

theorem Lists.holdsTopics (h : v.Lists ts) : v.HoldsTopics := by
  cases h with
  | null => nofun
  | list ts =>
    rintro _ ⟨⟩ item hitem
    obtain ⟨t, _, rfl⟩ := List.mem_map.mp hitem
    exact ⟨t.bytes, rfl, Topic.length_bytes t⟩

/-- A row lists topics when each of its items is one. -/
theorem HoldsTopics.exists_lists (h : v.HoldsTopics) (hv : (DType.list .binary).holds v = true) :
    ∃ ts, v.Lists ts := by
  rcases eq_null_or_list hv with rfl | ⟨items, rfl⟩
  · exact ⟨[], .null⟩
  · rcases hread : items.mapM topic with fault | ts
    · obtain ⟨item, hitem, hfault⟩ := exists_of_mapM_eq_error hread
      obtain ⟨b, rfl, hb⟩ := h items rfl item hitem
      obtain ⟨t, ht⟩ := exists_topic hb
      cases ht.symm.trans hfault
    · obtain rfl := mapM_topic_eq_ok_iff.mp hread
      exact ⟨ts, .list ts⟩

/-- **What a row lists is what is read from it.** -/
theorem Lists.topics (h : v.Lists ts) : v.topics = .ok ts := by
  cases h with
  | null => rfl
  | list ts => exact mapM_topic_eq_ok_iff.mpr rfl

/-- …and a row that lists no topics is refused as a value. -/
theorem exists_topics_eq_error (h : ¬ v.HoldsTopics) (hv : (DType.list .binary).holds v = true) :
    ∃ fault, v.topics = .error fault ∧ fault.sort = .value := by
  rcases eq_null_or_list hv with rfl | ⟨items, rfl⟩
  · exact absurd Lists.null.holdsTopics h
  · rcases hread : items.mapM topic with fault | ts
    · obtain ⟨item, _, hfault⟩ := exists_of_mapM_eq_error hread
      exact ⟨fault, hread, sort_of_topic_eq_error hfault⟩
    · obtain rfl := mapM_topic_eq_ok_iff.mp hread
      exact absurd (Lists.list ts).holdsTopics h

end Datum

/-! ## Columns by name -/

namespace Store

variable {s s' : Store} {f : Frame} {name t : Text} {v : Value}

theorem on_getColumn {c : Column f.height} (hc : f.column? name = some c) :
    (f.getColumn name : Action _).on s = (.ok c, s) := by
  rw [Frame.getColumn, hc]
  rfl

/-- Whether a value names a column does not depend on the store. -/
theorem on_columnName_congr (h : (Action.columnName v).on s = (.ok t, s')) (s'' : Store) :
    (Action.columnName v).on s'' = (.ok t, s'') := by
  unfold Action.columnName at h ⊢
  split at h
  · rw [Action.on_ofExcept] at h ⊢
    rw [(Prod.mk.inj h).1]
  · cases h

theorem on_columnNameOr_congr {default : Text} {column : Option Value}
    (h : (Action.columnNameOr default column).on s = (.ok t, s')) (s'' : Store) :
    (Action.columnNameOr default column).on s'' = (.ok t, s'') := by
  cases column with
  | none =>
    obtain ⟨ht, -⟩ := Prod.mk.inj h
    exact congrArg (·, s'') ht
  | some v => exact on_columnName_congr h s''

/-- A text without surrogates names a column. -/
theorem on_columnName_text (h : ∀ x ∈ t, x.isSurrogate = false) :
    (Action.columnName (.scalar (.text t))).on s = (.ok t, s) := by
  obtain ⟨b, hb⟩ := (Utf8.exists_encode_eq_ok_iff t).mpr h
  rw [Action.columnName]
  simp [Value.text?, Action.columnText, Payload.encode, hb, Except.map]

/-- …and so it names a new one. -/
theorem newName_text (h : ∀ x ∈ t, x.isSurrogate = false) (default : Text) :
    Action.newName default (some (.scalar (.text t))) = .ok t := by
  obtain ⟨b, hb⟩ := (Utf8.exists_encode_eq_ok_iff t).mpr h
  simp [Action.newName, Value.text?, Action.columnText, Payload.encode, hb, Except.map]

/-- A tool that is there is ready for the rows of any frame. -/
theorem on_ready {α : Type} {tool : Action α} {a : α} (h : tool.on s = (.ok a, s)) (f : Frame) (name : Text)
    (counts : Datum → Bool) : (Action.ready f name counts tool).on s = (.ok (), s) := by
  unfold Action.ready
  split
  · rw [Action.on_discard, h]
    rfl
  · rfl

/-- A new column with a proper name is whatever comes of building it. -/
theorem on_withColumn {build : Text → Action Frame} {outcome : Except Fault Frame}
    (h : (build t).on s = (outcome, s')) : (Action.withColumn (.ok t) build).on s = (outcome, s') := by
  cases outcome with
  | ok after => exact (Action.on_bind_ok h).trans rfl
  | error fault => exact Action.on_bind_error h

end Store

/-! ## Computations on rows -/

namespace Frame

variable {α β : Type} {row : α → Action β} {vs : List α} {rs : List β} {s : Store} {may : Address → Prop}

@[simp] theorem on_lift (e : Except Fault α) (s : Store) : (lift e : Action α).on s = (e, s) := by
  cases e <;> rfl

/-- **Each row has its result**, if none fails. -/
theorem on_forRows_ok (h : List.Forall₂ (fun v r => (row v).on s = (.ok r, s)) vs rs) :
    ∃ hlen, (forRows row vs).on s = (.ok ⟨rs, hlen⟩, s) := by
  induction h with
  | nil => exact ⟨rfl, rfl⟩
  | cons hv _ ih =>
    obtain ⟨hlen, hvs⟩ := ih
    refine ⟨by rw [List.length_cons, List.length_cons, hlen], ?_⟩
    rw [forRows, Action.on_bind_ok hv, Action.on_bind_ok hvs]
    rfl

/-- …and the first that fails ends it. -/
theorem on_forRows_error {front back : List α} {v : α} {fault : Fault}
    (hfront : List.Forall₂ (fun v r => (row v).on s = (.ok r, s)) front rs) (hv : (row v).on s = (.error fault, s)) :
    (forRows row (front ++ v :: back)).on s = (.error fault, s) := by
  induction hfront with
  | nil => rw [List.nil_append, forRows, Action.on_bind_error hv]
  | cons hw _ ih => rw [List.cons_append, forRows, Action.on_bind_ok hw, Action.on_bind_error ih]

/-- Where each row has a result or fails, and one fails, the first that does ends it. -/
theorem exists_on_forRows_error {P : Fault → Prop}
    (h : ∀ v ∈ vs, (∃ r, (row v).on s = (.ok r, s)) ∨ ∃ fault, P fault ∧ (row v).on s = (.error fault, s))
    (hbad : ∃ v ∈ vs, ∃ fault, P fault ∧ (row v).on s = (.error fault, s)) :
    ∃ fault, P fault ∧ (forRows row vs).on s = (.error fault, s) := by
  induction vs with
  | nil =>
    obtain ⟨_, hv, _⟩ := hbad
    cases hv
  | cons v vs ih =>
    obtain ⟨hv, hvs⟩ := List.forall_mem_cons.mp h
    rcases hv with ⟨r, hr⟩ | ⟨fault, hP, hfault⟩
    · have hbad' : ∃ v ∈ vs, ∃ fault, P fault ∧ (row v).on s = (.error fault, s) := by
        obtain ⟨w, hw, fault, hP, hfault⟩ := hbad
        rcases List.mem_cons.mp hw with rfl | hw
        · cases hr.symm.trans hfault
        · exact ⟨w, hw, fault, hP, hfault⟩
      obtain ⟨fault, hP, hfault⟩ := ih hvs hbad'
      refine ⟨fault, hP, ?_⟩
      rw [forRows, Action.on_bind_ok hr, Action.on_bind_error hfault]
    · refine ⟨fault, hP, ?_⟩
      rw [forRows, Action.on_bind_error hfault]

theorem yields_lift (e : Except Fault α) : (lift e : Action α).Yields may s (lift e) := by
  cases e <;> exact .of_on rfl

theorem yields_getColumn (f : Frame) (name : Text) :
    (f.getColumn name : Action (Column f.height)).Yields may s (f.getColumn name) := by
  unfold getColumn
  cases f.column? name <;> exact .of_on rfl

/-- Rows that come to outcomes one by one come to them together. -/
theorem yields_forRows {row : α → Action β} {result : α → Except Fault β}
    (h : ∀ v s', s.KeepsBut may s' → (row v).Yields may s' (result v)) (vs : List α) :
    (forRows row vs).Yields may s (forRows result vs) := by
  induction vs generalizing s with
  | nil => exact .of_on rfl
  | cons v vs ih =>
    exact .bind (h v s (.refl s)) fun r s₁ hs₁ =>
      .bind (ih fun w s₂ hs₂ => h w s₂ (hs₁.trans hs₂)) fun _ _ _ => .of_on rfl

end Frame

end TopicFilter
