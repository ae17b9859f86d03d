import TopicFilter.Proofs.Frame.Matching
import TopicFilter.Proofs.Frame.Plain

/-!
# Proofs/Frame/Blank — what else counts as a message without topics

A column that topics are read from need not be one of lists. Besides null, a row without a list is read as no topics
exactly if it is blank: zero, false or empty (`Datum.topics_eq_ok_iff`). Numbers and truth values that are not blank
cannot be gone through, and any other row is refused as a value (`Datum.sort_of_topics_eq_error`). So a column of blank
rows is taken for one of messages without topics (`exists_matchColumn_blank`), and one that holds anything else but
lists of topics fails as its first such row does (`on_matchColumn_rows`). All this is said of the types of `DType`.
-/

namespace TopicFilter

namespace Datum

variable {v : Datum} {ts : List Topic} {fault : Fault}

/-! ## Rows of any type -/

/-- The row is zero, false or empty, and neither null nor a list. -/
def IsBlank : Datum → Prop
  | bool b => b = false
  | int n => n = 0
  | float x => x.isNonzero = false
  | text t => t = []
  | binary b => b = []
  | _ => False

/-- The row is a number or a truth value. -/
def isNumber : Datum → Bool
  | bool _ | int _ | float _ => true
  | _ => false

/-- The topics that a row counts as: those that it lists, or none if it is blank. -/
inductive CountsAs : Datum → List Topic → Prop where
  /-- It lists the topics. -/
  | lists {v : Datum} {ts : List Topic} (h : v.Lists ts) : CountsAs v ts
  /-- It is blank. -/
  | blank {v : Datum} (h : v.IsBlank) : CountsAs v []

theorem IsBlank.not_lists (h : v.IsBlank) (ts : List Topic) : ¬ v.Lists ts := fun hts => by
  cases hts <;> exact h

/-- **What is read from a row is what it counts as.** -/
theorem topics_eq_ok_iff : v.topics = .ok ts ↔ v.CountsAs ts := by
  constructor
  · intro h
    cases v with
    | null =>
      cases h
      exact .lists .null
    | list items =>
      obtain rfl := mapM_topic_eq_ok_iff.mp h
      exact .lists (.list ts)
    | bool b =>
      simp only [topics] at h
      split at h <;> cases h
      exact .blank (Bool.eq_false_iff.mpr ‹_›)
    | int n =>
      simp only [topics] at h
      split at h <;> cases h
      exact .blank ‹_›
    | float x =>
      simp only [topics] at h
      split at h <;> cases h
      exact .blank (Bool.eq_false_iff.mpr ‹_›)
    | text t =>
      simp only [topics] at h
      split at h <;> cases h
      exact .blank (List.isEmpty_iff.mp ‹_›)
    | binary b =>
      simp only [topics] at h
      split at h <;> cases h
      exact .blank (List.isEmpty_iff.mp ‹_›)
  · rintro (h | h)
    · exact h.topics
    · cases v with
      | null | list => exact h.elim
      | float x => exact if_neg (Bool.eq_false_iff.mp h)
      | bool | int | text | binary =>
        cases h
        rfl

theorem exists_countsAs_iff : (∃ ts, v.CountsAs ts) ↔ (∃ ts, v.Lists ts) ∨ v.IsBlank := by
  constructor
  · rintro ⟨ts, h | h⟩
    · exact .inl ⟨ts, h⟩
    · exact .inr h
  · rintro (⟨ts, h⟩ | h)
    · exact ⟨ts, .lists h⟩
    · exact ⟨[], .blank h⟩

/-- A row that is refused is one that cannot be gone through, or one whose items are no topics. -/
theorem sort_of_topics_eq_error (h : v.topics = .error fault) :
    fault.sort = if v.isNumber then .type else .value := by
  cases v with
  | null => cases h
  | list items =>
    obtain ⟨item, _, hitem⟩ := exists_of_mapM_eq_error h
    exact sort_of_topic_eq_error hitem
  | _ =>
    simp only [topics] at h
    split at h <;> cases h
    rfl

/-- A row that counts as no message is refused. -/
theorem exists_topics_eq_error_of_not_countsAs (h : ∀ ts, ¬ v.CountsAs ts) :
    ∃ fault, v.topics = .error fault ∧ fault.sort = if v.isNumber then .type else .value := by
  cases hread : v.topics with
  | ok ts => exact absurd (topics_eq_ok_iff.mp hread) (h ts)
  | error fault => exact ⟨fault, rfl, sort_of_topics_eq_error hread⟩

/-- Rows all count as messages, or one of them is the first that does not. -/
theorem countsAs_cases (vs : List Datum) :
    (∃ tss, List.Forall₂ CountsAs vs tss) ∨
      ∃ front v back tss, vs = front ++ v :: back ∧ List.Forall₂ CountsAs front tss ∧ ∀ ts, ¬ v.CountsAs ts := by
  rcases Frame.rows_cases topics vs with ⟨tss, hrows⟩ | ⟨front, v, back, tss, fault, rfl, hfront, hv⟩
  · exact .inl ⟨tss, hrows.imp fun _ _ => topics_eq_ok_iff.mp⟩
  · refine .inr ⟨front, v, back, tss, rfl, hfront.imp fun _ _ => topics_eq_ok_iff.mp, fun ts hts => ?_⟩
    cases (topics_eq_ok_iff.mpr hts).symm.trans hv

end Datum

namespace Store

variable {s : Store} {m : Value} {members : List Value} {f : Frame} {name t : Text} {c : Column f.height}
  {tss : List (List Topic)} {column target : Option Value}

/-! ## Columns of any type -/

/-- The first row that counts as no message ends it. -/
theorem MatcherOver.on_marks_error (h : s.MatcherOver m members) (hc : f.column? name = some c) {v : Datum}
    {front back : List Datum} {fault : Fault} (hvalues : c.values = front ++ v :: back)
    (hfront : List.Forall₂ Datum.CountsAs front tss) (hv : v.topics = .error fault) :
    (f.marks (Action.matchesTopics m) name).on s = (.error fault, s) := by
  have hrow : (Frame.matchRow (Action.matchesTopics m) v).on s = (.error fault, s) := by
    have hlift : (Frame.lift v.topics : Action (List Topic)).on s = (.error fault, s) := by rw [Frame.on_lift, hv]
    rw [Frame.matchRow, Action.on_bind_error hlift]
  have hrows : (Frame.forRows (Frame.matchRow (Action.matchesTopics m)) c.values).on s = (.error fault, s) := by
    rw [hvalues]
    exact Frame.on_forRows_error (List.forall₂_map_right_iff.mpr
      (hfront.imp fun _ _ hw => h.on_matchRow (Datum.topics_eq_ok_iff.mpr hw))) hrow
  rw [Frame.marks, Action.on_bind_ok (on_getColumn hc), Action.on_bind_error hrows]

/-- A column of messages is marked as the matcher answers to them. -/
theorem MatcherOver.exists_on_matchColumn_of_countsAs (h : s.MatcherOver m members)
    (hcolumn : (Action.columnNameOr Frame.defaultTopicsName column).on s = (.ok name, s))
    (htarget : Action.newName Frame.defaultMarkName target = .ok t) (hc : f.column? name = some c)
    (hrows : List.Forall₂ Datum.CountsAs c.values tss) :
    ∃ bs after, List.Forall₂ (fun ts b => s.answer m ts = .ok b) tss bs ∧
      (Action.matchColumn f m column target).on s = (.ok after, s) ∧ after.height = f.height ∧
      after.drafts.find? (·.name = t) = some ⟨t, .boolean, bs.map .bool⟩ ∧
      after.drafts.filter (·.name ≠ t) = f.drafts.filter (·.name ≠ t) := by
  obtain ⟨bs, hbs, hmarks, hanswers⟩ := h.exists_on_marks hc (hrows.imp fun _ _ => Datum.topics_eq_ok_iff.mpr)
  obtain ⟨after, hafter⟩ := h.exists_on_matchColumn hcolumn htarget hmarks
  exact ⟨bs, after, hanswers, hafter⟩

/-- …and any other fails as its first row that is no message does. -/
theorem MatcherOver.exists_on_matchColumn_error (h : s.MatcherOver m members)
    (hcolumn : (Action.columnNameOr Frame.defaultTopicsName column).on s = (.ok name, s))
    (htarget : Action.newName Frame.defaultMarkName target = .ok t) (hc : f.column? name = some c) {v : Datum}
    {front back : List Datum} (hvalues : c.values = front ++ v :: back)
    (hfront : List.Forall₂ Datum.CountsAs front tss) (hv : ∀ ts, ¬ v.CountsAs ts) :
    ∃ fault, v.topics = .error fault ∧ fault.sort = (if v.isNumber then .type else .value) ∧
      (Action.matchColumn f m column target).on s = (.error fault, s) := by
  obtain ⟨fault, hread, hsort⟩ := Datum.exists_topics_eq_error_of_not_countsAs hv
  refine ⟨fault, hread, hsort, h.on_matchColumn hcolumn htarget ?_⟩
  rw [Frame.matchColumnBy, Action.on_bind_error (h.on_marks_error hc hvalues hfront hread)]

/-- **Which columns a matcher can be applied to**, of all types that a `DType` is. Each row has to be null, a list of
topics, or blank. Then the marks are the answers to the topics that the rows count as. Else the first row that is none of
these fails the whole. -/
theorem on_matchColumn_rows (hm : s.Built m)
    (hcolumn : (Action.columnNameOr Frame.defaultTopicsName column).on s = (.ok name, s))
    (htarget : Action.newName Frame.defaultMarkName target = .ok t) (hc : f.column? name = some c) :
    ((∃ after s', (Action.matchColumn f m column target).on s = (.ok after, s')) ↔
        ∀ v ∈ c.values, (∃ ts, v.Lists ts) ∨ v.IsBlank) ∧
      (∀ tss, List.Forall₂ Datum.CountsAs c.values tss →
        ∃ bs after, List.Forall₂ (fun ts b => s.answer m ts = .ok b) tss bs ∧
          (Action.matchColumn f m column target).on s = (.ok after, s) ∧ after.height = f.height ∧
          after.drafts.find? (·.name = t) = some ⟨t, .boolean, bs.map .bool⟩ ∧
          after.drafts.filter (·.name ≠ t) = f.drafts.filter (·.name ≠ t)) ∧
      ∀ front v back tss, c.values = front ++ v :: back → List.Forall₂ Datum.CountsAs front tss →
        (∀ ts, ¬ v.CountsAs ts) →
        ∃ fault, v.topics = .error fault ∧ fault.sort = (if v.isNumber then .type else .value) ∧
          (Action.matchColumn f m column target).on s = (.error fault, s) := by
  obtain ⟨members, hover⟩ := hm.exists_matcherOver
  refine ⟨?_, fun tss hrows => hover.exists_on_matchColumn_of_countsAs hcolumn htarget hc hrows,
    fun front v back tss hvalues hfront hv => hover.exists_on_matchColumn_error hcolumn htarget hc hvalues hfront hv⟩
  constructor
  · rintro ⟨after, s', hafter⟩
    rcases Datum.countsAs_cases c.values with ⟨tss, hrows⟩ | ⟨front, v, back, tss, hvalues, hfront, hv⟩
    · exact fun v hv => Datum.exists_countsAs_iff.mp (exists_of_forall₂ hrows hv)
    · obtain ⟨fault, _, _, hfault⟩ := hover.exists_on_matchColumn_error hcolumn htarget hc hvalues hfront hv
      cases hfault.symm.trans hafter
  · intro hrows
    obtain ⟨tss, htss⟩ := exists_forall₂ fun v hv => Datum.exists_countsAs_iff.mpr (hrows v hv)
    obtain ⟨bs, after, _, hafter, _⟩ := hover.exists_on_matchColumn_of_countsAs hcolumn htarget hc htss
    exact ⟨after, s, hafter⟩

/-- Null and an empty byte string count as messages without topics, and a byte string of four bytes counts as none. -/
theorem on_matchColumn_rows_binary :
    let s₀ := holding [.items .list []]
    let binary (values : List Datum) (h : ∀ v ∈ values, DType.binary.holds v = true) : Frame :=
      { height := values.length
        columns := [⟨Frame.defaultTopicsName, .binary, values, rfl, h⟩]
        nodup := by simp }
    let f := binary [.null, .binary []] (by decide)
    let g := binary [.binary [], .binary [1, 2, 3, 4]] (by decide)
    ∃ m s, (Action.compile (.object 2)).on s₀ = (.ok m, s) ∧
      (∃ after, (Action.matchColumn f m none none).on s = (.ok after, s) ∧ after.height = f.height ∧
        after.drafts.find? (·.name = Frame.defaultMarkName) =
          some ⟨Frame.defaultMarkName, .boolean, [.bool true, .bool true]⟩) ∧
      (Action.matchColumn g m none none).on s = (.error (.topicNotBytes "int"), s) ∧
      ¬ ∃ after s', (Action.matchColumn g m none none).on s = (.ok after, s') := by
  intro s₀ binary f g
  obtain ⟨m, s, hm⟩ : ∃ m s, (Action.compile (.object 2)).on s₀ = (.ok m, s) := ⟨_, _, rfl⟩
  have hbuilt : s.Built m := ⟨s₀, s, _, .inl ⟨_, rfl⟩, hm, .refl s⟩
  have hanswer : s.answer m [] = .ok true := by
    cases hm
    rfl
  have hblank : (Datum.binary []).CountsAs [] := .blank rfl
  have hfour : ∀ ts, ¬ (Datum.binary [1, 2, 3, 4]).CountsAs ts := by
    rintro _ (h | h) <;> cases h
  have hcolumn : (Action.columnNameOr Frame.defaultTopicsName none).on s = (.ok Frame.defaultTopicsName, s) := rfl
  have htarget : Action.newName Frame.defaultMarkName none = .ok Frame.defaultMarkName := rfl
  have hread (values : List Datum) (h : ∀ v ∈ values, DType.binary.holds v = true) :
      (binary values h).column? Frame.defaultTopicsName = some ⟨Frame.defaultTopicsName, .binary, values, rfl, h⟩ := rfl
  obtain ⟨-, hmarks, -⟩ := on_matchColumn_rows hbuilt hcolumn htarget (hread [.null, .binary []] (by decide))
  obtain ⟨hrows, -, hfails⟩ :=
    on_matchColumn_rows hbuilt hcolumn htarget (hread [.binary [], .binary [1, 2, 3, 4]] (by decide))
  refine ⟨m, s, hm, ?_, ?_, fun hafter => ?_⟩
  · obtain ⟨bs, after, hanswers, hafter, hheight, hcolumn, _⟩ :=
      hmarks [[], []] (.cons (.lists .null) (.cons hblank .nil))
    obtain rfl : bs = [true, true] := by
      cases hanswers with
      | cons hfirst hothers =>
        cases hothers with
        | cons hsecond hnone =>
          cases hnone
          cases hanswer.symm.trans hfirst
          cases hanswer.symm.trans hsecond
          rfl
    exact ⟨after, hafter, hheight, hcolumn⟩
  · obtain ⟨fault, hfault, _, hfails⟩ := hfails [.binary []] _ [] [[]] rfl (.cons hblank .nil) hfour
    cases hfault
    exact hfails
  · rcases hrows.mp hafter (.binary [1, 2, 3, 4]) (.tail _ (.head _)) with ⟨ts, hts⟩ | hts <;> cases hts

/-- **A message without topics need not be null or a list.** A matcher without conditions accepts the row of each of
these columns, though none of them lists topics. -/
theorem exists_matchColumn_blank :
    let f : Frame :=
      { height := 1
        columns := [⟨TopicFilter.text "flag", .boolean, [.bool false], rfl, by decide⟩,
          ⟨TopicFilter.text "id", .int64, [.int 0], rfl, by decide⟩,
          ⟨TopicFilter.text "ratio", .float64, [.float ⟨0⟩], rfl, by decide⟩,
          ⟨TopicFilter.text "name", .string, [.text []], rfl, by decide⟩,
          ⟨TopicFilter.text "topic", .binary, [.binary []], rfl, by decide⟩]
        nodup := by decide }
    ∃ m s, (Action.compile (.object 2)).on (holding [.items .list []]) = (.ok m, s) ∧
      ∀ c ∈ f.columns, (∀ v ∈ c.values, ∀ ts, ¬ v.Lists ts) ∧
        ∃ after, (Action.matchColumn f m (some (.scalar (.text c.name))) none).on s = (.ok after, s) ∧
          after.drafts.find? (·.name = Frame.defaultMarkName) =
            some ⟨Frame.defaultMarkName, .boolean, [.bool true]⟩ := by
  intro f
  refine ⟨_, _, rfl, ?_⟩
  simp only [f, List.forall_mem_cons, List.not_mem_nil, false_implies, implies_true, and_true]
  refine ⟨⟨?_, _, rfl, rfl⟩, ⟨?_, _, rfl, rfl⟩, ⟨?_, _, rfl, rfl⟩, ⟨?_, _, rfl, rfl⟩, ?_, _, rfl, rfl⟩ <;>
    exact Datum.IsBlank.not_lists rfl

end Store

end TopicFilter
