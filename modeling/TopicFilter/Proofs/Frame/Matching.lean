import TopicFilter.Proofs.Frame.Columns
import TopicFilter.Proofs.Frame.Rows
import TopicFilter.Proofs.Matcher.Positions

/-!
# Proofs/Frame/Matching — frames are filtered as messages are

Rows are marked or kept as the matcher answers to the topics that are read there (`exists_on_marks`). Every row is read
before it is matched, and so a single item that is no topic fails the whole frame, whatever the matcher
(`exists_on_marks_error`). `on_matchColumn_keepMatching` says the same of the two operations on frames, and what the
frames hold that come out of them. Whatever the rows list, what a matcher leaves of a frame is what its answers leave
(`yields_keepMatching`).
-/

namespace TopicFilter

/-! ## Rows that topics pass -/

namespace Frame

variable {may : Address → Prop} {s : Store} {accepts : List Topic → Action Bool}
  {result : List Topic → Except Fault Bool}

theorem yields_matchRow (h : ∀ ts s', s.KeepsBut may s' → (accepts ts).Yields may s' (result ts)) (v : Datum) :
    (matchRow accepts v).Yields may s (matchRow result v) :=
  .bind (yields_lift v.topics) h

theorem yields_marks (h : ∀ ts s', s.KeepsBut may s' → (accepts ts).Yields may s' (result ts)) (column : Text)
    (f : Frame) : (f.marks accepts column).Yields may s (f.marks result column) := by
  refine .bind (yields_getColumn f column) fun c s₁ hs₁ => ?_
  refine .bind (yields_forRows (fun v s₂ hs₂ => ?_) c.values) fun _ _ _ => .of_on rfl
  exact yields_matchRow (fun ts s₃ hs₃ => h ts s₃ ((hs₁.trans hs₂).trans hs₃)) v

theorem yields_keepMatchingBy (h : ∀ ts s', s.KeepsBut may s' → (accepts ts).Yields may s' (result ts))
    (column : Text) (f : Frame) :
    (f.keepMatchingBy accepts column).Yields may s (f.keepMatchingBy result column) :=
  .bind (yields_marks h column f) fun _ _ _ => .of_on rfl

end Frame

namespace Store

variable {s s' : Store} {m : Value} {members : List Value} {f : Frame} {name : Text} {c : Column f.height}
  {tss : List (List Topic)}

/-! ## Marks -/

namespace MatcherOver

theorem on_matchRow (h : s.MatcherOver m members) {v : Datum} {ts : List Topic} (hv : v.topics = .ok ts) :
    (Frame.matchRow (Action.matchesTopics m) v).on s =
      (.ok (decide (members.length ≤ ts.length) && s.admitsAll members ts), s) := by
  have hlift : (Frame.lift v.topics : Action (List Topic)).on s = (.ok ts, s) := by rw [Frame.on_lift, hv]
  rw [Frame.matchRow, Action.on_bind_ok hlift, h.on_matchesTopics]

/-- **Each row is marked as the matcher answers to its topics.** -/
theorem exists_on_marks (h : s.MatcherOver m members) (hc : f.column? name = some c)
    (hrows : List.Forall₂ (fun v ts => v.topics = .ok ts) c.values tss) :
    ∃ bs hbs, (f.marks (Action.matchesTopics m) name).on s = (.ok ⟨bs, hbs⟩, s) ∧
      List.Forall₂ (fun ts b => s.answer m ts = .ok b) tss bs := by
  obtain ⟨hlen, hforRows⟩ := Frame.on_forRows_ok
    (List.forall₂_map_right_iff.mpr (hrows.imp fun _ _ hv => h.on_matchRow hv))
  refine ⟨_, hlen.trans c.length_values, ?_,
    List.forall₂_map_right_iff.mpr (List.forall₂_same.mpr fun ts _ => h.answer ts)⟩
  rw [Frame.marks, Action.on_bind_ok (on_getColumn hc), Action.on_bind_ok hforRows]
  rfl

/-- …and a row that lists no topics is refused as a value. -/
theorem exists_on_marks_error (h : s.MatcherOver m members) (hc : f.column? name = some c)
    (hdtype : c.dtype = .list .binary) (hbad : ¬ ∀ v ∈ c.values, v.HoldsTopics) :
    ∃ fault, fault.sort = .value ∧ (f.marks (Action.matchesTopics m) name).on s = (.error fault, s) := by
  have hrefused : ∀ v ∈ c.values, ¬ v.HoldsTopics → ∃ fault, fault.sort = .value ∧
      (Frame.matchRow (Action.matchesTopics m) v).on s = (.error fault, s) := by
    intro v hv hnot
    obtain ⟨fault, hread, hsort⟩ := Datum.exists_topics_eq_error hnot (hdtype ▸ c.holds_values v hv)
    have hlift : (Frame.lift v.topics : Action (List Topic)).on s = (.error fault, s) := by rw [Frame.on_lift, hread]
    refine ⟨fault, hsort, ?_⟩
    rw [Frame.matchRow, Action.on_bind_error hlift]
  have hrows : ∀ v ∈ c.values, (∃ b, (Frame.matchRow (Action.matchesTopics m) v).on s = (.ok b, s)) ∨
      ∃ fault, fault.sort = .value ∧ (Frame.matchRow (Action.matchesTopics m) v).on s = (.error fault, s) := by
    intro v hv
    by_cases htopics : v.HoldsTopics
    · obtain ⟨ts, hts⟩ := htopics.exists_lists (hdtype ▸ c.holds_values v hv)
      exact .inl ⟨_, h.on_matchRow hts.topics⟩
    · exact .inr (hrefused v hv htopics)
  have hsome : ∃ v ∈ c.values, ¬ v.HoldsTopics := by
    simpa only [not_forall, exists_prop] using hbad
  obtain ⟨v, hv, hnot⟩ := hsome
  obtain ⟨fault, hsort, hforRows⟩ := Frame.exists_on_forRows_error (P := fun fault => fault.sort = .value) hrows
    ⟨v, hv, hrefused v hv hnot⟩
  refine ⟨fault, hsort, ?_⟩
  rw [Frame.marks, Action.on_bind_ok (on_getColumn hc), Action.on_bind_error hforRows]

/-! ## Frames -/

/-- A matcher is there for the rows. -/
theorem on_hasFunction (h : s.MatcherOver m members) : (Action.hasFunction m "matches").on s = (.ok (), s) := by
  obtain ⟨conditions, hconditions, _⟩ := h.cells.on_conditionsOf "matches"
  rw [Action.hasFunction, Action.on_bind_ok (Action.on_get s), h.assigned]
  simp [hconditions, Except.map]

/-- A matcher answers as long as what is fixed is kept. -/
theorem answer_keep (h : s.MatcherOver m members) (hs : s.Keeps s') : s'.answer m = s.answer m := by
  funext ts
  rw [(h.keep hs).answer, h.answer, admitsAll_keep h.conditions hs]

theorem yields_matchesTopics (h : s.MatcherOver m members) (ts : List Topic) (s' : Store)
    (hs : s.KeepsBut (fun _ => False) s') :
    (Action.matchesTopics m ts).Yields (fun _ => False) s' (s.answer m ts) := by
  have hkeep : s.Keeps s' := hs.mono fun _ => False.elim
  have hover := h.keep hkeep
  rw [← h.answer_keep hkeep, hover.answer]
  exact .of_on (hover.on_matchesTopics ts)

variable {column target : Option Value} {t : Text}

/-- **What a matcher leaves of a frame is what its answers leave.** -/
theorem yields_keepMatching (h : s.MatcherOver m members)
    (hcolumn : (Action.columnNameOr Frame.defaultTopicsName column).on s = (.ok name, s)) (f : Frame) :
    (Action.keepMatching f m column).Yields (fun _ => False) s (f.keepMatchingBy (s.answer m) name) := by
  have hreport : ∀ after s', s.KeepsBut (fun _ => False) s' →
      (do Action.report (Frame.keptReport f after (← Action.quoted m)); return after : Action Frame).Yields
        (fun _ => False) s' (.ok after) := by
    intro after s' hs
    obtain ⟨shown, hshown⟩ := (h.keep (hs.mono fun _ => False.elim)).exists_quoted
    have hquoted : (Action.quoted m).on s' = (.ok shown, s') := by rw [Action.quoted, Action.on_inquire, hshown]
    exact ⟨_, (Action.on_bind_ok hquoted).trans rfl, .of_eq rfl rfl⟩
  obtain ⟨s', hon, hkeeps⟩ := (Frame.yields_keepMatchingBy h.yields_matchesTopics name f).bind hreport
  refine ⟨s', ?_, hkeeps⟩
  rw [Action.keepMatching, Action.on_bind_ok hcolumn, Action.on_bind_ok (on_ready h.on_hasFunction f name _), hon]
  exact congrArg (·, s') (bind_pure _)

/-- A frame is marked as its rows are. -/
theorem on_matchColumn (h : s.MatcherOver m members)
    (hcolumn : (Action.columnNameOr Frame.defaultTopicsName column).on s = (.ok name, s))
    (htarget : Action.newName Frame.defaultMarkName target = .ok t) {outcome : Except Fault Frame}
    (hbuild : (f.matchColumnBy (Action.matchesTopics m) name t).on s = (outcome, s)) :
    (Action.matchColumn f m column target).on s = (outcome, s) := by
  rw [Action.matchColumn, Action.on_bind_ok hcolumn, Action.on_bind_ok (on_ready h.on_hasFunction f name _), htarget,
    on_withColumn hbuild]

/-- **The marks stand in a column of their own**, and the others are as they were. -/
theorem exists_on_matchColumn (h : s.MatcherOver m members)
    (hcolumn : (Action.columnNameOr Frame.defaultTopicsName column).on s = (.ok name, s))
    (htarget : Action.newName Frame.defaultMarkName target = .ok t) {bs : List Bool} {hbs : bs.length = f.height}
    (hmarks : (f.marks (Action.matchesTopics m) name).on s = (.ok ⟨bs, hbs⟩, s)) :
    ∃ after, (Action.matchColumn f m column target).on s = (.ok after, s) ∧ after.height = f.height ∧
      after.drafts.find? (·.name = t) = some ⟨t, .boolean, bs.map .bool⟩ ∧
      after.drafts.filter (·.name ≠ t) = f.drafts.filter (·.name ≠ t) := by
  refine ⟨f.put (Frame.markColumn t bs hbs), h.on_matchColumn hcolumn htarget ?_, Frame.height_put f _,
    Frame.find?_drafts_put f (Frame.markColumn t bs hbs), Frame.filter_drafts_put f (Frame.markColumn t bs hbs)⟩
  rw [Frame.matchColumnBy, Action.on_bind_ok hmarks]
  rfl

/-- **The marked rows are kept**, in order and in each column but that of the marks. -/
theorem exists_on_keepMatching (h : s.MatcherOver m members)
    (hcolumn : (Action.columnNameOr Frame.defaultTopicsName column).on s = (.ok name, s)) {bs : List Bool}
    {hbs : bs.length = f.height} (hmarks : (f.marks (Action.matchesTopics m) name).on s = (.ok ⟨bs, hbs⟩, s)) :
    ∃ after s', (Action.keepMatching f m column).on s = (.ok after, s') ∧ after.height = bs.count true ∧
      after.drafts = (f.drafts.filter (·.name ≠ Frame.maskName)).map fun d =>
        { d with values := ((d.values.zip bs).filter (·.2)).map (·.1) } := by
  obtain ⟨_, hmarks', _⟩ := Frame.yields_marks h.yields_matchesTopics name f
  have hplain : f.marks (s.answer m) name = .ok ⟨bs, hbs⟩ := (Prod.mk.inj (hmarks'.symm.trans hmarks)).1
  let marked := f.put (Frame.markColumn Frame.maskName bs hbs)
  have hmarked : bs.length = marked.height := hbs.trans (Frame.height_put f _).symm
  let after := (marked.select bs hmarked).drop Frame.maskName
  have hkeep : f.keepMatchingBy (s.answer m) name = .ok after := by
    rw [Frame.keepMatchingBy, hplain]
    rfl
  obtain ⟨s', hon, _⟩ := h.yields_keepMatching hcolumn f
  refine ⟨after, s', hkeep ▸ hon, rfl, ?_⟩
  have hkept := Frame.drafts_drop_select_put f (Frame.markColumn Frame.maskName bs hbs) bs hmarked
  simp only [Column.marked_eq_filter] at hkept
  exact hkept

end MatcherOver

/-- **Frames are filtered as messages are.** -/
theorem on_matchColumn_keepMatching {column target : Option Value} {t : Text} (hm : s.Built m)
    (hcolumn : (Action.columnNameOr Frame.defaultTopicsName column).on s = (.ok name, s))
    (htarget : Action.newName Frame.defaultMarkName target = .ok t) (hc : f.column? name = some c)
    (hdtype : c.dtype = .list .binary) :
    ((∀ v ∈ c.values, v.HoldsTopics) →
      ∃ tss bs, List.Forall₂ Datum.Lists c.values tss ∧ List.Forall₂ (fun ts b => s.answer m ts = .ok b) tss bs ∧
        (∃ after, (Action.matchColumn f m column target).on s = (.ok after, s) ∧ after.height = f.height ∧
          after.drafts.find? (·.name = t) = some ⟨t, .boolean, bs.map .bool⟩ ∧
          after.drafts.filter (·.name ≠ t) = f.drafts.filter (·.name ≠ t)) ∧
        ∃ after s', (Action.keepMatching f m column).on s = (.ok after, s') ∧ after.height = bs.count true ∧
          after.drafts = (f.drafts.filter (·.name ≠ Frame.maskName)).map fun d =>
            { d with values := ((d.values.zip bs).filter (·.2)).map (·.1) }) ∧
    (¬ (∀ v ∈ c.values, v.HoldsTopics) →
      ∃ fault, fault.sort = .value ∧ (Action.matchColumn f m column target).on s = (.error fault, s) ∧
        (Action.keepMatching f m column).on s = (.error fault, s)) := by
  obtain ⟨members, hover⟩ := hm.exists_matcherOver
  refine ⟨fun hrows => ?_, fun hbad => ?_⟩
  · obtain ⟨tss, htss⟩ := exists_forall₂ fun v hv => (hrows v hv).exists_lists (hdtype ▸ c.holds_values v hv)
    obtain ⟨bs, hbs, hmarks, hanswers⟩ := hover.exists_on_marks hc (htss.imp fun _ _ hts => hts.topics)
    exact ⟨tss, bs, htss, hanswers, hover.exists_on_matchColumn hcolumn htarget hmarks,
      hover.exists_on_keepMatching hcolumn hmarks⟩
  · obtain ⟨fault, hsort, hmarks⟩ := hover.exists_on_marks_error hc hdtype hbad
    refine ⟨fault, hsort, hover.on_matchColumn hcolumn htarget ?_, ?_⟩
    · rw [Frame.matchColumnBy, Action.on_bind_error hmarks]
    · have hkeep : (f.keepMatchingBy (Action.matchesTopics m) name).on s = (.error fault, s) := by
        rw [Frame.keepMatchingBy, Action.on_bind_error hmarks]
      rw [Action.keepMatching, Action.on_bind_ok hcolumn, Action.on_bind_ok (on_ready hover.on_hasFunction f name _),
        Action.on_bind_error hkeep]

/-- Rows that are null, empty, too short for the matcher, and longer than it. -/
theorem on_matchColumn_keepMatching_short_and_long :
    let t : Topic := ⟨0xa9, 0x05, 0x9c, 0xbb⟩
    let u : Topic := ⟨0xde, 0xad, 0xbe, 0xef⟩
    let s₀ := holding [.items .list [.topic t], .items .list [.object 2, .none]]
    let rows : List Datum := [.null, .list [], .list [.binary t.bytes], .list [.binary t.bytes, .binary u.bytes]]
    let f : Frame :=
      { height := 4
        columns := [⟨text "n", .int64, [.int 0, .null, .int 2, .int 3], rfl, by decide⟩,
          ⟨text "topics", .list .binary, rows, rfl, by decide⟩]
        nodup := by decide }
    let target := text "n"
    ∃ m s, (Action.compile (.object 3)).on s₀ = (.ok m, s) ∧
      ∃ tss bs, List.Forall₂ Datum.Lists rows tss ∧ List.Forall₂ (fun ts b => s.answer m ts = .ok b) tss bs ∧
        (∃ after, (Action.matchColumn f m none (some (.scalar (.text target)))).on s = (.ok after, s) ∧
          after.height = f.height ∧
          after.drafts.find? (·.name = target) = some ⟨target, .boolean, bs.map .bool⟩ ∧
          after.drafts.filter (·.name ≠ target) = f.drafts.filter (·.name ≠ target)) ∧
        ∃ after s', (Action.keepMatching f m none).on s = (.ok after, s') ∧ after.height = bs.count true ∧
          after.drafts = (f.drafts.filter (·.name ≠ Frame.maskName)).map fun d =>
            { d with values := ((d.values.zip bs).filter (·.2)).map (·.1) } := by
  intro t u s₀ rows f target
  have hvs : List.Forall₂ s₀.Lists [.object 2, .none] [[t], []] := .cons (.items rfl) (.cons .absent .nil)
  obtain ⟨m, s, hm, _⟩ := exists_on_compile (p := .object 3) ⟨3, .list, rfl, .inl rfl, rfl⟩ hvs (by simp)
  have hbuilt : s.Built m := ⟨s₀, s, _, .inl ⟨_, rfl⟩, hm, .refl s⟩
  have hlists : ∀ ts : List Topic, (Datum.list (ts.map fun t => .binary t.bytes)).HoldsTopics :=
    fun ts => (Datum.Lists.list ts).holdsTopics
  have hrows : ∀ v ∈ rows, v.HoldsTopics := by
    intro v hv
    rcases List.mem_cons.mp hv with rfl | hv
    · exact Datum.Lists.null.holdsTopics
    · obtain rfl | rfl | rfl : v = _ ∨ v = _ ∨ v = _ := by simpa using hv
      · exact hlists []
      · exact hlists [t]
      · exact hlists [t, u]
  have htarget := newName_text (t := target) (by decide) Frame.defaultMarkName
  have hread : f.column? Frame.defaultTopicsName = some ⟨text "topics", .list .binary, rows, rfl, by decide⟩ := by
    rfl
  exact ⟨m, s, hm, (on_matchColumn_keepMatching hbuilt rfl htarget hread rfl).1 hrows⟩

end Store

end TopicFilter
