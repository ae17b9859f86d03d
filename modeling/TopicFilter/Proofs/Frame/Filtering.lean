import TopicFilter.Proofs.Frame.Deriving
import TopicFilter.Proofs.Frame.Matching
import TopicFilter.Proofs.Session.Performing

/-!
# Proofs/Frame/Filtering — rows kept, beside derived columns

Rows are kept for what stands in one column, and so it makes no difference whether another one is derived before or
afterwards: of the topics of all rows those are left that the rows which are left come to
(`keepMatchingBy_deriveColumnBy`). Derivers and matchers in a store work on frames in the same way
(`on_deriveColumn_keepMatching`). Whatever rows are kept, the columns stay what they are, but that one under the name of
the marks is lost (`on_keepMatching_schema`).
-/

namespace TopicFilter

namespace Frame

variable {f g : Frame} {column source target : Text} {derive : Payload → Except Fault Topic}
  {accepts : List Topic → Except Fault Bool} {bs : List Bool}

/-! ## Rows kept -/

theorem keepMatchingBy_eq_missing (h : f.column? column = none) :
    f.keepMatchingBy accepts column = .error .missingColumn := by
  rw [keepMatchingBy, marks, getColumn_eq_error h]
  rfl

/-- Where no column stands in the way of the marks, all columns are kept. -/
theorem exists_keepMatchingBy_of_notMem (hmask : maskName ∉ f.names) {c : Column f.height}
    (hc : f.column? column = some c) (hrows : List.Forall₂ (fun v b => matchRow accepts v = .ok b) c.values bs) :
    ∃ after, f.keepMatchingBy accepts column = .ok after ∧ after.height = bs.count true ∧
      after.drafts = f.drafts.map fun d => { d with values := Column.marked bs d.values } := by
  obtain ⟨after, hafter, hheight, hdrafts⟩ := exists_keepMatchingBy hc hrows
  rw [filter_drafts_of_notMem hmask] at hdrafts
  exact ⟨after, hafter, hheight, hdrafts⟩

/-- What was derived from all rows is derived from those that are kept. -/
theorem exists_deriveColumnBy_of_kept {kept : Frame} {c : Column f.height} {ts : List (Option Topic)}
    (hkept : kept.drafts = f.drafts.map fun d => { d with values := Column.marked bs d.values })
    (hc : f.column? source = some c) (hrows : List.Forall₂ (fun v t => deriveRow derive v = .ok t) c.values ts)
    (target : Text) :
    ∃ after, kept.deriveColumnBy derive source target = .ok after ∧ after.height = kept.height ∧
      after.drafts = place ⟨target, .binary, Column.marked bs (ts.map topicDatum)⟩ kept.drafts := by
  have hfound : kept.drafts.find? (·.name = source) = some { c.draft with values := Column.marked bs c.values } := by
    rw [hkept, List.find?_map]
    exact (congrArg _ (find?_drafts f source)).trans (by rw [hc]; rfl)
  obtain ⟨c', hc', hdraft⟩ := exists_column?_of_drafts hfound
  have hvalues : c'.values = Column.marked bs c.values := congrArg Draft.values hdraft
  rw [Column.map_marked]
  exact exists_deriveColumnBy hc' (hvalues ▸ Column.forall₂_marked hrows bs) target

/-- **A column can be derived before rows are kept, or afterwards.** The one that is read for the topics must not be
overwritten, and nothing may stand in the place of the marks. -/
theorem keepMatchingBy_deriveColumnBy (hmask : maskName ∉ f.names) (hcolumn : target ≠ column)
    (htarget : target ≠ maskName) (hg : f.deriveColumnBy derive source target = .ok g) :
    g.keepMatchingBy accepts column = f.keepMatchingBy accepts column >>= (·.deriveColumnBy derive source target) := by
  obtain ⟨c, ts, hc, hrows, hheight, hdrafts⟩ := exists_of_deriveColumnBy hg
  have hmask' : maskName ∉ g.names := by
    rw [names_eq, hdrafts, map_name_place, ← names_eq]
    split
    · exact hmask
    · simpa using ⟨hmask, htarget.symm⟩
  have hsame : (g.column? column).map Column.draft = (f.column? column).map Column.draft := by
    rw [← find?_drafts, ← find?_drafts, hdrafts]
    exact find?_place_of_ne hcolumn.symm
  cases he : f.column? column with
  | none =>
    have he' : g.column? column = none := by simpa [he] using hsame
    rw [keepMatchingBy_eq_missing he, keepMatchingBy_eq_missing he']
    rfl
  | some e =>
    rw [he, Option.map_some] at hsame
    obtain ⟨e', he', hdraft⟩ := Option.map_eq_some_iff.mp hsame
    have hvalues : e'.values = e.values := congrArg Draft.values hdraft
    rcases rows_cases (matchRow accepts) e.values with ⟨bs, hbs⟩ | ⟨front, v, back, bs, fault, hev, hfront, hv⟩
    · obtain ⟨kept, hkept, hkeptHeight, hkeptDrafts⟩ := exists_keepMatchingBy_of_notMem hmask he hbs
      obtain ⟨after, hafter, hafterHeight, hafterDrafts⟩ :=
        exists_keepMatchingBy_of_notMem hmask' he' (hvalues.symm ▸ hbs)
      obtain ⟨last, hlast, hlastHeight, hlastDrafts⟩ := exists_deriveColumnBy_of_kept hkeptDrafts hc hrows target
      have heq : after = last := by
        refine ext_drafts (by rw [hafterHeight, hlastHeight, hkeptHeight]) ?_
        rw [hafterDrafts, hlastDrafts, hdrafts, hkeptDrafts]
        exact map_place (g := fun d => { d with values := Column.marked bs d.values }) (fun _ => rfl) _ f.drafts
      rw [hafter, hkept, heq]
      exact hlast.symm
    · rw [keepMatchingBy_eq_error he hev hfront hv, keepMatchingBy_eq_error he' (hvalues.trans hev) hfront hv]
      rfl

end Frame

namespace Store

variable {s s' : Store} {m d source : Value} {members : List Value} {column target : Option Value} {F after : Frame}
  {name t : Text} {h : Bytes → Bytes} {own : Address → Prop}

/-- **Deriving a column and keeping rows commute**: where topics can be derived for all rows, either order comes to the
same frame, or fails for the same reason. The source may be any column, and may give way to the topics. -/
theorem on_deriveColumn_keepMatching (hm : s.Built m) (hd : s.DerivesBy d h own) (hmask : Frame.maskName ∉ F.names)
    (hcolumn : (Action.columnNameOr Frame.defaultTopicsName column).on s = (.ok name, s))
    (htarget : Action.newName Frame.defaultTopicName target = .ok t) (hne : t ≠ name) (ht : t ≠ Frame.maskName)
    {G : Frame} (hderive : (Action.deriveColumn F source target d).on s = (.ok G, s')) :
    ((Action.deriveColumn F source target d >>= fun G => Action.keepMatching G m column).on s).1 =
      ((Action.keepMatching F m column >>= fun H => Action.deriveColumn H source target d).on s).1 := by
  obtain ⟨members, hover⟩ := hm.exists_matcherOver
  obtain ⟨_, _, hsource, _⟩ := Action.of_on_bind_ok hderive
  obtain ⟨s₁, hderive', _⟩ := hd.yields_deriveColumn (on_columnName_congr hsource s) htarget F
  obtain ⟨hplain, rfl⟩ := Prod.mk.inj (hderive'.symm.trans hderive)
  have hkeep : s.Keeps s₁ := by simpa only [hderive] using (Action.steady_deriveColumn F source target d s).1
  obtain ⟨s₂, hleft, _⟩ := (hover.keep hkeep).yields_keepMatching (on_columnNameOr_congr hcolumn s₁) G
  have hkept := (hover.yields_keepMatching hcolumn F).mono fun a => (False.elim : False → own a)
  obtain ⟨s₃, hright, _⟩ := hkept.bind fun H s₃ hs₃ =>
    (hd.keep hs₃).yields_deriveColumn (on_columnName_congr hsource s₃) htarget H
  rw [Action.on_bind_ok hderive, hleft, hright, hover.answer_keep hkeep]
  exact Frame.keepMatchingBy_deriveColumnBy hmask hne ht hplain

/-- A source that gives way to its topics, in rows of which some are kept. -/
theorem on_deriveColumn_keepMatching_in_place :
    let t : Topic := ⟨0xa9, 0x05, 0x9c, 0xbb⟩
    let s₀ := holding [.items .list [.topic t], .items .list [.object 2]]
    let memo := text "memo"
    let F : Frame :=
      { height := 3
        columns := [⟨memo, .string, [.text (text "a"), .null, .text []], rfl, by decide⟩,
          ⟨text "topics", .list .binary, [.list [.binary t.bytes], .list [.binary t.bytes], .null], rfl, by decide⟩]
        nodup := by decide }
    let derive (f : Frame) :=
      Action.deriveColumn f (.scalar (.text memo)) (some (.scalar (.text memo))) Action.standardDeriver
    ∃ m s, (Action.compile (.object 3)).on s₀ = (.ok m, s) ∧
      ((derive F >>= fun G => Action.keepMatching G m none).on s).1 =
        ((Action.keepMatching F m none >>= derive).on s).1 := by
  intro t s₀ memo F derive
  have hvs : List.Forall₂ s₀.Lists [.object 2] [[t]] := .cons (.items rfl) .nil
  obtain ⟨m, s, hm, _⟩ := exists_on_compile (p := .object 3) ⟨3, .list, rfl, .inl rfl, rfl⟩ hvs (by simp)
  have hkeeps : s₀.Keeps s := by simpa only [hm] using (steady_compile (.object 3) s₀).1
  have hd := derivesBy_standard ((Keeps.addCell.trans .addCell).trans hkeeps)
  have hsource : (Action.columnName (.scalar (.text memo))).on s = (.ok memo, s) := on_columnName_text (by decide)
  have htarget := newName_text (t := memo) (by decide) Frame.defaultTopicName
  have hvalues : [.text (text "a"), .null, .text []] =
      [some (.text (text "a")), none, some (.text [])].map Datum.ofPayload := rfl
  have hderived : ∃ G, F.deriveColumnBy (Payload.topicBy Algorithm.sha3x256.digest) memo memo = .ok G := by
    refine (Frame.exists_deriveColumnBy_iff rfl hvalues memo).mpr fun p hp => ?_
    have hwide : ∀ b, 4 ≤ (Algorithm.sha3x256.digest b).length := fun b =>
      (Algorithm.length_digest _ b).symm ▸ Algorithm.four_le_size _
    obtain rfl | rfl : p = .text (text "a") ∨ p = .text [] := by simpa using hp
    · exact ⟨_, Topic.ofDigest_eq_front (hwide [0x61])⟩
    · exact ⟨_, Topic.ofDigest_eq_front (hwide [])⟩
  obtain ⟨G, hG⟩ := hderived
  obtain ⟨s₁, hon, _⟩ := hd.yields_deriveColumn hsource htarget F
  exact ⟨m, s, hm, on_deriveColumn_keepMatching ⟨s₀, s, _, .inl ⟨_, rfl⟩, hm, .refl s⟩ hd (by decide) rfl htarget
    (by decide) (by decide) (hG ▸ hon)⟩

/-! ## Columns -/

/-- Where every row lists topics, rows are kept. -/
theorem MatcherOver.exists_on_keepMatching_of_lists (hm : s.MatcherOver m members) {c : Column F.height}
    {tss : List (List Topic)} (hc : F.column? Frame.defaultTopicsName = some c)
    (hrows : List.Forall₂ Datum.Lists c.values tss) :
    ∃ after s', (Action.keepMatching F m none).on s = (.ok after, s') := by
  have hcolumn : (Action.columnNameOr Frame.defaultTopicsName none).on s = (.ok Frame.defaultTopicsName, s) := rfl
  obtain ⟨bs, hbs, hmarks, _⟩ := hm.exists_on_marks hc (hrows.imp fun _ _ hts => hts.topics)
  obtain ⟨after, s', hon, _⟩ := hm.exists_on_keepMatching hcolumn hmarks
  exact ⟨after, s', hon⟩

/-- The columns of a frame that rows were kept of, but for that of the marks. -/
theorem exists_of_on_keepMatching (h : (Action.keepMatching F m column).on s = (.ok after, s')) :
    ∃ bs : List Bool, after.drafts = (F.drafts.filter (·.name ≠ Frame.maskName)).map fun d =>
      { d with values := Column.marked bs d.values } := by
  obtain ⟨name, s₁, _, h⟩ := Action.of_on_bind_ok h
  obtain ⟨_, s₂, _, h⟩ := Action.of_on_bind_ok h
  obtain ⟨kept, s₃, hkept, h⟩ := Action.of_on_bind_ok h
  obtain ⟨shown, s₄, _, h⟩ := Action.of_on_bind_ok h
  obtain ⟨_, s₅, _, h⟩ := Action.of_on_bind_ok h
  obtain rfl : kept = after := Except.ok.inj (Prod.mk.inj h).1
  obtain ⟨⟨bs, hbs⟩, s₆, _, hkept⟩ := Action.of_on_bind_ok hkept
  obtain rfl := Except.ok.inj (Prod.mk.inj hkept).1
  exact ⟨bs, Frame.drafts_drop_select_put F (Frame.markColumn Frame.maskName bs hbs) bs _⟩

/-- A filter without positions. -/
theorem exists_on_compile_nil :
    ∃ m s, (Action.compile (.object 2)).on (holding [.items .list []]) = (.ok m, s) ∧ s.Stands m (.ofLists []) :=
  exists_on_compile ⟨2, .list, rfl, .inl rfl, rfl⟩ .nil (by simp)

/-- **Keeping rows keeps the columns**, with their types and in order, unless one stands under the name of the marks:
that one is lost, and no other. -/
theorem on_keepMatching_schema (h : (Action.keepMatching F m column).on s = (.ok after, s')) :
    after.schema = F.schema.filter (·.1 ≠ Frame.maskName) ∧
      (after.schema = F.schema ↔ Frame.maskName ∉ F.names) := by
  obtain ⟨bs, hdrafts⟩ := exists_of_on_keepMatching h
  have hschema : after.schema = F.schema.filter (·.1 ≠ Frame.maskName) := by
    rw [Frame.schema_eq, Frame.schema_eq, hdrafts, List.map_map, List.filter_map]
    rfl
  refine ⟨hschema, ?_⟩
  rw [hschema, List.filter_eq_self, Frame.names_eq_map_schema, List.mem_map]
  refine ⟨fun hall => ?_, fun hnone entry hentry => decide_eq_true fun hname => hnone ⟨entry, hentry, hname⟩⟩
  rintro ⟨entry, hentry, hname⟩
  exact of_decide_eq_true (hall entry hentry) hname

/-- Numbers beside topics, all of which a filter without positions keeps. -/
theorem on_keepMatching_schema_ids :
    let s₀ := holding [.items .list []]
    let F : Frame :=
      { height := 2
        columns := [⟨text "id", .int64, [.int 1, .int 2], rfl, by decide⟩,
          ⟨text "topics", .list .binary, [.list [], .null], rfl, by decide⟩]
        nodup := by decide }
    ∃ m s after s', (Action.compile (.object 2)).on s₀ = (.ok m, s) ∧
      (Action.keepMatching F m none).on s = (.ok after, s') ∧ after.schema = F.schema := by
  intro s₀ F
  obtain ⟨m, s, hm, hstands⟩ := exists_on_compile_nil
  have hc : F.column? Frame.defaultTopicsName =
      some ⟨text "topics", .list .binary, [.list [], .null], rfl, by decide⟩ := rfl
  obtain ⟨after, s', hon⟩ := hstands.exists_on_keepMatching_of_lists hc (.cons (.list []) (.cons .null .nil))
  exact ⟨m, s, after, s', hm, hon, (on_keepMatching_schema hon).2.mpr (by decide)⟩

/-- A column of the name of the marks is lost. -/
theorem exists_keepMatching_schema_ne :
    ∃ (F : Frame) (c : Column F.height) (m : Value) (s : Store) (after : Frame) (s' : Store), s.Built m ∧
      F.column? Frame.defaultTopicsName = some c ∧ c.dtype = .list .binary ∧
      (Action.keepMatching F m none).on s = (.ok after, s') ∧ after.schema ≠ F.schema := by
  let s₀ := holding [.items .list []]
  let t : Topic := ⟨0x41, 0x31, 0x5f, 0x5f⟩
  let F : Frame :=
    { height := 1
      columns := [⟨text "id", .int64, [.int 1], rfl, by decide⟩, ⟨Frame.maskName, .int64, [.int 9], rfl, by decide⟩,
        ⟨text "topics", .list .binary, [.list [.binary t.bytes]], rfl, by decide⟩]
      nodup := by decide }
  obtain ⟨m, s, hm, hstands⟩ := exists_on_compile_nil
  have hc : F.column? Frame.defaultTopicsName =
      some ⟨text "topics", .list .binary, [.list [.binary t.bytes]], rfl, by decide⟩ := rfl
  obtain ⟨after, s', hon⟩ := hstands.exists_on_keepMatching_of_lists hc (.cons (.list [t]) .nil)
  obtain ⟨bs, hdrafts⟩ := exists_of_on_keepMatching hon
  have hschema : after.schema = [(text "id", .int64), (text "topics", .list .binary)] := by
    rw [Frame.schema_eq, hdrafts]
    rfl
  refine ⟨F, _, m, s, after, s', ⟨s₀, s, _, .inl ⟨_, rfl⟩, hm, .refl s⟩, hc, rfl, hon, ?_⟩
  rw [hschema]
  decide

end Store

end TopicFilter
