import TopicFilter.Proofs.Matcher.Abstraction
import TopicFilter.Proofs.Session.Assigning

/-!
# Proofs/Session/Lasting — values that no run changes

Topics, conditions, settings and matchers over conditions are **lasting**: whatever is done after they are there, they
are what they were. `run_lasting` says so for a run of any operations, failed ones included, which may change all that
such a value was built from. Two things are left to the caller. What a matcher keeps its conditions under, its class, and
whatever else is private, can be reached into; and a matcher takes an attribute named like its function, which then
stands in the function's place (`exists_answer_taken_over`).
-/

namespace TopicFilter

namespace Store

variable {s s' : Store} {m v w x : Value} {members : List Value} {M : Matcher} {name : Text} {steps : List Step}

/-- The value is a topic, a condition, settings or a matcher over conditions, each of one of the two kinds. -/
inductive Lasting (s : Store) : Value → Prop where
  /-- Topics last. -/
  | topic (t : Topic) : s.Lasting (.topic t)
  /-- Conditions last. -/
  | condition (c : Condition) : s.Lasting (.condition c)
  /-- Settings last. -/
  | settings (x : Settings) : s.Lasting (.settings x)
  /-- Matchers last. -/
  | matcher {m : Value} {M : Matcher} (h : s.Holds m (M.conditions.map .condition)) : s.Lasting m

/-- Conditions of which none is under a label make up a matcher. -/
theorem exists_eq_conditions (h : ∀ v ∈ members, s.IsCondition v) (hproper : ∀ a, .object a ∉ members) :
    ∃ M : Matcher, members = M.conditions.map .condition := by
  induction members with
  | nil => exact ⟨⟨[]⟩, rfl⟩
  | cons v members ih =>
    obtain ⟨hv, hmembers⟩ := List.forall_mem_cons.mp h
    obtain ⟨M, rfl⟩ := ih hmembers fun a ha => hproper a (List.mem_cons_of_mem _ ha)
    cases hv with
    | proper c => exact ⟨⟨c :: M.conditions⟩, rfl⟩
    | labelled _ => exact absurd List.mem_cons_self (hproper _)

/-- **Matchers that were built are lasting**, unless a condition under a label is among theirs. -/
theorem Built.lasting (h : s.Built m) (hproper : ∀ members, s.Holds m members → ∀ a, .object a ∉ members) :
    s.Lasting m := by
  obtain ⟨members, hover⟩ := h.exists_matcherOver
  obtain ⟨M, rfl⟩ := exists_eq_conditions hover.conditions (hproper members hover.cells)
  exact .matcher hover.cells

/-- The assignment of an attribute of `target` reaches into a value: it is what a matcher keeps its conditions under,
the table of all its attributes, its class, or a private attribute of settings; or it is a private one of a kind or of a
path, which the value may share with others. -/
def ReachesInto (v target : Value) (name : Text) : Prop :=
  match target with
  | .object _ => target = v ∧ (name = text "_conditions" ∨ name = Action.tableName ∨ name = Action.className)
  | .settings _ => target = v ∧ Action.isPrivateName name = true
  | .kind _ | .path _ => Action.isPrivateName name = true
  | _ => False

/-- The assignment puts something in the place of the function that matches. -/
def TakesOver (v target : Value) (name : Text) : Prop := target = v ∧ name = text "matches"

/-! ## What an assignment leaves alone -/

@[simp] theorem cell?_addAttribute (a b : Address) (name : Text) (x : Value) :
    (s.addAttribute a name x).cell? b = s.cell? b := by
  unfold addAttribute
  split <;> rfl

/-- An attribute of another name, or of something else, is not what was noted. -/
theorem assigned?_addAttribute_ne {a b : Address} {need : String} (h : ¬ (a = b ∧ name = text need)) :
    (s.addAttribute a name x).assigned? (.object b) need = s.assigned? (.object b) need := by
  unfold addAttribute
  split
  · have hentry : (decide (a = b) && decide (name = text need)) = false := by simpa using h
    simp only [assigned?, List.find?_cons, hentry]
    rfl
  · rfl

theorem exists_cell?_assign {a : Address} (h : ∃ c, s.cell? a = some c) (v : Value) (name : Text) (x : Value) :
    ∃ c, ((Action.assign v name x).on s).2.cell? a = some c := by
  obtain ⟨c, hc⟩ := h
  rcases Action.on_assign_cases v name x s with hs | ⟨b, d, rfl, hd, ⟨e, he, hs⟩ | hs⟩ <;> rw [hs]
  · exact ⟨c, hc⟩
  · have hkeep : s.KeepsBut (· = b) (s.setCell b e) := .setCell rfl hd (Action.cellClassName_of_replacePart? he)
    obtain ⟨c', hc', _⟩ := hkeep.sameClass hc
    exact ⟨c', hc'⟩
  · exact ⟨c, (cell?_addAttribute ..).trans hc⟩

/-- **A matcher holds what it held** after an assignment that does not reach into it. -/
theorem Holds.assign (h : s.Holds m members) (hout : ¬ ReachesInto m v name) (x : Value) :
    ((Action.assign v name x).on s).2.Holds m members := by
  obtain ⟨a, t, rfl, ha, ht⟩ := h
  rcases Action.on_assign_cases v name x s with hs | ⟨b, c, rfl, hc, ⟨d, hd, hs⟩ | hs⟩ <;> rw [hs]
  · exact ⟨a, t, rfl, ha, ht⟩
  · have hab : a ≠ b := by
      rintro rfl
      obtain rfl : c = _ := Option.some.inj (hc.symm.trans ha)
      refine hout ⟨rfl, .inl ?_⟩
      by_contra hname
      simp [Action.replacePart?, hname] at hd
    have htb : t ≠ b := by
      rintro rfl
      obtain rfl : c = _ := Option.some.inj (hc.symm.trans ht)
      cases hd
    exact ⟨a, t, rfl, (cell?_setCell_ne hab).trans ha, (cell?_setCell_ne htb).trans ht⟩
  · exact ⟨a, t, rfl, (cell?_addAttribute ..).trans ha, (cell?_addAttribute ..).trans ht⟩

/-- The function of a matcher stays in its place unless an assignment takes it over. -/
theorem Holds.assigned?_assign (h : s.Holds m members) (hplace : s.assigned? m "matches" = none)
    (hout : ¬ TakesOver m v name) (x : Value) :
    ((Action.assign v name x).on s).2.assigned? m "matches" = none := by
  obtain ⟨a, t, rfl, ha, ht⟩ := h
  rcases Action.on_assign_cases v name x s with hs | ⟨b, c, rfl, hc, ⟨d, hd, hs⟩ | hs⟩ <;> rw [hs]
  · exact hplace
  · rw [assigned?_setCell hc (Action.cellClassName_of_replacePart? hd), hplace]
  · have hother : ¬ (b = a ∧ name = text "matches") := fun ⟨hb, hname⟩ => hout ⟨congrArg _ hb, hname⟩
    rw [assigned?_addAttribute_ne hother, hplace]

/-! ## What a run leaves alone -/

/-- Only private attributes reach into a value. -/
theorem ReachesInto.isPrivateName {target : Value} (h : ReachesInto v target name) :
    Action.isPrivateName name = true := by
  unfold ReachesInto at h
  split at h
  · obtain ⟨_, rfl | rfl | rfl⟩ := h <;> decide
  · exact h.2
  · exact h
  · exact h
  · exact h.elim

/-- …and so an attribute that is not private reaches into nothing. -/
theorem not_reachesInto (h : Action.isPrivateName name = false) (v target : Value) : ¬ ReachesInto v target name :=
  fun hreach => Bool.false_ne_true (h.symm.trans hreach.isPrivateName)

/-- The name of the attribute that a step assigns, if it assigns one. -/
def assignedName? (st : Step) : Option Text :=
  match st.operation with
  | .assign _ name _ => some name
  | _ => none

/-- Some assignments are avoided by steps that assign no attribute of their names. -/
theorem avoids_of_names {P : Value → Text → Prop}
    (h : ∀ name ∈ steps.filterMap assignedName?, ∀ v, ¬ P v name) : s.Avoids P steps := by
  induction steps generalizing s with
  | nil => trivial
  | cons st sts ih =>
    refine ⟨?_, ih fun name hname => h name ?_⟩
    · rintro v name ⟨target, value, hop, _⟩
      refine h name (List.mem_filterMap.mpr ⟨st, List.mem_cons_self, ?_⟩) v
      rw [assignedName?, hop]
    · obtain ⟨st', hst', hname⟩ := List.mem_filterMap.mp hname
      exact List.mem_filterMap.mpr ⟨st', List.mem_cons_of_mem _ hst', hname⟩

/-- The standard hasher is there at every time. -/
theorem one_lt_depth_run (e : Environment) (files : FileTree) (order : SetOrder) (steps : List Step) :
    1 < (({ initial e files with order } : Store).run steps).2.depth := by
  have havoid : ({ initial e files with order } : Store).Avoids (fun _ _ => False) steps :=
    avoids_of_names fun _ _ _ => id
  have hcell : ∃ c, (({ initial e files with order } : Store).run steps).2.cell? standardHasher = some c := by
    refine run_induction (I := fun s => ∃ c, s.cell? standardHasher = some c) ?_ ?_ ⟨_, rfl⟩ havoid
    · rintro s s' ⟨c, hc⟩ hs
      obtain ⟨d, hd, _⟩ := hs.sameClass hc
      exact ⟨d, hd⟩
    · exact fun s v name x h _ => exists_cell?_assign h v name x
  obtain ⟨c, hc⟩ := hcell
  exact Nat.succ_lt_succ (Nat.zero_lt_of_lt (lt_length_of_cell? hc))

/-- **A matcher holds what it held** after a run that does not reach into it. -/
theorem Holds.run (h : s.Holds m members) (hout : s.Avoids (ReachesInto m) steps) :
    (s.run steps).2.Holds m members :=
  run_induction (I := (·.Holds m members)) (fun _ _ h hs => h.keep hs) (fun _ _ _ x h hn => h.assign hn x) h hout

/-- What a run avoids in two parts it avoids together. -/
theorem Avoids.or {P Q : Value → Text → Prop} (hP : s.Avoids P steps) (hQ : s.Avoids Q steps) :
    s.Avoids (fun v name => P v name ∨ Q v name) steps := by
  induction steps generalizing s with
  | nil => trivial
  | cons st sts ih =>
    exact ⟨fun v name h => not_or.mpr ⟨hP.1 v name h, hQ.1 v name h⟩, ih hP.2 hQ.2⟩

theorem Holds.assigned?_run (h : s.Holds m members) (hout : s.Avoids (ReachesInto m) steps)
    (hplace : s.assigned? m "matches" = none) (hown : s.Avoids (TakesOver m) steps) :
    (s.run steps).2.assigned? m "matches" = none := by
  refine (run_induction (I := fun s => s.Holds m members ∧ s.assigned? m "matches" = none)
    ?_ ?_ ⟨h, hplace⟩ (hout.or hown)).2
  · rintro s s' ⟨hholds, hplace⟩ hs
    obtain ⟨a, t, rfl, ha, _⟩ := id hholds
    exact ⟨hholds.keep hs, (hs.assigned _ ha).trans hplace⟩
  · rintro s v name x ⟨hholds, hplace⟩ hn
    obtain ⟨hin, hover⟩ := not_or.mp hn
    exact ⟨hholds.assign hin x, hholds.assigned?_assign hplace hover x⟩

/-! ## What is told about a matcher -/

/-- What is told about a condition. -/
def conditionPicture (c : Condition) : Picture := .condition c.kind.name c.isWildcard c.topics

/-- **The picture of a matcher** is that of its conditions. -/
theorem Holds.picture (h : s.Holds m (M.conditions.map .condition)) :
    s.picture m = .ok (.matcher (M.conditions.map conditionPicture)) := by
  obtain ⟨a, t, rfl, ha, ht⟩ := h
  have hpart : ∀ c, s.pictureWithin s.cells.length (.condition c) = .ok (conditionPicture c) := fun c => by
    rw [pictureWithin]
    rfl
  rw [Store.picture, depth, pictureWithin]
  simp only [ha, itemsOf, items?_object ht]
  exact congrArg (·.map Picture.matcher) (allOf_map hpart)

/-! ## Lasting values -/

namespace Lasting

/-- A value is still lasting in a store in which it holds what it held. -/
theorem of_holds (h : s.Lasting v) (hs : ∀ members, s.Holds v members → s'.Holds v members) : s'.Lasting v := by
  cases h with
  | topic t => exact .topic t
  | condition c => exact .condition c
  | settings x => exact .settings x
  | matcher h => exact .matcher (hs _ h)

/-- Lasting values that are not both matchers are equal when they are the same. -/
theorem agrees_of_not_object (hs : 1 < s.depth) (hv : s.Lasting v) (hw : s.Lasting w)
    (hne : (∀ a, v ≠ .object a) ∨ ∀ a, w ≠ .object a) : s.agrees v w = .ok (decide (v = w)) := by
  have hfuel : 2 ≤ s.depth * s.depth := Nat.le_trans hs (Nat.le_mul_self _)
  rw [Store.agrees, ← Nat.sub_add_cancel hfuel]
  cases hv with
  | topic t =>
    cases hw with
    | matcher h =>
      obtain ⟨b, u, rfl, hb, hu⟩ := h
      simp [agreesWithin, agreesBy, stranger?, bytes?, cellOf?, conditionParts?, hb]
    | _ => simp [agreesWithin, agreesBy, stranger?, bytes?, cellOf?, conditionParts?]
  | condition c =>
    cases hw with
    | condition d => simp [agreesWithin_conditions]
    | matcher h =>
      obtain ⟨b, u, rfl, hb, hu⟩ := h
      simp [agreesWithin, agreesBy, stranger?, bytes?, cellOf?, conditionParts?, hb]
    | _ => simp [agreesWithin, agreesBy, stranger?, bytes?, cellOf?, conditionParts?]
  | settings x =>
    cases hw with
    | matcher h =>
      obtain ⟨b, u, rfl, hb, hu⟩ := h
      simp [agreesWithin, agreesBy, stranger?, bytes?, cellOf?, conditionParts?, hb]
    | _ => simp [agreesWithin, agreesBy, stranger?, bytes?, cellOf?, conditionParts?]
  | matcher h =>
    obtain ⟨a, t, rfl, ha, ht⟩ := h
    cases hw with
    | matcher h =>
      obtain ⟨b, u, rfl, hb, hu⟩ := h
      rcases hne with hne | hne
      · exact absurd rfl (hne a)
      · exact absurd rfl (hne b)
    | _ => simp [agreesWithin, agreesBy, stranger?, bytes?, cellOf?, conditionParts?, ha]

/-- **Lasting values compare as they did** in a store in which they hold what they held. -/
theorem agrees_eq (hs : 1 < s.depth) (hs' : 1 < s'.depth) (hv : s.Lasting v) (hw : s.Lasting w)
    (hkv : ∀ members, s.Holds v members → s'.Holds v members)
    (hkw : ∀ members, s.Holds w members → s'.Holds w members) : s'.agrees v w = s.agrees v w := by
  by_cases hne : (∀ a, v ≠ .object a) ∨ ∀ a, w ≠ .object a
  · rw [agrees_of_not_object hs hv hw hne,
      agrees_of_not_object hs' (hv.of_holds hkv) (hw.of_holds hkw) hne]
  · simp only [not_or, not_forall, not_not] at hne
    obtain ⟨⟨a, rfl⟩, b, rfl⟩ := hne
    cases hv with
    | matcher hv =>
      cases hw with
      | matcher hw => rw [hv.agrees hw, (hkv _ hv).agrees (hkw _ hw)]

theorem picture_eq (h : s.Lasting v) (hs : ∀ members, s.Holds v members → s'.Holds v members) :
    s'.picture v = s.picture v := by
  cases h with
  | matcher h => rw [h.picture, (hs _ h).picture]
  | _ => simp [Store.picture, depth, pictureWithin]

theorem quoted_eq (h : s.Lasting v) (hs : ∀ members, s.Holds v members → s'.Holds v members) :
    s'.quoted v = s.quoted v := by
  cases h with
  | matcher h => rw [h.quoted, (hs _ h).quoted]
  | _ => simp [Store.quoted, depth, quotedWithin]

end Lasting

/-! ## Attributes that are refused -/

/-- The attribute of a value cannot be assigned: any attribute of a topic or a condition, the fields of settings, and
the conditions of a matcher. -/
inductive Guards (s : Store) : Value → Text → Prop where
  /-- Topics are closed. -/
  | topic (t : Topic) (name : Text) : s.Guards (.topic t) name
  /-- Conditions are closed. -/
  | condition {c : Value} (h : s.IsCondition c) (name : Text) : s.Guards c name
  /-- Settings keep their fields. -/
  | settings (x : Settings) {name : Text} (h : name ∈ Settings.fieldNames) : s.Guards (.settings x) name
  /-- Matchers show their conditions. -/
  | matcher {m conditions : Value} (h : s.cellOf? m = some (.matcher conditions)) : s.Guards m (text "conditions")

/-- **What cannot be assigned is refused**, and nothing is changed. -/
theorem Guards.on_assign (h : s.Guards v name) (x : Value) :
    ∃ fault, (Action.assign v name x).on s = (.error fault, s) := by
  cases h with
  | topic t => exact ⟨.frozenField name, rfl⟩
  | condition h =>
    cases h with
    | proper c => exact ⟨.frozenField name, rfl⟩
    | @labelled a label topics h =>
      refine ⟨.frozenField name, ?_⟩
      rw [Action.assign, Action.on_bind_ok (Action.on_cellOf? _ _)]
      simp [cellOf?, h]
  | settings y h =>
    have hprivate : ∀ name ∈ Settings.fieldNames, Action.isPrivateName name = false := by decide
    refine ⟨.invalidSettings [{ field := some name, flaw := .frozen }], ?_⟩
    rw [Action.assign, Action.on_bind_ok (Action.on_cellOf? _ _)]
    simp only [Action.assignToSettings, hprivate name h]
    rfl
  | @matcher _ conditions h =>
    cases v with
    | object a =>
      have hfree : text "conditions" ≠ Action.className ∧ text "conditions" ≠ Action.tableName ∧
          text "conditions" ≠ Action.referencesName := by decide
      refine ⟨.readOnlyProperty "TopicMatcher" (text "conditions"), ?_⟩
      rw [Action.assign, Action.on_bind_ok (Action.on_cellOf? _ _), h]
      simp only [attributeOwner?, Action.assignReserved, if_neg hfree.1, if_neg hfree.2.1, if_neg hfree.2.2,
        Action.assignToCell, Action.properties, List.any_cons, decide_true, Bool.true_or, if_true, Action.on_failAs]
      simp [className, show s.cell? a = _ from h, cellClassName]
    | _ => cases h

/-! ## Runs -/

/-- What is in no cell has no function that matches, whatever the store. -/
theorem answer_of_not_object (h : ∀ a, v ≠ .object a) (ts : List Topic) : s'.answer v ts = s.answer v ts := by
  have hcell : ∀ s : Store, s.cellOf? v = none := fun s => by
    cases v <;> first | rfl | exact absurd rfl (h _)
  have hplace : ∀ s : Store, s.assigned? v "matches" = none := fun s => by
    cases v <;> first | rfl | exact absurd rfl (h _)
  have hclass : ∀ s : Store, s.className v = s'.className v := fun s => by
    cases v <;> first | rfl | exact absurd rfl (h _)
  have hanswer : ∀ s : Store, s.answer v ts = .error (.noAttribute (s'.className v) (text "matches")) := fun s => by
    rw [answer, Action.on_bind_ok (Action.on_collect _ _ _), Action.matchesValue,
      Action.on_bind_ok (Action.on_inPlace (hplace _)), Action.conditionsOf, Action.on_bind,
      Action.on_bind_ok (Action.on_cellOf? _ _), hcell, ← hclass]
    rfl
  rw [hanswer, hanswer]

/-- **Lasting values are the same after every run**, however sets list their members. A value that is lasting at some
time is so after any further operations that do not reach into it. Its picture and its form are those of before, and so
are the conditions of a matcher, the outcome of comparing it with another lasting value and what a condition accepts.
What a matcher answers is the same too, unless its function is taken over. And what is guarded cannot be assigned. -/
theorem run_lasting (e : Environment) (files : FileTree) (order : SetOrder) (before after : List Step) :
    let s := (({ initial e files with order } : Store).run before).2
    let s' := (s.run after).2
    (∀ v, s.Lasting v → s.Avoids (ReachesInto v) after →
      s'.Lasting v ∧ s'.picture v = s.picture v ∧ s'.quoted v = s.quoted v ∧
      (∀ members, s.Holds v members → s'.Holds v members) ∧
      (∀ w, s.Lasting w → s.Avoids (ReachesInto w) after → s'.agrees v w = s.agrees v w) ∧
      (∀ c t, v = .condition c → s'.acceptance v t = s.acceptance v t) ∧
      (s.assigned? v "matches" = none → s.Avoids (TakesOver v) after → ∀ ts, s'.answer v ts = s.answer v ts)) ∧
    ∀ v name x, s'.Guards v name → ∃ fault, (Action.assign v name x).on s' = (.error fault, s') := by
  intro s s'
  refine ⟨fun v hv hout => ?_, fun v name x h => h.on_assign x⟩
  have hholds : ∀ w, s.Avoids (ReachesInto w) after → ∀ members, s.Holds w members → s'.Holds w members :=
    fun w hw members h => h.run hw
  refine ⟨hv.of_holds (hholds v hout), hv.picture_eq (hholds v hout), hv.quoted_eq (hholds v hout), hholds v hout,
    fun w hw hwout => ?_, ?_, fun hplace hown ts => ?_⟩
  · have hdepth' : 1 < s'.depth := by
      have hrun := one_lt_depth_run e files order (before ++ after)
      rwa [run_append] at hrun
    exact hv.agrees_eq (one_lt_depth_run e files order before) hdepth' hw (hholds v hout) (hholds w hwout)
  · rintro c t rfl
    rw [(IsCondition.proper c).acceptance, (IsCondition.proper c).acceptance]
    rfl
  · cases hv with
    | @matcher _ M h =>
      have hmembers : ∀ (s : Store), ∀ v ∈ M.conditions.map .condition, s.IsCondition v := fun s v hv =>
        isCondition_of_mem_map hv
      rw [h.answer hplace (hmembers s), (hholds _ hout _ h).answer (h.assigned?_run hout hplace hown) (hmembers s'),
        admitsAll_conditions, admitsAll_conditions]
    | _ => exact answer_of_not_object (by simp) ts

/-! ## A matcher and its set -/

/-- Surroundings in which nobody is at home. -/
def nowhere : Environment := { home := none, userProfile := none, account := none, users := [], hasAccounts := false }

/-- A step that does nothing besides its operation. -/
def stepOf (op : Operation) (name : Option Text) : Step :=
  { environment := none, changes := [], operation := op, keepAs := name }

/-- A set and a matcher compiled from it. -/
def setAndMatcher : List Step :=
  [stepOf (.evaluate (.collection .set [.topic [0xa9, 0x05, 0x9c, 0xbb]])) (text "topics"),
    stepOf (.compile (.collection .list [.name (text "topics")])) (text "matcher")]

/-- The set gets another member, the matcher gets an attribute, and another one is refused. -/
def edits : List Step :=
  [stepOf (.addMember (.name (text "topics")) .sentinel) none,
    stepOf (.assign (.name (text "matcher")) (text "label") (.scalar (.int 1))) none,
    stepOf (.assign (.name (text "matcher")) (text "conditions") (.scalar .none)) none]

/-- Something is put in the place of the function of the matcher. -/
def takeover : List Step := [stepOf (.assign (.name (text "matcher")) (text "matches") (.scalar (.int 5))) none]

/-- The store with the set and the matcher. -/
def withSetAndMatcher : Store := ((initial nowhere { workingDir := [], entries := [] }).run setAndMatcher).2

/-- The matcher is what it was after the edits. -/
theorem run_lasting_edits :
    let s := withSetAndMatcher
    let s' := (s.run edits).2
    let m : Value := .object 5
    s.kept? (text "matcher") = some { value := m, origin := 4 } ∧ s.Lasting m ∧ s.Avoids (ReachesInto m) edits ∧
      s'.picture m = s.picture m ∧ s'.quoted m = s.quoted m ∧ s'.agrees m m = s.agrees m m ∧
      (∀ ts, s'.answer m ts = s.answer m ts) ∧
      ∃ fault, (Action.assign m (text "conditions") .none).on s' = (.error fault, s') := by
  intro s s' m
  let M : Matcher := .ofTopicSets [.ofList [⟨0xa9, 0x05, 0x9c, 0xbb⟩]]
  have hholds : s.Holds m (M.conditions.map .condition) := ⟨5, 4, rfl, rfl, rfl⟩
  have hnames : edits.filterMap assignedName? = [text "label", text "conditions"] := rfl
  have hout : s.Avoids (ReachesInto m) edits := avoids_of_names fun name hname =>
    not_reachesInto ((by decide : ∀ name ∈ [text "label", text "conditions"], Action.isPrivateName name = false)
      name (hnames ▸ hname)) m
  have hown : s.Avoids (TakesOver m) edits := avoids_of_names fun name hname v hover =>
    (by decide : ∀ name ∈ [text "label", text "conditions"], name ≠ text "matches") name (hnames ▸ hname) hover.2
  obtain ⟨hvalues, hguards⟩ := run_lasting nowhere { workingDir := [], entries := [] } .arrival setAndMatcher edits
  obtain ⟨_, hpicture, hquoted, hkeep, hagrees, _, hanswers⟩ := hvalues m (.matcher hholds) hout
  obtain ⟨a, t, hm, ha, _⟩ := hkeep _ hholds
  have hcell : s'.cellOf? m = some (.matcher (.object t)) := by
    rw [hm]
    exact ha
  exact ⟨rfl, .matcher hholds, hout, hpicture, hquoted, hagrees m (.matcher hholds) hout, hanswers rfl hown,
    hguards m _ .none (.matcher hcell)⟩

/-- **A matcher takes an attribute named like its function**, and what was put there answers in its place. -/
theorem exists_answer_taken_over :
    let s := withSetAndMatcher
    let m : Value := .object 5
    s.kept? (text "matcher") = some { value := m, origin := 4 } ∧ s.Lasting m ∧ s.Avoids (ReachesInto m) takeover ∧
      s.answer m [⟨0xa9, 0x05, 0x9c, 0xbb⟩] = .ok true ∧
      (s.run takeover).2.answer m [⟨0xa9, 0x05, 0x9c, 0xbb⟩] = .error (.notCallable "int") := by
  intro s m
  let M : Matcher := .ofTopicSets [.ofList [⟨0xa9, 0x05, 0x9c, 0xbb⟩]]
  have hholds : s.Holds m (M.conditions.map .condition) := ⟨5, 4, rfl, rfl, rfl⟩
  have hout : s.Avoids (ReachesInto m) takeover := avoids_of_names fun name hname =>
    not_reachesInto ((by decide : ∀ name ∈ [text "matches"], Action.isPrivateName name = false) name hname) m
  exact ⟨rfl, .matcher hholds, hout, rfl, rfl⟩

end Store

end TopicFilter
