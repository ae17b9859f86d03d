import TopicFilter.Proofs.Json.Encodable
import TopicFilter.Settings

/-!
# Proofs/Settings/Checking — how the checks of settings end

Fields that are read from JSON hold texts that have bytes, so each reason for which one is refused can be told. The
checks then end with settings or with all that is wrong with them, but for one case (`on_ofFields`): a tilde without a
home is told by itself.
-/

namespace TopicFilter

/-! ## Reports -/

namespace Reporting

variable {α β : Type}

/-- The outcome of a computation after some reports, and all reports. -/
def on (r : Reporting α) (log : Log) : Except Fault α × Log := (ExceptT.run r).run log

theorem on_bind (r : Reporting α) (f : α → Reporting β) (log : Log) :
    (r >>= f).on log =
      match r.on log with
      | (.ok a, log') => (f a).on log'
      | (.error fault, log') => (.error fault, log') := by
  simp only [on, ExceptT.run_bind, StateT.run_bind]
  rcases (ExceptT.run r).run log with ⟨_ | _, _⟩ <;> rfl

theorem on_bind_ok {r : Reporting α} {f : α → Reporting β} {log log' : Log} {a : α} (h : r.on log = (.ok a, log')) :
    (r >>= f).on log = (f a).on log' := by rw [on_bind, h]

theorem on_bind_error {r : Reporting α} {f : α → Reporting β} {log log' : Log} {fault : Fault}
    (h : r.on log = (.error fault, log')) : (r >>= f).on log = (.error fault, log') := by rw [on_bind, h]

@[simp] theorem on_pure (a : α) (log : Log) : (pure a : Reporting α).on log = (.ok a, log) := rfl

@[simp] theorem on_throw (fault : Fault) (log : Log) : (throw fault : Reporting α).on log = (.error fault, log) := rfl

@[simp] theorem on_report (entry : LogEntry) (log : Log) : (report entry).on log = (.ok (), log ++ [entry]) := rfl

@[simp] theorem on_ofExcept (outcome : Except Fault α) (log : Log) : (ofExcept outcome).on log = (outcome, log) := by
  cases outcome <;> rfl

theorem on_bind_ofExcept {outcome : Except Fault α} {f : α → Reporting β} {a : α} (h : outcome = .ok a) (log : Log) :
    (ofExcept outcome >>= f).on log = (f a).on log := by
  rw [on_bind_ok ((on_ofExcept outcome log).trans (by rw [h]))]

end Reporting

namespace Settings

variable {e : Environment} {name t : Text} {given : Given} {fault : Fault} {log log' : Log} {fields : List (Text × Given)}

/-! ## Reasons -/

/-- What a value of JSON gives for a field: a text that has bytes, or nothing that fields take. -/
inductive Given.IsTold : Given → Prop where
  /-- A text that has bytes. -/
  | text {t : Text} (h : t.IsEncodable) : IsTold (.text t)
  /-- Something that no field takes. -/
  | other : IsTold .other

theorem Given.isTold_ofJson {v : Json} (h : v.IsEncodable) : (Given.ofJson v).IsTold := by
  cases h with
  | text h => exact .text h
  | _ => exact .other

/-- **A reason that has bytes is told.** -/
theorem unusable_eq_ok {α : Type} {reason : Text} (h : reason.IsEncodable) :
    (unusable name reason : Except Fault (Checked α)) = .ok (flawed name (.unusable reason)) := by
  obtain ⟨b, hb⟩ := (Utf8.exists_encode_eq_ok_iff reason).mpr h
  rw [unusable, hb]

/-- A hasher is refused for its name, which has bytes, in words that have bytes. -/
theorem isEncodable_message_of_ofName (ht : t.IsEncodable) (h : Hasher.ofName t = .error fault) :
    fault.message.IsEncodable := by
  unfold Hasher.ofName at h
  split at h <;> cases h
  all_goals exact ((Text.isEncodable_ofString _).append ht).append (Text.isEncodable_ofString _)

/-- A tilde fails for one reason only. -/
theorem eq_homeUnknown_of_expandHome {p : Path} (h : e.expandHome p = .error fault) : fault = .homeUnknown := by
  have htilde : ∀ {user fault}, e.tildeDir user = .error fault → fault = .homeUnknown := by
    intro user fault h
    unfold Environment.tildeDir at h
    split at h
    · exact (Except.error.inj h).symm
    · split at h
      · cases h
      · split at h
        · exact (Except.error.inj h).symm
        · cases h
  unfold Environment.expandHome at h
  split at h
  · split at h
    · cases h
    · next c user _ =>
      split at h
      · cases hdir : e.tildeDir user with
        | error fault' =>
          rw [hdir] at h
          obtain rfl := Except.error.inj h
          exact htilde hdir
        | ok dir =>
          rw [hdir] at h
          cases h
      · cases h
  · cases h

/-! ## Fields -/

/-- What is given for a field is one of the values that are given. -/
theorem exists_mem_of_given? (h : given? fields name = some given) : ∃ field ∈ fields, field.2 = given := by
  obtain ⟨field, hfield, rfl⟩ := Option.map_eq_some_iff.mp h
  exact ⟨field, List.mem_reverse.mp (List.mem_of_find?_eq_some hfield), rfl⟩

theorem exists_on_checkAlgorithm (h : given.IsTold) (log : Log) :
    ∃ checked log', (checkAlgorithm given).on log = (.ok checked, log') := by
  cases h with
  | other => exact ⟨_, _, rfl⟩
  | @text t ht =>
    simp only [checkAlgorithm, textOf]
    cases hname : Hasher.ofName t with
    | ok hasher => exact ⟨.ok t, _, Reporting.on_bind_ok (Reporting.on_report _ _)⟩
    | error fault =>
      dsimp only
      rw [unusable_eq_ok (isEncodable_message_of_ofName ht hname)]
      exact ⟨_, log, Reporting.on_ofExcept _ _⟩

theorem exists_checkLogLevel (h : given.IsTold) : ∃ checked, checkLogLevel given = .ok checked := by
  cases h with
  | other => exact ⟨_, rfl⟩
  | @text t ht =>
    simp only [checkLogLevel, textOf]
    cases LogLevel.ofText? t with
    | some level => exact ⟨_, rfl⟩
    | none =>
      exact ⟨_, unusable_eq_ok (((Text.isEncodable_ofString _).append ht).append (Text.isEncodable_ofString _))⟩

/-- The text that is given for the directory begins with a tilde that stands for no known directory, though it could be
asked for. -/
def LacksHome (e : Environment) (fields : List (Text × Given)) : Prop :=
  ∃ dir, given? fields dataDirField = some (.text dir) ∧ Environment.userFlaw? (Path.ofText dir) = none ∧
    e.expandHome (Path.ofText dir) = .error .homeUnknown

theorem lacksHome_iff {dir : Text} (h : given? fields dataDirField = some (.text dir)) :
    LacksHome e fields ↔ Environment.userFlaw? (Path.ofText dir) = none ∧
      e.expandHome (Path.ofText dir) = .error .homeUnknown := by
  refine ⟨fun ⟨dir', h', hdir⟩ => ?_, fun hdir => ⟨dir, h, hdir⟩⟩
  cases h.symm.trans h'
  exact hdir

theorem not_lacksHome (h : ∀ dir, given? fields dataDirField ≠ some (.text dir)) : ¬ LacksHome e fields :=
  fun ⟨dir, hdir, _⟩ => h dir hdir

/-- A directory whose user can be asked for is the one with the tilde replaced. -/
theorem checkDir_of_userFlaw?_eq_none {p : Path} (h : Environment.userFlaw? p = none) :
    checkDir e p = (e.expandHome p).map .ok := by rw [checkDir, h]

/-- A directory that passes is one with the tilde replaced. -/
theorem expandHome_of_checkDir {p dir : Path} (h : checkDir e p = .ok (.ok dir)) : e.expandHome p = .ok dir := by
  unfold checkDir at h
  split at h
  · cases h
  · cases hexpand : e.expandHome p with
    | error fault =>
      rw [hexpand] at h
      cases h
    | ok q =>
      rw [hexpand] at h
      exact congrArg Except.ok (Except.ok.inj (Except.ok.inj h))

/-- The checks end with settings, or with what is wrong with the fields. -/
inductive Settled : Except Fault Settings → Prop where
  /-- There are settings. -/
  | settings (x : Settings) : Settled (.ok x)
  /-- The fields do not validate, for at least one reason. -/
  | invalid {issues : List Issue} (h : issues ≠ []) : Settled (.error (.invalidSettings issues))

theorem not_settled_homeUnknown : ¬ Settled (.error .homeUnknown) := nofun

theorem not_settled_undecodable (sequence : Utf8.Undecodable) : ¬ Settled (.error (.undecodable sequence)) := nofun

/-- A field that may be given: checked if it is, and else with its default. -/
def givenOr {α : Type} (check : Given → Reporting (Checked α)) (default : α) : Option Given → Reporting (Checked α)
  | some given => check given
  | none => pure (.ok default)

/-- What comes of the checked fields. -/
def conclude (fields : List (Text × Given)) (algorithm : Checked Text) (dataDir : Checked Path)
    (logLevel : Checked LogLevel) : Reporting Settings :=
  if hasUntoldName fields then throw (.invalidSettings [{ field := none, flaw := .notUnicode }])
  else
    match algorithm, dataDir, logLevel, unknownIssues fields with
    | .ok algorithm, .ok dataDir, .ok logLevel, [] => return { algorithm, dataDir, logLevel }
    | _, _, _, unknown =>
      throw (.invalidSettings (issues algorithm ++ issues dataDir ++ issues logLevel ++ unknown))

/-- Settings are checked field by field. -/
theorem ofFields_eq (e : Environment) (fields : List (Text × Given)) :
    ofFields e fields = (do
      let algorithm ← givenOr checkAlgorithm (defaults e).algorithm (given? fields algorithmField)
      let dataDir ← givenOr (fun given => .ofExcept (checkDataDir e given)) (defaults e).dataDir
        (given? fields dataDirField)
      let logLevel ← givenOr (fun given => .ofExcept (checkLogLevel given)) (defaults e).logLevel
        (given? fields logLevelField)
      conclude fields algorithm dataDir logLevel) := by
  unfold ofFields
  cases given? fields algorithmField <;> cases given? fields dataDirField <;> cases given? fields logLevelField <;> rfl

theorem mem_of_mem_firstAppearances {names : List Text} (h : name ∈ firstAppearances names) : name ∈ names := by
  induction names with
  | nil => exact h
  | cons first names ih =>
    rcases List.mem_cons.mp h with rfl | h
    · exact List.mem_cons_self
    · exact List.mem_cons_of_mem _ (ih (List.mem_filter.mp h).1)

/-- Settings with another directory, or what is wrong with it. -/
def withDataDir (x : Settings) : Checked Path → Except Fault Settings
  | .ok dir => .ok { x with dataDir := dir }
  | .error issue => .error (.invalidSettings [issue])

/-- Fields that are all known make up settings if the directory is no flaw, and the others are none. -/
theorem conclude_of_known (h : ∀ field ∈ fields, field.1 ∈ fieldNames) (x : Settings) (dataDir : Checked Path) :
    conclude fields (.ok x.algorithm) dataDir (.ok x.logLevel) = .ofExcept (x.withDataDir dataDir) := by
  have hnames : ∀ name ∈ fieldNames, name.any (·.isSurrogate) = false := by decide
  have htold : hasUntoldName fields = false :=
    List.any_eq_false.mpr fun field hfield => Bool.not_eq_true _ ▸ hnames _ (h field hfield)
  have hknown : unknownIssues fields = [] := by
    refine List.map_eq_nil_iff.mpr (List.filter_eq_nil_iff.mpr fun name hname => ?_)
    obtain ⟨field, hfield, rfl⟩ := List.mem_map.mp (mem_of_mem_firstAppearances hname)
    simpa using h field hfield
  unfold conclude
  rw [htold, if_neg Bool.false_ne_true, hknown]
  cases dataDir <;> rfl

/-- The directory decides what comes of known fields whose algorithm and level pass. -/
theorem on_ofFields_of_known {x : Settings} {dataDir : Except Fault (Checked Path)}
    (hknown : ∀ field ∈ fields, field.1 ∈ fieldNames)
    (halgorithm : (givenOr checkAlgorithm (defaults e).algorithm (given? fields algorithmField)).on log =
      (.ok (.ok x.algorithm), log'))
    (hdataDir : givenOr (fun given => .ofExcept (checkDataDir e given)) (defaults e).dataDir (given? fields dataDirField) =
      .ofExcept dataDir)
    (hlogLevel : givenOr (fun given => .ofExcept (checkLogLevel given)) (defaults e).logLevel
      (given? fields logLevelField) = pure (.ok x.logLevel)) :
    (ofFields e fields).on log = (dataDir.bind x.withDataDir, log') := by
  rw [ofFields_eq, Reporting.on_bind_ok halgorithm, hdataDir, hlogLevel]
  cases dataDir with
  | error fault => rfl
  | ok checked =>
    change (conclude fields (.ok x.algorithm) checked (.ok x.logLevel)).on log' = _
    rw [conclude_of_known hknown, Reporting.on_ofExcept]
    rfl

theorem exists_eq_ok_of_issues {α : Type} {checked : Checked α} (h : issues checked = []) : ∃ a, checked = .ok a := by
  cases checked with
  | ok a => exact ⟨a, rfl⟩
  | error issue => cases h

theorem settled_conclude (fields : List (Text × Given)) (algorithm : Checked Text) (dataDir : Checked Path)
    (logLevel : Checked LogLevel) (log : Log) : Settled ((conclude fields algorithm dataDir logLevel).on log).1 := by
  unfold conclude
  split
  · exact .invalid (List.cons_ne_nil _ _)
  · split
    · exact .settings _
    · next hwrong =>
      refine .invalid fun hnone => ?_
      simp only [List.append_eq_nil_iff] at hnone
      obtain ⟨⟨⟨halgorithm, hdir⟩, hlevel⟩, hunknown⟩ := hnone
      obtain ⟨_, rfl⟩ := exists_eq_ok_of_issues halgorithm
      obtain ⟨_, rfl⟩ := exists_eq_ok_of_issues hdir
      obtain ⟨_, rfl⟩ := exists_eq_ok_of_issues hlevel
      exact hwrong _ _ _ rfl rfl rfl hunknown

/-- **Fields that can be told of end settled**, unless a home is lacking; and then that is told, whatever else is wrong
with the fields. -/
theorem on_ofFields (h : ∀ field ∈ fields, field.2.IsTold) (log : Log) :
    (LacksHome e fields → ((ofFields e fields).on log).1 = .error .homeUnknown) ∧
      (¬ LacksHome e fields → Settled ((ofFields e fields).on log).1) := by
  have htold : ∀ {name given}, given? fields name = some given → given.IsTold := fun hgiven => by
    obtain ⟨field, hmem, rfl⟩ := exists_mem_of_given? hgiven
    exact h field hmem
  obtain ⟨algorithm, log₁, halgorithm⟩ :
      ∃ checked log₁, (givenOr checkAlgorithm (defaults e).algorithm (given? fields algorithmField)).on log =
        (.ok checked, log₁) := by
    cases hgiven : given? fields algorithmField with
    | some given => exact exists_on_checkAlgorithm (htold hgiven) log
    | none => exact ⟨_, _, rfl⟩
  obtain ⟨logLevel, hlogLevel⟩ :
      ∃ checked, givenOr (fun given => .ofExcept (checkLogLevel given)) (defaults e).logLevel
        (given? fields logLevelField) = pure checked := by
    cases hgiven : given? fields logLevelField with
    | some given =>
      obtain ⟨checked, hchecked⟩ := exists_checkLogLevel (htold hgiven)
      exact ⟨checked, by rw [givenOr, hchecked]; rfl⟩
    | none => exact ⟨_, rfl⟩
  -- what is left to stop the checks is the directory
  rw [ofFields_eq, Reporting.on_bind_ok halgorithm, hlogLevel]
  cases hgiven : given? fields dataDirField with
  | none =>
    have hhome : ¬ LacksHome e fields := not_lacksHome fun _ h => by cases hgiven.symm.trans h
    exact ⟨fun h => absurd h hhome, fun _ => settled_conclude _ _ _ _ _⟩
  | some given =>
    cases htold hgiven with
    | other =>
      have hhome : ¬ LacksHome e fields := not_lacksHome fun _ h => by cases hgiven.symm.trans h
      exact ⟨fun h => absurd h hhome, fun _ => settled_conclude _ _ _ _ _⟩
    | @text dir _ =>
      rw [givenOr, checkDataDir, checkDir, lacksHome_iff hgiven]
      cases Environment.userFlaw? (Path.ofText dir) with
      | some reason => exact ⟨nofun, fun _ => settled_conclude _ _ _ _ _⟩
      | none =>
        cases hdir : e.expandHome (Path.ofText dir) with
        | ok p => exact ⟨nofun, fun _ => settled_conclude _ _ _ _ _⟩
        | error fault =>
          obtain rfl := eq_homeUnknown_of_expandHome hdir
          exact ⟨fun _ => rfl, fun h => absurd ⟨rfl, rfl⟩ h⟩

end Settings

end TopicFilter
