import Mathlib.Data.List.Nodup
import TopicFilter.Proofs.Settings.Home
import TopicFilter.Proofs.Settings.Usable

/-!
# Proofs/Settings/Rechecking — settings pass their own checks

What a check let through passes it again, and is not changed then: the name of an algorithm stays as it is, a level is
named in capitals, and a directory has no tilde in front once that is replaced, where homes are absolute
(`checkDir_eq_self_iff`). The default directory is not checked, but it is below a home as well. So settings can be
made of their own fields, and are the same again (`on_settings_own`). The one exception is a home that no account has and
that begins with a tilde itself (`exists_settings_own_ne`).
-/

namespace TopicFilter

variable {e : Environment} {p q : Path} {name t home : Text}

/-! ## A tilde in front -/

namespace Path

/-- The path begins with a tilde, so that it is below a home directory. -/
def HasTilde (p : Path) : Prop := p.isAbsolute = false ∧ ∃ first ∈ p.parts.head?, first.text.head? = some tilde

theorem not_hasTilde_of_isAbsolute (h : p.isAbsolute = true) : ¬ p.HasTilde := by
  rintro ⟨hrelative, -⟩
  rw [h] at hrelative
  cases hrelative

theorem not_hasTilde_of_parts (h : p.parts = []) : ¬ p.HasTilde := by
  rintro ⟨-, first, hfirst, -⟩
  rw [h] at hfirst
  cases hfirst

/-- The front of a path below a directory is that of the directory, if there is one. -/
theorem hasTilde_anchor_iff {dir : Path} (hp : p.isAbsolute = false) (htilde : ¬ p.HasTilde) :
    (dir.anchor p).HasTilde ↔ dir.HasTilde := by
  obtain ⟨root, parts⟩ := dir
  rw [anchor, if_neg (Bool.eq_false_iff.mp hp)]
  cases parts with
  | nil => exact iff_of_false (fun h => htilde ⟨hp, h.2⟩) (not_hasTilde_of_parts rfl)
  | cons first parts => exact Iff.rfl

end Path

namespace Environment

theorem expandHome_of_not_hasTilde (h : ¬ p.HasTilde) : e.expandHome p = .ok p := by
  obtain ⟨root, parts⟩ := p
  unfold expandHome
  split
  · next first rest hroot hparts =>
    split
    · rfl
    · next c name htext =>
      obtain rfl : root = .relative := hroot
      obtain rfl : parts = first :: rest := hparts
      refine if_neg ?_
      rintro rfl
      exact h ⟨rfl, first, rfl, by rw [htext]; rfl⟩
  · rfl

/-- Nobody is asked for without a tilde. -/
theorem userFlaw?_of_not_hasTilde (h : ¬ p.HasTilde) : userFlaw? p = none := by
  obtain ⟨root, parts⟩ := p
  unfold userFlaw?
  split
  · next first rest hroot hparts =>
    split
    · rfl
    · next c name htext =>
      obtain rfl : root = .relative := hroot
      obtain rfl : parts = first :: rest := hparts
      refine if_neg ?_
      rintro rfl
      exact h ⟨rfl, first, rfl, by rw [htext]; rfl⟩
  · rfl

/-- What a tilde in front stands for is put in its place. -/
theorem exists_expandHome_eq (h : p.HasTilde) :
    ∃ name file, file.isAbsolute = false ∧
      e.expandHome p = ((e.tildeDir name).map Path.ofText).map (·.anchor file) := by
  obtain ⟨root, parts⟩ := p
  obtain ⟨hrelative, first, hfirst, htilde⟩ := h
  obtain rfl : root = .relative := by simpa [Path.isAbsolute] using hrelative
  obtain ⟨name, hname⟩ := List.head?_eq_some_iff.mp htilde
  obtain ⟨rest, rfl⟩ := List.head?_eq_some_iff.mp hfirst
  exact ⟨name, ⟨.relative, rest⟩, rfl, expandHome_cons hname rest⟩

/-! ## Absolute homes -/

/-- A home that is named at all is named from the top. -/
def IsHome (home : Text) : Prop := home ≠ [] → (Path.ofText home).isAbsolute = true

/-- The variable and the accounts name absolute homes, where they name any. -/
structure HasAbsoluteHomes (e : Environment) : Prop where
  /-- The variable. -/
  home : ∀ home, e.home = some home → IsHome home
  /-- The account of the user. -/
  account : ∀ home, e.account = some home → IsHome home
  /-- The accounts of other users. -/
  users : ∀ user ∈ e.users, IsHome user.2

namespace HasAbsoluteHomes

theorem isHome_of_homeOf? (he : e.HasAbsoluteHomes) (h : e.homeOf? name = some home) : IsHome home := by
  unfold homeOf? at h
  split at h
  · cases hvariable : e.home with
    | none =>
      rw [hvariable] at h
      exact he.account home h
    | some t =>
      rw [hvariable] at h
      exact Option.some.inj h ▸ he.home t hvariable
  · obtain ⟨user, huser, rfl⟩ := Option.map_eq_some_iff.mp h
    exact he.users user (List.mem_reverse.mp (List.mem_of_find?_eq_some huser))

/-- **A tilde stands for an absolute directory.** -/
theorem isAbsolute_of_tildeDir (he : e.HasAbsoluteHomes) (h : e.tildeDir name = .ok t) :
    (Path.ofText t).isAbsolute = true := by
  unfold tildeDir at h
  split at h
  · cases h
  · next home hhome =>
    split at h
    · cases h
      rfl
    · next c rest hdrop =>
      split at h
      · cases h
      · obtain rfl := Except.ok.inj h
        have hne : dropTrailingSlashes home ≠ [] := hdrop ▸ List.cons_ne_nil _ _
        have hhome' : home ≠ [] := fun hnil => hne (by rw [hnil]; rfl)
        rw [← hdrop, Path.ofText_dropTrailingSlashes hne]
        exact he.isHome_of_homeOf? hhome hhome'

/-- What comes of a tilde has none. -/
theorem not_hasTilde_of_expandHome (he : e.HasAbsoluteHomes) (h : e.expandHome p = .ok q) : ¬ q.HasTilde := by
  by_cases hp : p.HasTilde
  · obtain ⟨name, file, hfile, hexpand⟩ := exists_expandHome_eq (e := e) hp
    cases hdir : e.tildeDir name with
    | error fault =>
      rw [hexpand, hdir] at h
      cases h
    | ok t =>
      rw [hexpand, hdir] at h
      obtain rfl : (Path.ofText t).anchor file = q := Except.ok.inj h
      refine Path.not_hasTilde_of_isAbsolute ?_
      rw [Path.isAbsolute_anchor, he.isAbsolute_of_tildeDir hdir, Bool.true_or]
  · rw [expandHome_of_not_hasTilde hp] at h
    exact Except.ok.inj h ▸ hp

end HasAbsoluteHomes

/-- The home directory is one that no account has, and it begins with a tilde. -/
structure HasTildeProfile (e : Environment) : Prop where
  /-- There are no accounts. -/
  hasAccounts : e.hasAccounts = false
  /-- The variable is missing or empty. -/
  home : e.home = none ∨ e.home = some []
  /-- The variable that is asked instead names a path that begins with a tilde. -/
  profile : ∃ t, e.userProfile = some t ∧ (Path.ofText t).HasTilde

theorem not_hasTilde_nil : ¬ (Path.ofText []).HasTilde := Path.not_hasTilde_of_parts rfl

theorem IsHome.not_hasTilde (h : IsHome home) : ¬ (Path.ofText home).HasTilde := by
  by_cases hnil : home = []
  · rw [hnil]
    exact not_hasTilde_nil
  · exact Path.not_hasTilde_of_isAbsolute (h hnil)

theorem hasTilde_getD_iff {asked : Option Text} :
    (Path.ofText (asked.getD [])).HasTilde ↔ ∃ t, asked = some t ∧ (Path.ofText t).HasTilde := by
  cases asked with
  | none => simp [not_hasTilde_nil]
  | some t => simp

/-- Without the variable it is the accounts that are asked, or another variable. -/
theorem homeDir_eq (h : e.home = none ∨ e.home = some []) :
    e.homeDir = (if e.hasAccounts then e.account else e.userProfile).getD [] := by
  rcases h with h | h <;> rw [homeDir, h]

/-- **A home directory begins with a tilde only where no account has it.** -/
theorem HasAbsoluteHomes.hasTilde_homeDir_iff (he : e.HasAbsoluteHomes) :
    (Path.ofText e.homeDir).HasTilde ↔ e.HasTildeProfile := by
  refine ⟨fun h => ?_, fun ⟨haccounts, hmissing, hprofile⟩ => ?_⟩
  · by_cases hmissing : e.home = none ∨ e.home = some []
    · rw [homeDir_eq hmissing] at h
      obtain ⟨t, hasked, htilde⟩ := hasTilde_getD_iff.mp h
      cases haccounts : e.hasAccounts with
      | true =>
        rw [haccounts, if_pos rfl] at hasked
        exact absurd htilde (he.account t hasked).not_hasTilde
      | false =>
        rw [haccounts, if_neg Bool.false_ne_true] at hasked
        exact ⟨haccounts, hmissing, t, hasked, htilde⟩
    · obtain ⟨hnone, hempty⟩ := not_or.mp hmissing
      obtain ⟨t, ht⟩ := Option.ne_none_iff_exists'.mp hnone
      have hdir : e.homeDir = t := by
        rw [homeDir, ht]
        cases t with
        | nil => exact absurd ht hempty
        | cons c t => rfl
      exact absurd (hdir ▸ h) (he.home t ht).not_hasTilde
  · rw [homeDir_eq hmissing, haccounts, if_neg Bool.false_ne_true]
    exact hasTilde_getD_iff.mpr hprofile

/-- The default directory begins with a tilde if the home directory does. -/
theorem hasTilde_defaultDataDir_iff : e.defaultDataDir.HasTilde ↔ (Path.ofText e.homeDir).HasTilde := by
  have hname : ¬ dataDirName.HasTilde := by
    rintro ⟨-, first, hfirst, htilde⟩
    obtain rfl := Option.some.inj hfirst
    revert htilde
    decide
  unfold defaultDataDir
  split
  · next hempty =>
    rw [List.isEmpty_iff.mp hempty]
    exact iff_of_false hname not_hasTilde_nil
  · exact Path.hasTilde_anchor_iff rfl hname

end Environment

/-! ## What passed passes again -/

namespace Settings

variable {x : Settings} {given : Given} {checked : Checked Path} {fields : List (Text × Given)}

/-- A directory that passed begins with no tilde. -/
theorem passed_checkDataDir (he : e.HasAbsoluteHomes) (h : checkDataDir e given = .ok checked) :
    Passed (fun dir => ¬ dir.HasTilde) checked := by
  have hexpanded : ∀ p, checkDir e p = .ok checked → Passed (fun dir => ¬ dir.HasTilde) checked := by
    rintro p hp dir rfl
    exact he.not_hasTilde_of_expandHome (expandHome_of_checkDir hp)
  cases given with
  | text t => exact hexpanded _ h
  | path p => exact hexpanded p h
  | bytes b | other =>
    obtain rfl := Except.ok.inj h
    exact nofun

/-- **A directory without a tilde is all that passes as it is.** -/
theorem checkDir_eq_self_iff (he : e.HasAbsoluteHomes) : checkDir e p = .ok (.ok p) ↔ ¬ p.HasTilde := by
  refine ⟨fun h => he.not_hasTilde_of_expandHome (expandHome_of_checkDir h), fun h => ?_⟩
  rw [checkDir_of_userFlaw?_eq_none (Environment.userFlaw?_of_not_hasTilde h),
    Environment.expandHome_of_not_hasTilde h]
  rfl

/-- Only the default directory can begin with a tilde. -/
theorem gives_dataDir (he : e.HasAbsoluteHomes) (fields : List (Text × Given)) :
    (ofFields e fields).Gives fun x => x.dataDir.HasTilde → x.dataDir = e.defaultDataDir := by
  have hchecked : ∀ given checked, checkDataDir e given = .ok checked →
      Passed (fun dir => dir.HasTilde → dir = e.defaultDataDir) checked := fun _ _ h dir hdir htilde =>
    absurd htilde (passed_checkDataDir he h dir hdir)
  exact (gives_fields gives_checkAlgorithm isHashName_default hchecked (fun _ => rfl) fields).mono fun _ => And.right

/-- The name of an algorithm passes as it is. -/
theorem on_checkAlgorithm (h : IsHashName name) (log : Log) :
    ∃ log', (checkAlgorithm (.text name)).on log = (.ok (.ok name), log') := by
  obtain ⟨alg, hlookup⟩ := h
  simp only [checkAlgorithm, textOf, ofName_of_lookup hlookup]
  exact ⟨_, Reporting.on_bind_ok (Reporting.on_report _ _)⟩

/-- The name of a level passes as it is. -/
theorem checkLogLevel_name (level : LogLevel) : checkLogLevel (.text level.name) = .ok (.ok level) := by
  simp only [checkLogLevel, textOf, LogLevel.ofText?_name]

/-- Of names that are given once each, the value that is given counts. -/
theorem given?_of_mem (hnames : (fields.map (·.1)).Nodup) (h : (name, given) ∈ fields) :
    given? fields name = some given := by
  have hfind : fields.reverse.find? (·.1 = name) = some (name, given) := by
    cases hfound : fields.reverse.find? (·.1 = name) with
    | none => exact absurd (List.find?_eq_none.mp hfound _ (List.mem_reverse.mpr h)) (by simp)
    | some field =>
      have hfield : field ∈ fields := List.mem_reverse.mp (List.mem_of_find?_eq_some hfound)
      have hname : field.1 = name := by simpa using List.find?_some hfound
      exact congrArg some (List.inj_on_of_nodup_map hnames hfield h hname)
  rw [given?, hfind]
  rfl

end Settings

namespace Store

open Settings

variable {s : Store} {x : Settings} {dir : Value} {fields : List (Text × Value)} {log : Log}

/-- A directory is given as itself, or as its text if that has bytes. -/
inductive GivesDirectory (p : Path) : Value → Prop where
  /-- The directory itself. -/
  | path : GivesDirectory p (.path p)
  /-- Its text. -/
  | text (h : p.toText.IsEncodable) : GivesDirectory p (.scalar (.text p.toText))

/-- The fields that settings have, with the directory as it is given. -/
def ownFields (x : Settings) (dir : Value) : List (Text × Value) :=
  [(algorithmField, .scalar (.text x.algorithm)), (logLevelField, .scalar (.text x.logLevel.name)), (dataDirField, dir)]

theorem GivesDirectory.checkDataDir_given (h : GivesDirectory p dir) (e : Environment) (s : Store) :
    checkDataDir e (Action.given s dir) = checkDir e p := by
  cases h with
  | path => rfl
  | text => exact congrArg (checkDir e) (Path.ofText_toText p)

/-- Fields in another order give the same. -/
theorem given?_of_perm_ownFields (h : fields.Perm (ownFields x dir)) {v : Value} (hv : (name, v) ∈ ownFields x dir)
    (s : Store) : given? (fields.map fun (name, v) => (name, Action.given s v)) name = some (Action.given s v) := by
  have hown : ((ownFields x dir).map (·.1)).Nodup := show [algorithmField, logLevelField, dataDirField].Nodup by decide
  have hnames : ((fields.map fun (name, v) => (name, Action.given s v)).map (·.1)).Nodup := by
    rw [List.map_map]
    exact (h.map (·.1)).nodup_iff.mpr hown
  exact given?_of_mem hnames (List.mem_map_of_mem (h.mem_iff.mpr hv))

/-- **Settings that are made of their own fields differ in the directory only**: it is checked once more. -/
theorem on_settings_ownFields (hname : IsHashName x.algorithm) (hdir : GivesDirectory x.dataDir dir)
    (hfields : fields.Perm (ownFields x dir)) (s : Store) :
    ((Action.settings fields).on s).1 = (checkDir s.environment x.dataDir).bind x.withDataDir := by
  let given := fields.map fun (name, v) => (name, Action.given s v)
  have halgorithm : given? given algorithmField = some (.text x.algorithm) := given?_of_perm_ownFields hfields (.head _) s
  have hlogLevel : given? given logLevelField = some (.text x.logLevel.name) :=
    given?_of_perm_ownFields hfields (.tail _ (.head _)) s
  have hdataDir : given? given dataDirField = some (Action.given s dir) :=
    given?_of_perm_ownFields hfields (.tail _ (.tail _ (.head _))) s
  have hown : [algorithmField, logLevelField, dataDirField] ⊆ fieldNames := by decide
  have hknown : ∀ field ∈ given, field.1 ∈ fieldNames := List.forall_mem_map.mpr fun field hfield =>
    hown ((hfields.map (·.1)).mem_iff.mp (List.mem_map_of_mem hfield))
  obtain ⟨log, hchecked⟩ := on_checkAlgorithm hname []
  have hon : (ofFields s.environment given).on [] =
      ((checkDir s.environment x.dataDir).bind x.withDataDir, log) := by
    refine on_ofFields_of_known hknown ?_ ?_ ?_
    · rw [halgorithm]
      exact hchecked
    · rw [hdataDir, givenOr, hdir.checkDataDir_given]
    · rw [hlogLevel, givenOr, checkLogLevel_name]
      rfl
  rw [Action.settings, Action.on_bind_ok (Action.on_get s), Action.on_ofReporting]
  exact congrArg Prod.fst hon

/-- **Validation is idempotent where homes are absolute.** Settings that were obtained in some environment can be made of
their own fields there, in any order and with the directory as it is or as a text, and are the same again. The one
exception is a default directory below a home directory that no account has and that begins with a tilde. -/
theorem on_settings_own (he : e.HasAbsoluteHomes) (hx : ObtainedIn e x) :
    ∀ s : Store, s.environment = e → ∀ dir, GivesDirectory x.dataDir dir → ∀ fields, fields.Perm (ownFields x dir) →
      (((Action.settings fields).on s).1 = .ok x ↔ ¬ (x.dataDir = e.defaultDataDir ∧ e.HasTildeProfile)) := by
  rintro s rfl dir hdir fields hfields
  have hsame : ((Action.settings fields).on s).1 = .ok x ↔ checkDir s.environment x.dataDir = .ok (.ok x.dataDir) := by
    rw [on_settings_ownFields hx.isHashName hdir hfields]
    cases checkDir s.environment x.dataDir with
    | error fault => exact iff_of_false nofun nofun
    | ok checked =>
      cases checked with
      | error issue => exact iff_of_false nofun nofun
      | ok p =>
        refine ⟨fun h => ?_, fun h => ?_⟩
        · rw [← Except.ok.inj h]
        · obtain rfl : p = x.dataDir := Except.ok.inj (Except.ok.inj h)
          rfl
  -- a directory that was checked has lost its tilde, so only the default can have one
  have htilde : x.dataDir.HasTilde ↔ x.dataDir = s.environment.defaultDataDir ∧ s.environment.HasTildeProfile := by
    rw [← he.hasTilde_homeDir_iff, ← Environment.hasTilde_defaultDataDir_iff]
    refine ⟨fun h => ?_, fun ⟨hdefault, h⟩ => hdefault ▸ h⟩
    have hdefault : x.dataDir = s.environment.defaultDataDir := hx.of_gives (gives_dataDir he) h
    exact ⟨hdefault, hdefault ▸ h⟩
  rw [hsame, checkDir_eq_self_iff he, htilde]

/-- A directory below the home of another user, whose last component is a tilde, given by its text and before the rest. -/
theorem on_settings_own_user :
    let e : Environment :=
      { home := some (TopicFilter.text "/h/"), userProfile := none, account := some []
        users := [(TopicFilter.text "u", TopicFilter.text "//net/u")], hasAccounts := true }
    let s := initial e { workingDir := [], entries := [] }
    let given (t : String) : Value := .scalar (.text (TopicFilter.text t))
    let x : Settings := { algorithm := TopicFilter.text "SHA-1", dataDir := Path.ofString "//net/u/~", logLevel := .warn }
    let own := [(dataDirField, given "//net/u/~"), (algorithmField, given "SHA-1"), (logLevelField, given "WARN")]
    e.HasAbsoluteHomes ∧ ObtainedIn e x ∧ GivesDirectory x.dataDir (given "//net/u/~") ∧
      own.Perm (ownFields x (given "//net/u/~")) ∧ ((Action.settings own).on s).1 = .ok x := by
  intro e s given x own
  have he : e.HasAbsoluteHomes := by
    refine ⟨?_, ?_, List.forall_mem_singleton.mpr fun _ => by decide⟩
    · rintro _ ⟨⟩ -
      decide
    · rintro _ ⟨⟩ hne
      exact absurd rfl hne
  have hchecked : ((Action.settings [(dataDirField, given "~u//./~"), (logLevelField, given "warn"),
      (algorithmField, given "SHA-1")]).on s).1 = .ok x := by decide +kernel
  have hx : ObtainedIn e x := .fields (s := s) rfl (Prod.ext hchecked rfl)
  have hdir : GivesDirectory x.dataDir (given "//net/u/~") := by
    have htext : x.dataDir.toText = TopicFilter.text "//net/u/~" := by decide
    have hgiven : GivesDirectory x.dataDir (.scalar (.text x.dataDir.toText)) :=
      .text (htext ▸ Text.isEncodable_ofString _)
    rwa [htext] at hgiven
  have hperm : own.Perm (ownFields x (given "//net/u/~")) := (List.perm_append_singleton _ [_, _]).symm
  have hexcept : ¬ (x.dataDir = e.defaultDataDir ∧ e.HasTildeProfile) := fun ⟨_, h⟩ => by cases h.hasAccounts
  exact ⟨he, hx, hdir, hperm, (on_settings_own he hx s rfl _ hdir own hperm).mpr hexcept⟩

/-- **A home directory that no account has can begin with a tilde**, and then so does the default directory, which is not
checked. Made of their own fields, the default settings are below the home of the account, or that home is not known. -/
theorem exists_settings_own_ne :
    let user (account : Option Text) : Store := initial
      { home := none, userProfile := some (TopicFilter.text "~"), account, users := [], hasAccounts := false }
      { workingDir := [], entries := [] }
    let s := user (some (TopicFilter.text "/acct"))
    let x := Settings.defaults s.environment
    let again (s : Store) := ((Action.settings (ownFields x (.path x.dataDir))).on s).1
    s.environment.HasAbsoluteHomes ∧ ObtainedIn s.environment x ∧ x.dataDir = Path.ofString "~/.hashtopic" ∧
      again s = .ok { x with dataDir := Path.ofString "/acct/.hashtopic" } ∧ again s ≠ .ok x ∧
      again (user none) = .error .homeUnknown := by
  intro user s x again
  have he : s.environment.HasAbsoluteHomes := by
    refine ⟨nofun, ?_, nofun⟩
    rintro _ ⟨⟩ -
    decide
  have hdefault : ((Action.settings []).on s).1 = .ok x := by decide +kernel
  have hagain : again s = .ok { x with dataDir := Path.ofString "/acct/.hashtopic" } := by decide +kernel
  have hne : again s ≠ .ok x := by
    rw [hagain]
    decide +kernel
  exact ⟨he, .fields (s := s) rfl (Prod.ext hdefault rfl), by decide, hagain, hne, by decide +kernel⟩

end Store

end TopicFilter
