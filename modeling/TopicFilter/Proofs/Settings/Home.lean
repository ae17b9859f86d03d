import TopicFilter.Proofs.Path.Reading
import TopicFilter.Proofs.Settings.Loading

/-!
# Proofs/Settings/Home — the tilde and the home directory

Two rules say where the user is at home: `Environment.homeDir`, which the directory for data starts from, and the tilde
in a directory that is given. `on_settings_tilde` says when they agree: unless the variable is there but empty, and
unless the home directory begins with a tilde itself or is just the two slashes. In those cases a directory below the
tilde is looked for at the top, or not at all (`exists_settings_tilde`).
-/

namespace TopicFilter

variable {e : Environment} {home r : Text} {p : Path} {log : Log}

/-! ## What a tilde stands for -/

namespace Path

/-- A path below two directories tells them apart. -/
theorem anchor_left_inj {dir dir' : Path} (hp : p.isAbsolute = false) : dir.anchor p = dir'.anchor p ↔ dir = dir' := by
  obtain ⟨root, parts⟩ := dir
  obtain ⟨root', parts'⟩ := dir'
  simp [anchor, hp]

/-- The top. -/
theorem ofText_slashes {n : Nat} (h : n ≠ 0 ∧ n ≠ 2) : ofText (List.replicate n slash) = ofText [slash] := by
  have hroot : rootOf (List.replicate n slash) = .top := by
    rw [rootOf, List.takeWhile_replicate, if_pos (decide_eq_true rfl), List.length_replicate]
    split
    · exact absurd rfl h.1
    · exact absurd rfl h.2
    · rfl
  exact congrArg₂ Path.mk hroot (parts_ofText_replicate n)

end Path

namespace Environment

/-- The tilde asks for the home directory where `homeDir` does, but it takes an empty variable at its word. -/
theorem homeOf?_nil (hposix : e.hasAccounts = true) (hhome : e.homeDir ≠ []) :
    e.homeOf? [] = some (if e.home = some [] then [] else e.homeDir) := by
  cases hvar : e.home with
  | none =>
    have hdir : e.homeDir = e.account.getD [] := by simp [homeDir, hvar, hposix]
    cases haccount : e.account with
    | none => exact absurd (by rw [hdir, haccount]; rfl) hhome
    | some t => simp [homeOf?, hvar, haccount, hdir]
  | some t =>
    cases t with
    | nil => simp [homeOf?, hvar]
    | cons c t => simp [homeOf?, homeDir, hvar]

/-- **The tilde stands for the home directory as it is**, but for three sorts of it: no text and the two slashes are the
top, and what begins with a tilde is none. -/
theorem map_tildeDir (h : e.homeOf? [] = some home) :
    (e.tildeDir []).map Path.ofText =
      if home.head? = some tilde then .error .homeUnknown
      else if home = [] ∨ home = [slash, slash] then .ok (Path.ofText [slash])
      else .ok (Path.ofText home) := by
  have hprefix : dropTrailingSlashes home <+: home := List.rdropWhile_prefix _ _
  have hkeep := Path.ofText_dropTrailingSlashes (t := home)
  simp only [tildeDir, h]
  cases hdrop : dropTrailingSlashes home with
  | nil =>
    have hall : ∀ c ∈ home, c = slash := by
      simpa using List.rdropWhile_eq_nil_iff.mp (show home.rdropWhile (· = slash) = [] from hdrop)
    obtain ⟨n, rfl⟩ : ∃ n, home = List.replicate n slash := ⟨_, List.eq_replicate_iff.mpr ⟨rfl, hall⟩⟩
    match n with
    | 0 | 1 | 2 => rfl
    | n + 3 => exact congrArg Except.ok (Path.ofText_slashes (by omega)).symm
  | cons c rest =>
    rw [hdrop] at hprefix hkeep
    obtain ⟨slashes, rfl⟩ := hprefix
    by_cases hc : c = tilde
    · simp [hc, Except.map]
    · have htwo : c :: rest ++ slashes ≠ [slash, slash] := fun htwo => by
        rw [htwo] at hdrop
        cases hdrop
      dsimp only
      rw [if_neg hc, if_neg (by simpa using hc), if_neg (by simpa using htwo), Except.map, hkeep (List.cons_ne_nil _ _)]

/-- A component that begins with a tilde is replaced where it stands in front. -/
theorem expandHome_cons {first : Component} {name : Text} (h : first.text = tilde :: name) (rest : List Component) :
    e.expandHome ⟨.relative, first :: rest⟩ = ((e.tildeDir name).map Path.ofText).map (·.anchor ⟨.relative, rest⟩) := by
  have hexpand : e.expandHome ⟨.relative, first :: rest⟩ = do
      let dir := Path.ofText (← e.tildeDir name)
      return { dir with parts := dir.parts ++ rest } := by
    simp only [expandHome, h, if_true]
  rw [hexpand]
  cases e.tildeDir name <;> rfl

/-- A tilde in front of a path is replaced. -/
theorem expandHome_tilde (hp : p.isAbsolute = false) :
    e.expandHome ((Path.ofText [tilde]).anchor p) = ((e.tildeDir []).map Path.ofText).map (·.anchor p) := by
  obtain ⟨root, rest⟩ := p
  obtain rfl : root = .relative := by simpa [Path.isAbsolute] using hp
  have htilde : (Component.mk [tilde] (by decide)).text = tilde :: [] := rfl
  exact expandHome_cons htilde rest

/-- A tilde by itself names nobody who could not be asked for. -/
theorem userFlaw?_tilde (hp : p.isAbsolute = false) : userFlaw? ((Path.ofText [tilde]).anchor p) = none := by
  obtain ⟨root, rest⟩ := p
  obtain rfl : root = .relative := by simpa [Path.isAbsolute] using hp
  rfl

theorem defaultDataDir_eq (hhome : e.homeDir ≠ []) : e.defaultDataDir = (Path.ofText e.homeDir).anchor dataDirName := by
  rw [defaultDataDir, if_neg (by simpa using hhome)]

/-- The two rules for the home directory agree. -/
structure TildeIsHome (e : Environment) : Prop where
  /-- A variable that is there but empty is taken for the top. -/
  top : e.home = some [] → Path.ofText e.homeDir = Path.ofText [slash]
  /-- Nothing else is replaced. -/
  tilde : e.home ≠ some [] → e.homeDir.head? ≠ some tilde ∧ e.homeDir ≠ [slash, slash]

/-- An empty variable and the two slashes are the top. -/
theorem map_tildeDir_top (hposix : e.hasAccounts = true) (hhome : e.homeDir ≠ [])
    (h : e.home = some [] ∨ e.homeDir = [slash, slash]) : (e.tildeDir []).map Path.ofText = .ok (Path.ofText [slash]) := by
  rw [map_tildeDir (homeOf?_nil hposix hhome)]
  by_cases hempty : e.home = some []
  · rw [if_pos hempty]
    rfl
  · rw [if_neg hempty, h.resolve_left hempty]
    rfl

/-- What begins with a tilde is no home. -/
theorem map_tildeDir_unknown (hposix : e.hasAccounts = true) (hhome : e.homeDir ≠ []) (hempty : e.home ≠ some [])
    (htilde : e.homeDir.head? = some tilde) : (e.tildeDir []).map Path.ofText = .error .homeUnknown := by
  rw [map_tildeDir (homeOf?_nil hposix hhome), if_neg hempty, if_pos htilde]

/-- The tilde stands for the home directory exactly if the two rules agree. -/
theorem map_tildeDir_eq_homeDir_iff (hposix : e.hasAccounts = true) (hhome : e.homeDir ≠ []) :
    (e.tildeDir []).map Path.ofText = .ok (Path.ofText e.homeDir) ↔ e.TildeIsHome := by
  have htop := map_tildeDir_top hposix hhome
  by_cases hempty : e.home = some []
  · rw [htop (.inl hempty), Except.ok.injEq]
    exact ⟨fun h => ⟨fun _ => h.symm, fun hne => absurd hempty hne⟩, fun h => (h.top hempty).symm⟩
  · refine ⟨fun h => ⟨fun hvar => absurd hvar hempty, fun _ => ⟨fun htilde => ?_, fun htwo => ?_⟩⟩, fun h => ?_⟩
    · cases (map_tildeDir_unknown hposix hhome hempty htilde).symm.trans h
    · rw [htop (.inr htwo), htwo] at h
      cases h
    · obtain ⟨htilde, htwo⟩ := h.tilde hempty
      rw [map_tildeDir (homeOf?_nil hposix hhome), if_neg hempty, if_neg htilde, if_neg (not_or.mpr ⟨hhome, htwo⟩)]

end Environment

namespace Settings

/-- A directory that is given by a text is all that is checked. -/
theorem on_ofFields_dataDir (e : Environment) (t : Text) (log : Log) :
    (ofFields e [(dataDirField, .text t)]).on log =
      ((checkDir e (Path.ofText t)).bind (defaults e).withDataDir, log) :=
  on_ofFields_of_known (x := defaults e) (List.forall_mem_singleton.mpr (.tail _ (.head _))) rfl rfl rfl

end Settings

namespace Store

open Settings

variable {s : Store}

/-- Making settings of a directory that is given by a text changes nothing. -/
theorem on_settings_dataDir (s : Store) (t : Text) :
    (Action.settings [(dataDirField, .scalar (.text t))]).on s =
      ((checkDir s.environment (Path.ofText t)).bind (defaults s.environment).withDataDir, s) := by
  have hon := on_ofFields_dataDir s.environment t []
  rw [Action.settings, Action.on_bind_ok (Action.on_get s), Action.on_ofReporting]
  change (((ofFields s.environment [(dataDirField, .text t)]).on []).1,
    { s with log := s.log ++ ((ofFields s.environment [(dataDirField, .text t)]).on []).2 }) = _
  rw [hon, List.append_nil]

/-- **When the tilde and the home directory agree.** The user has a home directory, in the variable or in the account
database, and a relative path is given below the tilde. The directory is the path below the home directory exactly if
`TildeIsHome`; the directory for data, given like that, is then the one that is taken by default. If the variable is
empty or names the two slashes, the path is below the top, and a home directory that begins with a tilde is not
known. -/
theorem on_settings_tilde (hposix : s.environment.hasAccounts = true) (hhome : s.environment.homeDir ≠ [])
    (hr : (Path.ofText r).isAbsolute = false) :
    let e := s.environment
    let outcome := ((Action.settings [(dataDirField, .scalar (.text (TopicFilter.text "~/" ++ r)))]).on s).1
    let below (dir : Path) : Settings := { defaults e with dataDir := dir.anchor (Path.ofText r) }
    (outcome = .ok (below (Path.ofText e.homeDir)) ↔ e.TildeIsHome) ∧
      (e.TildeIsHome → Path.ofText r = Environment.dataDirName → outcome = ((Action.settings []).on s).1) ∧
      (e.home = some [] ∨ e.homeDir = [slash, slash] → outcome = .ok (below (Path.ofText [slash]))) ∧
      (e.home ≠ some [] → e.homeDir.head? = some tilde → outcome = .error .homeUnknown) := by
  intro e outcome below
  have hpath : Path.ofText (TopicFilter.text "~/" ++ r) = (Path.ofText [tilde]).anchor (Path.ofText r) :=
    Path.ofText_append ⟨tilde, List.mem_singleton.mpr rfl, by decide⟩ hr
  have houtcome : outcome = ((e.tildeDir []).map Path.ofText).map below := by
    rw [show outcome = _ from congrArg Prod.fst (on_settings_dataDir s _), hpath,
      checkDir_of_userFlaw?_eq_none (Environment.userFlaw?_tilde hr), Environment.expandHome_tilde hr]
    cases e.tildeDir [] <;> rfl
  have hbelow : ∀ {dir dir'}, below dir = below dir' ↔ dir = dir' := fun {dir dir'} => by
    simp [below, Path.anchor_left_inj hr]
  have hagree : outcome = .ok (below (Path.ofText e.homeDir)) ↔ e.TildeIsHome := by
    rw [houtcome, ← Environment.map_tildeDir_eq_homeDir_iff hposix hhome]
    cases (e.tildeDir []).map Path.ofText <;> simp [Except.map, hbelow, e]
  refine ⟨hagree, fun h hname => ?_, fun h => ?_, fun hempty htilde => ?_⟩
  · have hdir : (Path.ofText e.homeDir).anchor (Path.ofText r) = (defaults e).dataDir :=
      hname ▸ (Environment.defaultDataDir_eq hhome).symm
    simp only [hagree.mpr h, below, hdir]
    rfl
  · rw [houtcome, Environment.map_tildeDir_top hposix hhome h]
    rfl
  · rw [houtcome, Environment.map_tildeDir_unknown hposix hhome hempty htilde]
    rfl

/-- A home directory with slashes at its end, and a path with more slashes than it needs. -/
theorem on_settings_tilde_slashes :
    let s := initial
      { home := some (TopicFilter.text "//net/u//"), userProfile := none, account := none, users := []
        hasAccounts := true }
      { workingDir := [], entries := [] }
    s.environment.hasAccounts = true ∧ s.environment.homeDir ≠ [] ∧
      (Path.ofText (TopicFilter.text "a//./~")).isAbsolute = false ∧
      ((Action.settings [(dataDirField, .scalar (.text (TopicFilter.text "~/a//./~")))]).on s).1 =
        .ok { defaults s.environment with dataDir := Path.ofString "//net/u/a/~" } := by
  intro s
  have hposix : s.environment.hasAccounts = true := rfl
  have hhome : s.environment.homeDir ≠ [] := by decide
  have hr : (Path.ofText (TopicFilter.text "a//./~")).isAbsolute = false := by decide
  have hagrees : s.environment.TildeIsHome := ⟨by decide, fun _ => by decide⟩
  exact ⟨hposix, hhome, hr, (on_settings_tilde hposix hhome hr).1.mpr hagrees⟩

/-- **A variable that is empty parts the two rules**, and so do a home directory that begins with a tilde and one that
is just the two slashes. -/
theorem exists_settings_tilde :
    let user (home : String) (account : Option Text) : Store := initial
      { home := some (TopicFilter.text home), userProfile := none, account, users := [], hasAccounts := true }
      { workingDir := [], entries := [] }
    let given (s : Store) :=
      ((Action.settings [(dataDirField, .scalar (.text (TopicFilter.text "~/.hashtopic")))]).on s).1
    let omitted (s : Store) := ((Action.settings []).on s).1
    let settings (dir : String) : Settings :=
      { algorithm := defaultAlgorithm, dataDir := Path.ofString dir, logLevel := .info }
    let acct := user "" (some (TopicFilter.text "/acct"))
    acct.environment.homeDir = TopicFilter.text "/acct" ∧ given acct = .ok (settings "/.hashtopic") ∧
      omitted acct = .ok (settings "/acct/.hashtopic") ∧ given acct ≠ omitted acct ∧
      given (user "~" none) = .error .homeUnknown ∧ omitted (user "~" none) = .ok (settings "~/.hashtopic") ∧
      given (user "//" none) = .ok (settings "/.hashtopic") ∧
      omitted (user "//" none) = .ok (settings "//.hashtopic") := by
  intro user given omitted settings acct
  have hgiven : given acct = .ok (settings "/.hashtopic") := by decide +kernel
  have homitted : omitted acct = .ok (settings "/acct/.hashtopic") := by decide +kernel
  have hne : given acct ≠ omitted acct := by
    rw [hgiven, homitted]
    decide +kernel
  exact ⟨rfl, hgiven, homitted, hne, by decide +kernel, by decide +kernel, by decide +kernel, by decide +kernel⟩

end Store

end TopicFilter
