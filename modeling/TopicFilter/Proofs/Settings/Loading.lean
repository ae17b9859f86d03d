import TopicFilter.Proofs.Session.Making
import TopicFilter.Proofs.Settings.Checking
import TopicFilter.Session

/-!
# Proofs/Settings/Loading — how loading a configuration file ends

Whatever bytes a configuration file holds, loading it ends with settings or with a failure of validation, unless the
bytes are no text at all or ask for a home that is not known (`on_loadSettings`). These two are failures of their own,
told apart from content that is not valid (`exists_unsettled`). Where there is no file, a path that was given is told,
and else there are the defaults; a path that is too long is a failure either way.
-/

namespace TopicFilter

namespace Settings

variable {e : Environment} {t : Text} {content : Bytes} {log : Log}

/-! ## Content -/

/-- The text is an object, and what it gives for the directory lacks a home. -/
def TextLacksHome (e : Environment) (t : Text) : Prop :=
  ∃ fields, Json.read .strict t = some (.object fields) ∧
    LacksHome e (fields.map fun (name, value) => (name, Given.ofJson value))

theorem textLacksHome_iff {fields : List (Text × Json)} (h : Json.read .strict t = some (.object fields)) :
    TextLacksHome e t ↔ LacksHome e (fields.map fun (name, value) => (name, Given.ofJson value)) := by
  refine ⟨fun ⟨fields', h', hlack⟩ => ?_, fun hlack => ⟨fields, h, hlack⟩⟩
  cases h.symm.trans h'
  exact hlack

theorem not_textLacksHome (h : ∀ fields, Json.read .strict t ≠ some (.object fields)) : ¬ TextLacksHome e t :=
  fun ⟨fields, hfields, _⟩ => h fields hfields

/-- **Any text ends settled**, unless it is an object that lacks a home. -/
theorem on_ofJsonText (e : Environment) (t : Text) (log : Log) :
    (TextLacksHome e t → ((ofJsonText e t).on log).1 = .error .homeUnknown) ∧
      (¬ TextLacksHome e t → Settled ((ofJsonText e t).on log).1) := by
  unfold ofJsonText
  cases hread : Json.read .strict t with
  | none =>
    have hhome : ¬ TextLacksHome e t := not_textLacksHome fun _ h => by cases hread.symm.trans h
    exact ⟨fun h => absurd h hhome, fun _ => .invalid (List.cons_ne_nil _ _)⟩
  | some v =>
    cases Json.isEncodable_read rfl hread with
    | object _ hvalues =>
      rw [textLacksHome_iff hread]
      exact on_ofFields (List.forall_mem_map.mpr fun field hmem => Given.isTold_ofJson (hvalues field hmem)) log
    | _ =>
      have hhome : ¬ TextLacksHome e t := not_textLacksHome fun _ h => by cases hread.symm.trans h
      exact ⟨fun h => absurd h hhome, fun _ => .invalid (List.cons_ne_nil _ _)⟩

/-- **Any bytes end settled**, unless they are no text, or one that lacks a home. -/
theorem on_ofBytes (e : Environment) (content : Bytes) (log : Log) :
    (∀ t, Utf8.decode content = .ok t → ¬ TextLacksHome e (unifyLineEnds t) →
        Settled ((ofBytes e content).on log).1) ∧
      (∀ t, Utf8.decode content = .ok t → TextLacksHome e (unifyLineEnds t) →
        ((ofBytes e content).on log).1 = .error .homeUnknown) ∧
      ∀ sequence, Utf8.decode content = .error sequence →
        ((ofBytes e content).on log).1 = .error (.undecodable sequence) := by
  refine ⟨fun t ht hhome => ?_, fun t ht hhome => ?_, fun sequence hsequence => ?_⟩
  · rw [ofBytes, ht]
    exact (on_ofJsonText e _ log).2 hhome
  · rw [ofBytes, ht]
    exact (on_ofJsonText e _ log).1 hhome
  · rw [ofBytes, hsequence]
    rfl

/-- The outcome of a file is that of what it spells. -/
theorem on_ofEntry_file (e : Environment) (place : Path) (content : Bytes) (log : Log) :
    ((ofEntry e place (.file content)).on log).1 = ((ofBytes e content).on log).1 := by
  rw [ofEntry, Reporting.on_bind]
  rcases (ofBytes e content).on log with ⟨_ | _, _⟩ <;> rfl

/-- The place of the configuration file: below the directory for data, unless its path is absolute. -/
def configPlace (e : Environment) (file : Option Path) : Path :=
  e.defaultDataDir.anchor (file.getD (Path.ofText configName))

/-- One place is looked at, whether or not it was given, and only where nothing is there does that make a difference. -/
theorem load_eq (e : Environment) (files : FileTree) (file : Option Path) :
    load e files file =
      match files.find (configPlace e file), file with
      | .found entry, _ => ofEntry e (configPlace e file) entry
      | .tooLong, _ => throw (.pathTooLong (configPlace e file))
      | .missing, some _ => throw (.configMissing (configPlace e file))
      | .missing, none => do
        report { severity := .debug, channel := .settings
                 message := TopicFilter.text "No config file at " ++ (configPlace e file).toText
                   ++ TopicFilter.text ", using defaults" }
        return defaults e := by
  cases file with
  | none =>
    simp only [load, configPlace, Option.getD_none]
    split <;> simp only [*]
  | some file =>
    simp only [load, configPlace, Option.getD_some]
    split <;> simp only [*]

end Settings

namespace Action

theorem on_ofReporting {α : Type} (r : Reporting α) (s : Store) :
    (ofReporting r).on s = ((r.on []).1, { s with log := s.log ++ (r.on []).2 }) := by
  rw [ofReporting]
  change (ofExcept (r.on []).1).on { s with log := s.log ++ (r.on []).2 } = _
  exact on_ofExcept _ _

end Action

namespace Store

open Settings

variable {s : Store} {file : Option Path} {given : Option Value}

/-- What is given names a file by a text or a path, or it is absent and names none. -/
inductive NamesFile : Option Value → Option Path → Prop where
  /-- Nothing is given. -/
  | omitted : NamesFile none none
  /-- The absent value is given. -/
  | absent : NamesFile (some .none) none
  /-- A text names a path. -/
  | text {v : Value} {t : Text} (h : v.text? = some t) : NamesFile (some v) (some (Path.ofText t))
  /-- A path. -/
  | path (p : Path) : NamesFile (some (.path p)) (some p)

theorem NamesFile.on_pathOf {v : Value} {p : Path} (h : NamesFile (some v) (some p)) :
    (Action.pathOf v).on s = (.ok p, s) := by
  cases h with
  | path => rfl
  | text h =>
    simp only [Action.pathOf, h]
    rfl

/-- A text names what is read from it. -/
theorem NamesFile.eq_ofText {v : Value} {p : Path} {t : Text} (h : NamesFile (some v) (some p))
    (ht : v.text? = some t) : p = Path.ofText t := by
  cases h with
  | path => cases ht
  | text h => rw [Option.some.inj (h.symm.trans ht)]

theorem NamesFile.on_pathOrNone (h : NamesFile given file) : (Action.pathOrNone given).on s = (.ok file, s) := by
  cases h with
  | omitted | absent | path => rfl
  | @text v t h =>
    rw [Action.pathOrNone, Action.on_bind_ok (NamesFile.text h).on_pathOf]
    · rfl
    · rintro rfl
      cases h

/-- Loading reports, and changes nothing else. -/
theorem on_loadSettings_eq (h : NamesFile given file) :
    (Action.loadSettings given).on s =
      (((load s.environment s.files file).on []).1,
        { s with log := s.log ++ ((load s.environment s.files file).on []).2 }) := by
  rw [Action.loadSettings, Action.on_bind_ok h.on_pathOrNone, Action.on_bind_ok (Action.on_get s),
    Action.on_ofReporting]

/-- **How loading ends.** A file ends settled whatever bytes it holds, but for two cases: bytes that are no text, and a
text for the directory that asks for a home that is not known. Where nothing is, a place that was given is told, and else
there are the defaults; a place whose path is too long is told either way. Nothing changes but the log. -/
theorem on_loadSettings (h : NamesFile given file) :
    let e := s.environment
    let place := configPlace e file
    let outcome := ((Action.loadSettings given).on s).1
    (∀ content, s.files.find place = .found (.file content) →
        (∀ t, Utf8.decode content = .ok t → ¬ TextLacksHome e (unifyLineEnds t) → Settled outcome) ∧
        (∀ t, Utf8.decode content = .ok t → TextLacksHome e (unifyLineEnds t) → outcome = .error .homeUnknown) ∧
        ∀ sequence, Utf8.decode content = .error sequence → outcome = .error (.undecodable sequence)) ∧
      (s.files.find place = .missing →
        outcome = if file.isSome then .error (.configMissing place) else .ok (Settings.defaults e)) ∧
      (s.files.find place = .tooLong → outcome = .error (.pathTooLong place)) ∧
      ∃ log, ((Action.loadSettings given).on s).2 = { s with log := s.log ++ log } := by
  intro e place outcome
  have hload := on_loadSettings_eq (s := s) h
  have houtcome : outcome = ((load e s.files file).on []).1 := congrArg Prod.fst hload
  rw [houtcome, load_eq]
  refine ⟨fun content hfound => ?_, fun hmissing => ?_, fun hlong => ?_, _, congrArg Prod.snd hload⟩
  · rw [hfound, on_ofEntry_file]
    exact on_ofBytes e content []
  · rw [hmissing]
    cases file <;> rfl
  · rw [hlong]
    rfl

/-- A store with a home, and a configuration file in the directory for data there. -/
def withConfig (content : Bytes) : Store :=
  initial
    { home := some (TopicFilter.text "/h"), userProfile := none, account := none, users := [], hasAccounts := true }
    { workingDir := []
      entries :=
        [([TopicFilter.text "h", TopicFilter.text ".hashtopic", configName], .file content),
          ([TopicFilter.text "h", TopicFilter.text ".hashtopic"], .directory), ([TopicFilter.text "h"], .directory)] }

theorem find_withConfig (content : Bytes) :
    (withConfig content).files.find (configPlace (withConfig content).environment none) = .found (.file content) := rfl

/-- An object without fields, under a name that is given, leaves everything at its default. -/
theorem on_loadSettings_empty_object :
    let content : Bytes := [0x7B, 0x7D]
    let name : Value := .scalar (.text configName)
    NamesFile (some name) (some (Path.ofText configName)) ∧
      Settled ((Action.loadSettings (some name)).on (withConfig content)).1 ∧
      ((Action.loadSettings (some name)).on (withConfig content)).1 =
        .ok (Settings.defaults (withConfig content).environment) := by
  intro content name
  have hname : NamesFile (some name) (some (Path.ofText configName)) := .text rfl
  have hdecode : Utf8.decode content = .ok (TopicFilter.text "\x7b\x7d") := by decide +kernel
  have hread : Json.read .strict (unifyLineEnds (TopicFilter.text "\x7b\x7d")) = some (.object []) := rfl
  have hhome : ¬ TextLacksHome (withConfig content).environment (unifyLineEnds (TopicFilter.text "\x7b\x7d")) := by
    rw [textLacksHome_iff hread]
    exact not_lacksHome nofun
  have hsettled := ((on_loadSettings hname).1 content (find_withConfig content)).1 _ hdecode hhome
  exact ⟨hname, hsettled, by decide +kernel⟩

/-- **Content that is not valid may end in a failure that is none of validation**: a byte that begins no character, and
the directory of a user who is not known. A name that is too long for a file ends in one as well. -/
theorem exists_unsettled :
    let load (content : Bytes) (given : Option Value) := ((Action.loadSettings given).on (withConfig content)).1
    let unknownUser := (TopicFilter.text "\x7b\"data_dir\": \"~x\"\x7d").flatMap Utf8.encodePoint
    let longName := List.replicate 256 (CodePoint.ofChar 'a')
    (∀ content, (withConfig content).files.find (configPlace (withConfig content).environment none) =
      .found (.file content)) ∧
      load [0xFF] none = .error (.undecodable { start := 0, extra := 0, first := 0xFF, flaw := .invalidStart }) ∧
      ¬ Settled (load [0xFF] none) ∧ load unknownUser none = .error .homeUnknown ∧ ¬ Settled (load unknownUser none) ∧
      load [] (some (.scalar (.text longName))) =
        .error (.pathTooLong (configPlace (withConfig []).environment (some (Path.ofText longName)))) := by
  intro load unknownUser longName
  have hbyte : load [0xFF] none =
      .error (.undecodable { start := 0, extra := 0, first := 0xFF, flaw := .invalidStart }) := by decide +kernel
  have huser : load unknownUser none = .error .homeUnknown := by decide +kernel
  refine ⟨find_withConfig, hbyte, ?_, huser, ?_, by decide +kernel⟩
  · rw [hbyte]
    exact not_settled_undecodable _
  · rw [huser]
    exact not_settled_homeUnknown

end Store

end TopicFilter
