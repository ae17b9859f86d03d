import TopicFilter.Proofs.Json.LineEnds
import TopicFilter.Proofs.Path.Reading
import TopicFilter.Proofs.Settings.Loading
import TopicFilter.Proofs.Text.Utf8

/-!
# Proofs/Settings/Naming — a configuration file is its text, under whatever name

A file is found by its place, and a place has many names: the name below the directory for data, the whole path, and for
the usual file no name at all. Its bytes are read back as the text they were made from, but for the line ends, and these
do not count in what the text spells. So loading a file comes to what validating its text comes to
(`on_loadSettings_named`).
-/

namespace TopicFilter

namespace Settings

variable {e : Environment} {t : Text} {content : Bytes}

/-- Settings do not depend on the line ends of a text. -/
theorem ofJsonText_unifyLineEnds (e : Environment) (t : Text) : ofJsonText e (unifyLineEnds t) = ofJsonText e t := by
  rw [ofJsonText, ofJsonText, Json.read_unifyLineEnds]

/-- The bytes of a text spell what the text spells. -/
theorem ofBytes_of_encode (h : Utf8.encode t = .ok content) (e : Environment) : ofBytes e content = ofJsonText e t := by
  rw [ofBytes, Utf8.decode_of_encode h]
  exact ofJsonText_unifyLineEnds e t

/-! ## Places -/

/-- The usual file can be named. -/
theorem configPlace_configName (e : Environment) : configPlace e (some (Path.ofText configName)) = configPlace e none :=
  rfl

/-- A place below an absolute directory can be named by itself. -/
theorem configPlace_configPlace (h : e.defaultDataDir.isAbsolute = true) (file : Option Path) :
    configPlace e (some (configPlace e file)) = configPlace e file := Path.anchor_anchor_self h _

end Settings

namespace Store

open Settings

variable {s : Store} {file : Option Path} {given : Option Value} {t : Text} {content : Bytes}

/-- Validating a text that has bytes. -/
theorem on_settingsOfJson_text (h : t.IsEncodable) (s : Store) :
    ((Action.settingsOfJson (.scalar (.text t))).on s).1 = ((ofJsonText s.environment t).on []).1 := by
  have hplain : t.any (·.isSurrogate) = false :=
    List.any_eq_false.mpr fun c hc => Bool.not_eq_true _ ▸ h c hc
  rw [Action.settingsOfJson, Action.on_bind_ok (Action.on_get s), Action.on_bind_ok (Action.on_get s)]
  change (Action.on (if t.any (·.isSurrogate) then _ else _) s).1 = _
  rw [hplain, if_neg Bool.false_ne_true, Action.on_ofReporting]

/-- Loading a file comes to validating its text. -/
theorem on_loadSettings_of_encode (hgiven : NamesFile given file) (ht : Utf8.encode t = .ok content)
    (hfound : s.files.find (configPlace s.environment file) = .found (.file content)) :
    ((Action.loadSettings given).on s).1 = ((Action.settingsOfJson (.scalar (.text t))).on s).1 := by
  have hload : load s.environment s.files file =
      ofEntry s.environment (configPlace s.environment file) (.file content) := by
    rw [load_eq, hfound]
  rw [on_loadSettings_eq hgiven, on_settingsOfJson_text (Utf8.encode_eq_ok_iff.mp ht).1]
  change ((load s.environment s.files file).on []).1 = _
  rw [hload, on_ofEntry_file, ofBytes_of_encode ht]

/-- **A configuration file is its text, under whatever name.** Where a place has a file with the bytes of a text,
loading what names the place comes to what validating the text does: the same settings or the same failure. The usual
place is named by nothing, by the name of the file, and by its whole path if that is absolute. -/
theorem on_loadSettings_named (ht : Utf8.encode t = .ok content) :
    let e := s.environment
    let validated := ((Action.settingsOfJson (.scalar (.text t))).on s).1
    let usual := configPlace e none
    (∀ given file, NamesFile given file → s.files.find (configPlace e file) = .found (.file content) →
        ((Action.loadSettings given).on s).1 = validated) ∧
      (s.files.find usual = .found (.file content) →
        (∀ given ∈ [none, some .none, some (.scalar (.text configName)), some (.path (Path.ofText configName))],
          ((Action.loadSettings given).on s).1 = validated) ∧
        (e.defaultDataDir.isAbsolute = true →
          ∀ given ∈ [some (.scalar (.text usual.toText)), some (.path usual)],
            ((Action.loadSettings given).on s).1 = validated)) := by
  intro e validated usual
  have hnamed : ∀ given file, NamesFile given file → s.files.find (configPlace e file) = .found (.file content) →
      ((Action.loadSettings given).on s).1 = validated :=
    fun given file hgiven hfound => on_loadSettings_of_encode hgiven ht hfound
  refine ⟨hnamed, fun hfound => ⟨?_, fun habsolute => ?_⟩⟩
  · have hname : s.files.find (configPlace e (some (Path.ofText configName))) = .found (.file content) := by
      rwa [configPlace_configName]
    simp only [List.forall_mem_cons, List.not_mem_nil, false_implies, implies_true, and_true]
    exact ⟨hnamed _ _ .omitted hfound, hnamed _ _ .absent hfound, hnamed _ _ (.text rfl) hname,
      hnamed _ _ (.path _) hname⟩
  · have hself : s.files.find (configPlace e (some usual)) = .found (.file content) := by
      rw [configPlace_configPlace habsolute]
      exact hfound
    have htext : NamesFile (some (.scalar (.text usual.toText))) (some usual) := by
      have hread : NamesFile (some (.scalar (.text usual.toText))) (some (Path.ofText usual.toText)) := .text rfl
      rwa [Path.ofText_toText] at hread
    simp only [List.forall_mem_cons, List.not_mem_nil, false_implies, implies_true, and_true]
    exact ⟨hnamed _ _ htext hself, hnamed _ _ (.path _) hself⟩

/-- A file with line ends of all kinds, loaded by each of its names. -/
theorem on_loadSettings_named_line_ends :
    let t := TopicFilter.text "\x7b\r\n\"log_level\":\r\"DEBUG\"\n\x7d"
    let content := t.flatMap Utf8.encodePoint
    let s := withConfig content
    let usual := configPlace s.environment none
    Utf8.encode t = .ok content ∧ s.files.find usual = .found (.file content) ∧
      s.environment.defaultDataDir.isAbsolute = true ∧ usual.toText = TopicFilter.text "/h/.hashtopic/config.json" ∧
      ∀ given ∈ [none, some (.scalar (.text configName)), some (.scalar (.text usual.toText))],
        ((Action.loadSettings given).on s).1 =
          .ok { Settings.defaults s.environment with logLevel := .debug } := by
  intro t content s usual
  have hencode : Utf8.encode t = .ok content := by decide +kernel
  have hfound : s.files.find usual = .found (.file content) := find_withConfig content
  have habsolute : s.environment.defaultDataDir.isAbsolute = true := by decide +kernel
  have hvalidated : ((Action.settingsOfJson (.scalar (.text t))).on s).1 =
      .ok { Settings.defaults s.environment with logLevel := .debug } := by decide +kernel
  obtain ⟨_, husual⟩ := on_loadSettings_named (s := s) hencode
  obtain ⟨hnamed, hself⟩ := husual hfound
  refine ⟨hencode, hfound, habsolute, by decide +kernel, ?_⟩
  simp only [List.forall_mem_cons, List.not_mem_nil, false_implies, implies_true, and_true]
  exact ⟨(hnamed _ (.head _)).trans hvalidated, (hnamed _ (.tail _ (.tail _ (.head _)))).trans hvalidated,
    (hself habsolute _ (.head _)).trans hvalidated⟩

end Store

end TopicFilter
