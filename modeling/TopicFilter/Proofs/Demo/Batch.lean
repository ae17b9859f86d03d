import TopicFilter.Demo.Batch
import TopicFilter.Proofs.Frame.Plain
import TopicFilter.Proofs.Settings.Usable

/-!
# Proofs/Demo/Batch — what the demonstration prints

Once settings are loaded the demonstration cannot fail, and it prints what follows from the name of their algorithm
alone (`on_run`). The rows that it keeps of a frame are those of the messages that it names before, since a frame of
messages is filtered as the messages are (`exists_rows`).
-/

namespace TopicFilter

/-! ## Derivers that derive from all payloads -/

namespace Deriver

variable {d : Deriver} {p : Payload} {ps : List Payload} {b : Bytes}

/-- Its digests are long enough for a topic, and not only by its hasher's word. -/
def IsWide (d : Deriver) : Prop := ∀ b, 4 ≤ (d.hasher.digest b).length

theorem isWide_ofAlgorithm (name : Text) (alg : Algorithm) : (ofAlgorithm name alg).IsWide := fun b =>
  (alg.length_digest b).symm ▸ alg.four_le_size

theorem ofHasher_ofAlgorithm (name : Text) (alg : Algorithm) :
    ofHasher (Hasher.ofAlgorithm name alg) = .ok (ofAlgorithm name alg) := dif_pos (ofAlgorithm name alg).wide

/-- The topic of a payload is the front of the digest of its bytes. -/
theorem IsWide.derive (hd : d.IsWide) (hp : p.encode = .ok b) : d.derive p = .ok (.front (d.hasher.digest b)) := by
  rw [Deriver.derive, hp]
  exact Topic.ofDigest_eq_front (hd b)

theorem IsWide.exists_deriveAll (hd : d.IsWide) (hps : ∀ p ∈ ps, ∃ b, p.encode = .ok b) :
    ∃ ts, d.deriveAll ps = .ok ts := by
  obtain ⟨ts, hts⟩ : ∃ ts, List.Forall₂ (fun p t => d.derive p = .ok t) ps ts := exists_forall₂ fun p hp => by
    obtain ⟨b, hb⟩ := hps p hp
    exact ⟨_, hd.derive hb⟩
  exact ⟨ts, mapM_eq_ok_iff.mpr hts⟩

theorem IsWide.exists_ofPayloads {positions : List (List Payload)} (hd : d.IsWide)
    (h : ∀ ps ∈ positions, ∀ p ∈ ps, ∃ b, p.encode = .ok b) : ∃ m, Matcher.ofPayloads d positions = .ok m := by
  obtain ⟨tss, htss⟩ : ∃ tss, List.Forall₂ (fun ps ts => d.deriveAll ps = .ok ts) positions tss :=
    exists_forall₂ fun ps hps => hd.exists_deriveAll (h ps hps)
  exact ⟨.ofTopicSets (tss.map .ofList), by rw [Matcher.ofPayloads, mapM_eq_ok_iff.mpr htss]; rfl⟩

end Deriver

namespace Demo

variable {d : Deriver} {m : Matcher} {ms : List Message}

theorem exists_encode_payload (s : String) : ∃ b, (payload s).encode = .ok b := ⟨_, rfl⟩

theorem exists_message (hd : d.IsWide) (name : String) (payloads : List String) :
    ∃ ts, message d name payloads = .ok ⟨text name, ts⟩ := by
  have hencode : ∀ p ∈ payloads.map payload, ∃ b, p.encode = .ok b :=
    List.forall_mem_map.mpr fun s _ => exists_encode_payload s
  obtain ⟨ts, hts⟩ := hd.exists_deriveAll hencode
  exact ⟨ts, by rw [message, hts]; rfl⟩

@[simp] theorem on_compiled (m : Matcher) (log : Log) : (compiled m).on log = (.ok m, log ++ [m.report]) := rfl

@[simp] theorem on_say (t : Text) (log : Log) :
    (say t).on log = (.ok (), log ++ [{ severity := .info, channel := .demo, message := t }]) := rfl

theorem exists_on_forM_say (line : Message → Text) (ms : List Message) (log : Log) :
    ∃ log', (ms.forM fun message => say (line message)).on log = (.ok (), log') := by
  induction ms generalizing log with
  | nil => exact ⟨log, rfl⟩
  | cons message ms ih =>
    obtain ⟨log', hms⟩ := ih (log ++ [{ severity := .info, channel := .demo, message := line message }])
    refine ⟨log', ?_⟩
    rw [List.forM, Reporting.on_bind_ok (on_say _ _), hms]

namespace Batch

/-! ## The frame of the messages -/

/-- The line of a row is that of a name, with the topic derived from it. -/
def IsRowOf (d : Deriver) (name line : Text) : Prop :=
  ∃ t, d.derive (.text name) = .ok t ∧ line = text "  " ++ name ++ text " (name topic " ++ t.hex ++ text ")"

/-- The frame has a row for each message, with its name and a topic for the name. -/
structure Shows (f : Frame) (topic : Message → Topic) (ms : List Message) : Prop where
  /-- A row for each. -/
  height : f.height = ms.length
  /-- The names. -/
  names : f.drafts.find? (·.name = nameColumn) =
    some ⟨nameColumn, .string, ms.map fun message => .text message.name⟩
  /-- The topics of the names. -/
  topics : f.drafts.find? (·.name = nameTopicColumn) =
    some ⟨nameTopicColumn, .binary, ms.map fun message => .binary (topic message).bytes⟩

variable {topic : Message → Topic} {f : Frame}

/-- Names that have bytes have topics. -/
theorem exists_topics (hd : d.IsWide) (hnames : ∀ message ∈ ms, message.name.IsEncodable) :
    ∃ topic : Message → Topic, ∀ message ∈ ms, d.derive (.text message.name) = .ok (topic message) := by
  have hderive : ∀ message, ∃ t, message ∈ ms → d.derive (.text message.name) = .ok t := fun message => by
    by_cases hmessage : message ∈ ms
    · obtain ⟨b, hb⟩ := (Utf8.exists_encode_eq_ok_iff message.name).mpr (hnames message hmessage)
      have hencode : (Payload.text message.name).encode = .ok b := by rw [Payload.encode, hb]
      exact ⟨_, fun _ => hd.derive hencode⟩
    · exact ⟨.sentinel, fun h => absurd h hmessage⟩
  choose topic htopic using hderive
  exact ⟨topic, htopic⟩

/-- The topics of the names are put beside them. -/
theorem exists_deriveColumn_frame (htopic : ∀ message ∈ ms, d.derive (.text message.name) = .ok (topic message)) :
    ∃ before, (frame ms).deriveColumn d nameColumn nameTopicColumn = .ok before ∧ Shows before topic ms ∧
      before.drafts.find? (·.name = Frame.defaultTopicsName) = some ⟨Frame.defaultTopicsName, .list .binary,
        ms.map fun message => .list (message.topics.map fun t => .binary t.bytes)⟩ := by
  have hrows : List.Forall₂ (fun v t => Frame.deriveRow d.derive v = .ok t)
      (ms.map fun message => Datum.text message.name) (ms.map fun message => some (topic message)) := by
    rw [List.forall₂_map_left_iff, List.forall₂_map_right_iff, List.forall₂_same]
    intro message hmessage
    rw [Frame.deriveRow]
    simp only [Datum.payload?, Frame.lift, pure_bind, htopic message hmessage]
    rfl
  have hnames : (frame ms).column? nameColumn = some _ := rfl
  obtain ⟨before, hbefore, hheight, htarget, hothers⟩ := Frame.exists_deriveColumn hnames hrows
  rw [List.map_map] at htarget
  exact ⟨before, hbefore, ⟨hheight, hothers _ (by decide), htarget⟩, hothers _ (by decide)⟩

/-- **The rows that are kept are those of the messages that the matcher accepts.** -/
theorem Shows.exists_keepMatching (h : Shows f topic ms) (m : Matcher)
    (htopics : f.drafts.find? (·.name = Frame.defaultTopicsName) = some ⟨Frame.defaultTopicsName, .list .binary,
      ms.map fun message => .list (message.topics.map fun t => .binary t.bytes)⟩) :
    ∃ kept, f.keepMatching m Frame.defaultTopicsName = .ok kept ∧
      Shows kept topic (ms.filter fun message => m.accepts message.topics) := by
  obtain ⟨c, hc, hcd⟩ := Frame.exists_column?_of_drafts htopics
  have hlists : List.Forall₂ Datum.Lists c.values (ms.map Message.topics) := by
    rw [show c.values = _ from congrArg Frame.Draft.values hcd, List.forall₂_map_left_iff, List.forall₂_map_right_iff,
      List.forall₂_same]
    exact fun message _ => .list _
  obtain ⟨kept, hkept, hcount, hcolumns⟩ := Frame.exists_keepMatching (m := m) hc hlists
  rw [List.map_map] at hcount hcolumns
  refine ⟨kept, hkept, ?_, ?_, ?_⟩
  · rw [hcount, List.count_eq_countP, List.countP_map, List.countP_eq_length_filter]
    congr 2
    funext message
    simp
  · rw [hcolumns _ (by decide), h.names, Option.map_some]
    exact congrArg (some <| Frame.Draft.mk _ _ ·) (Column.marked_map _ _ ms)
  · rw [hcolumns _ (by decide), h.topics, Option.map_some]
    exact congrArg (some <| Frame.Draft.mk _ _ ·) (Column.marked_map _ _ ms)

/-- A line for each row. -/
theorem Shows.exists_rowLines (h : Shows f topic ms)
    (htopic : ∀ message ∈ ms, d.derive (.text message.name) = .ok (topic message)) :
    ∃ rows, rowLines f = .ok rows ∧ List.Forall₂ (IsRowOf d) (ms.map Message.name) rows := by
  obtain ⟨names, hnames, hnamesDraft⟩ := Frame.exists_column?_of_drafts h.names
  obtain ⟨topics, htopics, htopicsDraft⟩ := Frame.exists_column?_of_drafts h.topics
  let line (message : Message) : Text :=
    text "  " ++ message.name ++ text " (name topic " ++ (topic message).hex ++ text ")"
  have hline : ∀ message, rowLine (.text message.name, .binary (topic message).bytes) = .ok (line message) := by
    intro message
    rw [rowLine, Datum.topic_eq_ok_iff.mpr rfl]
    rfl
  refine ⟨ms.map line, ?_, ?_⟩
  · rw [rowLines, Frame.getColumn_eq_ok hnames, Frame.getColumn_eq_ok htopics]
    simp only [bind, Except.bind]
    rw [show names.values = _ from congrArg Frame.Draft.values hnamesDraft,
      show topics.values = _ from congrArg Frame.Draft.values htopicsDraft, List.zip_map', mapM_eq_ok_iff,
      List.forall₂_map_left_iff, List.forall₂_map_right_iff, List.forall₂_same]
    exact fun message _ => hline message
  · rw [List.forall₂_map_left_iff, List.forall₂_map_right_iff, List.forall₂_same]
    exact fun message hmessage => ⟨topic message, htopic message hmessage, rfl⟩

/-- **A frame of messages keeps the rows of those that the matcher accepts**, each with the topic of its name. -/
theorem exists_rows (hd : d.IsWide) (hnames : ∀ message ∈ ms, message.name.IsEncodable) (m : Matcher) :
    ∃ before kept rows, (frame ms).deriveColumn d nameColumn nameTopicColumn = .ok before ∧
      before.height = ms.length ∧ before.keepMatching m Frame.defaultTopicsName = .ok kept ∧
      kept.height = (accepted m ms).length ∧ rowLines kept = .ok rows ∧
      List.Forall₂ (IsRowOf d) (accepted m ms) rows := by
  obtain ⟨topic, htopic⟩ := exists_topics hd hnames
  obtain ⟨before, hbefore, hshows, htopics⟩ := exists_deriveColumn_frame htopic
  obtain ⟨kept, hkept, hshows'⟩ := hshows.exists_keepMatching m htopics
  obtain ⟨rows, hrows, hlines⟩ := hshows'.exists_rowLines fun message hmessage =>
    htopic message (List.mem_of_mem_filter hmessage)
  have hheight : kept.height = (accepted m ms).length := hshows'.height.trans (List.length_map _).symm
  exact ⟨before, kept, rows, hbefore, hshows.height, hkept, hheight, hrows, hlines⟩

/-! ## The run -/

/-- The names of the messages. -/
def names : List Text := [text "chat/general", text "chat/random", text "status/node-1", text "chat"]

theorem isEncodable_of_mem_names {name : Text} (h : name ∈ names) : name.IsEncodable := by
  have hnames : ∀ name ∈ names, ∀ c ∈ name, c.isSurrogate = false := by decide +kernel
  exact hnames name h

theorem exists_messages (hd : d.IsWide) : ∃ ms, messages d = .ok ms ∧ ms.map Message.name = names := by
  obtain ⟨general, hgeneral⟩ := exists_message hd "chat/general" ["chat", "general", "en"]
  obtain ⟨random, hrandom⟩ := exists_message hd "chat/random" ["chat", "random"]
  obtain ⟨node, hnode⟩ := exists_message hd "status/node-1" ["status", "node-1", "up", "v2"]
  obtain ⟨chat, hchat⟩ := exists_message hd "chat" ["chat"]
  refine ⟨_, by rw [messages, hgeneral, hrandom, hnode, hchat]; rfl, rfl⟩

/-- What the lines say of the first filter: which messages it accepts, and which rows it keeps. They are the same, and
their number is told. -/
def IsConsistent (d : Deriver) (lines : List Text) : Prop :=
  ∃ ms m second third rows, messages d = .ok ms ∧ ms.map Message.name = names ∧ allChat d = .ok m ∧
    lines =
      [text "[all chat] " ++ m.shown ++ text " accepts " ++ Quoted.list (accepted m ms), second, third, [],
        text "Batch filter 'all chat' kept " ++ Text.ofNat (accepted m ms).length ++ text "/4 rows:"] ++ rows ∧
    List.Forall₂ (IsRowOf d) (accepted m ms) rows

/-- A run whose steps all succeed sets the logs up and prints what follows from the steps. -/
theorem exists_on_run {e : Environment} {files : FileTree} {config : Option Path} {log log' : Log} {x : Settings}
    {m' : Matcher} {before kept : Frame} {rows : List Text}
    (hload : (Settings.load e files config).on log = (.ok x, log')) (hasher : Hasher.ofName x.algorithm = .ok d.hasher)
    (hderiver : Deriver.ofHasher d.hasher = .ok d) (hms : messages d = .ok ms) (hm : allChat d = .ok m)
    (hm' : generalOrStatus d = .ok m') (hbefore : (frame ms).deriveColumn d nameColumn nameTopicColumn = .ok before)
    (hkept : before.keepMatching m Frame.defaultTopicsName = .ok kept) (hrows : rowLines kept = .ok rows) :
    ∃ log'', (run e files config).on log = (.ok
      { logging := x.logging
        lines := [subscriptionLine "all chat" m ms, subscriptionLine "general or status" m' ms,
          subscriptionLine "everything" ⟨[]⟩ ms, [],
          text "Batch filter 'all chat' kept " ++ Text.ofNat kept.height ++ text "/" ++ Text.ofNat before.height
            ++ text " rows:"] ++ rows }, log'') := by
  have hbuild : x.buildHasher.on log' = (.ok d.hasher, log' ++ [d.hasher.report]) := by
    rw [Settings.buildHasher, Reporting.on_bind_ofExcept hasher]
    rfl
  obtain ⟨told, htold⟩ := exists_on_forM_say
    (fun message => message.name ++ text ": " ++ Quoted.list (message.topics.map Topic.hex)) ms _
  rw [run, Reporting.on_bind_ok hload, Reporting.on_bind_ok hbuild, Reporting.on_bind_ofExcept hderiver,
    Reporting.on_bind_ok (on_say _ _), Reporting.on_bind_ofExcept hms, Reporting.on_bind_ok htold,
    Reporting.on_bind_ofExcept hm, Reporting.on_bind_ok (on_compiled _ _), Reporting.on_bind_ofExcept hm',
    Reporting.on_bind_ok (on_compiled _ _), Reporting.on_bind_ok (on_compiled _ _),
    Reporting.on_bind_ofExcept hbefore, Reporting.on_bind_ofExcept hkept, Reporting.on_bind_ok (Reporting.on_report _ _),
    Reporting.on_bind_ofExcept hrows]
  exact ⟨_, rfl⟩

/-- **The lines follow from the name of the algorithm.** -/
theorem exists_lines {name : Text} (h : Settings.IsHashName name) :
    ∃ d lines, Hasher.ofName name = .ok d.hasher ∧ IsConsistent d lines ∧
      ∀ e files config log x log', (Settings.load e files config).on log = (.ok x, log') → x.algorithm = name →
        ∃ log'', (run e files config).on log = (.ok ⟨x.logging, lines⟩, log'') := by
  obtain ⟨alg, hlookup⟩ := h
  let d := Deriver.ofAlgorithm name alg
  have hd : d.IsWide := Deriver.isWide_ofAlgorithm name alg
  have hasher : Hasher.ofName name = .ok d.hasher := Settings.ofName_of_lookup hlookup
  obtain ⟨ms, hms, hnames⟩ := exists_messages hd
  obtain ⟨m, hm⟩ : ∃ m, allChat d = .ok m := hd.exists_ofPayloads (by simp [exists_encode_payload])
  obtain ⟨m', hm'⟩ : ∃ m, generalOrStatus d = .ok m := hd.exists_ofPayloads (by simp [exists_encode_payload])
  have hencodable : ∀ message ∈ ms, message.name.IsEncodable := fun message hmessage =>
    isEncodable_of_mem_names (hnames ▸ List.mem_map_of_mem hmessage)
  obtain ⟨before, kept, rows, hbefore, hheight, hkept, hcount, hrows, hlines⟩ := exists_rows hd hencodable m
  have hfour : before.height = 4 := by rw [hheight, ← List.length_map Message.name, hnames]; rfl
  have hcountLine : text "Batch filter 'all chat' kept " ++ Text.ofNat kept.height ++ text "/"
      ++ Text.ofNat before.height ++ text " rows:" =
      text "Batch filter 'all chat' kept " ++ Text.ofNat (accepted m ms).length ++ text "/4 rows:" := by
    rw [hcount, hfour, List.append_assoc, List.append_assoc]
    rfl
  let second := subscriptionLine "general or status" m' ms
  let third := subscriptionLine "everything" ⟨[]⟩ ms
  refine ⟨d, _, hasher, ⟨ms, m, second, third, rows, hms, hnames, hm, rfl, hlines⟩, ?_⟩
  rintro e files config log x log' hload rfl
  have hderiver : Deriver.ofHasher d.hasher = .ok d := Deriver.ofHasher_ofAlgorithm x.algorithm alg
  obtain ⟨log'', hrun⟩ := exists_on_run hload hasher hderiver hms hm hm' hbefore hkept hrows
  rw [hcountLine] at hrun
  exact ⟨log'', hrun⟩

/-- **The demonstration completes whenever settings are loaded, and its lines agree**: the rows that are kept are those
of the messages that the first filter accepts. Any two runs with one name for the algorithm print the same, whatever
else is in their settings and wherever those come from; only how the logs are set up may differ. -/
theorem on_run {e : Environment} {files : FileTree} {config : Option Path} {log log' : Log} {x : Settings}
    (hload : (Settings.load e files config).on log = (.ok x, log')) :
    ∃ d lines, Hasher.ofName x.algorithm = .ok d.hasher ∧ IsConsistent d lines ∧
      (∃ log'', (run e files config).on log = (.ok ⟨x.logging, lines⟩, log'')) ∧
      ∀ e' files' config' log₁ x' log₂, (Settings.load e' files' config').on log₁ = (.ok x', log₂) →
        x'.algorithm = x.algorithm → ∃ log₃, (run e' files' config').on log₁ = (.ok ⟨x'.logging, lines⟩, log₃) := by
  obtain ⟨d, lines, hasher, hconsistent, hruns⟩ := exists_lines (Settings.gives_load e files config log x log' hload)
  exact ⟨d, lines, hasher, hconsistent, hruns e files config log x log' hload rfl, hruns⟩

/-- A run with a file that names a level and a directory, and one without a file. -/
theorem on_run_with_and_without_file :
    let content := (text "\x7b\"log_level\": \"debug\", \"data_dir\": \"/d\"\x7d").flatMap Utf8.encodePoint
    let s := Store.withConfig content
    let s' := Store.holding []
    let x : Settings := { algorithm := defaultAlgorithm, dataDir := Path.ofString "/d", logLevel := .debug }
    let outcome (s : Store) := ((run s.environment s.files none).on []).1
    ((Settings.load s.environment s.files none).on []).1 = .ok x ∧
      ((Settings.load s'.environment s'.files none).on []).1 = .ok (Settings.defaults s'.environment) ∧
      ∃ lines, outcome s = .ok ⟨⟨.debug, [Settings.logFormat]⟩, lines⟩ ∧
        outcome s' = .ok ⟨⟨.info, [Settings.logFormat]⟩, lines⟩ := by
  intro content s s' x outcome
  have hfile : ((Settings.load s.environment s.files none).on []).1 = .ok x := by decide +kernel
  have hnone : ((Settings.load s'.environment s'.files none).on []).1 = .ok (Settings.defaults s'.environment) := by
    decide +kernel
  obtain ⟨_, lines, -, -, ⟨_, hrun⟩, hruns⟩ := on_run (Prod.ext hfile rfl)
  obtain ⟨_, hrun'⟩ := hruns _ _ _ [] _ _ (Prod.ext hnone rfl) rfl
  exact ⟨hfile, hnone, lines, congrArg Prod.fst hrun, congrArg Prod.fst hrun'⟩

end Batch

end Demo

end TopicFilter
