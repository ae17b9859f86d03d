import TopicFilter.Proofs.Deriver.Deriving
import TopicFilter.Proofs.Frame.Plain
import TopicFilter.Store.Frames

/-!
# Proofs/Frame/Deriving — a column of topics

Where a deriver is over a hasher that answers by a function, what it does with a frame is what a function does with the
payloads in its rows (`DerivesBy.yields_deriveColumn`): each row by itself, in order, and nothing for null.
`on_deriveColumn_payloads` says what comes of it. The topics go to one column of a new frame, beside which it holds what
the other frame does (`Frame.Adds`), and texts have the topics of their bytes.
-/

namespace TopicFilter

/-! ## Payloads in rows -/

namespace Datum

/-- A payload in a row; null is none. -/
def ofPayload : Option Payload → Datum
  | none => .null
  | some (.text t) => .text t
  | some (.bytes b) => .binary b

@[simp] theorem payload?_ofPayload (p : Option Payload) : (ofPayload p).payload? = .ok p := by
  rcases p with _ | _ | _ <;> rfl

theorem ofPayload_injective : Function.Injective ofPayload := by
  intro p q h
  have hread : (ofPayload p).payload? = (ofPayload q).payload? := congrArg payload? h
  simpa only [payload?_ofPayload, Except.ok.injEq] using hread

theorem exists_ofPayload {dtype : DType} {v : Datum} (hdtype : dtype = .binary ∨ dtype = .string)
    (hv : dtype.holds v = true) : ∃ p, v = ofPayload p := by
  cases v with
  | null => exact ⟨none, rfl⟩
  | text t => exact ⟨some (.text t), rfl⟩
  | binary b => exact ⟨some (.bytes b), rfl⟩
  | _ => rcases hdtype with rfl | rfl <;> cases hv

/-- The rows of a column of byte strings or texts hold payloads. -/
theorem exists_map_ofPayload {dtype : DType} {vs : List Datum} (hdtype : dtype = .binary ∨ dtype = .string)
    (hvs : ∀ v ∈ vs, dtype.holds v = true) : ∃ ps : List (Option Payload), vs = ps.map ofPayload := by
  obtain ⟨ps, hps⟩ := exists_forall₂ fun v hv => exists_ofPayload hdtype (hvs v hv)
  exact ⟨ps, List.forall₂_eq_eq_eq ▸ List.forall₂_map_right_iff.mpr hps⟩

end Datum

namespace Payload

/-- The topic of a payload by what a hasher makes of its bytes. -/
def topicBy (f : Bytes → Bytes) (p : Payload) : Except Fault Topic := do Topic.ofDigest (f (← p.encode))

/-- What a payload is made of is all that counts. -/
theorem topicBy_bytes {p : Payload} {b : Bytes} (h : p.encode = .ok b) (f : Bytes → Bytes) :
    (bytes b).topicBy f = p.topicBy f := by
  rw [topicBy, topicBy, h]
  rfl

end Payload

namespace Frame

variable {f after : Frame} {source target t : Text} {derive : Payload → Except Fault Topic}
  {p : Option Payload} {o : Option Topic} {fault : Fault}

@[simp] theorem deriveRow_ofPayload_none : deriveRow derive (.ofPayload none) = .ok none := rfl

@[simp] theorem deriveRow_ofPayload_some (p : Payload) :
    deriveRow derive (.ofPayload (some p)) = (derive p).map some := by
  rw [deriveRow, Datum.payload?_ofPayload]
  rfl

theorem deriveRow_ofPayload_eq_ok :
    deriveRow derive (.ofPayload p) = .ok o ↔ Option.Rel (fun p t => derive p = .ok t) p o := by
  cases p with
  | none => cases o <;> simp
  | some p =>
    rw [deriveRow_ofPayload_some]
    cases hp : derive p <;> cases o <;> simp [Except.map, hp]

/-! ## Columns besides others -/

/-- A frame with a column of byte strings under a name, besides what another frame holds. -/
structure Adds (f : Frame) (t : Text) (values : List Datum) (after : Frame) : Prop where
  /-- The frames are equally high. -/
  height : after.height = f.height
  /-- The new column stands where one of its name stood, or last. -/
  names : after.names = if t ∈ f.names then f.names else f.names ++ [t]
  /-- The new column is there. -/
  column : after.drafts.find? (·.name = t) = some ⟨t, .binary, values⟩
  /-- The other columns are as they were. -/
  others : after.drafts.filter (·.name ≠ t) = f.drafts.filter (·.name ≠ t)

theorem Adds.of_place {values : List Datum} (hheight : after.height = f.height)
    (h : after.drafts = place ⟨t, .binary, values⟩ f.drafts) : f.Adds t values after where
  height := hheight
  names := by rw [names_eq, h, map_name_place, ← names_eq]
  column := by rw [h, ← find?_place ⟨t, .binary, values⟩ f.drafts]
  others := by rw [h, ← filter_place ⟨t, .binary, values⟩ f.drafts]

/-! ## Columns of payloads -/

section Payloads

variable {c : Column f.height} {ps front back : List (Option Payload)}

/-- Where the payloads of a column have topics, these are what comes to stand beside them. -/
theorem exists_of_deriveColumnBy_payloads (hc : f.column? source = some c) (hvalues : c.values = ps.map .ofPayload)
    (h : f.deriveColumnBy derive source target = .ok after) :
    ∃ ts, List.Forall₂ (Option.Rel fun p t => derive p = .ok t) ps ts ∧ f.Adds target (ts.map topicDatum) after := by
  obtain ⟨c', ts, hc', hrows, hheight, hdrafts⟩ := exists_of_deriveColumnBy h
  obtain rfl : c = c' := Option.some.inj (hc.symm.trans hc')
  rw [hvalues, List.forall₂_map_left_iff] at hrows
  exact ⟨ts, hrows.imp fun _ _ => deriveRow_ofPayload_eq_ok.mp, .of_place hheight hdrafts⟩

theorem exists_rows_of_payloads (h : ∀ p, some p ∈ ps → ∃ t, derive p = .ok t) :
    ∃ ts, List.Forall₂ (fun v t => deriveRow derive v = .ok t) (ps.map .ofPayload) ts := by
  simp only [List.forall₂_map_left_iff, deriveRow_ofPayload_eq_ok]
  refine exists_forall₂ fun p hp => ?_
  cases p with
  | none => exact ⟨none, .none⟩
  | some p =>
    obtain ⟨t, ht⟩ := h p hp
    exact ⟨some t, .some ht⟩

/-- **A column of topics comes of payloads that all have one**… -/
theorem exists_deriveColumnBy_iff (hc : f.column? source = some c) (hvalues : c.values = ps.map .ofPayload)
    (target : Text) :
    (∃ after, f.deriveColumnBy derive source target = .ok after) ↔ ∀ p, some p ∈ ps → ∃ t, derive p = .ok t := by
  constructor
  · rintro ⟨after, hafter⟩ p hp
    obtain ⟨ts, hts, _⟩ := exists_of_deriveColumnBy_payloads hc hvalues hafter
    obtain ⟨o, ho⟩ := exists_of_forall₂ hts hp
    cases ho with
    | some ht => exact ⟨_, ht⟩
  · intro h
    obtain ⟨ts, hts⟩ := exists_rows_of_payloads h
    obtain ⟨after, hafter, _⟩ := exists_deriveColumnBy hc (hvalues ▸ hts) target
    exact ⟨after, hafter⟩

/-- …and else the first that has none ends it. -/
theorem deriveColumnBy_payloads_eq_error {p : Payload} (hc : f.column? source = some c)
    (hvalues : c.values = (front ++ some p :: back).map .ofPayload)
    (hfront : ∀ q, some q ∈ front → ∃ t, derive q = .ok t) (hp : derive p = .error fault) :
    f.deriveColumnBy derive source target = .error fault := by
  obtain ⟨ts, hts⟩ := exists_rows_of_payloads hfront
  have hrow : deriveRow derive (.ofPayload (some p)) = .error fault := by
    rw [deriveRow_ofPayload_some, hp]
    rfl
  rw [List.map_append, List.map_cons] at hvalues
  exact deriveColumnBy_eq_error hc hvalues hts hrow

end Payloads

/-- What goes to the new column depends on the rows of the source, and on nothing else. -/
theorem map_find?_deriveColumnBy {c : Column f.height} (hc : f.column? source = some c) :
    (f.deriveColumnBy derive source target).map (fun after => after.drafts.find? (·.name = target)) =
      (c.values.mapM (deriveRow derive)).map fun ts => some ⟨target, .binary, ts.map topicDatum⟩ := by
  rw [deriveColumnBy, getColumn_eq_ok hc, ← map_val_forRows]
  simp only [bind, Except.bind]
  cases forRows (deriveRow derive) c.values with
  | error fault => rfl
  | ok ts => exact congrArg Except.ok (find?_drafts_put f (topicColumn target ts.1 _))

/-- **Texts have the topics of their bytes**, and fail as these do. -/
theorem map_find?_deriveColumnBy_put {h : Bytes → Bytes} {c c' : Column f.height} {ps : List (Option Payload)}
    {bs : List (Option Bytes)} (hc : f.column? c'.name = some c) (hvalues : c.values = ps.map .ofPayload)
    (hvalues' : c'.values = bs.map fun b => .ofPayload (b.map .bytes))
    (hbs : List.Forall₂ (Option.Rel fun p b => p.encode = .ok b) ps bs) :
    ((f.put c').deriveColumnBy (Payload.topicBy h) c'.name target).map (·.drafts.find? (·.name = target)) =
      (f.deriveColumnBy (Payload.topicBy h) c'.name target).map (·.drafts.find? (·.name = target)) := by
  obtain ⟨e, he, hec'⟩ := exists_column?_of_drafts (find?_drafts_put f c')
  have hevalues : e.values = c'.values := congrArg Draft.values hec'
  have hrows : e.values.mapM (deriveRow (Payload.topicBy h)) = c.values.mapM (deriveRow (Payload.topicBy h)) := by
    refine (mapM_congr ?_).symm
    rw [hevalues, hvalues, hvalues', List.forall₂_map_left_iff, List.forall₂_map_right_iff]
    refine hbs.imp fun p b hpb => ?_
    cases hpb with
    | none => rfl
    | some hpb =>
      rw [Option.map_some, deriveRow_ofPayload_some, deriveRow_ofPayload_some, Payload.topicBy_bytes hpb]
  rw [map_find?_deriveColumnBy he, map_find?_deriveColumnBy hc, hrows]

/-- A byte string among topics is a topic. -/
theorem exists_of_binary_mem {ts : List (Option Topic)} {b : Bytes} (h : .binary b ∈ ts.map topicDatum) :
    ∃ t : Topic, b = t.bytes := by
  obtain ⟨o, -, ho⟩ := List.mem_map.mp h
  cases o with
  | none => cases ho
  | some t => exact ⟨t, (Datum.binary.inj ho).symm⟩

/-! ## In a store -/

variable {may : Address → Prop} {s : Store}

theorem yields_deriveRow {derive : Payload → Action Topic} {result : Payload → Except Fault Topic}
    (h : ∀ p s', s.KeepsBut may s' → (derive p).Yields may s' (result p)) (v : Datum) :
    (deriveRow derive v).Yields may s (deriveRow result v) := by
  refine .bind (yields_lift v.payload?) fun p s' hs' => ?_
  cases p with
  | none => exact .of_on rfl
  | some p => exact (h p s' hs').map some

theorem yields_deriveColumnBy {derive : Payload → Action Topic} {result : Payload → Except Fault Topic}
    (h : ∀ p s', s.KeepsBut may s' → (derive p).Yields may s' (result p)) (source target : Text) (f : Frame) :
    (f.deriveColumnBy derive source target).Yields may s (f.deriveColumnBy result source target) := by
  refine .bind (yields_getColumn f source) fun c s₁ hs₁ => ?_
  refine .bind (yields_forRows (fun v s₂ hs₂ => ?_) c.values) fun _ _ _ => .of_on rfl
  exact yields_deriveRow (fun p s₃ hs₃ => h p s₃ ((hs₁.trans hs₂).trans hs₃)) v

end Frame

namespace Store

variable {s s' : Store} {d source : Value} {target : Option Value} {h : Bytes → Bytes} {own : Address → Prop}
  {F : Frame} {name t : Text}

/-- What deriving the topic of a payload comes to. -/
def derived (s : Store) (d : Value) (p : Payload) : Except Fault Topic :=
  ((Action.derive d (Action.payloadValue p)).on s).1

theorem on_payloadBytes_payloadValue (p : Payload) (s : Store) :
    (Action.payloadBytes (Action.payloadValue p)).on s = (p.encode, s) := by
  cases p with
  | text t => exact Action.on_ofExcept _ s
  | bytes b => rfl

namespace DerivesBy

/-- **The topic of a payload is what its bytes come to**, or the reason why there are none. -/
theorem yields_derive_payload (hd : s.DerivesBy d h own) (p : Payload) :
    (Action.derive d (Action.payloadValue p)).Yields own s (p.topicBy h) := by
  rw [Payload.topicBy]
  cases hp : p.encode with
  | error fault => exact .of_on (hd.on_derive_error (hp ▸ on_payloadBytes_payloadValue p s))
  | ok b => exact hd.yields_derive (hp ▸ on_payloadBytes_payloadValue p s)

theorem derived (hd : s.DerivesBy d h own) : s.derived d = Payload.topicBy h := by
  funext p
  obtain ⟨s', hon, _⟩ := hd.yields_derive_payload p
  rw [Store.derived, hon]

/-- A deriver is there for the rows. -/
theorem on_derives (hd : s.DerivesBy d h own) : (Action.derives d).on s = (.ok (), s) := by
  obtain ⟨hasher, _, hderiver⟩ := hd.exists_isDeriver
  rw [Action.derives, Action.on_bind_ok (Action.on_get s), hd.assigned]
  exact (Action.on_discard _ s).trans (by rw [hderiver.on_hasherOf]; rfl)

/-- **What a deriver does with a frame is what a function does with the payloads in its rows.** -/
theorem yields_deriveColumn (hd : s.DerivesBy d h own) (hsource : (Action.columnName source).on s = (.ok name, s))
    (htarget : Action.newName Frame.defaultTopicName target = .ok t) (F : Frame) :
    (Action.deriveColumn F source target d).Yields own s (F.deriveColumnBy (Payload.topicBy h) name t) := by
  have hpayload : ∀ p s', s.KeepsBut own s' →
      (Action.derive d (Action.payloadValue p)).Yields own s' (p.topicBy h) :=
    fun p _ hs' => (hd.keep hs').yields_derive_payload p
  obtain ⟨s', hon, hkeeps⟩ := Frame.yields_deriveColumnBy hpayload name t F
  refine ⟨s', ?_, hkeeps⟩
  rw [Action.deriveColumn, Action.on_bind_ok hsource, Action.on_bind_ok (on_ready hd.on_derives F name _), htarget,
    on_withColumn hon]

end DerivesBy

/-- **A column of topics is derived row by row, and nothing else changes.** It comes of payloads that all have a topic,
and the first payload that has none ends it. What comes of texts comes of their bytes as well. -/
theorem on_deriveColumn_payloads (hd : s.DerivesBy d h own)
    (hsource : (Action.columnName source).on s = (.ok name, s))
    (htarget : Action.newName Frame.defaultTopicName target = .ok t) {c : Column F.height}
    (hc : F.column? name = some c) (hdtype : c.dtype = .binary ∨ c.dtype = .string) :
    ∃ ps : List (Option Payload), c.values = ps.map .ofPayload ∧
      ((∃ after s', (Action.deriveColumn F source target d).on s = (.ok after, s')) ↔
        ∀ p, some p ∈ ps → ∃ τ, s.derived d p = .ok τ) ∧
      (∀ front p back fault, ps = front ++ some p :: back → (∀ q, some q ∈ front → ∃ τ, s.derived d q = .ok τ) →
        s.derived d p = .error fault →
        ∃ s', (Action.deriveColumn F source target d).on s = (.error fault, s') ∧ s.KeepsBut own s') ∧
      (∀ after s', (Action.deriveColumn F source target d).on s = (.ok after, s') →
        s.KeepsBut own s' ∧ ∃ ts, List.Forall₂ (Option.Rel fun p τ => s.derived d p = .ok τ) ps ts ∧
          F.Adds t (ts.map Frame.topicDatum) after ∧
          ∀ b, .binary b ∈ ts.map Frame.topicDatum →
            ∃ τ, (Action.topicOfBytes (.scalar (.bytes b))).on s' = (.ok τ, s')) ∧
      ∀ (c' : Column F.height) (bs : List (Option Bytes)), c'.name = name →
        c'.values = bs.map (fun b => .ofPayload (b.map .bytes)) →
        List.Forall₂ (Option.Rel fun p b => p.encode = .ok b) ps bs →
        ((Action.deriveColumn (F.put c') source target d).on s).1.map (·.drafts.find? (·.name = t)) =
          ((Action.deriveColumn F source target d).on s).1.map (·.drafts.find? (·.name = t)) := by
  obtain ⟨ps, hvalues⟩ := Datum.exists_map_ofPayload hdtype c.holds_values
  obtain ⟨s₁, hon, hkeeps⟩ := hd.yields_deriveColumn hsource htarget F
  simp only [hd.derived]
  refine ⟨ps, hvalues, ?_, ?_, ?_, ?_⟩
  · rw [← Frame.exists_deriveColumnBy_iff hc hvalues t, hon]
    simp only [Prod.mk.injEq, exists_and_left, exists_eq', and_true]
  · intro front p back fault hps hfront hp
    refine ⟨s₁, hon.trans ?_, hkeeps⟩
    rw [Frame.deriveColumnBy_payloads_eq_error hc (hps ▸ hvalues) hfront hp]
  · intro after s' hafter
    obtain ⟨hplain, rfl⟩ := Prod.mk.inj (hon.symm.trans hafter)
    obtain ⟨ts, hts, hadds⟩ := Frame.exists_of_deriveColumnBy_payloads hc hvalues hplain
    refine ⟨hkeeps, ts, hts, hadds, fun b hb => ?_⟩
    obtain ⟨τ, rfl⟩ := Frame.exists_of_binary_mem hb
    exact ⟨τ, rfl⟩
  · rintro c' bs rfl hvalues' hbs
    obtain ⟨s₂, hon', _⟩ := hd.yields_deriveColumn hsource htarget (F.put c')
    rw [hon, hon']
    exact Frame.map_find?_deriveColumnBy_put hc hvalues hvalues' hbs

/-- A column that takes the place of its own source, and one that ends at its last row. -/
theorem on_deriveColumn_payloads_padded :
    let answer : Kept → Kept := fun data =>
      match data.value with
      | .scalar (.bytes b) => { data with value := .scalar (.bytes (b ++ [0, 0, 0])) }
      | _ => data
    let s := holding [.items .list [], .recorder (text "padded") 4 answer (.object 2), .deriver (.object 3)]
    let memo := text "memo"
    let frame (last : Text) : Frame :=
      { height := 3
        columns := [⟨memo, .string, [.text (text "a"), .null, .text last], rfl, by simp [DType.holds]⟩,
          ⟨text "n", .int64, [.int 1, .int 2, .int 3], rfl, by decide⟩]
        nodup := (by decide : [memo, text "n"].Nodup) }
    let derive (f : Frame) := Action.deriveColumn f (.scalar (.text memo)) (some (.scalar (.text memo))) (.object 4)
    (∃ after s', (derive (frame (text "b"))).on s = (.ok after, s') ∧
      (frame (text "b")).Adds memo [.binary [0x61, 0, 0, 0], .null, .binary [0x62, 0, 0, 0]] after) ∧
    ∃ s', (derive (frame [])).on s = (.error (.digestLength 3), s') := by
  intro answer s memo frame derive
  let f : Bytes → Bytes := (· ++ [0, 0, 0])
  have hd : s.DerivesBy (.object 4) f (· = 2) :=
    ⟨⟨4, .object 3, rfl, by decide, rfl, hashesBy_recorder rfl rfl rfl fun _ _ => rfl⟩, fun _ => rfl⟩
  have hsource : (Action.columnName (.scalar (.text memo))).on s = (.ok memo, s) := on_columnName_text (by decide)
  have htarget := newName_text (t := memo) (by decide) Frame.defaultTopicName
  have hderived : s.derived (.object 4) = Payload.topicBy f := hd.derived
  have hpayloads : ∀ {last : Text} {ps : List (Option Payload)},
      [.text (text "a"), .null, .text last] = ps.map Datum.ofPayload →
      ps = [some (.text (text "a")), none, some (.text last)] :=
    fun h => List.map_injective_iff.mpr Datum.ofPayload_injective h.symm
  refine ⟨?_, ?_⟩
  · obtain ⟨ps, hps, hiff, -, hall, -⟩ :=
      on_deriveColumn_payloads (F := frame (text "b")) hd hsource htarget rfl (.inr rfl)
    obtain rfl := hpayloads hps
    have hgood : ∀ p, some p ∈ [some (.text (text "a")), none, some (.text (text "b"))] →
        ∃ τ, s.derived (.object 4) p = .ok τ := by
      intro p hp
      rw [hderived]
      obtain rfl | rfl : p = .text (text "a") ∨ p = .text (text "b") := by simpa using hp
      · exact ⟨_, rfl⟩
      · exact ⟨_, rfl⟩
    obtain ⟨after, s', hon⟩ := hiff.mpr hgood
    obtain ⟨-, ts, hts, hadds, -⟩ := hall after s' hon
    rw [hderived] at hts
    rcases hts with _ | ⟨⟨h₁⟩, _ | ⟨⟨⟩, _ | ⟨⟨h₃⟩, ⟨⟩⟩⟩⟩
    cases h₁
    cases h₃
    exact ⟨after, s', hon, hadds⟩
  · obtain ⟨ps, hps, -, hfail, -⟩ := on_deriveColumn_payloads (F := frame []) hd hsource htarget rfl (.inr rfl)
    obtain rfl := hpayloads hps
    rw [hderived] at hfail
    have hfront : ∀ q, some q ∈ [some (Payload.text (text "a")), none] → ∃ τ, q.topicBy f = .ok τ := by
      intro q hq
      obtain rfl : q = .text (text "a") := by simpa using hq
      exact ⟨_, rfl⟩
    obtain ⟨s', hon, -⟩ := hfail _ (.text []) [] (.digestLength 3) rfl hfront rfl
    exact ⟨s', hon⟩

end Store

end TopicFilter
