import TopicFilter.Proofs.Deriver.Gathering
import TopicFilter.Proofs.Matcher.Building

/-!
# Proofs/Matcher/RawPayloads — a payload where a collection of payloads should be

A text or a byte string can be gone through, though it is a payload and no collection. Where topics are asked for it is
refused (`on_conditionOf_raw`). Where payloads are asked for it is gone through like any collection, and what comes of
that is up to its items (`on_ofPayloads_raw`): bytes are numbers, which are no payloads, so bytes are refused unless
there are none; the characters of a text are payloads, and the position accepts their topics.
-/

namespace TopicFilter

namespace Store

variable {s s' : Store} {p v d : Value} {b : Bytes} {t : Text} {bs : List Bytes} {f : Bytes → Bytes} {own : Address → Prop}
  {earlier later : List Value}

/-! ## Payloads by themselves -/

/-- The value is a payload by itself, and in none of the cells that are a hasher's own. -/
structure IsRaw (s : Store) (own : Address → Prop) (v : Value) : Prop where
  /-- It is a text or has bytes. -/
  payload : v.text?.isSome = true ∨ (s.bytes? v).isSome = true
  /-- It is not a hasher's own. -/
  notOwn : ∀ a, v = .object a → ¬ own a

theorem items?_of_text? (h : v.text? = some t) : s.items? v = some (Value.characters t) := by
  simp [items?, h]

theorem items?_of_bytes? (h : s.bytes? v = some b) : s.items? v = some (Value.byteNumbers b) := by
  simp [items?, text?_of_bytes? h, h]

theorem cellOf?_of_text? (h : v.text? = some t) : s.cellOf? v = none := by
  cases v <;> first | rfl | cases h

/-- What stands in a cell and has bytes is no iterator. -/
theorem not_iterator_of_bytes? {items : List Value} (h : s.bytes? v = some b) :
    s.cellOf? v ≠ some (.items .iterator items) := by
  intro hc
  cases v with
  | object a => simp [bytes?, hc] at h
  | _ => cases hc

namespace IsRaw

theorem not_isIterator (h : s.IsRaw own v) : ¬ s.IsIterator v := by
  rintro ⟨items, hc⟩
  rcases h.payload with h | h
  · obtain ⟨t, ht⟩ := Option.isSome_iff_exists.mp h
    rw [cellOf?_of_text? ht] at hc
    cases hc
  · obtain ⟨b, hb⟩ := Option.isSome_iff_exists.mp h
    exact not_iterator_of_bytes? hb hc

theorem ne_none (h : s.IsRaw own v) : v ≠ .none := by
  rintro rfl
  rcases h.payload with h | h <;> cases h

/-- A payload by itself has the bytes it had, while others are gone through. -/
theorem bytes?_spend (h : s.IsRaw own v) (hs : s.Spends own s') : s'.bytes? v = s.bytes? v := by
  cases v with
  | object a =>
    obtain ⟨b, hb⟩ := Option.isSome_iff_exists.mp (h.payload.resolve_left (by simp [Value.text?]))
    cases hc : s.cell? a with
    | none => simp [bytes?, cellOf?, hc] at hb
    | some c => simp only [bytes?, cellOf?, hc, hs.cell hc (h.notOwn a rfl) h.not_isIterator]
  | scalar x => cases x <;> rfl
  | _ => rfl

theorem spend (h : s.IsRaw own v) (hs : s.Spends own s') : s'.IsRaw own v :=
  ⟨by rw [h.bytes?_spend hs]; exact h.payload, h.notOwn⟩

end IsRaw

/-- **Where topics are asked for, a payload is refused.** -/
theorem on_conditionOf_raw (h : s.IsRaw own v) :
    (Action.conditionOf v).on s = (.error (.rawPayload (s.className v)), s) := by
  have hcondition : ¬ s.IsCondition v := fun hv => by
    cases hv with
    | proper c => exact absurd h.payload (by simp [Value.text?, bytes?, cellOf?])
    | labelled hc => exact absurd h.payload (by simp [Value.text?, bytes?, cellOf?, hc])
  have hpayload : (v.text?.isSome || (s.bytes? v).isSome) = true := Bool.or_eq_true_iff.mpr h.payload
  have hon : (Action.conditionOn v).on s = (.error (.rawPayload (s.className v)), s) := by
    rw [Action.conditionOn, Action.on_bind_ok (Action.on_bytes? _ _), if_pos hpayload]
    · rfl
    · exact h.ne_none
  rw [on_conditionOf_of_not_isCondition hcondition, Action.on_map, hon]
  rfl

/-! ## Payloads gone through -/

/-- A payload by itself is gone through item by item. -/
theorem IsRaw.on_forEach {α : Type} {g : Value → Action α} {items : List Value} (h : s.IsRaw own v)
    (hi : s.items? v = some items) : (Action.forEach v g).on s = (Action.eachOf g items).on s := by
  rw [Action.forEach, Action.on_bind_ok (Action.on_source_of_not_isIterator hi h.not_isIterator)]

theorem encode_singleton_ok {c : CodePoint} (h : c.isSurrogate = false) :
    Utf8.encode [c] = .ok (Utf8.encodePoint c) := by
  simp [Utf8.encode, h]

theorem exists_encode_singleton_error {c : CodePoint} (h : c.isSurrogate = true) :
    ∃ run, Utf8.encode [c] = .error run := by
  simp [Utf8.encode, h]

/-- The characters of a text without surrogates are payloads. -/
theorem forall₂_isPayload_characters (h : ∀ c ∈ t, c.isSurrogate = false) :
    List.Forall₂ (s.IsPayload own) (Value.characters t) (t.map Utf8.encodePoint) := by
  induction t with
  | nil => exact .nil
  | cons c t ih =>
    obtain ⟨hc, ht⟩ := List.forall_mem_cons.mp h
    exact .cons (.text (encode_singleton_ok hc)) (ih ht)

/-- The bytes of the items of a payload by itself, if all of them are payloads: none, where there are no bytes, and those
of the characters of a text without surrogates. -/
inductive RawItems (s : Store) (v : Value) : List Bytes → Prop where
  /-- There are no bytes. -/
  | empty (h : s.bytes? v = some []) : s.RawItems v []
  /-- The characters of a text. -/
  | characters {t : Text} (h : v.text? = some t) (ht : ∀ c ∈ t, c.isSurrogate = false) :
    s.RawItems v (t.map Utf8.encodePoint)

/-- A payload whose items are payloads stands for the condition on their topics. -/
theorem exists_on_conditionOfPayloads_raw (hd : s.DerivesSteadily d f own) (hwide : ∀ b, 4 ≤ (f b).length)
    (hv : s.IsRaw own v) (hbs : s.RawItems v bs) :
    ∃ s', (Action.conditionOfPayloads d v).on s =
      (.ok (.condition (.ofTopics (.ofList (topicsBy f bs)))), s') ∧ s.Spends own s' := by
  have hitems : ∃ items, s.items? v = some items ∧ List.Forall₂ (s.IsPayload own) items bs := by
    cases hbs with
    | empty h => exact ⟨[], items?_of_bytes? h, .nil⟩
    | characters h ht => exact ⟨_, items?_of_text? h, forall₂_isPayload_characters ht⟩
  obtain ⟨items, hitems, hpayloads⟩ := hitems
  obtain ⟨s', hon, hspend⟩ := exists_on_eachOf_derive hd hwide hpayloads
  exact ⟨s', hd.derivesBy.on_conditionOfPayloads hv.ne_none ((hv.on_forEach hitems).trans hon), hspend⟩

/-- A payload with an item that is none is refused. -/
theorem on_conditionOfPayloads_raw_error {fault : Fault} (hd : s.DerivesBy d f own) (hv : s.IsRaw own v)
    {items : List Value} (hitems : s.items? v = some items)
    (h : (Action.eachOf (Action.derive d) items).on s = (.error fault, s')) :
    (Action.conditionOfPayloads d v).on s = (.error fault, s') := by
  rw [Action.conditionOfPayloads, Action.on_bind_error ((hd.on_deriveMany v).trans ((hv.on_forEach hitems).trans h))]
  exact hv.ne_none

/-- Bytes are numbers, which are refused. -/
theorem on_conditionOfPayloads_bytes (hd : s.DerivesBy d f own) (hv : s.IsRaw own v) {x : UInt8}
    (hb : s.bytes? v = some (x :: b)) :
    (Action.conditionOfPayloads d v).on s = (.error (.notPayload "int"), s) := by
  refine on_conditionOfPayloads_raw_error hd hv (items?_of_bytes? hb) ?_
  have hnumber : (Action.derive d (.scalar (.int x.toNat))).on s = (.error (.notPayload "int"), s) :=
    hd.on_derive_error rfl
  rw [Value.byteNumbers, List.map_cons, Action.eachOf, Action.on_bind_error hnumber]

/-- A text with a surrogate is refused there. -/
theorem exists_on_conditionOfPayloads_surrogate (hd : s.DerivesSteadily d f own) (hwide : ∀ b, 4 ≤ (f b).length)
    (hv : s.IsRaw own v) (ht : v.text? = some t) (hsurrogate : ∃ c ∈ t, c.isSurrogate = true) :
    ∃ run s', (Action.conditionOfPayloads d v).on s = (.error (.unencodable run), s') := by
  obtain ⟨c, hfind⟩ := Option.isSome_iff_exists.mp (List.find?_isSome.mpr hsurrogate)
  obtain ⟨hc, front, back, rfl, hfront⟩ := List.find?_eq_some_iff_append.mp hfind
  obtain ⟨run, hrun⟩ := exists_encode_singleton_error hc
  obtain ⟨s₁, hon, hspend⟩ := exists_on_eachOf_derive hd hwide
    (forall₂_isPayload_characters fun x hx => by simpa using hfront x hx)
  have hbytes : (Action.payloadBytes (.scalar (.text [c]))).on s₁ = (.error (.unencodable run), s₁) := by
    rw [Action.payloadBytes, Action.on_bind_ok (Action.on_bytes? _ _)]
    simp [Value.text?, Payload.encode, hrun]
  refine ⟨run, s₁, on_conditionOfPayloads_raw_error hd.derivesBy hv (items?_of_text? ht) ?_⟩
  rw [Value.characters, List.map_append, List.map_cons]
  exact Action.on_eachOf_error hon ((hd.keep hspend.fixed).derivesBy.on_derive_error hbytes) _

/-! ## Filters -/

/-- **A payload in place of a collection.** Where topics are asked for it is refused. Where payloads are asked for, and
the positions before it are absent or collections of payloads, bytes are refused for the numbers in them, and a text for
a surrogate. But if there are no bytes, or the text has no surrogate, then the position does not keep the filter from
being built: it accepts the topics of the characters, or whatever there is if there are none. -/
theorem on_ofPayloads_raw (hd : s.DerivesSteadily d f own) (hwide : ∀ b, 4 ≤ (f b).length)
    (hp : s.Sequence p (earlier ++ v :: later)) (hearlier : ∀ w ∈ earlier, s.Gathers own w) (hv : s.IsRaw own v) :
    (Action.conditionOf v).on s = (.error (.rawPayload (s.className v)), s) ∧
      (∀ x b, s.bytes? v = some (x :: b) →
        ∃ s', (Action.ofPayloads p d).on s = (.error (.notPayload "int"), s')) ∧
      (∀ t, v.text? = some t → (∃ c ∈ t, c.isSurrogate = true) →
        ∃ run s', (Action.ofPayloads p d).on s = (.error (.unencodable run), s')) ∧
      ∀ bs, s.RawItems v bs → (∀ w ∈ later, s.Gathers own w) →
        ∃ m s' before after, (Action.ofPayloads p d).on s = (.ok m, s') ∧ before.length = earlier.length ∧
          s'.Stands m ⟨before ++ .ofTopics (.ofList (topicsBy f bs)) :: after⟩ := by
  obtain ⟨cs, s₁, hcs, hlen, hspend⟩ := exists_on_eachOf_gathers hd hwide hearlier
  have hd₁ := hd.keep hspend.fixed
  have hv₁ := hv.spend hspend
  have herror : ∀ {fault s'}, (Action.conditionOfPayloads d v).on s₁ = (.error fault, s') →
      (Action.ofPayloads p d).on s = (.error fault, s') := fun h => by
    rw [Action.ofPayloads, Action.on_bind_error]
    rw [Action.on_forEach_sequence hp]
    exact Action.on_eachOf_error hcs h later
  refine ⟨on_conditionOf_raw hv, fun x b hb => ?_, fun t ht hsurrogate => ?_, fun bs hbs hlater => ?_⟩
  · rw [← hv.bytes?_spend hspend] at hb
    exact ⟨s₁, herror (on_conditionOfPayloads_bytes hd₁.derivesBy hv₁ hb)⟩
  · obtain ⟨run, s', hon⟩ := exists_on_conditionOfPayloads_surrogate hd₁ hwide hv₁ ht hsurrogate
    exact ⟨run, s', herror hon⟩
  · have hbs₁ : s₁.RawItems v bs := by
      cases hbs with
      | empty h => exact .empty ((hv.bytes?_spend hspend).trans h)
      | characters h ht => exact .characters h ht
    obtain ⟨s₂, hc, hspend'⟩ := exists_on_conditionOfPayloads_raw hd₁ hwide hv₁ hbs₁
    obtain ⟨cs', s₃, hcs', _, _⟩ := exists_on_eachOf_gathers (hd₁.keep hspend'.fixed) hwide fun w hw =>
      ((hlater w hw).spend hspend).spend hspend'
    have heach : (Action.forEach p (Action.conditionOfPayloads d)).on s =
        (.ok ((cs ++ .ofTopics (.ofList (topicsBy f bs)) :: cs').map .condition), s₃) := by
      rw [Action.on_forEach_sequence hp, Action.on_eachOf_append hcs, Action.eachOf, Action.on_bind_ok hc,
        Action.on_bind_ok hcs', List.map_append, List.map_cons]
      rfl
    obtain ⟨m, s', hm, hstands, _⟩ := exists_on_bind_compiled (M := ⟨_⟩) heach
    exact ⟨m, s', cs, cs', hm, hlen, hstands⟩

/-- A text between a set and an iterator of payloads, with the deriver that is used when none is given. -/
theorem on_ofPayloads_raw_text :
    let s := holding [.items .set [.scalar (.text (text "x"))], .items .iterator [.scalar (.bytes [1])],
      .items .list [.none, .object 2, .scalar (.text (text "ab")), .object 3]]
    let f := Algorithm.sha3x256.digest
    (Action.conditionOf (.scalar (.text (text "ab")))).on s = (.error (.rawPayload "str"), s) ∧
      ∃ m s' before after, (Action.ofPayloads (.object 4) Action.standardDeriver).on s = (.ok m, s') ∧
        before.length = 2 ∧ s'.Stands m ⟨before ++ .ofTopics (.ofList (topicsBy f [[0x61], [0x62]])) :: after⟩ := by
  intro s f
  let own : Address → Prop := fun _ => False
  have hd : s.DerivesSteadily Action.standardDeriver f own :=
    .standard (Keeps.addCell.trans (Keeps.addCell.trans .addCell))
  have hwide : ∀ b, 4 ≤ (f b).length := fun b => (Algorithm.length_digest _ b).symm ▸ Algorithm.four_le_size _
  have hx : s.ArePayloads own [.scalar (.text (text "x"))] := List.forall_mem_singleton.mpr ⟨_, .text rfl⟩
  have hone : s.ArePayloads own [.scalar (.bytes [1])] := List.forall_mem_singleton.mpr ⟨_, .bytes _⟩
  have hearlier : ∀ w ∈ [Value.none, .object 2], s.Gathers own w :=
    List.forall_mem_cons.mpr ⟨.absent, List.forall_mem_singleton.mpr (.items rfl id hx)⟩
  have hlater : ∀ w ∈ [Value.object 3], s.Gathers own w := List.forall_mem_singleton.mpr (.items rfl id hone)
  have hv : s.IsRaw own (.scalar (.text (text "ab"))) := ⟨.inl rfl, nofun⟩
  have hp : s.Sequence (.object 4) ([.none, .object 2] ++ .scalar (.text (text "ab")) :: [.object 3]) :=
    ⟨4, .list, rfl, .inl rfl, rfl⟩
  have hplain : ∀ c ∈ text "ab", c.isSurrogate = false := by decide
  obtain ⟨hrefused, _, _, hbuilt⟩ := on_ofPayloads_raw hd hwide hp hearlier hv
  exact ⟨hrefused, hbuilt _ (.characters rfl hplain) hlater⟩

/-- **A text is taken for its characters, and no bytes for a wildcard**, where topics are refused for either. -/
theorem exists_ofPayloads_raw :
    let answer : Kept → Kept := fun data =>
      match data.value with
      | .scalar (.bytes b) => { data with value := .scalar (.bytes (b ++ [0, 0, 0])) }
      | _ => data
    let s := holding [.items .list [], .recorder (text "padded") 4 answer (.object 2), .deriver (.object 3),
      .items .list [.scalar (.text (text "ab"))], .items .list [.scalar (.bytes [])]]
    (Action.conditionOf (.scalar (.text (text "ab")))).on s = (.error (.rawPayload "str"), s) ∧
      (∃ m s', (Action.ofPayloads (.object 5) (.object 4)).on s = (.ok m, s') ∧
        s'.answer m [⟨0x61, 0, 0, 0⟩] = .ok true ∧ s'.answer m [.sentinel] = .ok false) ∧
      (Action.conditionOf (.scalar (.bytes []))).on s = (.error (.rawPayload "bytes"), s) ∧
      ∃ m s', (Action.ofPayloads (.object 6) (.object 4)).on s = (.ok m, s') ∧ s'.isWildcard m = .ok true :=
  ⟨rfl, ⟨_, _, rfl, rfl, rfl⟩, rfl, _, _, rfl, rfl⟩

end Store

end TopicFilter
