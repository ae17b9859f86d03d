import TopicFilter.Proofs.Deriver.Gathering
import TopicFilter.Proofs.Store.Noting

/-!
# Proofs/Deriver/Recording — what a hasher is asked, call by call

A hasher that notes its calls tells how far a computation came. Deriving the topic of a payload asks it once, for the
bytes of the payload, and not at all if there are none (`Recording.on_derive`). Deriving those of a position asks once for
each payload, in order (`Recording.on_conditionOfPayloads`), up to the first that fails
(`Recording.exists_on_conditionOfPayloads_error`).
-/

namespace TopicFilter

namespace Store

variable {s s' : Store} {a c : Address} {v w d : Value} {b : Bytes} {bs bs' : List Bytes} {f : Bytes → Bytes}
  {vs front back rest : List Value} {fault : Fault}

/-! ## Payloads read -/

/-- The bytes of a payload, or the reason why it has none. -/
def readBytes (s : Store) (v : Value) : Except Fault Bytes :=
  match v.text?, s.bytes? v with
  | some t, _ => (Payload.text t).encode
  | none, some b => .ok b
  | none, none => .error (.notPayload (s.className v))

theorem on_payloadBytes (v : Value) (s : Store) : (Action.payloadBytes v).on s = (s.readBytes v, s) := by
  rw [Action.payloadBytes, Action.on_bind_ok (Action.on_bytes? _ _), readBytes]
  cases v.text? with
  | some t => exact Action.on_ofExcept _ _
  | none => cases s.bytes? v <;> rfl

@[simp] theorem readBytes_noted (s : Store) (c : Address) (bs : List Bytes) (v : Value) :
    (s.noted c bs).readBytes v = s.readBytes v := by
  rw [readBytes, bytes?_noted, className_noted, readBytes]

/-- What an iterator has left does not show in a payload. -/
theorem readBytes_setCell {items items' : List Value} (h : s.cell? a = some (.items .iterator items)) (v : Value) :
    (s.setCell a (.items .iterator items')).readBytes v = s.readBytes v := by
  have hcell := cell?_setCell_self (c := .items .iterator items') (lt_length_of_cell? h)
  cases v with
  | object b =>
    by_cases hb : b = a
    · subst hb
      simp [readBytes, Value.text?, bytes?, className, cellOf?, h, hcell, cellClassName]
    · simp [readBytes, Value.text?, bytes?, className, cellOf?, cell?_setCell_ne hb]
  | scalar x => cases x <;> rfl
  | _ => rfl

/-- The payload has bytes, and their digest is long enough. -/
def Hashes (s : Store) (f : Bytes → Bytes) (v : Value) (b : Bytes) : Prop :=
  s.readBytes v = .ok b ∧ 4 ≤ (f b).length

/-- The payload fails with a fault, once some byte strings have been hashed for it. -/
inductive Fails (s : Store) (f : Bytes → Bytes) (v : Value) : Fault → List Bytes → Prop where
  /-- It has no bytes, and nothing is hashed. -/
  | unread {fault : Fault} (h : s.readBytes v = .error fault) : s.Fails f v fault []
  /-- The digest of its bytes is too short. -/
  | short {b : Bytes} (h : s.readBytes v = .ok b) (hb : (f b).length < 4) :
    s.Fails f v (.digestLength (f b).length) [b]

theorem hashes_or_fails (s : Store) (f : Bytes → Bytes) (v : Value) :
    (∃ b, s.Hashes f v b) ∨ ∃ fault bs, s.Fails f v fault bs := by
  cases h : s.readBytes v with
  | error fault => exact .inr ⟨fault, [], .unread h⟩
  | ok b =>
    by_cases hb : 4 ≤ (f b).length
    · exact .inl ⟨b, h, hb⟩
    · exact .inr ⟨_, _, .short h (Nat.lt_of_not_le hb)⟩

/-- Some payloads are all good, or one of them is the first that fails. -/
theorem forall₂_hashes_or_fails (s : Store) (f : Bytes → Bytes) (vs : List Value) :
    (∃ bs, List.Forall₂ (s.Hashes f) vs bs) ∨
      ∃ front w back bs fault bs', vs = front ++ w :: back ∧ List.Forall₂ (s.Hashes f) front bs ∧
        s.Fails f w fault bs' := by
  induction vs with
  | nil => exact .inl ⟨[], .nil⟩
  | cons v vs ih =>
    rcases s.hashes_or_fails f v with ⟨b, hb⟩ | ⟨fault, bs', hv⟩
    · rcases ih with ⟨bs, hbs⟩ | ⟨front, w, back, bs, fault, bs', rfl, hfront, hw⟩
      · exact .inl ⟨b :: bs, .cons hb hbs⟩
      · exact .inr ⟨v :: front, w, back, b :: bs, fault, bs', rfl, .cons hb hfront, hw⟩
    · exact .inr ⟨[], v, vs, [], fault, bs', rfl, .nil, hv⟩

/-! ## Derivers over a hasher that notes its calls -/

/-- The deriver is over a hasher that answers by a function, and notes its calls in the list at an address. Nothing was
put in the place of what they do. -/
structure Recording (s : Store) (d : Value) (f : Bytes → Bytes) (c : Address) : Prop where
  /-- The cells of the deriver and the hasher. -/
  cells : ∃ e a name size answer, d = .object e ∧ s.cell? e = some (.deriver (.object a)) ∧
    s.cell? a = some (.recorder name size answer (.object c)) ∧ s.assigned? (.object a) "digest" = none ∧
    ∀ b origin, (answer { value := .scalar (.bytes b), origin }).value = .scalar (.bytes (f b))
  /-- The list of notes. -/
  notes : ∃ calls, s.cell? c = some (.items .list calls)
  /-- Nothing was assigned to the deriver. -/
  assigned : ∀ name, s.assigned? d name = none

namespace Recording

theorem keep (h : s.Recording d f c) (hs : s.Keeps s') : s'.Recording d f c := by
  obtain ⟨⟨e, a, name, size, answer, rfl, he, ha, hassigned, hanswer⟩, ⟨calls, hc⟩, hplace⟩ := h
  obtain ⟨cell, hcell, hclass⟩ := hs.sameClass hc
  obtain ⟨calls', rfl⟩ := eq_list_of_cellClassName hclass
  refine ⟨⟨e, a, name, size, answer, rfl, hs.cell he rfl, hs.cell ha rfl, ?_, hanswer⟩, ⟨calls', hcell⟩, fun name => ?_⟩
  · rw [hs.assigned _ ha, hassigned]
  · rw [hs.assigned _ he, hplace]

/-- The hasher is there for whoever asks for it. -/
theorem on_hasherOf (h : s.Recording d f c) :
    ∃ a, (∀ need, (Action.inquire (·.hasherOf d need)).on s = (.ok (.object a), s)) ∧
      ∀ b, ∃ answer : Kept, answer.value = .scalar (.bytes (f b)) ∧
        (Action.digest (.object a) { value := .scalar (.bytes b), origin := s.nextOrigin }).on
          { s with nextOrigin := s.nextOrigin + 1 } = (.ok answer, s.noted c [b]) := by
  obtain ⟨⟨e, a, name, size, answer, rfl, he, ha, hassigned, hanswer⟩, ⟨calls, hc⟩, hplace⟩ := h
  have hderiver : s.IsDeriver (.object e) (.object a) := ⟨⟨e, rfl, he⟩, hplace⟩
  refine ⟨a, hderiver.on_hasherOf, fun b => ⟨_, hanswer b s.nextOrigin, ?_⟩⟩
  rw [on_digest_recorder (s := { s with nextOrigin := s.nextOrigin + 1 }) ha hc hassigned, noted_of_list hc]
  rfl

/-- **Deriving a topic asks for one digest**, that of the bytes of the payload, if it has bytes. -/
theorem on_derive (h : s.Recording d f c) (hb : s.readBytes v = .ok b) :
    (Action.derive d v).on s = (Topic.ofDigest (f b), s.noted c [b]) := by
  obtain ⟨a, hhasher, hdigest⟩ := h.on_hasherOf
  obtain ⟨answer, hanswer, hdigest⟩ := hdigest b
  have hbytes : (Action.payloadBytes v).on s = (.ok b, s) := by rw [on_payloadBytes, hb]
  rw [Action.derive, Action.on_bind_ok (Action.on_inPlace (h.assigned _)), Action.on_bind_ok (hhasher _),
    Action.on_bind_ok hbytes, Action.freshBytes, Action.on_bind_ok (Action.on_fresh _ _), Action.on_bind_ok hdigest,
    hanswer, on_topicOfDigest_bytes]

theorem derivesBy (h : s.Recording d f c) : s.DerivesBy d f (· = c) := by
  obtain ⟨⟨e, a, name, size, answer, rfl, he, ha, hassigned, hanswer⟩, ⟨calls, hc⟩, hplace⟩ := h
  have hec : e ≠ c := by
    rintro rfl
    cases he.symm.trans hc
  exact ⟨⟨e, .object a, rfl, hec, he, hashesBy_recorder ha hc hassigned hanswer⟩, hplace⟩

theorem on_derive_hashes (h : s.Recording d f c) (hv : s.Hashes f v b) :
    (Action.derive d v).on s = (.ok (.front (f b)), s.noted c [b]) := by
  rw [h.on_derive hv.1, Topic.ofDigest_eq_front hv.2]

/-- A payload that fails has been hashed if its digest is too short, and else it has not. -/
theorem on_derive_fails {fault : Fault} (h : s.Recording d f c) (hv : s.Fails f v fault bs) :
    (Action.derive d v).on s = (.error fault, s.noted c bs) := by
  cases hv with
  | unread hv => rw [noted_nil, h.derivesBy.on_derive_error (by rw [on_payloadBytes, hv])]
  | short hv hb => rw [h.on_derive hv, Topic.ofDigest_eq_error_iff.mpr ⟨hb, rfl⟩]

end Recording

/-! ## Payloads one after another -/

theorem Hashes.noted (h : s.Hashes f v b) : (s.noted c bs).Hashes f v b := by rwa [Hashes, readBytes_noted]

theorem Fails.noted {fault : Fault} (h : s.Fails f v fault bs') : (s.noted c bs).Fails f v fault bs' := by
  cases h with
  | unread h => exact .unread (by rwa [readBytes_noted])
  | short h hb => exact .short (by rwa [readBytes_noted]) hb

/-- What an iterator has left does not make a payload fail, and does not keep it from failing. -/
theorem Hashes.setCell {items items' : List Value} (h : s.Hashes f v b)
    (ha : s.cell? a = some (.items .iterator items)) : (s.setCell a (.items .iterator items')).Hashes f v b := by
  rwa [Hashes, readBytes_setCell ha]

theorem Fails.setCell {items items' : List Value} {fault : Fault} (h : s.Fails f v fault bs)
    (ha : s.cell? a = some (.items .iterator items)) : (s.setCell a (.items .iterator items')).Fails f v fault bs := by
  cases h with
  | unread h => exact .unread (by rwa [readBytes_setCell ha])
  | short h hb => exact .short (by rwa [readBytes_setCell ha]) hb

namespace Recording

theorem noted (h : s.Recording d f c) (bs : List Bytes) : (s.noted c bs).Recording d f c := h.keep (keeps_noted s c bs)

/-- No iterator is the list of notes. -/
theorem ne_of_iterator {items : List Value} (h : s.Recording d f c) (ha : s.cell? a = some (.items .iterator items)) :
    a ≠ c := by
  rintro rfl
  obtain ⟨calls, hc⟩ := h.notes
  cases ha.symm.trans hc

/-- Topics are derived one after another. -/
theorem on_eachOf_derive (h : s.Recording d f c) (hvs : List.Forall₂ (s.Hashes f) vs bs) :
    (Action.eachOf (Action.derive d) vs).on s = (.ok (topicsBy f bs), s.noted c bs) := by
  induction vs generalizing s bs with
  | nil =>
    cases hvs
    rw [noted_nil]
    rfl
  | cons v vs ih =>
    obtain ⟨b, bs, hv, hothers, rfl⟩ := List.forall₂_cons_left_iff.mp hvs
    have hrest := ih (h.noted [b]) (hothers.imp fun _ _ hw => hw.noted)
    rw [Action.eachOf, Action.on_bind_ok (h.on_derive_hashes hv), Action.on_bind_ok hrest, noted_noted]
    rfl

/-- …and the first payload that fails ends it. -/
theorem on_eachOf_derive_error (h : s.Recording d f c) (hfront : List.Forall₂ (s.Hashes f) front bs)
    (hw : s.Fails f w fault bs') :
    (Action.eachOf (Action.derive d) (front ++ w :: back)).on s = (.error fault, s.noted c (bs ++ bs')) := by
  have hfails := (h.noted bs).on_derive_fails hw.noted
  rw [noted_noted] at hfails
  exact Action.on_eachOf_error (h.on_eachOf_derive hfront) hfails back

/-- An iterator loses the payloads at its front as their topics are derived. -/
theorem on_drain_append (h : s.Recording d f c) (ha : s.cell? a = some (.items .iterator (front ++ rest)))
    (hfront : List.Forall₂ (s.Hashes f) front bs) :
    (Action.drain a (Action.derive d) (front ++ rest)).on s =
      (((Action.drain a (Action.derive d) rest).on ((s.setCell a (.items .iterator rest)).noted c bs)).1.map
          (topicsBy f bs ++ ·),
        ((Action.drain a (Action.derive d) rest).on ((s.setCell a (.items .iterator rest)).noted c bs)).2) := by
  induction front generalizing s bs with
  | nil =>
    cases hfront
    rw [List.nil_append] at ha ⊢
    rw [noted_nil, setCell_self ha]
    rcases (Action.drain a (Action.derive d) rest).on s with ⟨_ | _, _⟩ <;> rfl
  | cons v front ih =>
    obtain ⟨b, bs, hv, hothers, rfl⟩ := List.forall₂_cons_left_iff.mp hfront
    have hset : s.Keeps (s.setCell a (.items .iterator (front ++ rest))) := .setCell ha rfl rfl
    have hderive := (h.keep hset).on_derive_hashes (hv.setCell ha)
    have ha₁ : ((s.setCell a (.items .iterator (front ++ rest))).noted c [b]).cell? a =
        some (.items .iterator (front ++ rest)) :=
      (cell?_noted_ne (h.ne_of_iterator ha)).trans (cell?_setCell_self (lt_length_of_cell? ha))
    have hrest := ih ((h.keep hset).noted [b]) ha₁ (hothers.imp fun _ _ hw => (hw.setCell ha).noted)
    rw [setCell_noted, setCell_setCell, noted_noted, List.singleton_append] at hrest
    rw [List.cons_append, Action.drain, Action.on_bind_ok (Action.on_setCell _ _ _), Action.on_bind_ok hderive,
      Action.on_bind, hrest]
    rcases (Action.drain a (Action.derive d) rest).on _ with ⟨_ | _, _⟩ <;> rfl

/-- An iterator of payloads that are all good is gone through to its end. -/
theorem on_drain (h : s.Recording d f c) (ha : s.cell? a = some (.items .iterator vs))
    (hvs : List.Forall₂ (s.Hashes f) vs bs) :
    (Action.drain a (Action.derive d) vs).on s =
      (.ok (topicsBy f bs), (s.setCell a (.items .iterator [])).noted c bs) := by
  have hall := h.on_drain_append (ha.trans (by rw [List.append_nil])) hvs
  rw [List.append_nil] at hall
  rw [hall]
  simp [Action.drain, Except.map]

/-- …and else up to the first payload that fails, which is gone as well. -/
theorem on_drain_error (h : s.Recording d f c) (ha : s.cell? a = some (.items .iterator (front ++ w :: back)))
    (hfront : List.Forall₂ (s.Hashes f) front bs) (hw : s.Fails f w fault bs') :
    (Action.drain a (Action.derive d) (front ++ w :: back)).on s =
      (.error fault, (s.setCell a (.items .iterator back)).noted c (bs ++ bs')) := by
  have hset : s.Keeps (s.setCell a (.items .iterator back)) := .setCell ha rfl rfl
  have hfails := ((h.keep hset).noted bs).on_derive_fails (hw.setCell ha).noted
  have hrest : (Action.drain a (Action.derive d) (w :: back)).on
      ((s.setCell a (.items .iterator (w :: back))).noted c bs) =
        (.error fault, (s.setCell a (.items .iterator back)).noted c (bs ++ bs')) := by
    rw [Action.drain, Action.on_bind_ok (Action.on_setCell _ _ _), setCell_noted, setCell_setCell,
      Action.on_bind_error hfails, noted_noted]
  rw [h.on_drain_append ha hfront, hrest]
  rfl

/-! ## Positions -/

/-- The topics of the items of a value are derived in order, and an iterator is gone through. -/
theorem on_forEach_derive (h : s.Recording d f c) (hv : s.items? v = some vs) (hvs : List.Forall₂ (s.Hashes f) vs bs) :
    (Action.forEach v (Action.derive d)).on s = (.ok (topicsBy f bs), (s.drained v).noted c bs) := by
  by_cases hiter : s.IsIterator v
  · obtain ⟨a, rfl, ha⟩ := hiter.exists_cell hv
    rw [Action.forEach, Action.on_bind_ok (Action.on_source_of_iterator ha), drained_of_iterator ha]
    exact h.on_drain ha hvs
  · rw [Action.forEach, Action.on_bind_ok (Action.on_source_of_not_isIterator hv hiter), drained_of_not_isIterator hiter]
    exact h.on_eachOf_derive hvs

/-- …up to the first payload that fails. -/
theorem exists_on_forEach_derive_error (h : s.Recording d f c) (hv : s.items? v = some (front ++ w :: back))
    (hfront : List.Forall₂ (s.Hashes f) front bs) (hw : s.Fails f w fault bs') :
    ∃ s', (Action.forEach v (Action.derive d)).on s = (.error fault, s') ∧ s.Asked c (bs ++ bs') s' := by
  by_cases hiter : s.IsIterator v
  · obtain ⟨a, rfl, ha⟩ := hiter.exists_cell hv
    have hset : s.Asked c [] (s.setCell a (.items .iterator back)) := .setCell ha (h.ne_of_iterator ha)
    refine ⟨_, ?_, hset.trans (.noted _ c (bs ++ bs'))⟩
    rw [Action.forEach, Action.on_bind_ok (Action.on_source_of_iterator ha)]
    exact h.on_drain_error ha hfront hw
  · refine ⟨_, ?_, .noted s c (bs ++ bs')⟩
    rw [Action.forEach, Action.on_bind_ok (Action.on_source_of_not_isIterator hv hiter)]
    exact h.on_eachOf_derive_error hfront hw

end Recording

/-- What stands at a position: nothing where it is absent, and else the items of a value. -/
def payloadsAt (s : Store) (v : Value) : Except Fault (List Value) := if v = .none then .ok [] else s.itemsOf v

theorem items?_of_payloadsAt (hne : v ≠ .none) (h : s.payloadsAt v = .ok vs) : s.items? v = some vs := by
  rw [payloadsAt, if_neg hne, itemsOf] at h
  cases hi : s.items? v with
  | none => rw [hi] at h; cases h
  | some items => rw [hi] at h; exact congrArg some (Except.ok.inj h)

namespace Recording

/-- **A position stands for the condition on its topics**, once the bytes of its payloads have been hashed. -/
theorem on_conditionOfPayloads (h : s.Recording d f c) (hv : s.payloadsAt v = .ok vs)
    (hvs : List.Forall₂ (s.Hashes f) vs bs) :
    (Action.conditionOfPayloads d v).on s =
      (.ok (.condition (.ofTopics (.ofList (topicsBy f bs)))), (s.drained v).noted c bs) := by
  by_cases hne : v = .none
  · subst hne
    obtain rfl : [] = vs := Except.ok.inj hv
    cases hvs
    rw [noted_nil]
    rfl
  · exact h.derivesBy.on_conditionOfPayloads hne (h.on_forEach_derive (items?_of_payloadsAt hne hv) hvs)

/-- …unless one of them fails. -/
theorem exists_on_conditionOfPayloads_error (h : s.Recording d f c) (hv : s.payloadsAt v = .ok (front ++ w :: back))
    (hfront : List.Forall₂ (s.Hashes f) front bs) (hw : s.Fails f w fault bs') :
    ∃ s', (Action.conditionOfPayloads d v).on s = (.error fault, s') ∧ s.Asked c (bs ++ bs') s' := by
  have hne : v ≠ .none := by
    rintro rfl
    have hnil : [] = front ++ w :: back := Except.ok.inj hv
    simp at hnil
  obtain ⟨s', hon, hasked⟩ := h.exists_on_forEach_derive_error (items?_of_payloadsAt hne hv) hfront hw
  refine ⟨s', ?_, hasked⟩
  rw [Action.conditionOfPayloads, Action.on_bind_error ((h.derivesBy.on_deriveMany v).trans hon)]
  exact hne

/-- …or nothing can stand there. -/
theorem on_conditionOfPayloads_refused (h : s.Recording d f c) (hsettings : ∀ x, v ≠ .settings x)
    (hv : s.payloadsAt v = .error fault) : (Action.conditionOfPayloads d v).on s = (.error fault, s) := by
  have hne : v ≠ .none := by
    rintro rfl
    cases hv
  rw [payloadsAt, if_neg hne] at hv
  have hsource : (Action.source v).on s = (.error fault, s) := by
    rw [Action.source, Action.on_bind_ok (Action.on_cellOf? v s)]
    split
    · next a items hc =>
      rw [itemsOf, items?_object (show s.cell? a = _ from hc)] at hv
      cases hv
    · next x => exact absurd rfl (hsettings _)
    · rw [Action.on_bind_error ((Action.on_inquire _ s).trans (by rw [hv]))]
  have heach : (Action.forEach v (Action.derive d)).on s = (.error fault, s) := by
    rw [Action.forEach, Action.on_bind_error hsource]
  rw [Action.conditionOfPayloads, Action.on_bind_error ((h.derivesBy.on_deriveMany v).trans heach)]
  exact hne

end Recording

end Store

end TopicFilter
