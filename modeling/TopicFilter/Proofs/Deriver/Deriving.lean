import TopicFilter.Proofs.Deriver.Hashing

/-!
# Proofs/Deriver/Deriving — what deriving topics does

Deriving keeps whatever is fixed (`steady_deriveMany`). A deriver over a hasher that answers by a function takes each
payload to the front of what the function makes of its bytes (`exists_on_deriveMany`), whatever sort of payload it is.
-/

namespace TopicFilter

namespace Action

/-! ## Deriving keeps what is fixed

Besides what the hasher notes, only iterators change, when they are gone through. -/

theorem steady_byteOf (v : Value) : (byteOf v).Steady := by
  unfold byteOf
  split
  · exact .pure _
  · split
    · exact .pure _
    · exact .throw _
  · exact .failAs _ _

theorem steady_payloadBytes (v : Value) : (payloadBytes v).Steady := by
  refine .bind (.bytes? _) fun _ => ?_
  split
  · exact .ofExcept _
  · exact .pure _
  · exact .failAs _ _

theorem steady_topicOfDigest (v : Value) : (topicOfDigest v).Steady := by
  have hfront : (frontBytes v).Steady := by
    refine .bind (.bytes? _) fun _ => .bind (.cellOf? _) fun _ => ?_
    split
    · exact .throw _
    · exact .pure _
    · exact .eachOf steady_byteOf _
    · exact .eachOf steady_byteOf _
    · exact .throw _
    · exact .failAs _ _
  refine .bind (.length v) fun n => ?_
  split
  · exact .throw _
  · exact .bind hfront fun _ => .ofExcept _

theorem steady_derive (deriver data : Value) : (derive deriver data).Steady := by
  refine .bind (.inPlace _ _) fun _ => .bind (.inquire _) fun _ => ?_
  refine .bind (steady_payloadBytes data) fun _ => .bind (.fresh _) fun _ => ?_
  exact .bind (steady_digest _ _) fun _ => steady_topicOfDigest _

/-- **Deriving topics keeps what is fixed**, also when it fails. -/
theorem steady_deriveMany (deriver items : Value) : (deriveMany deriver items).Steady := by
  refine .bind (.inPlace _ _) fun _ => .bind (.inquire _) fun _ => ?_
  exact .forEach (steady_derive deriver) items

end Action

/-! ## The front of a digest -/

namespace Topic

/-- The topic at the front of a digest that is long enough. -/
def front (b : Bytes) : Topic := ⟨b.getD 0 0, b.getD 1 0, b.getD 2 0, b.getD 3 0⟩

theorem bytes_front {b : Bytes} (h : 4 ≤ b.length) : (front b).bytes = b.take 4 := by
  rcases b with _ | ⟨x0, _ | ⟨x1, _ | ⟨x2, _ | ⟨x3, rest⟩⟩⟩⟩ <;> simp_all [front, bytes]

theorem ofDigest_eq_front {b : Bytes} (h : 4 ≤ b.length) : ofDigest b = .ok (front b) := by
  rw [ofDigest_eq_ok_iff, bytes_front h]
  exact List.take_prefix _ _

theorem bytes_injective {t u : Topic} (h : t.bytes = u.bytes) : t = u := by
  have hok : ofBytes t.bytes = ofBytes u.bytes := congrArg ofBytes h
  rwa [ofBytes_bytes, ofBytes_bytes, Except.ok.injEq] at hok

/-- **Digests have one topic when their first four bytes are the same.** -/
theorem front_eq_iff {b c : Bytes} (hb : 4 ≤ b.length) (hc : 4 ≤ c.length) :
    front b = front c ↔ b.take 4 = c.take 4 := by
  rw [← bytes_front hb, ← bytes_front hc]
  exact ⟨congrArg bytes, bytes_injective⟩

end Topic

namespace Store

variable {s s' : Store} {v d : Value} {b : Bytes} {bs : List Bytes} {f : Bytes → Bytes} {own : Address → Prop}

/-! ## Payloads -/

/-- A text has no bytes as it is. -/
theorem bytes?_of_text? {t : Text} (h : v.text? = some t) : s.bytes? v = none := by
  cases v with
  | scalar x => cases x <;> first | rfl | cases h
  | kind k => rfl
  | _ => cases h

theorem text?_of_bytes? (h : s.bytes? v = some b) : v.text? = none := by
  cases ht : v.text? with
  | none => rfl
  | some t =>
    rw [bytes?_of_text? ht] at h
    cases h

/-- A payload of some bytes, in none of the cells that are a hasher's own. -/
inductive IsPayload (s : Store) (own : Address → Prop) : Value → Bytes → Prop where
  /-- A byte string. -/
  | bytes (b : Bytes) : s.IsPayload own (.scalar (.bytes b)) b
  /-- A view of bytes. -/
  | view (b : Bytes) : s.IsPayload own (.view b) b
  /-- A buffer. -/
  | buffer {a : Address} {b : Bytes} (h : s.cell? a = some (.buffer b)) (ha : ¬ own a) : s.IsPayload own (.object a) b
  /-- A text, which counts as its bytes in UTF-8. -/
  | text {t : Text} {b : Bytes} (h : Utf8.encode t = .ok b) : s.IsPayload own (.scalar (.text t)) b

/-- A text without surrogates is a payload. -/
theorem exists_isPayload_text {t : Text} (h : ∀ c ∈ t, c.isSurrogate = false) :
    ∃ b, s.IsPayload own (.scalar (.text t)) b := by
  obtain ⟨b, hb⟩ := (Utf8.exists_encode_eq_ok_iff t).mpr h
  exact ⟨b, .text hb⟩

theorem IsPayload.keep (h : s.IsPayload own v b) (hs : s.KeepsBut own s') : s'.IsPayload own v b := by
  cases h with
  | bytes => exact .bytes b
  | view => exact .view b
  | buffer h ha => exact .buffer (hs.cell h ha) ha
  | text h => exact .text h

theorem IsPayload.on_payloadBytes (h : s.IsPayload own v b) : (Action.payloadBytes v).on s = (.ok b, s) := by
  cases h with
  | bytes => rfl
  | view => rfl
  | buffer h ha =>
    rw [Action.payloadBytes, Action.on_bind_ok (Action.on_bytes? _ _)]
    simp [Value.text?, bytes?, cellOf?, h]
  | text h =>
    rw [Action.payloadBytes, Action.on_bind_ok (Action.on_bytes? _ _)]
    simp [Value.text?, Payload.encode, h]

/-- The value is a list or a tuple of payloads, and in none of the cells that are a hasher's own. -/
def HasPayloads (s : Store) (own : Address → Prop) (v : Value) (bs : List Bytes) : Prop :=
  ∃ vs, s.Sequence v vs ∧ (∀ a, v = .object a → ¬ own a) ∧ List.Forall₂ (s.IsPayload own) vs bs

theorem HasPayloads.keep (h : s.HasPayloads own v bs) (hs : s.KeepsBut own s') : s'.HasPayloads own v bs := by
  obtain ⟨vs, hv, hown, hvs⟩ := h
  exact ⟨vs, hv.keep hs hown, hown, hvs.imp fun _ _ hw => hw.keep hs⟩

/-! ## Derivers -/

/-- The value is a deriver over a hasher, and nothing was put in the place of what it does. -/
structure IsDeriver (s : Store) (d hasher : Value) : Prop where
  /-- A cell holds the deriver. -/
  cell : ∃ a, d = .object a ∧ s.cell? a = some (.deriver hasher)
  /-- Nothing was assigned to it. -/
  assigned : ∀ name, s.assigned? d name = none

namespace IsDeriver

variable {hasher : Value}

theorem keep (h : s.IsDeriver d hasher) (hs : s.Keeps s') : s'.IsDeriver d hasher := by
  obtain ⟨⟨a, rfl, ha⟩, hassigned⟩ := h
  exact ⟨⟨a, rfl, hs.cell ha rfl⟩, fun name => (hs.assigned name ha).trans (hassigned name)⟩

/-- The hasher is there for whoever asks for it. -/
theorem on_hasherOf (h : s.IsDeriver d hasher) (need : String) :
    (Action.inquire (·.hasherOf d need)).on s = (.ok hasher, s) := by
  obtain ⟨⟨a, rfl, ha⟩, -⟩ := h
  rw [Action.on_inquire]
  simp [hasherOf, cellOf?, ha]

/-- **What has no bytes is refused before the hasher is asked**, whatever the hasher is. -/
theorem on_derive_error {fault : Fault} (h : s.IsDeriver d hasher)
    (hv : (Action.payloadBytes v).on s = (.error fault, s)) : (Action.derive d v).on s = (.error fault, s) := by
  rw [Action.derive, Action.on_bind_ok (Action.on_inPlace (h.assigned _)), Action.on_bind_ok (h.on_hasherOf _),
    Action.on_bind_error hv]

end IsDeriver

/-- The deriver is as it was built, and its hasher answers by a function on byte strings. -/
structure DerivesBy (s : Store) (d : Value) (f : Bytes → Bytes) (own : Address → Prop) : Prop where
  /-- A cell holds the deriver over its hasher. -/
  cell : ∃ a hasher, d = .object a ∧ ¬ own a ∧ s.cell? a = some (.deriver hasher) ∧ s.HashesBy hasher f own
  /-- Nothing was assigned to it. -/
  assigned : ∀ name, s.assigned? d name = none

theorem DerivesBy.keep (h : s.DerivesBy d f own) (hs : s.KeepsBut own s') : s'.DerivesBy d f own := by
  obtain ⟨⟨a, hasher, rfl, hown, ha, hhashes⟩, hassigned⟩ := h
  refine ⟨⟨a, hasher, rfl, hown, hs.cell ha hown, hhashes.keep hs⟩, fun name => ?_⟩
  rw [hs.assigned name ha, hassigned]

theorem DerivesBy.exists_isDeriver (h : s.DerivesBy d f own) :
    ∃ hasher, s.HashesBy hasher f own ∧ s.IsDeriver d hasher := by
  obtain ⟨a, hasher, hd, _, ha, hhashes⟩ := h.cell
  exact ⟨hasher, hhashes, ⟨a, hd, ha⟩, h.assigned⟩

/-- A deriver over a hasher that claims enough bytes is a new one. -/
theorem on_deriverOver {hasher : Value} {n : Int} (hsize : s.digestSize hasher = .ok (.scalar (.int n))) (hn : 4 ≤ n) :
    (Action.deriverOver hasher).on s = (.ok (.object s.cells.length), s.addCell (.deriver hasher)) := by
  have hsize' : (Action.inquire (·.digestSize hasher)).on s = (.ok (.scalar (.int n)), s) := by
    rw [Action.on_inquire, hsize]
  have hbelow : (Action.isBelowTopic (.scalar (.int n))).on s = (.ok false, s) := by
    have hwide : ¬ n < (Topic.length : Int) := Int.not_lt.mpr hn
    simp only [Action.isBelowTopic, hwide, decide_false]
    rfl
  rw [Action.deriverOver, Action.on_bind_ok hsize', Action.on_bind_ok hbelow]
  rfl

/-- The deriver that is used when none is given derives by its algorithm. -/
theorem derivesBy_standard {environment : Environment} {files : FileTree} (hs : (initial environment files).Keeps s) :
    s.DerivesBy Action.standardDeriver Algorithm.sha3x256.digest fun _ => False := by
  have hhasher : s.cell? standardHasher = some (hasherCell Deriver.standard.hasher) := hs.cell rfl rfl
  have hassigned : ∀ a, a = standardHasher ∨ a = standardDeriver → ∀ name, s.assigned? (.object a) name = none := by
    rintro a (rfl | rfl) name
    · exact hs.assigned name rfl
    · exact hs.assigned name rfl
  refine ⟨⟨standardDeriver, .object standardHasher, rfl, id, hs.cell rfl rfl, ?_⟩, hassigned _ (.inr rfl)⟩
  exact hashesBy_algorithm hhasher (by decide) (hassigned _ (.inl rfl) _)

theorem on_length_bytes (b : Bytes) (s : Store) : (Action.length (.scalar (.bytes b))).on s = (.ok b.length, s) := by
  rw [Action.length, Action.on_bind_ok (Action.on_get s), Action.on_inquire]
  simp [depth, lengthWithin, cellOf?, items?, Value.text?, bytes?, Value.byteNumbers]

/-- The topic at the front of a digest, or the reason why there is none. -/
theorem on_topicOfDigest_bytes (b : Bytes) (s : Store) :
    (Action.topicOfDigest (.scalar (.bytes b))).on s = (Topic.ofDigest b, s) := by
  rw [Action.topicOfDigest, Action.on_bind_ok (on_length_bytes b s)]
  by_cases hshort : b.length < Topic.length
  · rw [if_pos hshort, Topic.ofDigest_eq_error_iff.mpr ⟨hshort, rfl⟩]
    rfl
  · have hb : 4 ≤ b.length := Nat.le_of_not_lt hshort
    have hfront : (Action.frontBytes (.scalar (.bytes b))).on s = (.ok (b.take 4), s) := rfl
    rw [if_neg hshort, Action.on_bind_ok hfront, ← Topic.bytes_front hb, Topic.ofBytes_bytes,
      Topic.ofDigest_eq_front hb]
    rfl

/-- **The topic of a payload is at the front of what the hasher makes of its bytes**, if that is long enough. -/
theorem DerivesBy.yields_derive (hd : s.DerivesBy d f own) (h : (Action.payloadBytes v).on s = (.ok b, s)) :
    (Action.derive d v).Yields own s (Topic.ofDigest (f b)) := by
  obtain ⟨hasher, hhashes, hderiver⟩ := hd.exists_isDeriver
  have hfresh : s.KeepsBut own { s with nextOrigin := s.nextOrigin + 1 } := .of_eq rfl rfl
  obtain ⟨answer, s₂, hdigest, hanswer, hkeeps⟩ := hhashes _ hfresh b s.nextOrigin
  refine ⟨s₂, ?_, hfresh.trans hkeeps⟩
  rw [Action.derive, Action.on_bind_ok (Action.on_inPlace (hd.assigned _)), Action.on_bind_ok (hderiver.on_hasherOf _),
    Action.on_bind_ok h, Action.freshBytes, Action.on_bind_ok (Action.on_fresh _ _), Action.on_bind_ok hdigest, hanswer,
    on_topicOfDigest_bytes]

theorem exists_on_derive (hd : s.DerivesBy d f own) (hv : s.IsPayload own v b) (hwide : 4 ≤ (f b).length) :
    ∃ s', (Action.derive d v).on s = (.ok (.front (f b)), s') ∧ s.KeepsBut own s' := by
  rw [← Topic.ofDigest_eq_front hwide]
  exact hd.yields_derive hv.on_payloadBytes

/-- What is no payload has no topic. -/
theorem DerivesBy.on_derive_error {fault : Fault} (hd : s.DerivesBy d f own)
    (h : (Action.payloadBytes v).on s = (.error fault, s)) : (Action.derive d v).on s = (.error fault, s) := by
  obtain ⟨hasher, _, hderiver⟩ := hd.exists_isDeriver
  exact hderiver.on_derive_error h

/-- The topics of payloads by what a hasher makes of their bytes. -/
def topicsBy (f : Bytes → Bytes) (bs : List Bytes) : List Topic := bs.map fun b => .front (f b)

/-- To derive topics is to go through a value, once a deriver is there. -/
theorem DerivesBy.on_deriveMany (hd : s.DerivesBy d f own) (v : Value) :
    (Action.deriveMany d v).on s = (Action.forEach v (Action.derive d)).on s := by
  obtain ⟨hasher, _, hderiver⟩ := hd.exists_isDeriver
  rw [Action.deriveMany, Action.on_bind_ok (Action.on_inPlace (hd.assigned _)),
    Action.on_bind_ok (hderiver.on_hasherOf _)]

/-- …and so with each of several payloads, in order. -/
theorem exists_on_deriveMany (hd : s.DerivesBy d f own) (hv : s.HasPayloads own v bs)
    (hwide : ∀ b, 4 ≤ (f b).length) :
    ∃ s', (Action.deriveMany d v).on s = (.ok (topicsBy f bs), s') ∧ s.KeepsBut own s' := by
  obtain ⟨vs, hseq, _, hvs⟩ := hv
  rw [hd.on_deriveMany, Action.on_forEach_sequence hseq]
  refine Action.exists_on_eachOf (fun s₁ w b hs₁ hw => ?_) hvs (.refl s)
  exact exists_on_derive (hd.keep hs₁) (hw.keep hs₁) (hwide b)

end Store

end TopicFilter
