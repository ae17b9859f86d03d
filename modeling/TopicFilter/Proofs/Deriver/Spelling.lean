import TopicFilter.Proofs.Deriver.Recording
import TopicFilter.Proofs.Text.Utf8

/-!
# Proofs/Deriver/Spelling — one topic for every spelling of the same bytes

Bytes can be spelled by a byte string, by a view or a buffer of them, and by a text that has them in UTF-8. A value that
spells no bytes is refused before the hasher is asked, whatever the hasher is (`IsDeriver.on_derive_error`). Else the
hasher is asked for the digest of the bytes, so that one outcome comes of all spellings. Over a hasher whose digests are
as long as it claims there is always a topic, since no deriver is made over one that claims too little
(`on_deriverOver_spellings`).
-/

namespace TopicFilter

namespace Store

variable {s s' : Store} {v d hasher size : Value} {a : Address} {n : Int} {b : Bytes} {t : Text} {f : Bytes → Bytes}
  {own : Address → Prop} {fault : Fault}

/-! ## Spellings -/

/-- The value spells bytes: it has them, or it is a text of characters that have them in a string. -/
inductive IsSpelling (s : Store) : Value → Bytes → Prop where
  /-- Bytes as they are. -/
  | bytes {v : Value} {b : Bytes} (h : s.bytes? v = some b) : s.IsSpelling v b
  /-- A text. -/
  | text {v : Value} {cs : List Char} (h : v.text? = some (Text.ofChars cs)) :
    s.IsSpelling v (cs.flatMap String.utf8EncodeChar)

theorem readBytes_of_text? (h : v.text? = some t) : s.readBytes v = (Payload.text t).encode := by
  rw [readBytes, h]

theorem IsSpelling.readBytes_eq (h : s.IsSpelling v b) : s.readBytes v = .ok b := by
  cases h with
  | bytes h => rw [readBytes, text?_of_bytes? h, h]
  | text h => rw [readBytes_of_text? h, Payload.encode, Utf8.encode_ofChars]

/-- A text without halves of pairs spells bytes. -/
theorem exists_isSpelling (h : v.text? = some t) (ht : t.IsEncodable) : ∃ b, s.IsSpelling v b := by
  obtain ⟨cs, rfl⟩ := Utf8.exists_ofChars ht
  exact ⟨_, .text h⟩

/-- A text with a half of a pair spells none. -/
theorem exists_readBytes_eq_unencodable (h : v.text? = some t) (ht : ∃ c ∈ t, c.isSurrogate = true) :
    ∃ run, s.readBytes v = .error (.unencodable run) := by
  rw [readBytes_of_text? h, Payload.encode]
  cases hencode : Utf8.encode t with
  | error run => exact ⟨run, rfl⟩
  | ok b =>
    obtain ⟨c, hc, hhalf⟩ := ht
    rw [(Utf8.encode_eq_ok_iff.mp hencode).1 c hc] at hhalf
    cases hhalf

theorem readBytes_of_neither (h : v.text? = none) (hb : s.bytes? v = none) :
    s.readBytes v = .error (.notPayload (s.className v)) := by
  rw [readBytes, h, hb]

/-! ## Sizes that are claimed -/

/-- The value stands for a whole number; truth values are numbers too. -/
inductive Counts : Value → Int → Prop where
  /-- A number. -/
  | int (n : Int) : Counts (.scalar (.int n)) n
  /-- A truth value. -/
  | bool (b : Bool) : Counts (.scalar (.bool b)) b.toNat

theorem Counts.on_isBelowTopic (h : Counts size n) (s : Store) :
    (Action.isBelowTopic size).on s = (.ok (decide (n < 4)), s) := by
  cases h with
  | int n => rfl
  | bool b => cases b <;> rfl

/-- A number has a form, or it is too long for one. -/
theorem Counts.exists_plain (h : Counts size n) (s : Store) :
    (∃ t, s.plain size = .ok t) ∨ s.plain size = .error .tooManyDigits := by
  have hquoted (x : Scalar) : s.quoted (.scalar x) = quotedScalar x := by
    rw [quoted]
    cases s.depth <;> rfl
  cases h with
  | int n =>
    have hplain : s.plain (.scalar (.int n)) = quotedScalar (.int n) := hquoted _
    rw [hplain, quotedScalar]
    by_cases hlong : (Text.ofInt n).length > Text.digitLimit + (if n < 0 then 1 else 0)
    · exact .inr (if_pos hlong)
    · exact .inl ⟨_, if_neg hlong⟩
  | bool b => exact .inl ⟨_, hquoted (.bool b)⟩

/-- No deriver is made over a hasher that claims too little. -/
theorem exists_on_deriverOver_error {name : Text} (hname : s.hasherName hasher = .ok (.scalar (.text name)))
    (hsize : s.digestSize hasher = .ok size) (hn : Counts size n) (hshort : n < 4) :
    ∃ fault, fault.sort = .value ∧ (Action.deriverOver hasher).on s = (.error fault, s) := by
  have hclaimed : (Action.inquire (·.digestSize hasher)).on s = (.ok size, s) := by rw [Action.on_inquire, hsize]
  have hnamed : (Action.inquire (·.hasherName hasher)).on s = (.ok (.scalar (.text name)), s) := by
    rw [Action.on_inquire, hname]
  have hbelow := hn.on_isBelowTopic s
  rw [decide_eq_true hshort] at hbelow
  have hplain : (Action.plain (.scalar (.text name))).on s = (.ok name, s) := rfl
  have hshown : (Action.plain size).on s = (s.plain size, s) := Action.on_inquire _ _
  rw [Action.deriverOver, Action.on_bind_ok hclaimed, Action.on_bind_ok hbelow]
  simp only [if_true]
  rw [Action.on_bind_ok hnamed, Action.on_bind_ok hplain]
  rcases hn.exists_plain s with ⟨t, ht⟩ | ht
  · rw [ht] at hshown
    exact ⟨.hasherTooShort name t, rfl, by rw [Action.on_bind_ok hshown]; rfl⟩
  · rw [ht] at hshown
    exact ⟨.tooManyDigits, rfl, by rw [Action.on_bind_error hshown]⟩

/-- A deriver over a hasher that claims enough is a new one. -/
theorem exists_on_deriverOver (hsize : s.digestSize hasher = .ok size) (hn : Counts size n) (hwide : 4 ≤ n) :
    ∃ d, (Action.deriverOver hasher).on s = (.ok d, s.addCell (.deriver hasher)) ∧
      d = .object s.cells.length ∧ (s.addCell (.deriver hasher)).IsDeriver d hasher := by
  have hint : size = .scalar (.int n) := by
    cases hn with
    | int => rfl
    | bool b => cases b <;> simp at hwide
  subst hint
  exact ⟨_, on_deriverOver hsize hwide, rfl, ⟨_, rfl, cell?_addCell_self⟩, fun _ => assigned?_addCell_self⟩

/-! ## Hashers that go on hashing -/

/-- The hasher answers by a function as long as what is fixed is kept, and what it has of its own is made to be
changed. -/
structure HashesSteadily (s : Store) (hasher : Value) (f : Bytes → Bytes) (own : Address → Prop) : Prop where
  /-- Cells of its own may change. -/
  mayChange : ∀ a, own a → s.MayChange a
  /-- It answers by the function. -/
  hashes : ∀ s', s.Keeps s' → s'.HashesBy hasher f own

/-- A deriver that was made over such a hasher derives by the function. -/
theorem HashesSteadily.derivesBy (h : s.HashesSteadily hasher f own)
    (hs : (s.addCell (.deriver hasher)).Keeps s') (hd : s'.IsDeriver (.object s.cells.length) hasher) :
    s'.DerivesBy (.object s.cells.length) f own := by
  obtain ⟨⟨a, ha, hcell⟩, hassigned⟩ := hd
  cases ha
  refine ⟨⟨_, hasher, rfl, fun hown => ?_, hcell, h.hashes s' (Keeps.addCell.trans hs)⟩, hassigned⟩
  obtain ⟨c, hc, _⟩ := h.mayChange _ hown
  exact absurd (lt_length_of_cell? hc) (Nat.lt_irrefl _)

/-- The hasher of an algorithm goes on hashing by the algorithm. -/
theorem hashesSteadily_algorithm {name : Text} {alg : Algorithm}
    (ha : s.cell? a = some (.hasher (.scalar (.text name)) size)) (hname : Algorithm.lookup name = .fixed alg)
    (hassigned : s.assigned? (.object a) "digest" = none) :
    s.HashesSteadily (.object a) alg.digest fun _ => False where
  mayChange _ h := h.elim
  hashes _ hs := hashesBy_algorithm (hs.cell ha rfl) hname ((hs.assigned _ ha).trans hassigned)

/-- A hasher that notes its calls goes on hashing by its rule. -/
theorem hashesSteadily_recorder {c : Address} {name : Text} {answer : Kept → Kept} {calls : List Value}
    (ha : s.cell? a = some (.recorder name n answer (.object c))) (hc : s.cell? c = some (.items .list calls))
    (hassigned : s.assigned? (.object a) "digest" = none)
    (hanswer : ∀ b origin, (answer { value := .scalar (.bytes b), origin }).value = .scalar (.bytes (f b))) :
    s.HashesSteadily (.object a) f (· = c) where
  mayChange _ h := ⟨_, h ▸ hc, rfl⟩
  hashes s' hs := by
    obtain ⟨cell, hcell, hclass⟩ := hs.sameClass hc
    obtain ⟨calls', rfl⟩ := eq_list_of_cellClassName hclass
    exact hashesBy_recorder (hs.cell ha rfl) hcell ((hs.assigned _ ha).trans hassigned) hanswer

/-! ## Outcomes -/

/-- What comes of the digest of some bytes: the topic of its first four bytes, or a failure if it is shorter. -/
structure ComesTo (digest : Bytes) (outcome : Except Fault Topic) : Prop where
  /-- A digest that is long enough has a topic. -/
  wide : 4 ≤ digest.length → ∃ t, t.bytes = digest.take 4 ∧ outcome = .ok t
  /-- A shorter one has none. -/
  short : digest.length < 4 → outcome = .error (.digestLength digest.length)

theorem comesTo_ofDigest (digest : Bytes) : ComesTo digest (Topic.ofDigest digest) where
  wide h := ⟨.front digest, Topic.bytes_front h, Topic.ofDigest_eq_front h⟩
  short h := Topic.ofDigest_eq_error_iff.mpr ⟨h, rfl⟩

theorem ComesTo.ne_unencodable {digest : Bytes} {outcome : Except Fault Topic} (h : ComesTo digest outcome)
    (run : Utf8.SurrogateRun) : outcome ≠ .error (.unencodable run) := by
  rintro rfl
  by_cases hwide : 4 ≤ digest.length
  · obtain ⟨t, _, ht⟩ := h.wide hwide
    cases ht
  · cases h.short (Nat.lt_of_not_le hwide)

/-- What spells bytes has the outcome of their digest. -/
theorem DerivesBy.outcome_derive (hd : s.DerivesBy d f own) (hv : s.IsSpelling v b) :
    ((Action.derive d v).on s).1 = Topic.ofDigest (f b) := by
  have hbytes : (Action.payloadBytes v).on s = (.ok b, s) := by rw [on_payloadBytes, hv.readBytes_eq]
  obtain ⟨s', hon, _⟩ := hd.yields_derive hbytes
  rw [hon]

/-- **A deriver makes one topic of every spelling of the same bytes, and fails only as it should.** It is made exactly
over hashers that claim four bytes or more. Texts with a half of a pair, and what is neither a text nor has bytes, are
refused without a change to the store, and so before the hasher is asked. If the hasher answers by a function, all that
spells the same bytes has one outcome, by the digest of these bytes; no other text is refused as one with a half of a
pair; and if digests are as long as claimed, there is always a topic. -/
theorem on_deriverOver_spellings {name : Text} (hname : s.hasherName hasher = .ok (.scalar (.text name)))
    (hsize : s.digestSize hasher = .ok size) (hn : Counts size n) :
    (n < 4 → ∃ fault, fault.sort = .value ∧ (Action.deriverOver hasher).on s = (.error fault, s)) ∧
      (4 ≤ n → ∃ d s₁, (Action.deriverOver hasher).on s = (.ok d, s₁) ∧ ∀ s', s₁.Keeps s' →
        (∀ v t, v.text? = some t → (∃ c ∈ t, c.isSurrogate = true) →
          ∃ run, (Action.derive d v).on s' = (.error (.unencodable run), s')) ∧
        (∀ v, v.text? = none → s'.bytes? v = none →
          (Action.derive d v).on s' = (.error (.notPayload (s'.className v)), s')) ∧
        ∀ f own, s.HashesSteadily hasher f own →
          (∀ b, ∃ outcome, ComesTo (f b) outcome ∧
            ∀ v, s'.IsSpelling v b → ((Action.derive d v).on s').1 = outcome) ∧
          (∀ v t run, v.text? = some t → ((Action.derive d v).on s').1 = .error (.unencodable run) →
            ∃ c ∈ t, c.isSurrogate = true) ∧
          ((∀ b, ((f b).length : Int) = n) →
            ∀ v b, s'.IsSpelling v b → ∃ t, ((Action.derive d v).on s').1 = .ok t)) := by
  refine ⟨exists_on_deriverOver_error hname hsize hn, fun hwide => ?_⟩
  obtain ⟨d, hmade, rfl, hnew⟩ := exists_on_deriverOver hsize hn hwide
  refine ⟨_, _, hmade, fun s' hs => ?_⟩
  have hd := hnew.keep hs
  refine ⟨fun v t ht hhalf => ?_, fun v ht hb => ?_, fun f own hpure => ?_⟩
  · obtain ⟨run, hrun⟩ := exists_readBytes_eq_unencodable (s := s') ht hhalf
    exact ⟨run, hd.on_derive_error (by rw [on_payloadBytes, hrun])⟩
  · exact hd.on_derive_error (by rw [on_payloadBytes, readBytes_of_neither ht hb])
  have hderives := hpure.derivesBy hs hd
  refine ⟨fun b => ⟨_, comesTo_ofDigest (f b), fun v hv => hderives.outcome_derive hv⟩, fun v t run ht hrun => ?_,
    fun hsized v b hv => ?_⟩
  · by_contra hplain
    have henc : t.IsEncodable := fun c hc => Bool.eq_false_iff.mpr fun hhalf => hplain ⟨c, hc, hhalf⟩
    obtain ⟨b, hb⟩ := exists_isSpelling (s := s') ht henc
    rw [hderives.outcome_derive hb] at hrun
    exact (comesTo_ofDigest (f b)).ne_unencodable run hrun
  · have hlong : 4 ≤ (f b).length := by
      have hlength := hsized b
      omega
    exact ⟨_, (hderives.outcome_derive hv).trans (Topic.ofDigest_eq_front hlong)⟩

/-- Five bytes spelled in four ways, over a hasher that answers with what it is asked and notes it; and what it refuses,
with nothing noted. Over the hasher that is used when none is given, whatever spells bytes has a topic. -/
theorem on_deriverOver_spellings_five_bytes :
    let data : Bytes := [0x61, 0x62, 0x63, 0xC3, 0xA9]
    let s := holding [.items .list [], .recorder (TopicFilter.text "echo") 5 id (.object 2), .buffer data]
    let half : Value := .scalar (.text [{ toNat := 0xD800 }])
    (∃ d s₁, (Action.deriverOver (.object 3)).on s = (.ok d, s₁) ∧
      (∀ v ∈ [.scalar (.bytes data), .view data, .object 4, .scalar (.text (TopicFilter.text "abcé"))],
        ((Action.derive d v).on s₁).1 = .ok ⟨0x61, 0x62, 0x63, 0xC3⟩) ∧
      ((Action.derive d (.scalar (.text (TopicFilter.text "é")))).on s₁).1 = .error (.digestLength 2) ∧
      (∃ run, (Action.derive d half).on s₁ = (.error (.unencodable run), s₁)) ∧
      (Action.derive d .none).on s₁ = (.error (.notPayload "NoneType"), s₁) ∧
      s₁.cell? 2 = some (.items .list [])) ∧
    ∃ d s₁, (Action.deriverOver (.object standardHasher)).on s = (.ok d, s₁) ∧
      ∀ v b, s₁.IsSpelling v b → ∃ t, ((Action.derive d v).on s₁).1 = .ok t := by
  intro data s half
  constructor
  · have hpure : s.HashesSteadily (.object 3) id (· = 2) := hashesSteadily_recorder rfl rfl rfl fun _ _ => rfl
    have hname : s.hasherName (.object 3) = .ok (.scalar (.text (TopicFilter.text "echo"))) := rfl
    have hsize : s.digestSize (.object 3) = .ok (.scalar (.int 5)) := rfl
    obtain ⟨_, hmade⟩ := on_deriverOver_spellings hname hsize (.int 5)
    obtain ⟨d, s₁, hd, hderives⟩ := hmade (by decide)
    obtain ⟨hhalf, hneither, hpayloads⟩ := hderives s₁ (.refl s₁)
    obtain ⟨houtcome, -, -⟩ := hpayloads id _ hpure
    have hnew : (Action.deriverOver (.object 3)).on s = (.ok (.object 5), s.addCell (.deriver (.object 3))) := rfl
    obtain ⟨rfl, rfl⟩ : .object 5 = d ∧ s.addCell (.deriver (.object 3)) = s₁ := by simpa using hnew.symm.trans hd
    refine ⟨_, _, hd, ?_, ?_, hhalf _ _ rfl ⟨_, List.mem_singleton_self _, rfl⟩, hneither .none rfl rfl, rfl⟩
    · have htext : (s.addCell (.deriver (.object 3))).IsSpelling (.scalar (.text (TopicFilter.text "abcé")))
          (['a', 'b', 'c', 'é'].flatMap String.utf8EncodeChar) := .text rfl
      obtain ⟨outcome, hcomes, hspelled⟩ := houtcome data
      obtain ⟨t, ht, rfl⟩ := hcomes.wide (by decide)
      obtain rfl : t = ⟨0x61, 0x62, 0x63, 0xC3⟩ := Topic.bytes_injective ht
      simp only [List.forall_mem_cons, List.not_mem_nil, false_implies, implies_true, and_true]
      exact ⟨hspelled _ (.bytes rfl), hspelled _ (.bytes rfl), hspelled _ (.bytes rfl), hspelled _ htext⟩
    · have htext : (s.addCell (.deriver (.object 3))).IsSpelling (.scalar (.text (TopicFilter.text "é")))
          (['é'].flatMap String.utf8EncodeChar) := .text rfl
      obtain ⟨outcome, hcomes, hspelled⟩ := houtcome [0xC3, 0xA9]
      exact (hspelled _ htext).trans (hcomes.short (by decide))
  · have hpure : s.HashesSteadily (.object standardHasher) Algorithm.sha3x256.digest fun _ => False :=
      hashesSteadily_algorithm rfl rfl rfl
    have hname : s.hasherName (.object standardHasher) = .ok (.scalar (.text Deriver.standard.hasher.name)) := rfl
    have hsize : s.digestSize (.object standardHasher) = .ok (.scalar (.int 32)) := rfl
    obtain ⟨_, hmade⟩ := on_deriverOver_spellings hname hsize (.int 32)
    obtain ⟨d, s₁, hd, hderives⟩ := hmade (by decide)
    obtain ⟨-, -, hpayloads⟩ := hderives s₁ (.refl s₁)
    obtain ⟨-, -, hsized⟩ := hpayloads _ _ hpure
    exact ⟨d, s₁, hd, hsized fun b => congrArg Nat.cast (Algorithm.sha3x256.length_digest b)⟩

end Store

end TopicFilter
