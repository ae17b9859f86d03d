import TopicFilter.Proofs.Store.Listing
import TopicFilter.Store.Derivation

/-!
# Proofs/Deriver/Hashing — what hashers do

Hashing keeps whatever is fixed (`steady_digest`). `s.HashesBy h f own` says that a hasher answers by a function on byte
strings and changes no more than cells of its own; so do the hashers of all algorithms, which change nothing
(`hashesBy_algorithm`), and those that note their calls (`hashesBy_recorder`).
-/

namespace TopicFilter

namespace Action

/-! ## Hashing keeps what is fixed

A hasher may note what it is asked, in a list or a buffer; nothing else changes. -/

theorem steady_digestUnder (name data : Value) : (digestUnder name data).Steady := by
  have hname : (hashName name).Steady := by
    refine .bind (.inquire _) fun _ => ?_
    split
    · split
      · exact .pure _
      · exact .throw _
    · exact .throw _
  have hdata : (hashData data).Steady := by
    refine .bind (.bytes? _) fun _ => ?_
    split
    · exact .throw _
    · exact .pure _
    · exact .throw _
  refine .bind hname fun _ => .bind hdata fun _ => ?_
  split
  · exact .pure _
  · exact .throw _
  · exact .pure _
  · exact .throw _

theorem steady_bufferByte (v : Value) : (bufferByte v).Steady := by
  unfold bufferByte
  split
  · exact .pure _
  · split
    · exact .pure _
    · exact .throw _
  · exact .failAs _ _

/-- What grows is a list or a buffer, and stays one. -/
theorem steady_append (target item : Value) : (append target item).Steady := by
  intro s
  refine .bind (.cellOf? target) fun c s' _ hc => ?_
  split
  · next a items => exact .setCell (show s'.cell? a = _ from hc) rfl rfl
  · next a b =>
    refine .bind (steady_bufferByte item s') fun x s'' hk _ => ?_
    obtain ⟨d, hd, hdc⟩ := hk.sameClass (show s'.cell? a = _ from hc)
    exact .setCell hd (Store.isMutable_congr hdc) hdc.symm
  · exact .failAs

theorem steady_digest (hasher : Value) (data : Kept) : (digest hasher data).Steady := by
  refine .bind (.inPlace _ _) fun _ => .bind (.cellOf? _) fun _ => ?_
  split
  · exact .bind (steady_digestUnder _ _) fun _ => .fresh _
  · exact .bind (steady_append _ _) fun _ => .pure _
  · exact .failAs _ _

end Action

/-! ## Names of algorithms -/

namespace Algorithm

variable {name : Text} {table : List (String × Lookup)} {found : Lookup} {alg : Algorithm}

theorem exists_of_find? (h : find? name table = some found) : ∃ entry ∈ table, Text.ofString entry.1 = name := by
  obtain ⟨entry, hentry, _⟩ := Option.map_eq_some_iff.mp h
  exact ⟨entry, List.mem_of_find?_eq_some hentry, by simpa using List.find?_some hentry⟩

/-- A code point that a system can be given in a name: no surrogate, and not null. -/
def IsWritable (c : CodePoint) : Prop := (c.toNat ≠ 0 && !c.isSurrogate) = true

theorem isWritable_of_lowerAscii {c : CodePoint} (h : IsWritable (lowerAscii c)) : IsWritable c := by
  unfold lowerAscii at h
  split at h
  · next hcapital =>
    have hlow : ¬ 0xD800 ≤ c.toNat := by omega
    have hpos : c.toNat ≠ 0 := by omega
    simp [IsWritable, CodePoint.isSurrogate, hlow, hpos]
  · exact h

/-- A name of an algorithm with digests of a fixed size can be given to a system. -/
theorem isWritable_of_lookup (h : lookup name = .fixed alg) :
    (name.all fun c => c.toNat ≠ 0 && !c.isSurrogate) = true := by
  have hexact : ∀ entry ∈ exactNames, ∀ c ∈ Text.ofString entry.1, IsWritable c := by
    unfold IsWritable
    decide +kernel
  have hloose : ∀ entry ∈ looseNames, ∀ c ∈ Text.ofString entry.1, IsWritable c := by
    unfold IsWritable
    decide +kernel
  refine List.all_eq_true.mpr fun c hc => ?_
  unfold lookup at h
  split at h
  · next hfind =>
    obtain ⟨entry, hentry, rfl⟩ := exists_of_find? hfind
    exact hexact entry hentry c hc
  · cases hfind : find? (name.map lowerAscii) looseNames with
    | none => rw [hfind] at h; cases h
    | some found =>
      obtain ⟨entry, hentry, hname⟩ := exists_of_find? hfind
      have hlower : lowerAscii c ∈ Text.ofString entry.1 := hname ▸ List.mem_map_of_mem hc
      exact isWritable_of_lowerAscii (hloose entry hentry _ hlower)

end Algorithm

namespace Store

variable {s s' : Store} {f : Bytes → Bytes} {own : Address → Prop}

/-! ## Hashers -/

/-- The hasher answers by a function on byte strings, and keeps all but cells of its own, whatever became of those. -/
def HashesBy (s : Store) (hasher : Value) (f : Bytes → Bytes) (own : Address → Prop) : Prop :=
  ∀ s₁, s.KeepsBut own s₁ → ∀ b origin, ∃ answer s₂,
    (Action.digest hasher { value := .scalar (.bytes b), origin }).on s₁ = (.ok answer, s₂) ∧
      answer.value = .scalar (.bytes (f b)) ∧ s₁.KeepsBut own s₂

theorem HashesBy.keep {hasher : Value} (h : s.HashesBy hasher f own) (hs : s.KeepsBut own s') :
    s'.HashesBy hasher f own := fun s₁ hs₁ => h s₁ (hs.trans hs₁)

/-- The hasher of an algorithm answers by the algorithm, and keeps everything. -/
theorem hashesBy_algorithm {a : Address} {name : Text} {size : Value} {alg : Algorithm}
    (ha : s.cell? a = some (.hasher (.scalar (.text name)) size)) (hname : Algorithm.lookup name = .fixed alg)
    (hassigned : s.assigned? (.object a) "digest" = none) :
    s.HashesBy (.object a) alg.digest fun _ => False := by
  intro s₁ hs b origin
  have ha₁ : s₁.cell? a = _ := hs.cell ha id
  have hassigned₁ : s₁.assigned? (.object a) "digest" = none := (hs.assigned _ ha).trans hassigned
  have hhashName : (Action.hashName (.scalar (.text name))).on s₁ = (.ok name, s₁) := by
    rw [Action.hashName, Action.on_bind_ok (a := ()) (by rw [Action.on_inquire]; rfl)]
    simp only [Value.text?, Algorithm.isWritable_of_lookup hname, if_true]
    rfl
  have hunder : (Action.digestUnder (.scalar (.text name)) (.scalar (.bytes b))).on s₁ =
      (.ok (alg.digest b), s₁) := by
    have hdata : (Action.hashData (.scalar (.bytes b))).on s₁ = (.ok b, s₁) := rfl
    rw [Action.digestUnder, Action.on_bind_ok hhashName, Action.on_bind_ok hdata, hname]
    rfl
  refine ⟨{ value := .scalar (.bytes (alg.digest b)), origin := s₁.nextOrigin },
    { s₁ with nextOrigin := s₁.nextOrigin + 1 }, ?_, rfl, .of_eq rfl rfl⟩
  rw [Action.digest, Action.on_bind_ok (Action.on_inPlace hassigned₁), Action.on_bind_ok (Action.on_cellOf? _ _)]
  simp only [cellOf?, ha₁]
  rw [Action.on_bind_ok hunder]
  rfl

/-- A hasher that notes its calls does so before it answers. -/
theorem on_digest_recorder {a c : Address} {name : Text} {size : Int} {answer : Kept → Kept} {calls : List Value}
    (ha : s.cell? a = some (.recorder name size answer (.object c))) (hc : s.cell? c = some (.items .list calls))
    (hassigned : s.assigned? (.object a) "digest" = none) (data : Kept) :
    (Action.digest (.object a) data).on s =
      (.ok (answer data), s.setCell c (.items .list (calls ++ [data.value]))) := by
  have happend : (Action.append (.object c) data.value).on s =
      (.ok (), s.setCell c (.items .list (calls ++ [data.value]))) := by
    rw [Action.append, Action.on_bind_ok (Action.on_cellOf? _ _)]
    simp [cellOf?, hc]
  rw [Action.digest, Action.on_bind_ok (Action.on_inPlace hassigned), Action.on_bind_ok (Action.on_cellOf? _ _)]
  simp only [cellOf?, ha]
  rw [Action.on_bind_ok happend]
  rfl

/-- A hasher that notes its calls in a list of its own answers by its rule. -/
theorem hashesBy_recorder {a c : Address} {name : Text} {size : Int} {answer : Kept → Kept} {calls : List Value}
    (ha : s.cell? a = some (.recorder name size answer (.object c))) (hc : s.cell? c = some (.items .list calls))
    (hassigned : s.assigned? (.object a) "digest" = none)
    (hanswer : ∀ b origin, (answer { value := .scalar (.bytes b), origin }).value = .scalar (.bytes (f b))) :
    s.HashesBy (.object a) f (· = c) := by
  intro s₁ hs b origin
  have hac : a ≠ c := by
    rintro rfl
    cases ha.symm.trans hc
  obtain ⟨d, hd, hclass⟩ := hs.sameClass hc
  obtain ⟨calls₁, rfl⟩ := eq_list_of_cellClassName hclass
  have hassigned₁ : s₁.assigned? (.object a) "digest" = none := (hs.assigned _ ha).trans hassigned
  exact ⟨_, _, on_digest_recorder (hs.cell ha hac) hd hassigned₁ _, hanswer b origin, .setCell rfl hd rfl⟩

end Store

end TopicFilter
