import TopicFilter.Proofs.Deriver.Deriving
import TopicFilter.Proofs.Settings.Obtaining

/-!
# Proofs/Settings/Usable — settings that validate can be used

The checks are made once, when settings are read; their fields are used much later. Of all that the checks let through,
only the name of the algorithm could fail then, and it does not (`ObtainedIn.isHashName`): a hasher can be made under
that name again, its digests are as long as it says, and a topic fits in them (`on_buildDeriver`).
-/

namespace TopicFilter

/-! ## The name that is let through -/

namespace Settings

/-- The name is that of an algorithm with digests of a fixed size. -/
def IsHashName (name : Text) : Prop := ∃ alg, Algorithm.lookup name = .fixed alg

/-- A hasher can be made under the name of an algorithm with digests of a fixed size, and no other. -/
theorem ofName_of_lookup {name : Text} {alg : Algorithm} (h : Algorithm.lookup name = .fixed alg) :
    Hasher.ofName name = .ok (.ofAlgorithm name alg) := by
  rw [Hasher.ofName, h]

theorem isHashName_of_ofName {name : Text} {hasher : Hasher} (h : Hasher.ofName name = .ok hasher) :
    IsHashName name := by
  unfold Hasher.ofName at h
  split at h
  · next alg hlookup => exact ⟨alg, hlookup⟩
  all_goals cases h

/-- The default is the name of an algorithm. -/
theorem isHashName_default : IsHashName defaultAlgorithm := ⟨.sha3x256, by decide +kernel⟩

/-- **A name that passes the check is that of an algorithm.** -/
theorem gives_checkAlgorithm (given : Given) : (checkAlgorithm given).Gives (Passed IsHashName) := by
  unfold checkAlgorithm
  split
  · exact .pure nofun
  · next t _ =>
    split
    · next hasher hname =>
      refine .bind (.any _) fun _ _ => .pure ?_
      rintro name ⟨⟩
      exact isHashName_of_ofName hname
    · refine .ofExcept fun checked hchecked name hok => ?_
      subst hok
      unfold unusable at hchecked
      split at hchecked <;> cases hchecked

theorem gives_ofFields (e : Environment) (fields : List (Text × Given)) :
    (ofFields e fields).Gives fun x => IsHashName x.algorithm := by
  have hfields : (ofFields e fields).Gives fun x => IsHashName x.algorithm ∧ True :=
    gives_fields gives_checkAlgorithm isHashName_default (fun _ _ _ _ _ => trivial) trivial fields
  exact hfields.mono fun _ => And.left

/-- **Settings that are loaded name an algorithm**, also where there is no file. -/
theorem gives_load (e : Environment) (files : FileTree) (file : Option Path) :
    (load e files file).Gives fun x => IsHashName x.algorithm := gives_load_of_fields (gives_ofFields e) files file

end Settings

namespace LogLevel

/-- How much an entry has to matter to be logged. -/
def number : LogLevel → Nat
  | critical | fatal => 50
  | error => 40
  | warn | warning => 30
  | info => 20
  | debug => 10
  | notset => 0

/-- The first name of a level names the same level. -/
theorem number_canonical (level : LogLevel) : level.canonical.number = level.number := by
  cases level <;> rfl

end LogLevel

namespace Store

open Settings

variable {s s' : Store} {x : Settings} {alg : Algorithm}

/-- Settings that validated: as fields, as a text that spells them, or in a configuration file. -/
inductive Validated (x : Settings) : Prop where
  /-- Fields. -/
  | fields {s s' : Store} {fields : List (Text × Value)} (h : (Action.settings fields).on s = (.ok x, s')) : Validated x
  /-- A text. -/
  | spelled {s s' : Store} {v : Value} (h : (Action.settingsOfJson v).on s = (.ok x, s')) : Validated x
  /-- A configuration file, or none. -/
  | loaded {s s' : Store} {given : Option Value} (h : (Action.loadSettings given).on s = (.ok x, s')) : Validated x

theorem Validated.exists_obtainedIn (hx : Validated x) : ∃ e, ObtainedIn e x := by
  cases hx with
  | fields h => exact ⟨_, .fields rfl h⟩
  | spelled h => exact ⟨_, .spelled rfl h⟩
  | loaded h => exact ⟨_, .loaded rfl h⟩

/-- **Settings name an algorithm**, whichever way they are obtained. -/
theorem ObtainedIn.isHashName {e : Environment} (hx : ObtainedIn e x) : IsHashName x.algorithm :=
  hx.of_gives (gives_ofFields e)

theorem Validated.isHashName (hx : Validated x) : IsHashName x.algorithm := by
  obtain ⟨e, hobtained⟩ := hx.exists_obtainedIn
  exact hobtained.isHashName

/-! ## What can be done with them -/

/-- A deriver over a hasher that has a name, claims the size of an algorithm and answers by the algorithm. -/
structure DerivesUnder (s : Store) (d : Value) (name : Text) (alg : Algorithm) : Prop where
  /-- The hasher tells its name and the size of the algorithm, and hashes any bytes. -/
  hasher : ∃ hasher, s.hasherOf d "hasher" = .ok hasher ∧ s.hasherName hasher = .ok (.scalar (.text name)) ∧
    s.digestSize hasher = .ok (.scalar (.int alg.size)) ∧
    ∀ b origin, ∃ answer s', (Action.digest hasher { value := .scalar (.bytes b), origin }).on s = (.ok answer, s') ∧
      answer.value = .scalar (.bytes (alg.digest b))
  /-- Any payload has a topic: the first bytes of the digest of its bytes. -/
  derive : ∀ v b, s.IsPayload (fun _ => False) v b →
    ∃ t s', (Action.derive d v).on s = (.ok t, s') ∧ t.bytes = (alg.digest b).take 4
  /-- Any text without surrogates is a payload. -/
  text : ∀ t : Text, (∀ c ∈ t, c.isSurrogate = false) → ∃ b, s.IsPayload (fun _ => False) (.scalar (.text t)) b

/-- The cells of a hasher of an algorithm and a deriver over it, to which nothing is assigned. -/
theorem derivesUnder_of_cells {a h : Address} {name : Text} (hlookup : Algorithm.lookup name = .fixed alg)
    (ha : s.cell? a = some (.deriver (.object h))) (hh : s.cell? h = some (hasherCell (.ofAlgorithm name alg)))
    (hassigned : ∀ b, b = a ∨ b = h → ∀ name, s.assigned? (.object b) name = none) :
    s.DerivesUnder (.object a) name alg := by
  have hhashes : s.HashesBy (.object h) alg.digest fun _ => False :=
    hashesBy_algorithm hh hlookup (hassigned h (.inr rfl) _)
  have hd : s.DerivesBy (.object a) alg.digest fun _ => False :=
    ⟨⟨a, .object h, rfl, id, ha, hhashes⟩, hassigned a (.inl rfl)⟩
  have hwide : ∀ b, 4 ≤ (alg.digest b).length := fun b => (alg.length_digest b).symm ▸ alg.four_le_size
  refine ⟨⟨.object h, ?_, ?_, ?_, fun b origin => ?_⟩, fun v b hv => ?_, fun t => exists_isPayload_text⟩
  · simp [hasherOf, cellOf?, ha]
  · simp [hasherName, cellOf?, hh, hasherCell, Hasher.ofAlgorithm]
  · simp [digestSize, cellOf?, hh, hasherCell, Hasher.ofAlgorithm]
  · obtain ⟨answer, s', hon, hanswer, _⟩ := hhashes s (.refl s) b origin
    exact ⟨answer, s', hon, hanswer⟩
  · obtain ⟨s', hon, _⟩ := exists_on_derive hd hv (hwide b)
    exact ⟨_, s', hon, Topic.bytes_front (hwide b)⟩

/-- A deriver over the hasher of an algorithm is made, and goes on deriving. -/
theorem exists_on_buildDeriver (hlookup : Algorithm.lookup x.algorithm = .fixed alg) (s : Store) :
    ∃ d s', (Action.buildDeriver x).on s = (.ok d, s') ∧ ∀ s'', s'.Keeps s'' → s''.DerivesUnder d x.algorithm alg := by
  let hasher := Hasher.ofAlgorithm x.algorithm alg
  let reported := { s with log := s.log ++ [hasher.report] }
  let s₁ := reported.addCell (hasherCell hasher)
  let s₂ := s₁.addCell (.deriver (.object s.cells.length))
  have hstandard : (Action.standardHasher (.scalar (.text x.algorithm))).on s = (.ok (.object s.cells.length), s₁) := by
    have hname : (Action.ofExcept (Hasher.ofName x.algorithm)).on s = (.ok hasher, s) := by
      rw [Action.on_ofExcept, ofName_of_lookup hlookup]
    rw [Action.standardHasher]
    simp only [Value.text?]
    rw [Action.on_bind_ok hname, Action.on_bind_ok (Action.on_report _ _)]
    rfl
  have hcell : s₁.cell? s.cells.length = some (hasherCell hasher) := cell?_addCell_self (s := reported)
  have hsize : s₁.digestSize (.object s.cells.length) = .ok (.scalar (.int alg.size)) := by
    rw [digestSize]
    simp [cellOf?, hcell, hasherCell, hasher, Hasher.ofAlgorithm]
  have hover : (Action.deriverOver (.object s.cells.length)).on s₁ = (.ok (.object s₁.cells.length), s₂) :=
    on_deriverOver hsize (Int.ofNat_le.mpr alg.four_le_size)
  refine ⟨.object s₁.cells.length, s₂, by rw [Action.buildDeriver, Action.on_bind_ok hstandard, hover], ?_⟩
  intro s'' hkeep
  have hdcell : s₂.cell? s₁.cells.length = some (.deriver (.object s.cells.length)) := cell?_addCell_self
  have hhcell : s₂.cell? s.cells.length = some (hasherCell hasher) :=
    (cell?_addCell_of_lt (lt_length_of_cell? hcell)).trans hcell
  refine derivesUnder_of_cells hlookup (hkeep.cell hdcell rfl) (hkeep.cell hhcell rfl) ?_
  rintro b (rfl | rfl) name
  · rw [hkeep.assigned name hdcell, assigned?_addCell_self]
  · rw [hkeep.assigned name hhcell, assigned?_addCell_of_lt (lt_length_of_cell? hcell)]
    exact assigned?_addCell_self (s := reported)

end Store

end TopicFilter
