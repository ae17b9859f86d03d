import TopicFilter.Proofs.Matcher.Building
import TopicFilter.Store.Literal

/-!
# Proofs/Session/Making — making values keeps what is fixed

Whatever a literal makes, it is made without a change to anything fixed (`steady_makeKept`): parts of a literal may be
gone through, which empties iterators, and hashers note what they are asked; all else is new cells. The same holds of
each way to make a topic, a condition, a matcher, a hasher or a deriver.
-/

namespace TopicFilter

namespace Action

variable {α β : Type}

/-- A change that leaves cells and attributes alone keeps everything. -/
theorem Steady.modify {f : Store → Store} (hc : ∀ s, (f s).cells = s.cells)
    (ha : ∀ s, (f s).attributes = s.attributes) : (modify f : Action Unit).Steady :=
  fun s => ⟨.of_eq (hc s) (ha s), fun _ _ _ => trivial⟩

theorem Steady.map {x : Action α} (f : α → β) (hx : x.Steady) : (f <$> x).Steady := by
  rw [map_eq_pure_bind]
  exact .bind hx fun _ => .pure _

/-- Reports change nothing but the log. -/
theorem Steady.ofReporting (r : Reporting α) : (Action.ofReporting r).Steady :=
  .bind (.modify (fun _ => rfl) fun _ => rfl) fun _ => .ofExcept _

/-! ## Topics -/

theorem steady_topicOfBytes (v : Value) : (topicOfBytes v).Steady := by
  refine .bind (.bytes? v) fun _ => ?_
  split
  · exact .ofExcept _
  · exact .failAs _ _

theorem steady_lacks (v : Value) (name : String) : (lacks v name : Action α).Steady := .failAs _ _

theorem steady_topicOfHex (v : Value) : (topicOfHex v).Steady := by
  refine .bind (.bytes? v) fun _ => .bind (.cellOf? v) fun _ => ?_
  split
  · exact .ofExcept _
  · split
    · exact .ofExcept _
    · exact .throw _
  · exact steady_lacks _ _
  · exact steady_lacks _ _
  · exact .failAs _ _
  · exact steady_lacks _ _
  · exact steady_lacks _ _
  · exact .throw _
  · exact .failAs _ _

theorem steady_topicOfInt (v : Value) : (topicOfInt v).Steady := by
  unfold topicOfInt
  split
  · exact .ofExcept _
  · exact .ofExcept _
  · exact steady_lacks _ _

theorem steady_asTopic (v : Value) : (asTopic v).Steady := by
  refine .bind (.bytes? v) fun _ => ?_
  split
  · exact .pure _
  · exact steady_lacks _ _
  · exact steady_lacks _ _
  · exact steady_lacks _ _

/-! ## Conditions and matchers -/

theorem steady_kindNamed (v : Value) : (kindNamed v).Steady := by
  unfold kindNamed
  split
  · exact .pure _
  · exact .bind (.inquire _) fun _ => .throw _

theorem steady_condition (kind : Value) (topics : Option Value) : (condition kind topics).Steady := by
  have hmembers : ∀ (x : Action (List Value)) (f : TopicSet → Action Value), x.Steady → (∀ topics, (f topics).Steady) →
      (x >>= fun members => memberTopics members >>= f).Steady :=
    fun x f hx hf => .bind hx fun members => .bind (Store.steady_memberTopics members) hf
  have hkind : ∀ (k : Kind) (topics : TopicSet), (do
      return Value.condition (← ofExcept (Condition.make k topics))).Steady :=
    fun k topics => .bind (.ofExcept _) fun _ => .pure _
  unfold condition
  split
  · split
    · exact hmembers _ _ (Store.steady_hashedItems _) (hkind _)
    · exact hmembers _ _ (.pure _) (hkind _)
  · split
    · exact hmembers _ _ (Store.steady_hashedItems _) fun _ => .allocate _
    · exact hmembers _ _ (.pure _) fun _ => .allocate _

theorem steady_exactCondition (vs : List Value) : (exactCondition vs).Steady :=
  .bind (.eachOf Store.steady_hashed vs) fun members => .bind (Store.steady_memberTopics members) fun _ => .ofExcept _

theorem steady_isAmong (topics : TopicSet) (v : Value) : (isAmong topics v).Steady := by
  unfold isAmong
  split
  · exact .pure _
  · exact .bind (.inquire _) fun _ => .pure _

theorem steady_memberAccepts (member v : Value) : (memberAccepts member v).Steady := by
  refine .bind (.inPlace _ _) fun _ => .bind (.cellOf? _) fun _ => ?_
  split
  · split
    · exact .pure _
    · exact steady_isAmong _ _
  · exact steady_isAmong _ _
  · exact steady_lacks _ _

theorem steady_acceptsAll (members vs : List Value) : (acceptsAll members vs).Steady := by
  induction members generalizing vs with
  | nil => exact .pure _
  | cons member members ih =>
    cases vs with
    | nil => exact .pure _
    | cons v vs =>
      refine .bind (steady_memberAccepts member v) fun b => ?_
      split
      · exact ih vs
      · exact .pure _

theorem steady_conditionsOf (matcher : Value) (need : String) : (conditionsOf matcher need).Steady := by
  refine .bind (.cellOf? _) fun _ => ?_
  split
  · exact .pure _
  · exact steady_lacks _ _

theorem steady_matchesValue (matcher topics : Value) : (matchesValue matcher topics).Steady := by
  refine .bind (.inPlace _ _) fun _ => .bind (steady_conditionsOf _ _) fun _ => ?_
  refine .bind (.length _) fun _ => .bind (.length _) fun _ => ?_
  split
  · exact .pure _
  · exact .bind (.inquire _) fun _ => .bind (.inquire _) fun _ => steady_acceptsAll _ _

theorem steady_matchesTopics (matcher : Value) (ts : List Topic) : (matchesTopics matcher ts).Steady := by
  refine .bind (.inPlace _ _) fun _ => .bind (steady_conditionsOf _ _) fun _ => .bind (.length _) fun _ => ?_
  split
  · exact .pure _
  · exact .bind (.inquire _) fun _ => steady_acceptsAll _ _

theorem steady_filterValues (matcher lists : Value) : (filterValues matcher lists).Steady := by
  refine .bind (.inPlace _ _) fun _ => .bind (steady_conditionsOf _ _) fun _ => ?_
  have heach : ∀ topics, (do return if ← matchesValue matcher topics then some topics else none).Steady :=
    fun topics => .bind (steady_matchesValue matcher topics) fun _ => .pure _
  exact .bind (.forEach heach lists) fun _ => .pure _

theorem steady_unchecked (conditions : Option Value) : (unchecked conditions).Steady := by
  have htuple : ∀ v, (asTuple v).Steady := fun v => by
    refine .bind (.cellOf? v) fun _ => ?_
    split
    · exact .pure _
    · exact .bind (.forEach .pure v) fun _ => .collect _ _
  unfold unchecked
  split
  · exact .bind (htuple _) fun _ => .allocate _
  · exact .bind (.collect _ _) fun _ => .allocate _

theorem steady_ofPayloads (conditions deriver : Value) : (ofPayloads conditions deriver).Steady :=
  .bind (.forEach (fun v => .ensures (Store.ensures_conditionOfPayloads deriver v)) conditions) Store.steady_compiled

/-! ## Hashers and derivers -/

theorem steady_standardHasher (name : Value) : (standardHasher name).Steady := by
  unfold standardHasher
  split
  · exact .bind (.ofExcept _) fun _ => .bind (.report _) fun _ => .allocate _
  · exact .bind (.inquire _) fun _ => .throw _

theorem steady_recorder (name : Text) (size : Int) (fixed : Option Bytes) : (recorder name size fixed).Steady := by
  have hrest : ∀ fixed : Option Kept, (do allocate (.recorder name size fixed.getD (← collect .list []))).Steady :=
    fun fixed => .bind (.collect _ _) fun _ => .allocate _
  unfold recorder
  split
  · exact .bind (.map _ (.fresh _)) hrest
  · exact .bind (.pure _) hrest

theorem steady_calls (hasher : Value) : (calls hasher).Steady := by
  refine .bind (.cellOf? _) fun _ => ?_
  split
  · exact .pure _
  · exact .inquire _

theorem steady_deriverOver (hasher : Value) : (deriverOver hasher).Steady := by
  have hbelow : ∀ size, (isBelowTopic size).Steady := fun size => by
    unfold isBelowTopic
    split
    · exact .pure _
    · exact .pure _
    · exact .pure _
    · exact .failAs _ _
  refine .bind (.inquire _) fun size => .bind (hbelow size) fun _ => ?_
  split
  · exact .bind (.inquire _) fun _ => .bind (.inquire _) fun _ => .bind (.inquire _) fun _ => .throw _
  · exact .allocate _

/-! ## Literals -/

theorem steady_keptUnder (name : Text) : (keptUnder name).Steady := by
  refine .bind .get fun _ => ?_
  split
  · exact .pure _
  · exact .throw _

theorem steady_notANumber : notANumber.Steady := .bind .get fun _ => .fresh _

theorem steady_conditionFrom (topics : Kept) : (conditionFrom topics).Steady := by
  refine .bind (.bind .get fun _ => .pure _) fun _ => ?_
  split
  · exact .pure _
  · exact .bind (Store.steady_conditionOn _) fun _ => .fresh _

theorem steady_repeatValue (kept : Kept) (times : Int) : (repeatValue kept times).Steady := by
  have honce : ∀ x : Action Kept, x.Steady → (if times = 1 then pure kept else x).Steady := fun x hx => by
    split
    · exact .pure _
    · exact hx
  refine .bind (.cellOf? _) fun _ => ?_
  split
  · exact honce _ (.fresh _)
  · exact honce _ (.fresh _)
  · exact .fresh _
  · exact .fresh _
  · exact .fresh _
  · dsimp only
    split
    · exact steady_notANumber
    · exact .fresh _
  · exact .bind (.collect _ _) fun _ => .fresh _
  · exact honce _ (.bind (.collect _ _) fun _ => .fresh _)
  · exact .bind (.allocate _) fun _ => .fresh _
  · exact .failAs _ _

theorem steady_collection (shape : Shape) (items : List Value) : (collection shape items).Steady := by
  have hdistinct : ∀ shape, (collectDistinct shape items).Steady := fun shape =>
    .bind (.eachOf Store.steady_hashed items) fun _ => .bind .get fun _ => .collect _ _
  unfold collection
  split
  · exact hdistinct _
  · exact hdistinct _
  · exact .collect _ _

theorem steady_mapping (keys : List Value) : (mapping keys).Steady :=
  .bind (.eachOf Store.steady_hashed keys) fun _ => .bind .get fun _ => .allocate _

mutual

/-- **Making a value keeps what is fixed**, also when it fails. -/
theorem steady_makeKept (l : Literal) : (makeKept l).Steady := by
  cases l with
  | scalar s => rw [makeKept]; exact .fresh _
  | notANumber => rw [makeKept]; exact steady_notANumber
  | view b => rw [makeKept]; exact .fresh _
  | buffer b => rw [makeKept]; exact .bind (.allocate _) fun _ => .fresh _
  | repeated l times => rw [makeKept]; exact .bind (steady_makeKept l) fun kept => steady_repeatValue kept times
  | collection shape ls =>
    rw [makeKept]
    exact .bind (steady_makeAll ls) fun items => .bind (steady_collection shape items) fun _ => .fresh _
  | dict ls => rw [makeKept]; exact .bind (steady_makeAll ls) fun keys => .bind (steady_mapping keys) fun _ => .fresh _
  | topic b => rw [makeKept]; exact .bind (.ofExcept _) fun _ => .fresh _
  | sentinel => rw [makeKept]; exact .pure _
  | kind k => rw [makeKept]; exact .fresh _
  | condition l => rw [makeKept]; exact .bind (steady_makeKept l) steady_conditionFrom
  | matcher l =>
    rw [makeKept]
    exact .bind (steady_makeKept l) fun _ => .bind (Store.steady_compile _) fun _ => .fresh _
  | hasher l => rw [makeKept]; exact .bind (steady_makeKept l) fun _ => .bind (steady_standardHasher _) fun _ => .fresh _
  | recorder name size fixed => rw [makeKept]; exact .bind (steady_recorder name size fixed) fun _ => .fresh _
  | deriver l => rw [makeKept]; exact .bind (steady_makeKept l) fun _ => .bind (steady_deriverOver _) fun _ => .fresh _
  | path t => rw [makeKept]; exact .fresh _
  | name t => rw [makeKept]; exact steady_keptUnder t

/-- …and so does making several. -/
theorem steady_makeAll (ls : List Literal) : (makeAll ls).Steady := by
  cases ls with
  | nil => rw [makeAll]; exact .pure _
  | cons l ls =>
    rw [makeAll]
    exact .bind (steady_makeKept l) fun _ => .bind (steady_makeAll ls) fun _ => .pure _

end

theorem steady_make (l : Literal) : (make l).Steady := .bind (steady_makeKept l) fun _ => .pure _

end Action

end TopicFilter
