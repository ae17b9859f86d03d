import TopicFilter.Proofs.Session.Making
import TopicFilter.Session

/-!
# Proofs/Session/Performing — operations keep what is fixed

Of all operations only the assignment of an attribute can change something fixed. Every other one keeps it, whatever it
comes to and also when it fails (`steady_perform`); so does keeping its outcome under a name (`steady_keep`).
-/

namespace TopicFilter

/-- The operation assigns an attribute. -/
def Operation.isAssignment : Operation → Bool
  | .assign .. => true
  | _ => false

namespace Action

variable {α β : Type}

/-! ## Collections that change

Each change leaves a cell of the same class, and so does whatever is asked before the change is made. -/

/-- A cell that is made to be changed still is one of its class after a computation that keeps what is fixed. -/
theorem Ensures.setCell_of_keeps {s s' : Store} {a : Address} {c d : Cell} (hk : s.Keeps s')
    (hc : s.cell? a = some c) (hm : Store.isMutable c = true) (hd : Store.cellClassName d = Store.cellClassName c) :
    (Action.setCell a d).Ensures s' fun _ _ => True := by
  obtain ⟨c', hc', hclass⟩ := hk.sameClass hc
  exact .setCell hc' ((Store.isMutable_congr hclass).trans hm) (hd.trans hclass.symm)

theorem steady_addMember (target item : Value) : (addMember target item).Steady := by
  intro s
  refine .bind (.cellOf? target) fun c s₁ _ hc => ?_
  split
  · next a items =>
    refine .bind (Store.steady_hashed item s₁) fun item s₂ hk₂ _ => .bind (Steady.get s₂) fun _ s₃ hk₃ _ => ?_
    split
    · exact .pure trivial
    · exact .setCell_of_keeps (hk₂.trans hk₃) (show s₁.cell? a = _ from hc) rfl rfl
  · exact .failAs

theorem steady_discardMember (target item : Value) : (discardMember target item).Steady := by
  intro s
  refine .bind (.cellOf? target) fun c s₁ _ hc => ?_
  split
  · next a items =>
    refine .bind (.inquire _) fun _ s₂ hk₂ _ => .bind (Steady.get s₂) fun _ s₃ hk₃ _ => ?_
    exact .setCell_of_keeps (hk₂.trans hk₃) (show s₁.cell? a = _ from hc) rfl rfl
  · exact .failAs

theorem steady_indexNumber (owner : String) (v : Value) : (indexNumber owner v).Steady := by
  unfold indexNumber indexWidth
  split
  · split
    · exact .throw _
    · exact .pure _
  · exact .failAs _ _

theorem steady_position (what : String) (n : Nat) (i : Int) : (position what n i).Steady := by
  unfold position
  dsimp only
  generalize (if i < 0 then i + n else i) = k
  split
  · exact .pure _
  · exact .throw _

theorem steady_refuseItem (target index : Value) : (refuseItem target index).Steady := by
  have hwidth : ∀ i, (indexWidth i).Steady := fun i => by
    unfold indexWidth
    split
    · exact .throw _
    · exact .pure _
  refine .bind (.cellOf? _) fun _ => ?_
  split
  any_goals exact .failAs _ _
  exact .bind (hwidth _) fun _ => .failAs _ _

theorem steady_put (target index item : Value) : (put target index item).Steady := by
  intro s
  refine .bind (.cellOf? target) fun c s₁ _ hc => ?_
  split
  · next a items =>
    refine .bind (steady_indexNumber _ _ s₁) fun _ s₂ hk₂ _ => .bind (steady_position _ _ _ s₂) fun _ s₃ hk₃ _ => ?_
    exact .setCell_of_keeps (hk₂.trans hk₃) (show s₁.cell? a = _ from hc) rfl rfl
  · next a b =>
    refine .bind (steady_indexNumber _ _ s₁) fun _ s₂ hk₂ _ => .bind (steady_bufferByte _ s₂) fun _ s₃ hk₃ _ => ?_
    refine .bind (steady_position _ _ _ s₃) fun _ s₄ hk₄ _ => ?_
    exact .setCell_of_keeps ((hk₂.trans hk₃).trans hk₄) (show s₁.cell? a = _ from hc) rfl rfl
  · next a entries =>
    refine .bind (Store.steady_hashed _ s₁) fun _ s₂ hk₂ _ => .bind (Steady.get s₂) fun _ s₃ hk₃ _ => ?_
    exact .setCell_of_keeps (hk₂.trans hk₃) (show s₁.cell? a = _ from hc) rfl rfl
  · exact .throw
  · exact steady_refuseItem _ _ s₁

/-! ## Frames -/

theorem steady_frameOf (drafts : List Frame.Draft) : (frameOf drafts).Steady := by
  refine .bind (.ofExcept _) fun _ => ?_
  split
  · exact .pure _
  · exact .throw _

theorem steady_columnName (v : Value) : (columnName v).Steady := by
  unfold columnName
  split
  · exact .ofExcept _
  · exact .failAs _ _

theorem steady_columnNameOr (default : Text) (v : Option Value) : (columnNameOr default v).Steady := by
  unfold columnNameOr
  split
  · exact steady_columnName _
  · exact .pure _

theorem steady_ready {tool : Action α} (f : Frame) (column : Text) (counts : Datum → Bool) (ht : tool.Steady) :
    (ready f column counts tool).Steady := by
  unfold ready
  split
  · exact .map _ ht
  · exact .pure _

theorem steady_withColumn {build : Text → Action Frame} (name : Except Fault Text) (hb : ∀ t, (build t).Steady) :
    (withColumn name build).Steady := .bind (hb _) fun _ => .bind (.ofExcept _) fun _ => .pure _

theorem steady_lift (e : Except Fault α) : (Frame.lift e : Action α).Steady := by
  cases e with
  | error fault => exact .throw fault
  | ok a => exact .pure a

theorem steady_forRows {row : α → Action β} (hrow : ∀ v, (row v).Steady) (vs : List α) :
    (Frame.forRows row vs).Steady := by
  induction vs with
  | nil => exact .pure _
  | cons v vs ih => exact .bind (hrow v) fun _ => .bind ih fun _ => .pure _

theorem steady_getColumn (f : Frame) (name : Text) : (f.getColumn name : Action _).Steady := by
  unfold Frame.getColumn
  split
  · exact .pure _
  · exact .throw _

theorem steady_marks {accepts : List Topic → Action Bool} (ha : ∀ ts, (accepts ts).Steady) (column : Text)
    (f : Frame) : (f.marks accepts column).Steady := by
  have hrow : ∀ v, (Frame.matchRow accepts v).Steady := fun v => .bind (steady_lift _) ha
  exact .bind (steady_getColumn f column) fun _ => .bind (steady_forRows hrow _) fun _ => .pure _

theorem steady_deriveColumn (f : Frame) (source : Value) (target : Option Value) (deriver : Value) :
    (deriveColumn f source target deriver).Steady := by
  have hderives : (derives deriver).Steady := by
    refine .bind .get fun _ => ?_
    split
    · exact .pure _
    · exact .map _ (.inquire _)
  have hrow : ∀ v, (Frame.deriveRow (fun p => derive deriver (payloadValue p)) v).Steady := fun v => by
    refine .bind (steady_lift _) fun _ => ?_
    split
    · exact .pure _
    · exact .map _ (steady_derive _ _)
  refine .bind (steady_columnName source) fun name => .bind (steady_ready f name _ hderives) fun _ => ?_
  refine steady_withColumn _ fun t => .bind (steady_getColumn f name) fun _ => ?_
  exact .bind (steady_forRows hrow _) fun _ => .pure _

theorem steady_hasFunction (matcher : Value) (name : String) : (hasFunction matcher name).Steady := by
  refine .bind .get fun _ => ?_
  split
  · exact .pure _
  · exact .map _ (steady_conditionsOf _ _)

theorem steady_matchColumn (f : Frame) (matcher : Value) (column target : Option Value) :
    (matchColumn f matcher column target).Steady := by
  refine .bind (steady_columnNameOr _ column) fun name => ?_
  refine .bind (steady_ready f name _ (steady_hasFunction matcher _)) fun _ => steady_withColumn _ fun t => ?_
  exact .bind (steady_marks (steady_matchesTopics matcher) name f) fun _ => .pure _

theorem steady_keepMatching (f : Frame) (matcher : Value) (column : Option Value) :
    (keepMatching f matcher column).Steady := by
  refine .bind (steady_columnNameOr _ column) fun name => ?_
  refine .bind (steady_ready f name _ (steady_hasFunction matcher _)) fun _ => ?_
  refine .bind (.bind (steady_marks (steady_matchesTopics matcher) name f) fun _ => .pure _) fun _ => ?_
  exact .bind (.inquire _) fun _ => .bind (.report _) fun _ => .pure _

/-! ## Settings and paths -/

theorem steady_pathOf (v : Value) : (pathOf v).Steady := by
  unfold pathOf
  split
  · exact .pure _
  · exact .pure _
  · exact .failAs _ _
  · exact .failAs _ _

theorem steady_pathOrNone (v : Option Value) : (pathOrNone v).Steady := by
  unfold pathOrNone
  split
  · exact .pure _
  · exact .pure _
  · exact .bind (steady_pathOf _) fun _ => .pure _

theorem steady_anchor (dir file : Value) : (anchor dir file).Steady := by
  refine .bind (steady_pathOf file) fun _ => ?_
  split
  · exact .pure _
  · exact .bind (steady_pathOf dir) fun _ => .pure _

theorem steady_asSettings (v : Value) (need : String) : (asSettings v need).Steady := by
  unfold asSettings
  split
  · exact .pure _
  · exact steady_lacks _ _

theorem steady_settings (fields : List (Text × Value)) : (settings fields).Steady :=
  .bind .get fun _ => .ofReporting _

theorem steady_settingsOfJson (v : Value) : (settingsOfJson v).Steady := by
  refine .bind .get fun _ => .bind .get fun _ => ?_
  split
  · split
    · exact .throw _
    · exact .ofReporting _
  · split
    · exact .ofReporting _
    · exact .throw _
  · exact .throw _

theorem steady_loadSettings (path : Option Value) : (loadSettings path).Steady :=
  .bind (steady_pathOrNone path) fun _ => .bind .get fun _ => .ofReporting _

theorem steady_buildDeriver (s : Settings) : (buildDeriver s).Steady :=
  .bind (steady_standardHasher _) steady_deriverOver

theorem steady_configureLogging (s : Settings) : (configureLogging s).Steady :=
  .bind (.modify (fun _ => rfl) fun _ => rfl) fun _ => .bind .get fun _ => .pure _

/-! ## Operations -/

theorem steady_makeOption (l : Option Literal) : (makeOption l).Steady := by
  cases l with
  | none => exact .pure _
  | some l => exact .bind (steady_make l) fun _ => .pure _

theorem steady_makeFields (fields : List (Text × Literal)) : (makeFields fields).Steady := by
  induction fields with
  | nil => exact .pure _
  | cons field fields ih => exact .bind (steady_make field.2) fun _ => .bind ih fun _ => .pure _

theorem steady_answer (v : Value) : (answer v).Steady := .bind (.fresh v) fun _ => .pure _

theorem steady_answerList (vs : List Value) : (answerList vs).Steady := .bind (.collect _ _) steady_answer

/-- **An operation keeps what is fixed**, unless it assigns an attribute. -/
theorem steady_perform (op : Operation) (h : op.isAssignment = false) : (perform op).Steady := by
  cases op with
  | assign => cases h
  | evaluate l => exact .bind (steady_makeKept l) fun _ => .pure _
  | constants => exact steady_answerList _
  | compare a b => exact .bind (steady_make a) fun _ => .bind (steady_make b) fun _ => .bind (.inquire _) fun _ => .pure _
  | compareHashes a b =>
    refine .bind (steady_make a) fun _ => .bind (steady_make b) fun _ => .bind (Store.steady_hashed _) fun _ => ?_
    exact .bind (Store.steady_hashed _) fun _ => .bind .get fun _ => steady_answer _
  | same a b =>
    exact .bind (steady_makeKept a) fun _ => .bind (steady_makeKept b) fun _ => .bind .get fun _ => steady_answer _
  | countDistinct items =>
    exact .bind (steady_make items) fun _ => .bind (Store.steady_hashedItems _) fun _ => .bind .get fun _ => steady_answer _
  | length v => exact .bind (steady_make v) fun _ => .bind (.length _) fun _ => steady_answer _
  | quoted v => exact .bind (steady_make v) fun _ => .bind (.inquire _) fun _ => steady_answer _
  | isWildcard v => exact .bind (steady_make v) fun _ => .bind (.inquire _) fun _ => steady_answer _
  | addMember target item =>
    exact .bind (steady_make target) fun _ => .bind (steady_make item) fun _ => .bind (steady_addMember _ _) fun _ =>
      steady_answer _
  | discardMember target item =>
    exact .bind (steady_make target) fun _ => .bind (steady_make item) fun _ => .bind (steady_discardMember _ _) fun _ =>
      steady_answer _
  | append target item =>
    exact .bind (steady_make target) fun _ => .bind (steady_make item) fun _ => .bind (steady_append _ _) fun _ =>
      steady_answer _
  | put target index item =>
    refine .bind (steady_make target) fun _ => .bind (steady_make index) fun _ => .bind (steady_make item) fun _ => ?_
    exact .bind (steady_put _ _ _) fun _ => steady_answer _
  | topic v => exact .bind (steady_make v) fun _ => .bind (steady_topicOfBytes _) fun _ => steady_answer _
  | topicOfDigest v => exact .bind (steady_make v) fun _ => .bind (steady_topicOfDigest _) fun _ => steady_answer _
  | topicOfHex v => exact .bind (steady_make v) fun _ => .bind (steady_topicOfHex _) fun _ => steady_answer _
  | topicOfInt v => exact .bind (steady_make v) fun _ => .bind (steady_topicOfInt _) fun _ => steady_answer _
  | describeTopic v => exact .bind (steady_make v) fun _ => .bind (steady_asTopic _) fun _ => .pure _
  | kindName v => exact .bind (steady_make v) fun _ => .bind (steady_kindNamed _) fun _ => steady_answer _
  | condition kind topics =>
    exact .bind (steady_make kind) fun _ => .bind (steady_makeOption topics) fun _ => .bind (steady_condition _ _) fun _ =>
      steady_answer _
  | anyCondition => exact steady_answer _
  | exactCondition topics =>
    exact .bind (steady_makeAll topics) fun _ => .bind (steady_exactCondition _) fun _ => steady_answer _
  | conditionOf topics => exact .bind (steady_makeKept topics) fun _ => .bind (steady_conditionFrom _) fun _ => .pure _
  | accepts c topic =>
    exact .bind (steady_make c) fun _ => .bind (steady_make topic) fun _ => .bind (steady_memberAccepts _ _) fun _ =>
      steady_answer _
  | matcher conditions =>
    exact .bind (steady_makeOption conditions) fun _ => .bind (steady_unchecked _) fun _ => steady_answer _
  | compile conditions =>
    exact .bind (steady_make conditions) fun _ => .bind (Store.steady_compile _) fun _ => steady_answer _
  | ofPayloads conditions deriver =>
    exact .bind (steady_make conditions) fun _ => .bind (steady_makeOption deriver) fun _ =>
      .bind (steady_ofPayloads _ _) fun _ => steady_answer _
  | conditions m => exact .bind (steady_make m) fun _ => .bind (steady_conditionsOf _ _) fun _ => steady_answer _
  | matchTopics m topics =>
    exact .bind (steady_make m) fun _ => .bind (steady_make topics) fun _ => .bind (steady_matchesValue _ _) fun _ =>
      steady_answer _
  | matchEach m lists =>
    exact .bind (steady_make m) fun _ => .bind (steady_make lists) fun _ =>
      .bind (.forEach (steady_matchesValue _) _) fun _ => steady_answerList _
  | filter m lists =>
    exact .bind (steady_make m) fun _ => .bind (steady_make lists) fun _ => .bind (steady_filterValues _ _) fun _ =>
      steady_answerList _
  | matchCompiled conditions topics =>
    exact .bind (steady_make conditions) fun _ => .bind (steady_make topics) fun _ =>
      .bind (Store.steady_compile _) fun _ => .bind (steady_matchesValue _ _) fun _ => steady_answer _
  | hasher hasher => exact .bind (steady_makeKept hasher) fun _ => .pure _
  | deriver deriver => exact .bind (steady_makeKept deriver) fun _ => .pure _
  | digest hasher data =>
    exact .bind (steady_make hasher) fun _ => .bind (steady_makeKept data) fun _ => .bind (steady_digest _ _) fun _ =>
      .pure _
  | calls hasher => exact .bind (steady_make hasher) fun _ => .bind (steady_calls _) fun _ => steady_answer _
  | standardDeriver => exact .bind (.fresh _) fun _ => .pure _
  | derive deriver data =>
    exact .bind (steady_makeOption deriver) fun _ => .bind (steady_make data) fun _ => .bind (steady_derive _ _) fun _ =>
      steady_answer _
  | deriveMany deriver items =>
    exact .bind (steady_makeOption deriver) fun _ => .bind (steady_make items) fun _ =>
      .bind (steady_deriveMany _ _) fun _ => steady_answerList _
  | deriveEach items =>
    exact .bind (steady_makeAll items) fun _ => .bind (.eachOf (steady_derive _) _) fun _ => steady_answerList _
  | deriveColumn drafts source target deriver =>
    refine .bind (steady_frameOf drafts) fun _ => .bind (steady_make source) fun _ => ?_
    refine .bind (steady_makeOption target) fun _ => .bind (steady_makeOption deriver) fun _ => ?_
    exact .bind (steady_deriveColumn _ _ _ _) fun _ => .pure _
  | matchColumn drafts m column target =>
    refine .bind (steady_frameOf drafts) fun _ => .bind (steady_make m) fun _ => ?_
    refine .bind (steady_makeOption column) fun _ => .bind (steady_makeOption target) fun _ => ?_
    exact .bind (steady_matchColumn _ _ _ _) fun _ => .pure _
  | keepMatching drafts m column =>
    refine .bind (steady_frameOf drafts) fun _ => .bind (steady_make m) fun _ => ?_
    exact .bind (steady_makeOption column) fun _ => .bind (steady_keepMatching _ _ _) fun _ => .pure _
  | setEnvironment e => exact .bind (.modify (fun _ => rfl) fun _ => rfl) fun _ => steady_answer _
  | changeFiles changes => exact .bind (.modify (fun _ => rfl) fun _ => rfl) fun _ => steady_answer _
  | homeDir => exact .bind .get fun _ => steady_answer _
  | defaultDataDir => exact .bind .get fun _ => steady_answer _
  | anchor dir file =>
    exact .bind (steady_make dir) fun _ => .bind (steady_make file) fun _ => .bind (steady_anchor _ _) fun _ =>
      steady_answer _
  | settings fields => exact .bind (steady_makeFields fields) fun _ => .bind (steady_settings _) fun _ => steady_answer _
  | settingsOfJson source =>
    exact .bind (steady_make source) fun _ => .bind (steady_settingsOfJson _) fun _ => steady_answer _
  | loadSettings path =>
    exact .bind (steady_makeOption path) fun _ => .bind (steady_loadSettings _) fun _ => steady_answer _
  | resolvePath s file =>
    refine .bind (steady_make s) fun _ => .bind (steady_make file) fun _ => .bind (steady_asSettings _ _) fun _ => ?_
    exact .bind (steady_pathOf _) fun _ => steady_answer _
  | buildDeriver s =>
    refine .bind (steady_make s) fun _ => .bind (steady_asSettings _ _) fun _ => ?_
    exact .bind (steady_buildDeriver _) fun _ => .bind (.fresh _) fun _ => .pure _
  | configureLogging s =>
    exact .bind (steady_make s) fun _ => .bind (steady_asSettings _ _) fun _ => .bind (steady_configureLogging _) fun _ =>
      .pure _
  | runBatchDemo config =>
    refine .bind (steady_makeOption config) fun _ => .bind (steady_pathOrNone _) fun _ => .bind .get fun _ => ?_
    refine .bind (.ofReporting _) fun _ => .bind (.modify (fun _ => rfl) fun _ => rfl) fun _ => ?_
    exact steady_answerList _
  | runRoutingDemo => exact .bind (.ofReporting _) fun _ => steady_answerList _

/-- **Keeping an outcome under a name keeps what is fixed.** -/
theorem steady_keep (name : Option Text) (outcome : Outcome) : (keep name outcome).Steady := by
  have hrecord : ∀ fields, (do return some (← fresh (← record fields))).Steady := fun fields =>
    .bind (.allocate _) fun _ => .bind (.fresh _) fun _ => .pure _
  have hkeepable : (keepable? outcome).Steady := by
    unfold keepable?
    split
    · exact .pure _
    · exact .pure _
    · exact .pure _
    · exact hrecord _
    · exact hrecord _
    · exact .bind (.collect _ _) fun _ => hrecord _
    · exact .pure _
  unfold keep
  split
  · exact .pure _
  · refine .bind hkeepable fun kept => ?_
    split
    · exact .modify (fun _ => rfl) fun _ => rfl
    · exact .pure _

end Action

end TopicFilter
