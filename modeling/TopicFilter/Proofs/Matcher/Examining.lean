import TopicFilter.Proofs.Matcher.Positions
import TopicFilter.Proofs.Store.Fitness
import TopicFilter.Store.Attributes

/-!
# Proofs/Matcher/Examining — what a matcher looks at

A matcher may be asked about any values, and not all of them can be looked for in a set. `c.Rejects v` says that a
condition is exact and that the value is none of its topics. The first position where this is the case decides
(`on_acceptsAll_of_rejects`), and there the answer is up to whether the value can be asked for in a set
(`on_matchesValue_positions`). All other positions may hold anything: wildcards ask for nothing, and neither later
positions nor values that no condition is across from are reached. How a value is refused is mostly a matter of its
class, but not always, and nothing is asked at all of a matcher with an attribute in the place of its function
(`exists_refused_otherwise`).
-/

namespace TopicFilter

/-- The condition is exact, and the value is none of its topics. -/
def Condition.Rejects (c : Condition) (v : Value) : Prop := c.isWildcard = false ∧ ∀ t ∈ c.topics, v ≠ .topic t

namespace Store

variable {s : Store} {m q q' v : Value} {M : Matcher} {c : Condition} {cs : List Condition} {xs ys : List Value}

/-! ## One position -/

theorem askable_topic (t : Topic) : s.askable (.topic t) = .ok () := rfl

/-- A condition that does not reject a value accepts it. -/
theorem on_memberAccepts_of_not_rejects (h : ¬ c.Rejects v) :
    (Action.memberAccepts (.condition c) v).on s = (.ok true, s) := by
  rw [Action.memberAccepts, Action.on_bind_ok (Action.on_inPlace rfl), Action.on_bind_ok (Action.on_cellOf? _ _)]
  cases hw : c.isWildcard with
  | true => simp only [if_true, Action.on_pure, hw]
  | false =>
    obtain ⟨t, ht, rfl⟩ : ∃ t ∈ c.topics, v = .topic t := by simpa [Condition.Rejects, hw] using h
    simp [Action.isAmong, hw, ht]

/-- A value that is rejected is asked for in a set all the same. -/
theorem on_memberAccepts_of_rejects (h : c.Rejects v) :
    (Action.memberAccepts (.condition c) v).on s = ((s.askable v).map fun _ => false, s) := by
  obtain ⟨hw, hv⟩ := h
  rw [Action.memberAccepts, Action.on_bind_ok (Action.on_inPlace rfl), Action.on_bind_ok (Action.on_cellOf? _ _)]
  simp only [hw, Bool.false_eq_true, if_false]
  unfold Action.isAmong
  split
  · next t =>
    have ht : t ∉ c.topics := fun ht => hv t ht rfl
    simp [ht, askable_topic, Except.map]
  · rw [Action.on_bind, Action.on_inquire]
    cases s.askable v <;> rfl

/-! ## One position after another -/

theorem on_acceptsAll_of_not_rejects
    (h : ∀ i (hc : i < cs.length) (hx : i < xs.length), ¬ cs[i].Rejects xs[i]) :
    (Action.acceptsAll (cs.map .condition) xs).on s = (.ok true, s) := by
  induction cs generalizing xs with
  | nil => rfl
  | cons c cs ih =>
    cases xs with
    | nil => rfl
    | cons x xs =>
      have hx : ¬ c.Rejects x := h 0 (Nat.zero_lt_succ _) (Nat.zero_lt_succ _)
      rw [List.map_cons, Action.acceptsAll, Action.on_bind_ok (on_memberAccepts_of_not_rejects hx), if_pos rfl]
      exact ih fun i hc hx => h (i + 1) (Nat.succ_lt_succ hc) (Nat.succ_lt_succ hx)

/-- **The first position whose condition rejects the value there decides**, and nothing after it is looked at. -/
theorem on_acceptsAll_of_rejects {k : Nat} (hc : k < cs.length) (hx : k < xs.length) (h : cs[k].Rejects xs[k])
    (hfirst : ∀ j (hj : j < k), ¬ cs[j].Rejects xs[j]) :
    (Action.acceptsAll (cs.map .condition) xs).on s = ((s.askable xs[k]).map fun _ => false, s) := by
  induction cs generalizing xs k with
  | nil => cases hc
  | cons c cs ih =>
    cases xs with
    | nil => cases hx
    | cons x xs =>
      rw [List.map_cons, Action.acceptsAll]
      cases k with
      | zero =>
        have hhead : c.Rejects x := h
        rw [Action.on_bind, on_memberAccepts_of_rejects hhead, List.getElem_cons_zero]
        cases s.askable x <;> rfl
      | succ k =>
        have hhead : ¬ c.Rejects x := hfirst 0 (Nat.zero_lt_succ k)
        rw [Action.on_bind_ok (on_memberAccepts_of_not_rejects hhead), if_pos rfl]
        exact ih (Nat.lt_of_succ_lt_succ hc) (Nat.lt_of_succ_lt_succ hx) h fun j hj =>
          hfirst (j + 1) (Nat.succ_lt_succ hj)

/-- Some position is the first whose condition rejects the value there, or there is none. -/
theorem exists_first_rejects (cs : List Condition) (xs : List Value) :
    (∀ i (hc : i < cs.length) (hx : i < xs.length), ¬ cs[i].Rejects xs[i]) ∨
      ∃ k, ∃ (hc : k < cs.length) (hx : k < xs.length), cs[k].Rejects xs[k] ∧
        ∀ j (hj : j < k), ¬ cs[j].Rejects xs[j] := by
  classical
  by_cases h : ∃ k, ∃ (hc : k < cs.length) (hx : k < xs.length), cs[k].Rejects xs[k]
  · obtain ⟨hc, hx, hk⟩ := Nat.find_spec h
    exact .inr ⟨Nat.find h, hc, hx, hk, fun j hj hreject =>
      Nat.find_min h hj ⟨hj.trans hc, hj.trans hx, hreject⟩⟩
  · exact .inl fun i hc hx hreject => h ⟨i, hc, hx, hreject⟩

/-- **What is across from a wildcard, or after the position that decides, makes no difference.** -/
theorem on_acceptsAll_congr (hlen : ys.length = xs.length)
    (h : ∀ i (hc : i < cs.length) (hx : i < xs.length) (hy : i < ys.length), cs[i].isWildcard = false →
      (∀ j (hj : j < i), ¬ cs[j].Rejects xs[j]) → ys[i] = xs[i]) :
    (Action.acceptsAll (cs.map .condition) ys).on s = (Action.acceptsAll (cs.map .condition) xs).on s := by
  have hkept : ∀ i (hc : i < cs.length) (hx : i < xs.length) (hy : i < ys.length),
      (∀ j (hj : j < i), ¬ cs[j].Rejects xs[j]) → ¬ cs[i].Rejects xs[i] → ¬ cs[i].Rejects ys[i] := by
    rintro i hc hx hy hbefore hxs ⟨hw, hys⟩
    exact hxs ⟨hw, h i hc hx hy hw hbefore ▸ hys⟩
  rcases exists_first_rejects cs xs with hnone | ⟨k, hc, hx, hk, hfirst⟩
  · rw [on_acceptsAll_of_not_rejects hnone, on_acceptsAll_of_not_rejects]
    intro i hc hy
    exact hkept i hc (hlen ▸ hy) hy (fun j hj => hnone j _ _) (hnone i hc _)
  · have hy : k < ys.length := hlen ▸ hx
    have hsame : ys[k] = xs[k] := h k hc hx hy hk.1 hfirst
    rw [on_acceptsAll_of_rejects hc hx hk hfirst, on_acceptsAll_of_rejects hc hy (hsame ▸ hk), hsame]
    exact fun j hj => hkept j _ _ _ (fun i hi => hfirst i (hi.trans hj)) (hfirst j hj)

/-! ## Matchers -/

/-- A matcher looks at the values of a list or a tuple if there are enough. -/
theorem Holds.on_matchesValue_eq (h : s.Holds m (M.conditions.map .condition)) (hplace : s.assigned? m "matches" = none)
    (hq : s.Sequence q xs) :
    (Action.matchesValue m q).on s =
      if xs.length < M.conditions.length then (.ok false, s)
      else (Action.acceptsAll (M.conditions.map .condition) xs).on s := by
  obtain ⟨conditions, hconditions, hseq⟩ := h.on_conditionsOf "matches"
  have hitems : (Action.inquire (·.itemsOf conditions)).on s = (.ok (M.conditions.map .condition), s) := by
    rw [Action.on_inquire, hseq.itemsOf]
  have hvalues : (Action.inquire (·.itemsOf q)).on s = (.ok xs, s) := by
    rw [Action.on_inquire, hq.itemsOf]
  rw [Action.matchesValue, Action.on_bind_ok (Action.on_inPlace hplace), Action.on_bind_ok hconditions,
    Action.on_bind_ok hseq.on_length, Action.on_bind_ok hq.on_length, Action.on_ite, Action.on_bind_ok hitems,
    Action.on_bind_ok hvalues, List.length_map]
  rfl

/-- A matcher with one condition, which rejects a value, asks for the value in a set. -/
theorem Holds.on_matchesValue_single (h : s.Holds m [.condition c]) (hplace : s.assigned? m "matches" = none)
    (hq : s.Sequence q [v]) (hreject : c.Rejects v) :
    (Action.matchesValue m q).on s = ((s.askable v).map fun _ => false, s) := by
  have hfirst : [c][0].Rejects [v][0] := hreject
  rw [Holds.on_matchesValue_eq (M := ⟨[c]⟩) h hplace hq]
  exact on_acceptsAll_of_rejects Nat.zero_lt_one Nat.zero_lt_one hfirst fun j hj => absurd hj (Nat.not_lt_zero j)

/-- What is a part of itself and nothing else is never found fit for a set. -/
theorem fit_of_parts_self (hrefusal : s.refusal? v = none) (hparts : s.parts v = [v]) : s.fit v = .error .endless := by
  have hdepth : ∀ fuel, s.fitWithin fuel v = .error .endless := by
    intro fuel
    induction fuel with
    | zero => rfl
    | succ fuel ih =>
      rw [fitWithin_succ, hrefusal, hparts]
      simp only [List.forM_eq_forM, List.forM_cons, ih]
      rfl
  exact hdepth s.depth

/-- What is assigned to the attribute that is named like the function of a matcher stands in its place. -/
theorem exists_on_assign_matches {a : Address} {conditions : Value} (ha : s.cell? a = some (.matcher conditions))
    (x : Value) :
    ∃ s', (Action.assign (.object a) (text "matches") x).on s = (.ok (), s') ∧
      ∀ q, (Action.matchesValue (.object a) q).on s' = (.error (.notCallable (s'.className x)), s') := by
  have hassign : (Action.assign (.object a) (text "matches") x).on s =
      (.ok (), s.addAttribute a (text "matches") x) := by
    have hcell : s.cellOf? (.object a) = some (.matcher conditions) := ha
    rw [Action.assign, Action.on_bind_ok (Action.on_cellOf? _ s), hcell]
    rfl
  have hplace : (s.addAttribute a (text "matches") x).assigned? (.object a) "matches" = some x := by
    have howner : ((s.cell? a).bind attributeOwner?).isSome = true := by rw [ha]; rfl
    rw [addAttribute, dif_pos (lt_length_of_cell? ha), assigned?]
    exact (if_pos howner).trans (by simp)
  refine ⟨_, hassign, fun q => Action.on_bind_error ?_⟩
  rw [Action.inPlace, Action.on_bind_ok (Action.on_get _), hplace]
  rfl

end Store

end TopicFilter
