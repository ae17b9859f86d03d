import TopicFilter.Proofs.Settings.Loading

/-!
# Proofs/Settings/Obtaining — what all settings have

Settings are obtained from fields, from a text that spells them or from a configuration file, and a file that is not
there stands for no fields. In the end they all are settings of some fields, so what these have, all settings have
(`ObtainedIn.of_gives`).
-/

namespace TopicFilter

/-! ## What computations give -/

namespace Reporting

variable {α β : Type} {P P' : α → Prop} {Q : β → Prop} {r : Reporting α}

/-- Whatever the computation comes to has a property. -/
def Gives (r : Reporting α) (P : α → Prop) : Prop := ∀ log a log', r.on log = (.ok a, log') → P a

namespace Gives

theorem pure {a : α} (h : P a) : (Pure.pure a : Reporting α).Gives P := by
  rintro log a log' hon
  cases hon
  exact h

theorem throw (fault : Fault) : (throw fault : Reporting α).Gives P := nofun

theorem ofExcept {outcome : Except Fault α} (h : ∀ a, outcome = .ok a → P a) : (Reporting.ofExcept outcome).Gives P := by
  intro log a log' hon
  rw [on_ofExcept] at hon
  exact h a (congrArg Prod.fst hon)

theorem mono (hr : r.Gives P) (h : ∀ a, P a → P' a) : r.Gives P' := fun log a log' hon => h a (hr log a log' hon)

/-- What nothing is known of. -/
theorem any (r : Reporting α) : r.Gives fun _ => True := fun _ _ _ _ => trivial

/-- What the first step gives is what the second one starts from. -/
theorem bind {f : α → Reporting β} (hr : r.Gives P) (hf : ∀ a, P a → (f a).Gives Q) : (r >>= f).Gives Q := by
  intro log b log'' hon
  rw [on_bind] at hon
  split at hon
  · next a log' ha => exact hf a (hr log a log' ha) log' b log'' hon
  · cases hon

end Gives

end Reporting

/-! ## From fields to files -/

namespace Settings

variable {e : Environment} {P : Settings → Prop}

theorem gives_ofJsonText_of_fields (h : ∀ fields, (ofFields e fields).Gives P) (t : Text) : (ofJsonText e t).Gives P := by
  unfold ofJsonText
  split
  · exact h _
  · exact .throw _
  · exact .throw _

theorem gives_ofEntry_of_fields (h : ∀ fields, (ofFields e fields).Gives P) (place : Path) (entry : Entry) :
    (ofEntry e place entry).Gives P := by
  cases entry with
  | directory => exact .throw _
  | file content =>
    have hcontent : (ofBytes e content).Gives P := by
      unfold ofBytes
      split
      · exact gives_ofJsonText_of_fields h _
      · exact .throw _
    exact .bind hcontent fun x hx => .bind (.any _) fun _ _ => .pure hx

/-- Without fields there are the defaults. -/
theorem on_ofFields_nil (e : Environment) (log : Log) : (ofFields e []).on log = (.ok (defaults e), log) := rfl

/-- Where no file is, the defaults are those of no fields. -/
theorem gives_load_of_fields (h : ∀ fields, (ofFields e fields).Gives P) (files : FileTree) (file : Option Path) :
    (load e files file).Gives P := by
  rw [load_eq]
  split
  · exact gives_ofEntry_of_fields h _ _
  · exact .throw _
  · exact .throw _
  · exact .bind (.any _) fun _ _ => .pure (h [] [] _ [] (on_ofFields_nil e []))

/-! ## Checks that pass -/

/-- If the field passed, its value has a property. -/
def Passed {α : Type} (P : α → Prop) (checked : Checked α) : Prop := ∀ a, checked = .ok a → P a

/-- Settings have what the fields that passed have. -/
theorem gives_conclude {A : Text → Prop} {D : Path → Prop} (fields : List (Text × Given)) {algorithm : Checked Text}
    {dataDir : Checked Path} (logLevel : Checked LogLevel) (ha : Passed A algorithm) (hd : Passed D dataDir) :
    (conclude fields algorithm dataDir logLevel).Gives fun x => A x.algorithm ∧ D x.dataDir := by
  unfold conclude
  split
  · exact .throw _
  · split
    · exact .pure ⟨ha _ rfl, hd _ rfl⟩
    · exact .throw _

/-- **Settings have what their fields have**, each of which was checked or is the default. -/
theorem gives_fields {A : Text → Prop} {D : Path → Prop}
    (ha : ∀ given, (checkAlgorithm given).Gives (Passed A)) (ha₀ : A (defaults e).algorithm)
    (hd : ∀ given checked, checkDataDir e given = .ok checked → Passed D checked) (hd₀ : D (defaults e).dataDir)
    (fields : List (Text × Given)) : (ofFields e fields).Gives fun x => A x.algorithm ∧ D x.dataDir := by
  have hdefault : ∀ {α : Type} {P : α → Prop} {a : α}, P a → Passed P (.ok a) := fun h a ha => by
    obtain rfl := Except.ok.inj ha
    exact h
  rw [ofFields_eq]
  refine .bind (P := Passed A) ?_ fun algorithm halgorithm => .bind (P := Passed D) ?_ fun dataDir hdataDir =>
    .bind (.any _) fun logLevel _ => gives_conclude _ _ halgorithm hdataDir
  · cases given? fields algorithmField with
    | some given => exact ha given
    | none => exact .pure (hdefault ha₀)
  · cases given? fields dataDirField with
    | some given => exact .ofExcept (hd given)
    | none => exact .pure (hdefault hd₀)

end Settings

/-! ## Ways to obtain settings -/

namespace Store

open Settings

variable {s s' : Store} {e : Environment} {x : Settings} {P : Settings → Prop}

/-- Settings that are obtained where the user is at home as `e` has it. -/
inductive ObtainedIn (e : Environment) (x : Settings) : Prop where
  /-- From fields, or from none of them. -/
  | fields {s s' : Store} {fields : List (Text × Value)} (he : s.environment = e)
    (h : (Action.settings fields).on s = (.ok x, s')) : ObtainedIn e x
  /-- From a text that spells them. -/
  | spelled {s s' : Store} {v : Value} (he : s.environment = e) (h : (Action.settingsOfJson v).on s = (.ok x, s')) :
    ObtainedIn e x
  /-- From a configuration file, or for want of one. -/
  | loaded {s s' : Store} {given : Option Value} (he : s.environment = e)
    (h : (Action.loadSettings given).on s = (.ok x, s')) : ObtainedIn e x

/-- Whether a value names a path is read off the value. -/
theorem store_on_pathOrNone (given : Option Value) (s : Store) : ((Action.pathOrNone given).on s).2 = s := by
  have hpath : ∀ v, ((Action.pathOf v).on s).2 = s := fun v => by
    unfold Action.pathOf
    split <;> rfl
  unfold Action.pathOrNone
  split
  · rfl
  · rfl
  · next v _ =>
    have hv := hpath v
    rw [Action.on_bind]
    split
    · next hon =>
      rw [hon] at hv
      exact hv
    · next hon =>
      rw [hon] at hv
      exact hv

/-- What a reporting computation gives, it gives as part of a longer one. -/
theorem of_on_ofReporting {r : Reporting Settings} (hr : r.Gives P) (h : (Action.ofReporting r).on s = (.ok x, s')) :
    P x := by
  rw [Action.on_ofReporting] at h
  have hx : (r.on []).1 = .ok x := congrArg Prod.fst h
  exact hr [] x (r.on []).2 (Prod.ext hx rfl)

/-- **What settings of fields have, all settings have**, whichever way they are obtained. -/
theorem ObtainedIn.of_gives (h : ∀ fields, (ofFields e fields).Gives P) (hx : ObtainedIn e x) : P x := by
  cases hx with
  | @fields s _ fields he hon =>
    subst he
    rw [Action.settings, Action.on_bind_ok (Action.on_get s)] at hon
    exact of_on_ofReporting (h _) hon
  | @spelled s _ v he hon =>
    subst he
    rw [Action.settingsOfJson, Action.on_bind_ok (Action.on_get s), Action.on_bind_ok (Action.on_get s)] at hon
    split at hon
    · split at hon
      · cases hon
      · exact of_on_ofReporting (gives_ofJsonText_of_fields h _) hon
    · split at hon
      · exact of_on_ofReporting (gives_ofJsonText_of_fields h _) hon
      · cases hon
    · cases hon
  | @loaded s _ given he hon =>
    subst he
    rw [Action.loadSettings] at hon
    obtain ⟨file, s₁, hpath, hload⟩ := Action.of_on_bind_ok hon
    obtain rfl : s₁ = s := by rw [← store_on_pathOrNone given s, hpath]
    rw [Action.on_bind_ok (Action.on_get s₁)] at hload
    exact of_on_ofReporting (gives_load_of_fields h _ _) hload

end Store

end TopicFilter
