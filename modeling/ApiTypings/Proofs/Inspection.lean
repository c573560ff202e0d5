/-
Inspections only append.

A type is built under a collector, but nothing that builds one looks at what has been
collected.  `Appends` says so: one result and one list of findings, whatever the collector
held before.  For such a computation the result alone can be spoken of, as `value`, and
composing computations composes their values, so that the collector can be left out wherever
only types matter.
-/
import Mathlib
import ApiTypings.Warning

namespace ApiTypings

/-- The findings with a warning for each of the counts, at the place that is being inspected. -/
def Findings.adding (findings : Findings) (counts : List Nat) : Findings :=
  { findings with warnings := findings.warnings ++ counts.map (Warning.mk findings.location) }

theorem Findings.adding_nil (findings : Findings) : findings.adding [] = findings := by
  simp [Findings.adding]

theorem Findings.adding_adding (findings : Findings) (first second : List Nat) :
    (findings.adding first).adding second = findings.adding (first ++ second) := by
  simp [Findings.adding]

namespace Inspect

variable {α β : Type}

/-- The computation gives `value` and adds `counts`, whatever was found before. -/
def Gives (inspect : Inspect α) (value : α) (counts : List Nat) : Prop :=
  ∀ findings, inspect.run findings = (value, findings.adding counts)

/-- What the computation gives and adds does not depend on what was found before. -/
def Appends (inspect : Inspect α) : Prop := ∃ value counts, Gives inspect value counts

/-- What the computation gives to an empty collector. -/
def value (inspect : Inspect α) : α := (inspect.run ⟨"", []⟩).1

/-- What the computation adds to an empty collector. -/
def counts (inspect : Inspect α) : List Nat :=
  (inspect.run ⟨"", []⟩).2.warnings.map Warning.members

theorem Gives.value_eq {inspect : Inspect α} {result : α} {found : List Nat}
    (h : Gives inspect result found) : inspect.value = result := by
  rw [value, h]

theorem Gives.counts_eq {inspect : Inspect α} {result : α} {found : List Nat}
    (h : Gives inspect result found) : inspect.counts = found := by
  rw [counts, h]
  simp [Findings.adding, Function.comp_def]

theorem Appends.gives {inspect : Inspect α} (h : Appends inspect) :
    Gives inspect inspect.value inspect.counts := by
  obtain ⟨result, found, hgives⟩ := h
  rw [hgives.value_eq, hgives.counts_eq]
  exact hgives

/-- A run at a place gives the value, and the findings with the place. -/
theorem Appends.runAt_eq {inspect : Inspect α} (h : Appends inspect) (location : String) :
    runAt location inspect = (inspect.value, inspect.counts.map (Warning.mk location)) := by
  rw [runAt, h.gives]
  simp [Findings.adding]

/-! ### Composition -/

theorem gives_pure (result : α) : Gives (pure result) result [] := by
  intro findings
  rw [Findings.adding_nil]
  rfl

theorem Gives.bind {inspect : Inspect α} {next : α → Inspect β} {first : α} {second : β}
    {found later : List Nat} (h : Gives inspect first found)
    (hnext : Gives (next first) second later) :
    Gives (inspect >>= next) second (found ++ later) := by
  intro findings
  rw [StateT.run_bind, h]
  show (next first).run _ = _
  rw [hnext, Findings.adding_adding]

theorem appends_pure (result : α) : Appends (pure result) := ⟨result, [], gives_pure result⟩

theorem appends_warn (members : Nat) : Appends (warn members) := ⟨(), [members], fun _ => rfl⟩

theorem Appends.bind {inspect : Inspect α} {next : α → Inspect β} (h : Appends inspect)
    (hnext : Appends (next inspect.value)) : Appends (inspect >>= next) :=
  ⟨_, _, h.gives.bind hnext.gives⟩

theorem Appends.bindPure {inspect : Inspect α} (h : Appends inspect) (f : α → β) :
    Appends (inspect >>= fun result => pure (f result)) :=
  h.bind (appends_pure _)

theorem Appends.map {inspect : Inspect α} (h : Appends inspect) (f : α → β) :
    Appends (f <$> inspect) := by
  rw [map_eq_pure_bind]
  exact h.bindPure f

@[simp]
theorem value_pure (result : α) : value (pure result) = result := rfl

theorem Appends.value_bind {inspect : Inspect α} {next : α → Inspect β} (h : Appends inspect)
    (hnext : Appends (next inspect.value)) :
    (inspect >>= next).value = (next inspect.value).value :=
  (h.gives.bind hnext.gives).value_eq

@[simp]
theorem value_bindPure (inspect : Inspect α) (f : α → β) :
    (inspect >>= fun result => pure (f result)).value = f inspect.value := rfl

@[simp]
theorem value_map (inspect : Inspect α) (f : α → β) : (f <$> inspect).value = f inspect.value := rfl

@[simp]
theorem counts_pure (result : α) : counts (pure result) = [] := rfl

@[simp]
theorem counts_warn (members : Nat) : counts (warn members) = [members] := rfl

theorem Appends.counts_bind {inspect : Inspect α} {next : α → Inspect β} (h : Appends inspect)
    (hnext : Appends (next inspect.value)) :
    (inspect >>= next).counts = inspect.counts ++ (next inspect.value).counts :=
  (h.gives.bind hnext.gives).counts_eq

@[simp]
theorem counts_bindPure (inspect : Inspect α) (f : α → β) :
    (inspect >>= fun result => pure (f result)).counts = inspect.counts := rfl

@[simp]
theorem counts_map (inspect : Inspect α) (f : α → β) : (f <$> inspect).counts = inspect.counts :=
  rfl

/-! ### What every run gives -/

/-- Whatever was found before, the result has the property. -/
def Always (P : α → Prop) (inspect : Inspect α) : Prop := ∀ findings, P (inspect.run findings).1

variable {P : α → Prop} {Q : β → Prop}

theorem always_pure {result : α} (h : P result) : Always P (pure result) := fun _ => h

theorem Always.bind {inspect : Inspect α} {next : α → Inspect β} (h : Always P inspect)
    (hnext : ∀ value, P value → Always Q (next value)) : Always Q (inspect >>= next) :=
  fun findings => hnext _ (h findings) (inspect.run findings).2

theorem Always.imp {inspect : Inspect α} {R : α → Prop} (h : Always P inspect)
    (himp : ∀ value, P value → R value) : Always R inspect :=
  fun findings => himp _ (h findings)

theorem Appends.always {inspect : Inspect α} (h : Appends inspect) (hvalue : P inspect.value) :
    Always P inspect := by
  intro findings
  rw [h.gives]
  exact hvalue

theorem Always.map {inspect : Inspect α} {f : α → β} (h : Always P inspect)
    (hmap : ∀ value, P value → Q (f value)) : Always Q (f <$> inspect) :=
  fun findings => hmap _ (h findings)

theorem Always.and {inspect : Inspect α} {R : α → Prop} (hP : Always P inspect)
    (hR : Always R inspect) : Always (fun value => P value ∧ R value) inspect :=
  fun findings => ⟨hP findings, hR findings⟩

theorem Always.runAt {inspect : Inspect α} (h : Always P inspect) (location : String) :
    P (runAt location inspect).1 :=
  h _

end Inspect
end ApiTypings
