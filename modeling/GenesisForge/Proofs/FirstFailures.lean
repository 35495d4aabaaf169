import Mathlib.Data.List.Forall2

/-!
# First failures

A computation made of steps fails at the first step that fails.  Its failures
are listed in the order of the steps, each of them there or not, and how a
computation is put together tells how its list is.
-/

namespace GenesisForge

section

variable {ε ι α β : Type}

theorem bind_eq_ok_iff
    {computed : Except ε α} {next : α → Except ε β} {b : β} :
    computed >>= next = .ok b ↔ ∃ a, computed = .ok a ∧ next a = .ok b := by
  cases computed with
  | error e => simp [Bind.bind, Except.bind]
  | ok a => simp [Bind.bind, Except.bind]

theorem bind_eq_error_iff
    {computed : Except ε α} {next : α → Except ε β} {e : ε} :
    computed >>= next = .error e ↔
      computed = .error e ∨ ∃ a, computed = .ok a ∧ next a = .error e := by
  cases computed with
  | error d => simp [Bind.bind, Except.bind]
  | ok a => simp [Bind.bind, Except.bind]

theorem map_eq_ok_iff
    {computed : Except ε α} {f : α → β} {b : β} :
    computed.map f = .ok b ↔ ∃ a, computed = .ok a ∧ f a = b := by
  cases computed <;> simp [Except.map]

theorem map_eq_error_iff
    {computed : Except ε α} {f : α → β} {e : ε} :
    computed.map f = .error e ↔ computed = .error e := by
  cases computed <;> simp [Except.map]

theorem eq_ok_of_mapError_eq_ok
    {computed : Except ε α} {f : ε → ι} {a : α} (hmapped : computed.mapError f = .ok a) :
    computed = .ok a := by
  cases computed with
  | error e => cases hmapped
  | ok b =>
      cases hmapped
      rfl

theorem mapM_cons_eq_bind
    (step : α → Except ε β) (a : α) (rest : List α) :
    (a :: rest).mapM step = step a >>= fun b => (rest.mapM step).map (b :: ·) := by
  rw [List.mapM_cons]
  rfl

theorem forall₂_of_mapM_eq_ok
    {step : α → Except ε β} {l : List α} {results : List β} (hmapM : l.mapM step = .ok results) :
    List.Forall₂ (fun a b => step a = .ok b) l results := by
  induction l generalizing results with
  | nil =>
      cases hmapM
      exact .nil
  | cons a rest ih =>
      rw [mapM_cons_eq_bind] at hmapM
      obtain ⟨b, hstep, hrest⟩ := bind_eq_ok_iff.mp hmapM
      obtain ⟨bs, hresults, rfl⟩ := map_eq_ok_iff.mp hrest
      exact .cons hstep (ih hresults)

theorem findSome?_id_cons
    (failure : Option ε) (rest : List (Option ε)) :
    (failure :: rest).findSome? id = failure.or (rest.findSome? id) := by
  cases failure <;> simp

/-- The computation fails if a failure of the list is there, and with the first
of those. -/
def FailsWith (computed : Except ε α) (failures : List (Option ε)) : Prop :=
  ∀ e, computed = .error e ↔ failures.findSome? id = some e

namespace FailsWith

theorem ok (a : α) : FailsWith (ε := ε) (.ok a) [] := by
  intro e
  simp

theorem single_iff
    {computed : Except ε α} {failure : Option ε} :
    FailsWith computed [failure] ↔ ∀ e, computed = .error e ↔ failure = some e := by
  simp [FailsWith]

/-- A check fails where it refuses and nowhere else. -/
theorem check
    {computed : Except ε α} {refused : Prop} [Decidable refused] {e : ε}
    (hrefused : refused → computed = .error e) (haccepted : ¬ refused → ∃ a, computed = .ok a) :
    FailsWith computed [if refused then some e else none] := by
  rw [single_iff]
  intro d
  by_cases h : refused
  · simp [hrefused h, h]
  · obtain ⟨a, ha⟩ := haccepted h
    simp [ha, h]

theorem isOk_iff
    {computed : Except ε α} {failures : List (Option ε)} (hfails : FailsWith computed failures) :
    (∃ a, computed = .ok a) ↔ failures.findSome? id = none := by
  cases hcomputed : computed with
  | ok a =>
      have hnone : failures.findSome? id = none := by
        rw [Option.eq_none_iff_forall_ne_some]
        intro e he
        have herror := (hfails e).mpr he
        rw [hcomputed] at herror
        cases herror
      simp [hnone]
  | error e =>
      simp [(hfails e).mp hcomputed]

theorem mem_of_eq_error
    {computed : Except ε α} {failures : List (Option ε)} (hfails : FailsWith computed failures)
    {e : ε} (herror : computed = .error e) : some e ∈ failures := by
  obtain ⟨failure, hmem, hfailure⟩ := List.exists_of_findSome?_eq_some ((hfails e).mp herror)
  rw [← hfailure]
  exact hmem

theorem congr
    {computed : Except ε α} {failures others : List (Option ε)}
    (hfails : FailsWith computed failures)
    (hfirst : failures.findSome? id = others.findSome? id) : FailsWith computed others := by
  intro e
  rw [hfails e, hfirst]

theorem bind
    {computed : Except ε α} {next : α → Except ε β} {first later : List (Option ε)}
    (hfirst : FailsWith computed first)
    (hlater : ∀ a, computed = .ok a → FailsWith (next a) later) :
    FailsWith (computed >>= next) (first ++ later) := by
  intro e
  rw [List.findSome?_append]
  cases hcomputed : computed with
  | error d =>
      have hd := (hfirst d).mp hcomputed
      simp [Bind.bind, Except.bind, hd]
  | ok a =>
      have hnone := hfirst.isOk_iff.mp ⟨a, hcomputed⟩
      rw [hnone, Option.none_or]
      exact hlater a hcomputed e

/-- A step that never fails adds no failure to those behind it. -/
theorem bind_of_nil
    {computed : Except ε α} {next : α → Except ε β} {later : List (Option ε)}
    (hfirst : FailsWith computed []) (hlater : ∀ a, computed = .ok a → FailsWith (next a) later) :
    FailsWith (computed >>= next) later :=
  hfirst.bind hlater

theorem bind_nil
    {computed : Except ε α} {next : α → Except ε β} {first : List (Option ε)}
    (hfirst : FailsWith computed first) (hlater : ∀ a, computed = .ok a → FailsWith (next a) []) :
    FailsWith (computed >>= next) first := by
  rw [← List.append_nil first]
  exact hfirst.bind hlater

theorem map
    {computed : Except ε α} {failures : List (Option ε)} (hfails : FailsWith computed failures)
    (f : α → β) : FailsWith (computed.map f) failures := by
  intro e
  rw [← hfails e, map_eq_error_iff]

theorem mapError
    {computed : Except ε α} {failures : List (Option ε)} (hfails : FailsWith computed failures)
    (f : ε → ι) : FailsWith (computed.mapError f) (failures.map (Option.map f)) := by
  intro e
  have hfirst : (failures.map (Option.map f)).findSome? id = (failures.findSome? id).map f := by
    rw [List.findSome?_map, List.map_findSome?]
    rfl
  rw [hfirst]
  cases hcomputed : computed with
  | error d => simp [Except.mapError, (hfails d).mp hcomputed]
  | ok a => simp [Except.mapError, hfails.isOk_iff.mp ⟨a, hcomputed⟩]

/-- Steps over a list fail at the first element that fails. -/
theorem mapM
    {step : α → Except ε β} {failure : α → Option ε} {l : List α}
    (hstep : ∀ a ∈ l, FailsWith (step a) [failure a]) :
    FailsWith (l.mapM step) [l.findSome? failure] := by
  induction l with
  | nil =>
      rw [single_iff]
      intro e
      simp [Pure.pure, Except.pure]
  | cons a rest ih =>
      have hrest := ih fun b hb => hstep b (List.mem_cons_of_mem a hb)
      have hboth := (hstep a List.mem_cons_self).bind fun b _ => hrest.map (b :: ·)
      intro e
      rw [mapM_cons_eq_bind, hboth e]
      cases hfailure : failure a <;> simp [hfailure]

end FailsWith

end

end GenesisForge
