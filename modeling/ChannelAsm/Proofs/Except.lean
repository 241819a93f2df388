import Mathlib.Data.List.Forall2

/-!
# Computations that may fail

How the two parts of a computation in `Except` account for its result. A bind succeeds when both
parts do and fails with the first fault; a traversal with `mapM` gives its items' results in order,
or the fault of the leftmost item that has one. `FailsOnly` bounds the faults of a computation.
-/

namespace ChannelAsm

universe u v

variable {ε : Type u} {α β : Type v}

/-- A computation that is seen to succeed has a result. -/
theorem exists_of_isOk {computation : Except ε α} (h : computation.isOk = true) :
    ∃ value, computation = .ok value := by
  cases computation with
  | error fault => cases h
  | ok value => exact ⟨value, rfl⟩

/-- A computation whose result is seen to pass a check has such a result. -/
theorem exists_of_any {computation : Except ε α} {check : α → Bool}
    (h : computation.toOption.any check = true) :
    ∃ value, computation = .ok value ∧ check value = true := by
  cases computation with
  | error fault => cases h
  | ok value => exact ⟨value, rfl, h⟩

/-- A mapped computation succeeds exactly with the image of a result. -/
theorem map_eq_ok_iff {computation : Except ε α} {f : α → β} {result : β} :
    computation.map f = .ok result ↔ ∃ value, computation = .ok value ∧ f value = result := by
  cases computation <;> simp [Except.map]

/-- A mapped computation fails exactly with the fault of the computation. -/
theorem map_eq_error_iff {computation : Except ε α} {f : α → β} {fault : ε} :
    computation.map f = .error fault ↔ computation = .error fault := by
  cases computation <;> simp [Except.map]

/-- A bind succeeds exactly when its parts succeed one after the other. -/
theorem bind_eq_ok_iff {computation : Except ε α} {next : α → Except ε β} {result : β} :
    computation >>= next = .ok result ↔
      ∃ value, computation = .ok value ∧ next value = .ok result := by
  cases computation <;> simp [bind, Except.bind]

/-- A bind fails exactly when its first part fails, or the second does after it. -/
theorem bind_eq_error_iff {computation : Except ε α} {next : α → Except ε β} {fault : ε} :
    computation >>= next = .error fault ↔
      computation = .error fault ∨
        ∃ value, computation = .ok value ∧ next value = .error fault := by
  cases computation <;> simp [bind, Except.bind]

/-- The computation has no fault but allowed ones. -/
def FailsOnly (allowed : ε → Prop) (computation : Except ε α) : Prop :=
  ∀ fault, computation = .error fault → allowed fault

/-- A value has no fault. -/
theorem failsOnly_ok {allowed : ε → Prop} (value : α) :
    FailsOnly allowed (.ok value : Except ε α) := by
  intro fault h
  cases h

/-- A fault that is allowed is the only one. -/
theorem failsOnly_error {allowed : ε → Prop} {fault : ε} (h : allowed fault) :
    FailsOnly allowed (.error fault : Except ε α) := by
  intro other hother
  cases hother
  exact h

/-- More faults may be allowed. -/
theorem FailsOnly.mono {allowed others : ε → Prop} {computation : Except ε α}
    (h : FailsOnly allowed computation) (hothers : ∀ fault, allowed fault → others fault) :
    FailsOnly others computation :=
  fun fault hfault => hothers fault (h fault hfault)

/-- A traversal succeeds exactly when it succeeds on every item, and gives the results in order. -/
theorem mapM_eq_ok_iff {f : α → Except ε β} {items : List α} {results : List β} :
    items.mapM f = .ok results ↔
      List.Forall₂ (fun item result => f item = .ok result) items results := by
  induction items generalizing results with
  | nil => simp [pure, Except.pure, eq_comm]
  | cons item items ih =>
      rw [List.mapM_cons, bind_eq_ok_iff, List.forall₂_cons_left_iff]
      constructor
      · intro h
        obtain ⟨result, hitem, hrest⟩ := h
        obtain ⟨rest, hitems, hresults⟩ := bind_eq_ok_iff.mp hrest
        exact ⟨result, rest, hitem, ih.mp hitems, (Except.ok.inj hresults).symm⟩
      · intro h
        obtain ⟨result, rest, hitem, hitems, rfl⟩ := h
        exact ⟨result, hitem, bind_eq_ok_iff.mpr ⟨rest, ih.mpr hitems, rfl⟩⟩

/-- A traversal fails exactly with the fault of an item behind items on which it succeeds. -/
theorem mapM_eq_error_iff {f : α → Except ε β} {items : List α} {fault : ε} :
    items.mapM f = .error fault ↔
      ∃ before item after, items = before ++ item :: after ∧
        (∀ earlier ∈ before, ∃ result, f earlier = .ok result) ∧ f item = .error fault := by
  induction items with
  | nil => simp [pure, Except.pure]
  | cons item items ih =>
      rw [List.mapM_cons, bind_eq_error_iff]
      constructor
      · intro h
        rcases h with hitem | ⟨result, hitem, hrest⟩
        · exact ⟨[], item, items, rfl, by simp, hitem⟩
        · rcases bind_eq_error_iff.mp hrest with hitems | ⟨_, _, hpure⟩
          · obtain ⟨before, other, after, rfl, hbefore, hother⟩ := ih.mp hitems
            refine ⟨item :: before, other, after, rfl, ?_, hother⟩
            intro earlier hearlier
            rcases List.mem_cons.mp hearlier with rfl | hearlier
            · exact ⟨result, hitem⟩
            · exact hbefore earlier hearlier
          · cases hpure
      · intro h
        obtain ⟨before, other, after, hsplit, hbefore, hother⟩ := h
        -- Either the item itself fails, or it is the first of those before the one that does.
        cases before with
        | nil =>
            obtain ⟨rfl, -⟩ := List.cons.inj hsplit
            exact .inl hother
        | cons first before =>
            obtain ⟨rfl, rfl⟩ := List.cons.inj hsplit
            obtain ⟨result, hfirst⟩ := hbefore item List.mem_cons_self
            refine .inr ⟨result, hfirst, bind_eq_error_iff.mpr (.inl (ih.mpr ?_))⟩
            exact ⟨before, other, after, rfl,
              fun earlier hearlier => hbefore earlier (List.mem_cons_of_mem _ hearlier), hother⟩

end ChannelAsm
