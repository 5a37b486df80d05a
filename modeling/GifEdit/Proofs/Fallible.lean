/-
  GifEdit.Proofs.Fallible
  ───────────────────────
  **STEPS THAT MAY FAIL.**

  Checks, readers and decoders stop at the first step that fails.  So a row of steps
  succeeds exactly if each of them does, and the lemmas below take a success apart into
  those of its steps.
-/
namespace GifEdit

variable {ε β γ : Type}

@[simp]
theorem ok_bind {b : β} {f : β → Except ε γ} : (.ok b >>= f) = f b := rfl

@[simp]
theorem pure_eq_ok {b : β} : (pure b : Except ε β) = .ok b := rfl

theorem isOk_iff {x : Except ε β} : x.isOk = true ↔ ∃ b, x = .ok b := by
  cases x with
  | error e => exact ⟨nofun, nofun⟩
  | ok b => exact ⟨fun _ => ⟨b, rfl⟩, fun _ => rfl⟩

/-- Two steps in a row succeed if both do. -/
theorem bind_eq_ok {x : Except ε β} {f : β → Except ε γ} {c : γ} :
    (x >>= f) = .ok c ↔ ∃ b, x = .ok b ∧ f b = .ok c := by
  cases x with
  | error e => simp [bind, Except.bind]
  | ok b => simp [bind, Except.bind]

/-- A check before a step. -/
theorem check_bind_eq_ok {x : Except ε Unit} {y : Except ε γ} {c : γ} :
    (x >>= fun _ => y) = .ok c ↔ x = .ok () ∧ y = .ok c := by
  rw [bind_eq_ok]
  exact ⟨fun ⟨_, hx, hy⟩ => ⟨hx, hy⟩, fun ⟨hx, hy⟩ => ⟨(), hx, hy⟩⟩

/-- A step whose result is put to its place. -/
theorem bind_pure_eq_ok {x : Except ε β} {f : β → γ} {c : γ} :
    (do return f (← x)) = Except.ok c ↔ ∃ b, x = .ok b ∧ f b = c := by
  rw [bind_eq_ok]
  exact exists_congr fun b => and_congr_right fun _ => ⟨Except.ok.inj, congrArg Except.ok⟩

/-- What is done to a result leaves it a result. -/
theorem map_eq_ok {x : Except ε β} {f : β → γ} {c : γ} :
    x.map f = .ok c ↔ ∃ b, x = .ok b ∧ f b = c := by
  cases x with
  | error e => simp [Except.map]
  | ok b => simp [Except.map]

/-- What is said of a failure makes none. -/
theorem mapError_eq_ok {δ : Type} {x : Except ε β} {f : ε → δ} {b : β} :
    x.mapError f = .ok b ↔ x = .ok b := by
  cases x with
  | error e => exact ⟨nofun, nofun⟩
  | ok a =>
      constructor
      · intro h
        exact congrArg Except.ok (Except.ok.inj h)
      · intro h
        exact congrArg Except.ok (Except.ok.inj h)

end GifEdit
